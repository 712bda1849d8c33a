import TegraHwc.Tegra.CursorMoved

/-!
# TegraHwc — the pixels of the pointer

`Show` of `tegra/CursorUnit.cpp` with the pixels followed: a sprite's buffer is copied
into the slot the unit does not scan, and the unit then scans that one. A sprite in blocks
is laid flat by the engine first, where there is one, and the wait for it is given up
after a tenth of a second. A buffer's pixels may be redrawn at any time, and keep the
buffer's id; what a pending fence is to bring counts as drawn, since the lock and the
engine wait for it.

Where the composer asks the engine for a slot and has no engine, it calls through
nothing: the call has no answer.

## Results

* `show_unit`     — without its pixels, this is the unit of the pointer's duty.
* `stands_iff`    — when a sprite shown is what its buffer holds.
* `cursor_shows_iff` — and when that is so at every call of a run.
-/

namespace TegraHwc

open Runs

/-- Pixels by row and column. -/
abbrev Pixels := Nat → Nat → UInt32

/-- A buffer of the framework's: how it is arranged, the words a processor reads there,
and, of one in blocks, what an engine reads. `pitch` is in bytes. -/
structure SpriteBuffer where
  inBlocks : Bool := false
  pitch : Nat := 0
  words : Nat → UInt32 := fun _ => 0
  laidFlat : Pixels := fun _ _ => 0

/-- The pixels the buffer holds. -/
def SpriteBuffer.held (b : SpriteBuffer) : Pixels := fun row col =>
  if b.inBlocks then b.laidFlat row col else b.words (row * (b.pitch / 4) + col)

/-- What comes with a call of `Show` from outside: what the zone gives for a slot, whether
the allocator tells how the sprite is arranged, the row length of the flat copy the engine
makes and what is read of one it is late with, whether the sprite can be locked, and
whether the kernel takes the image and the place. -/
structure ShowAnswers where
  given : Option (Nat × Int) := none
  described : Bool := true
  flattened : Option Nat := none
  late : Option Pixels := none
  locked : Bool := true
  imageTaken : Bool := true
  pointTaken : Bool := true

/-- `__builtin_bswap32`. -/
def bswap32 (w : UInt32) : UInt32 :=
  let bytes : UInt32 := 0xff00
  (w <<< 24) ||| ((w &&& bytes) <<< 8) ||| ((w >>> 8) &&& bytes) ||| (w >>> 24)

/-- `CursorUnit`, with its pixels: whether it was claimed with an engine, what its slots'
memory holds, which of them the unit scans, and the framework's buffers by handle. -/
structure CursorSprite where
  engine : Bool
  unit : CursorUnit := {}
  memory : Bool → Pixels := fun _ _ _ => 0
  scanned : Option Bool := none
  buffers : Nat → SpriteBuffer

/-- Whether an upload comes to the copy. -/
def CursorUnit.copies (u : CursorUnit) (c : Cursor) (a : UploadAnswers) : Bool :=
  let side := sideFor c.width c.height
  decide (c.width ≤ c.stridePx) && decide (side ≠ 0) && (slotFor (u.slots !u.at_) side a).isSome &&
    (strideOf c.stridePx a).isSome && readable a

namespace CursorSprite

variable (s : CursorSprite) (c : Cursor) (positionFresh : Bool) (a : ShowAnswers)

/-- What `DescribeSurface` says of the sprite. -/
def layoutOf : SpriteLayout :=
  let b := s.buffers c.handle
  if !a.described then .unknown else if b.inBlocks then .blocks else .pitch b.pitch

/-- The answers of a call, as far as the unit goes by them: no engine lays nothing flat. -/
def uploadAnswers : UploadAnswers :=
  { given := a.given
    layout := s.layoutOf c a
    flattened := if s.engine then a.flattened else none
    locked := a.locked
    imageTaken := a.imageTaken }

/-- The pixels the copy reads. -/
def read : Pixels := fun row col =>
  let b := s.buffers c.handle
  if s.layoutOf c a = .blocks then (a.late.getD b.laidFlat) row col
  else
    let stridePx := (CursorUnit.strideOf c.stridePx (s.uploadAnswers c a)).getD 0
    b.words (row * stridePx + col)

/-- The copy of a sprite in its slot, transparent past the sprite. -/
def copyOf (c : Cursor) (pixels : Pixels) : Pixels := fun row col =>
  if row < c.height ∧ col < c.width then bswap32 (pixels row col) else 0

/-- A slot has to be cut anew, and there is no engine to cut it. -/
def asksNone : Bool :=
  let side := CursorUnit.sideFor c.width c.height
  !s.engine && decide (c.width ≤ c.stridePx) && decide (side ≠ 0) &&
    ((s.unit.slots !s.unit.at_).filter fun slot => slot.side = side).isNone

/-- `UploadLocked`. -/
def uploadLocked : Option (Bool × CursorSprite) :=
  if s.asksNone c then none
  else
    let upload := s.uploadAnswers c a
    let slot := !s.unit.at_
    let (uploaded, unit) := s.unit.uploadLocked c upload
    some (uploaded, { s with
      unit := unit
      memory :=
        if s.unit.copies c upload then Function.update s.memory slot (copyOf c (s.read c a))
        else s.memory
      scanned := if uploaded then some slot else s.scanned })

/-- The upload of `Show`. -/
def load : Option (Bool × CursorSprite) :=
  if c.id ≠ s.unit.imageId ∨ s.unit.imageId = 0 then
    (s.uploadLocked c a).map fun (uploaded, s) =>
      (uploaded, if uploaded then { s with unit := { s.unit with imageId := c.id } } else s)
  else some (true, s)

/-- `Show`. -/
def show_ : Option (Bool × CursorSprite) :=
  let place := s.unit.placeOf c positionFresh
  if s.unit.visible ∧ c.id = s.unit.imageId ∧ place = (s.unit.x, s.unit.y) then some (true, s)
  else
    (s.load c a).map fun (loaded, s) =>
      if loaded then
        let (pointed, unit) := s.unit.pointLocked place.1 place.2 true a.pointTaken
        if pointed then
          (true, { s with unit := { unit with visible := true, x := place.1, y := place.2 } })
        else (false, { s with unit := unit })
      else (false, s)

/-- What is asked of the unit, and what the framework draws. -/
inductive Action where
  | show_ (point : Cursor) (positionFresh : Bool) (a : ShowAnswers)
  | move (x y : Int) (taken : Bool)
  | hide (taken : Bool)
  | redraw (handle : Nat) (drawn : SpriteBuffer)

/-- What a call of `Show` was asked, its answer, none where it called through nothing, and
what it left. -/
structure Report where
  point : Cursor
  held : Pixels
  place : Int × Int
  answer : Option Bool
  after : CursorSprite

/-- The report of a call. -/
def report : Report :=
  { point := c
    held := (s.buffers c.handle).held
    place := s.unit.placeOf c positionFresh
    answer := (s.show_ c positionFresh a).map (·.1)
    after := ((s.show_ c positionFresh a).map (·.2)).getD s }

/-- One action. -/
def act : Action → CursorSprite
  | .show_ point positionFresh a => (s.report point positionFresh a).after
  | .move x y taken => { s with unit := s.unit.move x y taken }
  | .hide taken => { s with unit := s.unit.hide taken }
  | .redraw handle drawn => { s with buffers := Function.update s.buffers handle drawn }

/-- The unit, run. -/
def machine : Machine CursorSprite Action Report where
  step s action := some (s.act action)
  events s
    | .show_ point positionFresh a => [s.report point positionFresh a]
    | _ => []

/-- `Claim`: the unit as it is granted, with an engine or without. -/
def claim (engine : Bool) (buffers : Nat → SpriteBuffer) : CursorSprite :=
  { engine := engine, buffers := buffers }

end CursorSprite

-- ---------------------------------------------------------------------------
-- What a call is to show
-- ---------------------------------------------------------------------------

namespace CursorSprite

/-- The image the unit scans is these pixels of this sprite. -/
structure Imaged (s : CursorSprite) (c : Cursor) (pixels : Pixels) : Prop where
  flags : s.unit.registers.image.map (·.flags) =
    some ⟨CursorUnit.sideFor c.width c.height, c.premultiplied⟩
  pixels : s.scanned.map s.memory = some (copyOf c pixels)

/-- It is on the panel, at this place as the kernel's sixteen bits have it. -/
structure Placed (s : CursorSprite) (place : Int × Int) : Prop where
  visible : s.unit.registers.visible = true
  x : s.unit.registers.x = CursorUnit.clamped place.1
  y : s.unit.registers.y = CursorUnit.clamped place.2

/-- **What `Show` says is so.** It answers, and only ever yes where there is an engine;
and where it says yes the unit's image is what the buffer holds, at the call's place. -/
structure Report.Holds (r : Report) : Prop where
  answers : r.answer.isSome = true
  engine : r.after.engine = false → r.answer = some false
  shows : r.answer = some true → r.after.Imaged r.point r.held ∧ r.after.Placed r.place

/-- The sprite is uploaded: its id is not the one loaded, or says nothing; and it does not
stand already where it is to stand. -/
def Uploads (s : CursorSprite) (c : Cursor) (positionFresh : Bool) : Prop :=
  ¬(s.unit.visible = true ∧ c.id = s.unit.imageId ∧
      s.unit.placeOf c positionFresh = (s.unit.x, s.unit.y)) ∧
    (c.id ≠ s.unit.imageId ∨ s.unit.imageId = 0)

/-- **A sound call.** A sprite that has a size comes to a unit with an engine; and of a
sprite that can be shown, what the copy reads is what the buffer holds, or, where none is
made, the image loaded is. -/
def SoundCall (s : CursorSprite) (c : Cursor) (positionFresh : Bool) (a : ShowAnswers) : Prop :=
  (s.engine = false → c.stridePx < c.width ∨ CursorUnit.sideFor c.width c.height = 0) ∧
    (s.unit.Showable c positionFresh (s.uploadAnswers c a) a.pointTaken →
      (s.Uploads c positionFresh →
          copyOf c (s.read c a) = copyOf c (s.buffers c.handle).held) ∧
        (¬s.Uploads c positionFresh → s.Imaged c (s.buffers c.handle).held))

/-- Every call is sound, and whatever else happens is. -/
def Sound (s : CursorSprite) : Action → Prop
  | .show_ point positionFresh a => s.SoundCall point positionFresh a
  | _ => True

-- ---------------------------------------------------------------------------
-- The unit without its pixels
-- ---------------------------------------------------------------------------

variable {s s' : CursorSprite} {c : Cursor} {positionFresh answer : Bool} {a : ShowAnswers}

theorem uploadLocked_unit (h : s.uploadLocked c a = some (answer, s')) :
    s.unit.uploadLocked c (s.uploadAnswers c a) = (answer, s'.unit) := by
  unfold uploadLocked at h
  split at h
  · cases h
  · obtain ⟨rfl, rfl⟩ := Prod.mk.inj (Option.some.inj h)
    rfl

theorem load_unit (h : s.load c a = some (answer, s')) :
    s.unit.load c (s.uploadAnswers c a) = (answer, s'.unit) := by
  unfold load at h
  unfold CursorUnit.load
  split at h
  · rename_i hNew
    rw [if_pos hNew]
    obtain ⟨⟨uploaded, t⟩, hUploaded, hSame⟩ := Option.map_eq_some_iff.mp h
    obtain ⟨rfl, rfl⟩ := Prod.mk.inj hSame
    rw [uploadLocked_unit hUploaded]
    cases uploaded <;> rfl
  · rename_i hLoaded
    rw [if_neg hLoaded]
    obtain ⟨rfl, rfl⟩ := Prod.mk.inj (Option.some.inj h)
    rfl

/-- **Without its pixels, the call is the unit's.** -/
theorem show_unit (h : s.show_ c positionFresh a = some (answer, s')) :
    s.unit.show_ c positionFresh (s.uploadAnswers c a) a.pointTaken = (answer, s'.unit) := by
  unfold show_ at h
  unfold CursorUnit.show_
  simp only at h ⊢
  split at h
  · rename_i hStands
    rw [if_pos hStands]
    obtain ⟨rfl, rfl⟩ := Prod.mk.inj (Option.some.inj h)
    rfl
  · rename_i hMoves
    rw [if_neg hMoves]
    obtain ⟨⟨loaded, t⟩, hLoad, hSame⟩ := Option.map_eq_some_iff.mp h
    rw [load_unit hLoad]
    simp only at hSame ⊢
    split at hSame
    · rename_i hLoaded
      rw [if_pos hLoaded]
      split at hSame
      · rename_i hPointed
        rw [if_pos hPointed]
        obtain ⟨rfl, rfl⟩ := Prod.mk.inj hSame
        rfl
      · rename_i hRefused
        rw [if_neg hRefused]
        obtain ⟨rfl, rfl⟩ := Prod.mk.inj hSame
        rfl
    · rename_i hRefused
      rw [if_neg hRefused]
      obtain ⟨rfl, rfl⟩ := Prod.mk.inj hSame
      rfl

/-- A call has no answer where an upload asks an engine that is not there. -/
theorem show_eq_none :
    s.show_ c positionFresh a = none ↔ s.Uploads c positionFresh ∧ s.asksNone c = true := by
  unfold show_ load uploadLocked Uploads
  simp only
  split
  · rename_i hStands
    simp [hStands]
  · rename_i hMoves
    rw [Option.map_eq_none_iff]
    split
    · rename_i hNew
      rw [Option.map_eq_none_iff]
      split
      · rename_i hAsks
        simp [hMoves, hNew, hAsks]
      · rename_i hAsks
        simp [hAsks]
    · rename_i hLoaded
      simp [hLoaded]

end CursorSprite

-- ---------------------------------------------------------------------------
-- What a call leaves
-- ---------------------------------------------------------------------------

namespace CursorUnit

variable {u : CursorUnit} {c : Cursor} {a : UploadAnswers}

/-- An upload that succeeds comes to the copy. -/
theorem copies_of_loadable (h : Loadable u c a) : u.copies c a = true := by
  unfold copies
  simp [h.whole, h.fits, h.slot, h.arranged, h.readable]

theorem uploadLocked_image (h : (u.uploadLocked c a).1 = true) :
    (u.uploadLocked c a).2.registers.image.map (·.flags) =
      some ⟨sideFor c.width c.height, c.premultiplied⟩ := by
  obtain ⟨hWhole, hFits, hSlot, hArranged, hReadable, hLit, hTaken⟩ := uploadLocked_iff.mp h
  obtain ⟨slot, hSlot⟩ := Option.isSome_iff_exists.mp hSlot
  unfold uploadLocked
  simp only
  rw [if_neg (not_or.mpr ⟨Nat.not_lt.mpr hWhole, hFits⟩), hSlot]
  simp only
  rw [if_neg (by simp [Option.isSome_iff_ne_none.mp hArranged, hReadable])]
  unfold CursorRegisters.setCursorImage
  rw [if_pos (Bool.and_eq_true_iff.mpr ⟨hLit, hTaken⟩)]
  rfl

theorem pointLocked_image {x y : Int} {visible taken : Bool} :
    (u.pointLocked x y visible taken).2.registers.image = u.registers.image := by
  unfold pointLocked CursorRegisters.setCursor
  cases u.registers.lit && taken <;> rfl

/-- Two units have the same place, their own and the registers'. -/
def SamePlace (u u' : CursorUnit) : Prop :=
  u'.registers.x = u.registers.x ∧ u'.registers.y = u.registers.y ∧ u'.x = u.x ∧ u'.y = u.y

theorem setCursorImage_place {r : CursorRegisters} {image : CursorImage} {taken : Bool} :
    (r.setCursorImage image taken).2.x = r.x ∧ (r.setCursorImage image taken).2.y = r.y := by
  unfold CursorRegisters.setCursorImage
  split <;> exact ⟨rfl, rfl⟩

theorem uploadLocked_place : SamePlace u (u.uploadLocked c a).2 := by
  unfold uploadLocked
  simp only
  split
  · exact ⟨rfl, rfl, rfl, rfl⟩
  split
  · exact ⟨rfl, rfl, rfl, rfl⟩
  split
  · exact ⟨rfl, rfl, rfl, rfl⟩
  split
  · exact ⟨setCursorImage_place.1, setCursorImage_place.2, rfl, rfl⟩
  · exact ⟨setCursorImage_place.1, setCursorImage_place.2, rfl, rfl⟩

/-- Loading a sprite moves nothing. -/
theorem load_place : SamePlace u (u.load c a).2 := by
  unfold load
  simp only
  split
  · split
    · exact uploadLocked_place
    · exact uploadLocked_place
  · exact ⟨rfl, rfl, rfl, rfl⟩

/-- What holds of a unit whose head stays lit: the registers have its place, and show what
it believes shown. -/
structure Steady (u : CursorUnit) : Prop where
  lit : u.registers.lit = true
  matched : u.Matched
  believed : u.visible = true → u.registers.visible = true

theorem steady_show {positionFresh pointTaken : Bool} (h : Steady u) :
    Steady (u.show_ c positionFresh a pointTaken).2 ∧
      ((u.show_ c positionFresh a pointTaken).1 = true →
        (u.show_ c positionFresh a pointTaken).2.registers.visible = true) := by
  obtain ⟨hLit, hShown, hVisible⟩ := @load_keeps u c a
  obtain ⟨hX, hY, hOwnX, hOwnY⟩ := @load_place u c a
  have hLoaded : Steady (u.load c a).2 := by
    refine ⟨hLit.trans h.lit, fun hOn => ?_, fun hOn => ?_⟩
    · rw [hX, hY, hOwnX, hOwnY]
      exact h.matched (hVisible ▸ hOn)
    · rw [hShown]
      exact h.believed (hVisible ▸ hOn)
  unfold show_
  simp only
  split
  · rename_i hStands
    exact ⟨h, fun _ => h.believed hStands.1⟩
  split
  · by_cases hTaken : (u.load c a).2.registers.lit = true ∧ pointTaken = true
    · obtain ⟨hPointed, hOn, hStillLit, -⟩ := @pointLocked_taken (u.load c a).2
        (u.placeOf c positionFresh).1 (u.placeOf c positionFresh).2 true pointTaken hTaken
      rw [if_pos hPointed]
      exact ⟨⟨hStillLit, fun _ => pointLocked_place hPointed, fun _ => hOn⟩, fun _ => hOn⟩
    · rw [pointLocked_refused hTaken, if_neg Bool.false_ne_true]
      exact ⟨hLoaded, fun h => (nomatch h)⟩
  · exact ⟨hLoaded, fun h => (nomatch h)⟩

theorem steady_move {x y : Int} {taken : Bool} (h : Steady u) : Steady (u.move x y taken) := by
  unfold move
  split
  · rename_i hVisible
    simp only
    by_cases hTaken : u.registers.lit = true ∧ taken = true
    · obtain ⟨hPointed, hOn, hLit, -⟩ := @pointLocked_taken u x y true taken hTaken
      rw [if_pos hPointed]
      exact ⟨hLit, fun _ => pointLocked_place hPointed, fun _ => hOn⟩
    · rw [pointLocked_refused hTaken, if_neg Bool.false_ne_true]
      exact h
  · exact h

theorem steady_hide {taken : Bool} (h : Steady u) : Steady (u.hide taken) := by
  unfold hide
  split
  · exact ⟨pointLocked_lit.trans h.lit, fun hOn => (nomatch hOn), fun hOn => (nomatch hOn)⟩
  · exact h

/-- A hidden unit is moved nowhere, and hidden no further. -/
theorem move_hidden {x y : Int} {taken : Bool} (hHidden : u.visible = false) :
    u.move x y taken = u := by
  unfold move
  exact if_neg (by simp [hHidden])

theorem hide_hidden {taken : Bool} (hHidden : u.visible = false) : u.hide taken = u := by
  unfold hide
  exact if_neg (by simp [hHidden])

end CursorUnit

namespace CursorSprite

variable {s s' : CursorSprite} {c : Cursor} {positionFresh : Bool} {a : ShowAnswers}

/-- A sprite uploaded is the copy read of it. -/
theorem uploadLocked_imaged (h : s.uploadLocked c a = some (true, s')) :
    s'.Imaged c (s.read c a) := by
  have hUnit := uploadLocked_unit h
  have hUploaded : (s.unit.uploadLocked c (s.uploadAnswers c a)).1 = true := by rw [hUnit]
  have hCopies := CursorUnit.copies_of_loadable (CursorUnit.uploadLocked_iff.mp hUploaded)
  refine ⟨?_, ?_⟩
  · have hFlags := CursorUnit.uploadLocked_image hUploaded
    rw [hUnit] at hFlags
    exact hFlags
  · unfold uploadLocked at h
    split at h
    · cases h
    · simp only [hUploaded, hCopies, if_true] at h
      obtain ⟨-, rfl⟩ := Prod.mk.inj (Option.some.inj h)
      simp

/-- An image depends on the registers' image and on what is scanned alone. -/
theorem imaged_congr {s t : CursorSprite} {pixels : Pixels}
    (hImage : t.unit.registers.image = s.unit.registers.image)
    (hScanned : t.scanned.map t.memory = s.scanned.map s.memory) :
    t.Imaged c pixels ↔ s.Imaged c pixels := by
  constructor
  · rintro ⟨hFlags, hPixels⟩
    exact ⟨hImage ▸ hFlags, hScanned ▸ hPixels⟩
  · rintro ⟨hFlags, hPixels⟩
    exact ⟨hImage ▸ hFlags, hScanned ▸ hPixels⟩

/-- The image after a call that says yes: what the copy read, or what was there. -/
theorem show_imaged (h : s.show_ c positionFresh a = some (true, s')) :
    (s.Uploads c positionFresh → s'.Imaged c (s.read c a)) ∧
      (¬s.Uploads c positionFresh → ∀ pixels, s'.Imaged c pixels ↔ s.Imaged c pixels) := by
  unfold Uploads
  unfold show_ at h
  simp only at h
  split at h
  · rename_i hStands
    obtain ⟨-, rfl⟩ := Prod.mk.inj (Option.some.inj h)
    exact ⟨fun hUploads => absurd hStands hUploads.1, fun _ _ => Iff.rfl⟩
  rename_i hMoves
  obtain ⟨⟨loaded, t⟩, hLoad, hSame⟩ := Option.map_eq_some_iff.mp h
  -- the place said, the image is as the loading left it
  have hLoaded : loaded = true ∧ ∀ pixels, s'.Imaged c pixels ↔ t.Imaged c pixels := by
    simp only at hSame
    split at hSame
    · rename_i hLoaded
      split at hSame
      · obtain ⟨-, rfl⟩ := Prod.mk.inj hSame
        exact ⟨hLoaded, fun pixels => imaged_congr CursorUnit.pointLocked_image rfl⟩
      · cases (Prod.mk.inj hSame).1
    · cases (Prod.mk.inj hSame).1
  obtain ⟨rfl, hKept⟩ := hLoaded
  unfold load at hLoad
  split at hLoad
  · rename_i hNew
    obtain ⟨⟨uploaded, r⟩, hUpload, hSame⟩ := Option.map_eq_some_iff.mp hLoad
    obtain ⟨rfl, hSame⟩ := Prod.mk.inj hSame
    rw [if_pos rfl] at hSame
    subst hSame
    refine ⟨fun _ => (hKept _).mpr ?_, fun hNot => absurd ⟨hMoves, hNew⟩ hNot⟩
    have hImaged := uploadLocked_imaged hUpload
    exact ⟨hImaged.flags, hImaged.pixels⟩
  · rename_i hLoaded
    obtain ⟨-, rfl⟩ := Prod.mk.inj (Option.some.inj hLoad)
    exact ⟨fun hUploads => absurd hUploads.2 hLoaded, fun _ => hKept⟩

/-- One image is of one sprite's pixels. -/
theorem imaged_iff_of_imaged {pixels other : Pixels} (h : s.Imaged c pixels) :
    s.Imaged c other ↔ copyOf c pixels = copyOf c other := by
  constructor
  · intro hOther
    exact Option.some.inj (h.pixels.symm.trans hOther.pixels)
  · intro hSame
    exact ⟨h.flags, hSame ▸ h.pixels⟩

-- ---------------------------------------------------------------------------
-- What holds along a run
-- ---------------------------------------------------------------------------

/-- What holds along a run: the unit is steady, and without an engine has nothing
loaded. -/
structure Standing (s : CursorSprite) : Prop where
  steady : s.unit.Steady
  bare : s.engine = false →
    s.unit.visible = false ∧ s.unit.imageId = 0 ∧ ∀ slot, s.unit.slots slot = none

/-- **No engine.** The call of a sprite with no size is refused and leaves all as it was;
any other asks the engine that is not there. -/
theorem show_bare (hStanding : Standing s) (hEngine : s.engine = false) :
    s.show_ c positionFresh a =
      if c.stridePx < c.width ∨ CursorUnit.sideFor c.width c.height = 0 then some (false, s)
      else none := by
  obtain ⟨hHidden, hNothing, hSlots⟩ := hStanding.bare hEngine
  have hAsks : s.asksNone c = true ↔
      ¬(c.stridePx < c.width ∨ CursorUnit.sideFor c.width c.height = 0) := by
    unfold asksNone
    simp [hEngine, hSlots]
  unfold show_ load
  simp only
  rw [if_neg (by simp [hHidden]), if_pos (Or.inr hNothing)]
  unfold uploadLocked
  by_cases hSize : c.stridePx < c.width ∨ CursorUnit.sideFor c.width c.height = 0
  · have hRefused : s.unit.uploadLocked c (s.uploadAnswers c a) = (false, s.unit) := by
      unfold CursorUnit.uploadLocked
      exact if_pos hSize
    have hCopies : s.unit.copies c (s.uploadAnswers c a) = false := by
      unfold CursorUnit.copies
      rcases hSize with hShort | hNone
      · simp [Nat.not_le.mpr hShort]
      · simp [hNone]
    rw [if_neg (by rw [hAsks]; exact not_not_intro hSize), if_pos hSize]
    simp [hRefused, hCopies]
  · rw [if_pos (hAsks.mpr hSize), if_neg hSize]
    rfl

theorem load_engine {loaded : Bool} (h : s.load c a = some (loaded, s')) :
    s'.engine = s.engine := by
  unfold load at h
  split at h
  · obtain ⟨⟨uploaded, t⟩, hUpload, hSame⟩ := Option.map_eq_some_iff.mp h
    have hKept : t.engine = s.engine := by
      unfold uploadLocked at hUpload
      split at hUpload
      · cases hUpload
      · obtain ⟨-, rfl⟩ := Prod.mk.inj (Option.some.inj hUpload)
        rfl
    obtain ⟨-, rfl⟩ := Prod.mk.inj hSame
    cases uploaded <;> exact hKept
  · obtain ⟨-, rfl⟩ := Prod.mk.inj (Option.some.inj h)
    rfl

/-- A call leaves the engine, or the want of one, as it is. -/
theorem show_engine {answer : Bool} (h : s.show_ c positionFresh a = some (answer, s')) :
    s'.engine = s.engine := by
  unfold show_ at h
  simp only at h
  split at h
  · obtain ⟨-, rfl⟩ := Prod.mk.inj (Option.some.inj h)
    rfl
  · obtain ⟨⟨loaded, t⟩, hLoad, hSame⟩ := Option.map_eq_some_iff.mp h
    refine Eq.trans ?_ (load_engine hLoad)
    simp only at hSame
    split at hSame
    · split at hSame
      · obtain ⟨-, rfl⟩ := Prod.mk.inj hSame
        rfl
      · obtain ⟨-, rfl⟩ := Prod.mk.inj hSame
        rfl
    · obtain ⟨-, rfl⟩ := Prod.mk.inj hSame
      rfl

theorem standing_claim {engine : Bool} {buffers : Nat → SpriteBuffer} :
    Standing (claim engine buffers) where
  steady := ⟨rfl, fun hOn => (nomatch hOn), fun hOn => (nomatch hOn)⟩
  bare _ := ⟨rfl, rfl, fun _ => rfl⟩

theorem standing_show {answer : Bool} (hStanding : Standing s)
    (h : s.show_ c positionFresh a = some (answer, s')) : Standing s' := by
  cases hEngine : s.engine with
  | false =>
    rw [show_bare hStanding hEngine] at h
    split at h
    · obtain ⟨-, rfl⟩ := Prod.mk.inj (Option.some.inj h)
      exact hStanding
    · cases h
  | true =>
    obtain ⟨hSteady, -⟩ := @CursorUnit.steady_show s.unit c (s.uploadAnswers c a) positionFresh
      a.pointTaken hStanding.steady
    rw [show_unit h] at hSteady
    refine ⟨hSteady, fun hNone => ?_⟩
    rw [show_engine h, hEngine] at hNone
    cases hNone

/-- Every action keeps what holds along a run. -/
theorem standing_act (action : Action) (hStanding : Standing s) : Standing (s.act action) := by
  cases action with
  | show_ point positionFresh a =>
    show Standing (((s.show_ point positionFresh a).map (·.2)).getD s)
    cases hShow : s.show_ point positionFresh a with
    | none => exact hStanding
    | some r => exact standing_show hStanding hShow
  | move x y taken =>
    refine ⟨CursorUnit.steady_move hStanding.steady, fun hEngine => ?_⟩
    have hBare := hStanding.bare hEngine
    show (s.unit.move x y taken).visible = false ∧ (s.unit.move x y taken).imageId = 0 ∧
      ∀ slot, (s.unit.move x y taken).slots slot = none
    rw [CursorUnit.move_hidden hBare.1]
    exact hBare
  | hide taken =>
    refine ⟨CursorUnit.steady_hide hStanding.steady, fun hEngine => ?_⟩
    have hBare := hStanding.bare hEngine
    show (s.unit.hide taken).visible = false ∧ (s.unit.hide taken).imageId = 0 ∧
      ∀ slot, (s.unit.hide taken).slots slot = none
    rw [CursorUnit.hide_hidden hBare.1]
    exact hBare
  | redraw handle drawn => exact ⟨hStanding.steady, hStanding.bare⟩

-- ---------------------------------------------------------------------------
-- When a call shows what it says
-- ---------------------------------------------------------------------------

/-- A call that says yes leaves the sprite where it was to be. -/
theorem show_placed (hStanding : Standing s)
    (h : s.show_ c positionFresh a = some (true, s')) :
    s'.Placed (s.unit.placeOf c positionFresh) := by
  have hUnit := show_unit h
  have hShown : (s.unit.show_ c positionFresh (s.uploadAnswers c a) a.pointTaken).1 = true := by
    rw [hUnit]
  obtain ⟨-, hX, hY⟩ := CursorUnit.show_placed hStanding.steady.matched hShown
  have hVisible := (CursorUnit.steady_show hStanding.steady).2 hShown
  rw [hUnit] at hX hY hVisible
  exact ⟨hVisible, hX, hY⟩

/-- And the sprite is what its buffer holds just where what was read, or what was there,
is. -/
theorem stands_iff (hStanding : Standing s)
    (h : s.show_ c positionFresh a = some (true, s')) (pixels : Pixels) :
    s'.Imaged c pixels ∧ s'.Placed (s.unit.placeOf c positionFresh) ↔
      (s.Uploads c positionFresh → copyOf c (s.read c a) = copyOf c pixels) ∧
        (¬s.Uploads c positionFresh → s.Imaged c pixels) := by
  rw [and_iff_left (show_placed hStanding h)]
  obtain ⟨hNew, hOld⟩ := show_imaged h
  by_cases hUploads : s.Uploads c positionFresh
  · rw [imaged_iff_of_imaged (hNew hUploads)]
    simp [hUploads]
  · rw [hOld hUploads]
    simp [hUploads]

theorem showable_iff {answer : Bool} (h : s.show_ c positionFresh a = some (answer, s')) :
    s.unit.Showable c positionFresh (s.uploadAnswers c a) a.pointTaken ↔ answer = true := by
  have hUnit := show_unit h
  obtain ⟨hShowable, hShown, -⟩ | ⟨hNot, hRefused, -⟩ :=
    @CursorUnit.show_cases s.unit c (s.uploadAnswers c a) positionFresh a.pointTaken
  · rw [hUnit] at hShown
    exact iff_of_true hShowable hShown
  · rw [hUnit] at hRefused
    exact iff_of_false hNot (by simpa using hRefused)

/-- With an engine, every call has an answer. -/
theorem show_answers (hEngine : s.engine = true) :
    ∃ answer s', s.show_ c positionFresh a = some (answer, s') := by
  cases hShow : s.show_ c positionFresh a with
  | none =>
    obtain ⟨-, hAsks⟩ := show_eq_none.mp hShow
    unfold asksNone at hAsks
    simp [hEngine] at hAsks
  | some r => exact ⟨r.1, r.2, rfl⟩

/-- What a report says of a call that has an answer. -/
theorem report_eq {answer : Bool} (h : s.show_ c positionFresh a = some (answer, s')) :
    s.report c positionFresh a =
      ⟨c, (s.buffers c.handle).held, s.unit.placeOf c positionFresh, some answer, s'⟩ := by
  unfold report
  rw [h]
  rfl

/-- **A call is as it says** just where it is sound. -/
theorem report_holds_iff (hStanding : Standing s) :
    (s.report c positionFresh a).Holds ↔ s.SoundCall c positionFresh a := by
  unfold SoundCall
  cases hEngine : s.engine with
  | false =>
    have hShow := @show_bare s c positionFresh a hStanding hEngine
    by_cases hSize : c.stridePx < c.width ∨ CursorUnit.sideFor c.width c.height = 0
    · rw [if_pos hSize] at hShow
      rw [report_eq hShow, showable_iff hShow]
      exact iff_of_true ⟨rfl, fun _ => rfl, fun h => (nomatch h)⟩
        ⟨fun _ => hSize, fun h => (nomatch h)⟩
    · rw [if_neg hSize] at hShow
      refine iff_of_false (fun hHolds => ?_) fun hSound => hSize (hSound.1 rfl)
      have hAnswers := hHolds.answers
      unfold report at hAnswers
      rw [hShow] at hAnswers
      cases hAnswers
  | true =>
    obtain ⟨answer, s', hShow⟩ := @show_answers s c positionFresh a hEngine
    rw [report_eq hShow, showable_iff hShow]
    constructor
    · intro hHolds
      refine ⟨fun hNone => (nomatch hNone), fun hYes => ?_⟩
      subst hYes
      exact (stands_iff hStanding hShow _).mp (hHolds.shows rfl)
    · rintro ⟨-, hSound⟩
      refine ⟨rfl, fun hNone => ?_, fun hYes => ?_⟩
      · have hKept : s'.engine = true := (show_engine hShow).trans hEngine
        rw [hKept] at hNone
        cases hNone
      · obtain rfl := Option.some.inj hYes
        exact (stands_iff hStanding hShow _).mpr (hSound rfl)

/-- What an action reports is as it says just where the action is sound. -/
theorem reports_iff (action : Action) (hStanding : Standing s) :
    (∀ r ∈ machine.events s action, r.Holds) ↔ s.Sound action := by
  cases action with
  | show_ point positionFresh a =>
    exact List.forall_mem_singleton.trans (report_holds_iff hStanding)
  | move x y taken => simp [machine, Sound]
  | hide taken => simp [machine, Sound]
  | redraw handle drawn => simp [machine, Sound]

/-- **The unit shows what it says** at every call of a run, of whatever claim and buffers,
just where every call of the run is sound. -/
theorem cursor_shows_iff (engine : Bool) (buffers : Nat → SpriteBuffer)
    (actions : List Action) :
    (∀ r ∈ machine.trace (claim engine buffers) actions, r.Holds) ↔
      machine.Meets Sound (claim engine buffers) actions := by
  refine Machine.trace_iff_meets_of_total (I := Standing) (fun _ _ => ⟨_, rfl⟩) ?_
    (fun _ action => reports_iff action) standing_claim actions
  intro s action s' hStanding _ hStep
  obtain rfl := Option.some.inj hStep
  exact standing_act action hStanding

/-- A pointer of a few pixels, whose buffer has an id. -/
def arrow : Cursor :=
  { present := true, handle := 1, id := 7, width := 24, height := 24, stridePx := 32 }

/-- A buffer in rows, all of one colour. -/
def painted (word : UInt32) : SpriteBuffer := { pitch := 128, words := fun _ => word }

/-- The sprite shown and hidden, its buffer drawn again, and the sprite shown anew. -/
def redrawnHidden : List Action :=
  [.show_ arrow true { given := some (128, 3) }, .hide true, .redraw 1 (painted 1),
    .show_ arrow true {}]

/-- **An image out of date, and an engine that is not there.** Redrawn while it was hidden,
a sprite comes back with the pixels it had; and without an engine the first sprite shown
has no answer. -/
theorem cursor_out_of_date :
    (¬∀ (buffers : Nat → SpriteBuffer) (actions : List Action),
        ∀ r ∈ machine.trace (claim true buffers) actions, r.Holds) ∧
      ¬∀ (buffers : Nat → SpriteBuffer) (actions : List Action),
        ∀ r ∈ machine.trace (claim false buffers) actions, r.Holds := by
  refine ⟨fun h => ?_, fun h => ?_⟩
  · have hHolds := h (fun _ => painted 0) redrawnHidden _
      (List.mem_cons_of_mem _ List.mem_cons_self)
    have hPixels := (hHolds.shows rfl).1.pixels
    have hCorner := congrArg (fun pixels => pixels.map fun p => p 0 0) hPixels
    revert hCorner
    decide
  · have hHolds := h (fun _ => painted 0) [.show_ arrow true {}] _ List.mem_cons_self
    have hAnswers := hHolds.answers
    revert hAnswers
    decide

end CursorSprite

end TegraHwc
