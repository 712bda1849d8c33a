import Mathlib.Logic.Function.Basic
import TegraHwc.Lib.Runs

/-!
# TegraHwc — the hardware's cursor

`tegra/CursorUnit.cpp`, and what `tegra/TegraAtomicStateManager.cpp` does with
it: the step of `Execute` that shows the pointer or hides it, `MoveCursor` and
`SetPowered`. The unit draws independently of frames, so what stands on the
panel is what its registers hold, whatever the composer believes.

The registers are the kernel's and stand behind the unit's descriptor; each
call that writes them may be refused, and a dark head refuses all. The pixels
are not followed: a sprite is its handle. A frame refused before it comes to
the pointer's step touches nothing here, and neither does its flip after; a
head whose cursor another descriptor holds has no unit, and nothing to say.
-/

namespace TegraHwc

open Runs

/-- The flags of a cursor's image: its side, and whether its colours are
premultiplied. -/
structure CursorFlags where
  side : Nat := 0
  premultiplied : Bool := false
  deriving DecidableEq, Repr

/-- The image of the cursor's registers, its memory by descriptor. -/
structure CursorImage where
  buffId : Int
  flags : CursorFlags
  deriving DecidableEq, Repr

/-- The registers of the controller's cursor. -/
structure CursorRegisters where
  lit : Bool := true
  image : Option CursorImage := none
  x : Int := 0
  y : Int := 0
  visible : Bool := false
  deriving DecidableEq, Repr

namespace CursorRegisters

/-- `TEGRA_DC_EXT_SET_CURSOR_IMAGE`. -/
def setCursorImage (r : CursorRegisters) (image : CursorImage) (taken : Bool) :
    Bool × CursorRegisters :=
  if r.lit && taken then (true, { r with image := some image }) else (false, r)

/-- `TEGRA_DC_EXT_SET_CURSOR`. -/
def setCursor (r : CursorRegisters) (x y : Int) (visible taken : Bool) : Bool × CursorRegisters :=
  if r.lit && taken then (true, { r with x := x, y := y, visible := visible }) else (false, r)

/-- The head is lit or put out. Dark it shows nothing, and coming back it
remembers nothing. -/
def setPanelPowered (r : CursorRegisters) (powered : Bool) : CursorRegisters :=
  if powered then { r with lit := true } else { lit := false }

end CursorRegisters

/-- `TegraAtomicRequest::Cursor`: what a frame has the unit show. -/
structure Cursor where
  present : Bool := false
  handle : Nat := 0
  id : Nat := 0
  width : Nat := 0
  height : Nat := 0
  stridePx : Nat := 0
  premultiplied : Bool := true
  x : Int := 0
  y : Int := 0
  seq : Nat := 0
  deriving DecidableEq, Repr

/-- A slot's buffer: its memory's descriptor, its side, and the sprite last
copied into it. -/
structure Slot where
  memFd : Int
  side : Nat
  sprite : Option Nat := none
  deriving DecidableEq, Repr

/-- How a sprite's memory is arranged, as far as the allocator tells. -/
inductive SpriteLayout where
  | unknown
  | pitch (bytes : Nat)
  | blocks
  deriving DecidableEq, Repr

/-- What comes with an upload from outside: the buffer the zone gives for a
slot, its pitch and descriptor, how the sprite is arranged, the row length of
the copy the engine lays flat, whether the sprite can be read, and whether the
kernel takes the image. -/
structure UploadAnswers where
  given : Option (Nat × Int) := none
  layout : SpriteLayout := .unknown
  flattened : Option Nat := none
  locked : Bool := true
  imageTaken : Bool := true
  deriving DecidableEq, Repr

/-- `CursorUnit`, with the registers behind its descriptor. `at_` names the
slot the hardware was last told of. -/
structure CursorUnit where
  registers : CursorRegisters := {}
  slots : Bool → Option Slot := fun _ => none
  at_ : Bool := false
  imageId : Nat := 0
  imageFlags : CursorFlags := {}
  visible : Bool := false
  x : Int := 0
  y : Int := 0

namespace CursorUnit

/-- `SideFor`: the smallest of the hardware's sizes that holds the sprite. -/
def sideFor (width height : Nat) : Nat :=
  ([32, 64, 128, 256].find? fun side => max width height ≤ side).getD 0

/-- The slot an upload of this side writes: the one kept where it is of that
side, or one cut anew, dense and with a descriptor. -/
def slotFor (kept : Option Slot) (side : Nat) (a : UploadAnswers) : Option Slot :=
  match kept.filter fun slot => slot.side = side with
  | some slot => some slot
  | none =>
    a.given.bind fun (pitch, memFd) =>
      if pitch = side * 4 ∧ 0 ≤ memFd then some { memFd := memFd, side := side } else none

/-- The row length the sprite's pixels are read at: a sprite in blocks is laid
flat by the engine first. -/
def strideOf (stridePx : Nat) (a : UploadAnswers) : Option Nat :=
  match a.layout with
  | .unknown => some stridePx
  | .pitch bytes => some (if 4 ≤ bytes then bytes / 4 else stridePx)
  | .blocks => a.flattened

/-- Whether the sprite's pixels can be read: the flat copy through its standing
mapping, any other sprite by a lock. -/
def readable (a : UploadAnswers) : Bool := a.layout = .blocks || a.locked

/-- `UploadLocked`. -/
def uploadLocked (u : CursorUnit) (c : Cursor) (a : UploadAnswers) : Bool × CursorUnit :=
  let side := sideFor c.width c.height
  if c.stridePx < c.width ∨ side = 0 then (false, u)
  else
    match slotFor (u.slots !u.at_) side a with
    | none => (false, { u with slots := Function.update u.slots (!u.at_) none })
    | some slot =>
      if (strideOf c.stridePx a).isNone ∨ readable a = false then
        (false, { u with slots := Function.update u.slots (!u.at_) (some slot) })
      else
        let slot := { slot with sprite := some c.handle }
        let flags := { side := side, premultiplied := c.premultiplied }
        let (taken, registers) :=
          u.registers.setCursorImage { buffId := slot.memFd, flags := flags } a.imageTaken
        let u := { u with
          slots := Function.update u.slots (!u.at_) (some slot), registers := registers }
        if taken then (true, { u with at_ := !u.at_, imageFlags := flags })
        else (false, u)

/-- A coordinate as the kernel's sixteen bits take it. -/
def clamped (v : Int) : Int := max (-32768) (min v 32767)

/-- `PointLocked`. -/
def pointLocked (u : CursorUnit) (x y : Int) (visible taken : Bool) : Bool × CursorUnit :=
  let (pointed, registers) := u.registers.setCursor (clamped x) (clamped y) visible taken
  (pointed, { u with registers := registers })

/-- Where a frame has the sprite: a position overtaken gives way to the unit's
own. -/
def placeOf (u : CursorUnit) (c : Cursor) (positionFresh : Bool) : Int × Int :=
  if positionFresh = false ∧ u.visible then (u.x, u.y) else (c.x, c.y)

/-- The upload of `Show`, for a sprite that is not the one loaded. -/
def load (u : CursorUnit) (c : Cursor) (a : UploadAnswers) : Bool × CursorUnit :=
  if c.id ≠ u.imageId ∨ u.imageId = 0 then
    let (uploaded, u) := u.uploadLocked c a
    (uploaded, if uploaded then { u with imageId := c.id } else u)
  else (true, u)

/-- `Show`. -/
def show_ (u : CursorUnit) (c : Cursor) (positionFresh : Bool) (a : UploadAnswers)
    (pointTaken : Bool) : Bool × CursorUnit :=
  let place := u.placeOf c positionFresh
  if u.visible ∧ c.id = u.imageId ∧ place = (u.x, u.y) then (true, u)
  else
    let (loaded, u) := u.load c a
    if loaded then
      let (pointed, u) := u.pointLocked place.1 place.2 true pointTaken
      if pointed then (true, { u with visible := true, x := place.1, y := place.2 })
      else (false, u)
    else (false, u)

/-- `Move`. -/
def move (u : CursorUnit) (x y : Int) (taken : Bool) : CursorUnit :=
  if u.visible then
    let (pointed, u) := u.pointLocked x y true taken
    if pointed then { u with x := x, y := y } else u
  else u

/-- `Hide`. -/
def hide (u : CursorUnit) (taken : Bool) : CursorUnit :=
  if u.visible then { (u.pointLocked 0 0 false taken).2 with visible := false } else u

/-- `Rearm`: the image and the place said again to a head that was dark. -/
def rearm (u : CursorUnit) (imageTaken pointTaken : Bool) : CursorUnit :=
  match u.slots u.at_ with
  | none => u
  | some slot =>
    if u.visible ∧ u.imageId ≠ 0 then
      let image := { buffId := slot.memFd, flags := u.imageFlags }
      let registers := (u.registers.setCursorImage image imageTaken).2
      ({ u with registers := registers }.pointLocked u.x u.y true pointTaken).2
    else u

end CursorUnit

/-- The pointer's part of `TegraAtomicStateManager`. `bare` is kept beside it:
the last frame that came to the pointer's step had no cursor. -/
structure Pointer where
  cursor : CursorUnit := {}
  cursorShown : Bool := false
  cursorMoveSeq : Nat := 0
  active : Bool := true
  bare : Bool := true

namespace Pointer

/-- `Execute`'s step for the pointer. -/
def execute (s : Pointer) (point : Cursor) (a : UploadAnswers) (pointTaken : Bool) : Pointer :=
  if point.present then
    let (shown, cursor) :=
      s.cursor.show_ point (point.seq == s.cursorMoveSeq) a pointTaken
    { s with cursor := cursor, cursorShown := shown, bare := false }
  else if s.cursorShown then
    { s with cursor := s.cursor.hide pointTaken, cursorShown := false, bare := true }
  else { s with bare := true }

/-- `MoveCursor`. -/
def moveCursor (s : Pointer) (x y : Int) (taken : Bool) : Pointer :=
  { s with cursorMoveSeq := s.cursorMoveSeq + 1, cursor := s.cursor.move x y taken }

/-- `SetPowered`: `done` is whether the panel takes it. -/
def setPowered (s : Pointer) (powered done imageTaken pointTaken : Bool) : Pointer :=
  if s.active = powered ∧ powered = false then s
  else if done then
    let cursor := { s.cursor with registers := s.cursor.registers.setPanelPowered powered }
    { s with
      active := powered
      cursor :=
        if powered && s.cursorShown then cursor.rearm imageTaken pointTaken else cursor }
  else s

/-- What happens to the pointer: a frame comes to its step, the pointer moves,
the panel is lit or put out. -/
inductive Action where
  | execute (point : Cursor) (upload : UploadAnswers) (pointTaken : Bool)
  | moveCursor (x y : Int) (taken : Bool)
  | setPowered (powered done imageTaken pointTaken : Bool)

/-- One step. -/
def act (s : Pointer) : Action → Pointer
  | .execute point upload pointTaken => s.execute point upload pointTaken
  | .moveCursor x y taken => s.moveCursor x y taken
  | .setPowered powered done imageTaken pointTaken =>
    s.setPowered powered done imageTaken pointTaken

/-- The pointer, run. -/
def machine : Machine Pointer Action Unit where
  step s a := some (s.act a)
  events _ _ := []

end Pointer

-- ---------------------------------------------------------------------------
-- What each call leaves
-- ---------------------------------------------------------------------------

namespace CursorUnit

variable {u : CursorUnit} {c : Cursor} {a : UploadAnswers}

/-- What an upload, taken or not, leaves alone: whether the sprite is on the
panel, and whether the unit believes it. -/
def SameShowing (u u' : CursorUnit) : Prop :=
  u'.registers.lit = u.registers.lit ∧ u'.registers.visible = u.registers.visible ∧
    u'.visible = u.visible

/-- The sprite can be loaded: it is read whole, fits a size and a slot, and the
kernel takes the image. -/
structure Loadable (u : CursorUnit) (c : Cursor) (a : UploadAnswers) : Prop where
  whole : c.width ≤ c.stridePx
  fits : sideFor c.width c.height ≠ 0
  slot : (slotFor (u.slots !u.at_) (sideFor c.width c.height) a).isSome = true
  arranged : (strideOf c.stridePx a).isSome = true
  readable : readable a = true
  lit : u.registers.lit = true
  taken : a.imageTaken = true

theorem setCursorImage_keeps {r : CursorRegisters} {image : CursorImage} {taken : Bool} :
    (r.setCursorImage image taken).2.lit = r.lit ∧
      (r.setCursorImage image taken).2.visible = r.visible := by
  unfold CursorRegisters.setCursorImage
  split <;> exact ⟨rfl, rfl⟩

theorem uploadLocked_keeps : SameShowing u (u.uploadLocked c a).2 := by
  unfold uploadLocked
  simp only
  split
  · exact ⟨rfl, rfl, rfl⟩
  split
  · exact ⟨rfl, rfl, rfl⟩
  split
  · exact ⟨rfl, rfl, rfl⟩
  split
  · exact ⟨setCursorImage_keeps.1, setCursorImage_keeps.2, rfl⟩
  · exact ⟨setCursorImage_keeps.1, setCursorImage_keeps.2, rfl⟩

/-- An upload succeeds just where the sprite can be loaded. -/
theorem uploadLocked_iff : (u.uploadLocked c a).1 = true ↔ Loadable u c a := by
  unfold uploadLocked
  simp only
  by_cases hSize : c.stridePx < c.width ∨ sideFor c.width c.height = 0
  · rw [if_pos hSize]
    refine ⟨fun h => (nomatch h), fun h => ?_⟩
    have := h.whole
    have := h.fits
    omega
  rw [if_neg hSize]
  cases hSlot : slotFor (u.slots !u.at_) (sideFor c.width c.height) a with
  | none =>
    refine ⟨fun h => (nomatch h), fun h => ?_⟩
    have := h.slot
    rw [hSlot] at this
    cases this
  | some slot =>
    simp only
    by_cases hRead : (strideOf c.stridePx a).isNone = true ∨ readable a = false
    · rw [if_pos hRead]
      refine ⟨fun h => (nomatch h), fun h => ?_⟩
      obtain hNone | hNot := hRead
      · rw [Option.isNone_iff_eq_none] at hNone
        have := h.arranged
        rw [hNone] at this
        cases this
      · have := h.readable
        rw [hNot] at this
        cases this
    · rw [if_neg hRead]
      rw [not_or, Bool.not_eq_true, Bool.not_eq_false] at hRead
      unfold CursorRegisters.setCursorImage
      by_cases hTaken : (u.registers.lit && a.imageTaken) = true
      · rw [if_pos hTaken]
        obtain ⟨hLit, hImage⟩ := Bool.and_eq_true_iff.mp hTaken
        refine ⟨fun _ => ⟨by omega, by omega, by rw [hSlot]; rfl, ?_, hRead.2, hLit, hImage⟩,
          fun _ => rfl⟩
        rw [← Option.not_isNone, hRead.1]
        rfl
      · rw [if_neg hTaken]
        refine ⟨fun h => (nomatch h), fun h => absurd ?_ hTaken⟩
        rw [h.lit, h.taken]
        rfl

theorem load_keeps : SameShowing u (u.load c a).2 := by
  unfold load
  simp only
  split
  · split
    · exact uploadLocked_keeps
    · exact uploadLocked_keeps
  · exact ⟨rfl, rfl, rfl⟩

theorem load_iff : (u.load c a).1 = true ↔ (c.id ≠ u.imageId ∨ u.imageId = 0 → Loadable u c a) := by
  unfold load
  simp only
  by_cases hNew : c.id ≠ u.imageId ∨ u.imageId = 0
  · rw [if_pos hNew, uploadLocked_iff]
    exact ⟨fun h _ => h, fun h => h hNew⟩
  · rw [if_neg hNew]
    exact ⟨fun _ h => absurd h hNew, fun _ => rfl⟩

theorem pointLocked_taken {x y : Int} {visible taken : Bool}
    (h : u.registers.lit = true ∧ taken = true) :
    (u.pointLocked x y visible taken).1 = true ∧
      (u.pointLocked x y visible taken).2.registers.visible = visible ∧
      (u.pointLocked x y visible taken).2.registers.lit = true ∧
      (u.pointLocked x y visible taken).2.visible = u.visible := by
  unfold pointLocked CursorRegisters.setCursor
  rw [if_pos (Bool.and_eq_true_iff.mpr h)]
  exact ⟨rfl, rfl, h.1, rfl⟩

theorem pointLocked_refused {x y : Int} {visible taken : Bool}
    (h : ¬(u.registers.lit = true ∧ taken = true)) :
    u.pointLocked x y visible taken = (false, u) := by
  unfold pointLocked CursorRegisters.setCursor
  rw [if_neg fun hAnd => h (Bool.and_eq_true_iff.mp hAnd)]

/-- **A frame's sprite can be shown**: it stands as asked, or it is the one
loaded or can be loaded, and the kernel takes its place. -/
def Showable (u : CursorUnit) (c : Cursor) (positionFresh : Bool) (a : UploadAnswers)
    (pointTaken : Bool) : Prop :=
  (u.visible = true ∧ c.id = u.imageId ∧ u.placeOf c positionFresh = (u.x, u.y)) ∨
    ((c.id ≠ u.imageId ∨ u.imageId = 0 → Loadable u c a) ∧
      u.registers.lit = true ∧ pointTaken = true)

variable {positionFresh pointTaken : Bool}

/-- The registers hold a lit sprite only while the unit believes it. -/
structure Honest (u : CursorUnit) : Prop where
  believed : u.registers.visible = true → u.visible = true
  dark : u.registers.lit = false → u.registers.visible = false

/-- What `Show` comes to. -/
theorem show_cases :
    (Showable u c positionFresh a pointTaken ∧ (u.show_ c positionFresh a pointTaken).1 = true ∧
        (u.show_ c positionFresh a pointTaken).2.visible = true ∧
        (Honest u → Honest (u.show_ c positionFresh a pointTaken).2)) ∨
      (¬Showable u c positionFresh a pointTaken ∧
        (u.show_ c positionFresh a pointTaken).1 = false ∧
        SameShowing u (u.show_ c positionFresh a pointTaken).2) := by
  unfold show_
  simp only
  by_cases hStands : u.visible = true ∧ c.id = u.imageId ∧ u.placeOf c positionFresh = (u.x, u.y)
  · rw [if_pos hStands]
    exact .inl ⟨.inl hStands, rfl, hStands.1, id⟩
  rw [if_neg hStands]
  obtain ⟨hLit, hVisible, hShowing⟩ := @load_keeps u c a
  by_cases hLoaded : (u.load c a).1 = true
  · rw [if_pos hLoaded]
    by_cases hPointed : u.registers.lit = true ∧ pointTaken = true
    · obtain ⟨hTaken, -, hStillLit, -⟩ := @pointLocked_taken (u.load c a).2
        (u.placeOf c positionFresh).1 (u.placeOf c positionFresh).2 true pointTaken
        ⟨hLit ▸ hPointed.1, hPointed.2⟩
      rw [if_pos hTaken]
      refine .inl ⟨.inr ⟨load_iff.mp hLoaded, hPointed⟩, rfl, rfl, fun _ =>
        ⟨fun _ => rfl, fun hDark => ?_⟩⟩
      simp only [hStillLit] at hDark
      cases hDark
    · rw [pointLocked_refused fun h => hPointed ⟨hLit ▸ h.1, h.2⟩]
      exact .inr ⟨fun h => h.elim hStands fun h => hPointed h.2, rfl, hLit, hVisible, hShowing⟩
  · rw [if_neg hLoaded]
    exact .inr ⟨fun h => h.elim hStands fun h => hLoaded (load_iff.mpr h.1), rfl, hLit, hVisible,
      hShowing⟩

theorem honest_of_same {u' : CursorUnit} (h : Honest u) (hSame : SameShowing u u') : Honest u' where
  believed := by
    rw [hSame.2.1, hSame.2.2]
    exact h.believed
  dark := by
    rw [hSame.1, hSame.2.1]
    exact h.dark

theorem pointLocked_honest {x y : Int} {taken : Bool} (h : Honest u) (hVisible : u.visible = true) :
    Honest (u.pointLocked x y true taken).2 := by
  by_cases hTaken : u.registers.lit = true ∧ taken = true
  · obtain ⟨-, hPointed, hLit, hUnit⟩ := @pointLocked_taken u x y true taken hTaken
    refine ⟨fun _ => hUnit.trans hVisible, fun hDark => ?_⟩
    rw [hLit] at hDark
    cases hDark
  · rw [pointLocked_refused hTaken]
    exact h

theorem move_honest {x y : Int} {taken : Bool} (h : Honest u) :
    Honest (u.move x y taken) ∧ (u.move x y taken).visible = u.visible := by
  unfold move
  by_cases hVisible : u.visible = true
  · rw [if_pos hVisible]
    simp only
    have hPointed := @pointLocked_honest u x y taken h hVisible
    have hSame : (u.pointLocked x y true taken).2.visible = u.visible := rfl
    split
    · exact ⟨⟨hPointed.believed, hPointed.dark⟩, hSame⟩
    · exact ⟨hPointed, hSame⟩
  · rw [if_neg hVisible]
    exact ⟨h, rfl⟩

theorem rearm_honest {imageTaken pointTaken : Bool} (h : Honest u) :
    Honest (u.rearm imageTaken pointTaken) ∧ (u.rearm imageTaken pointTaken).visible = u.visible := by
  unfold rearm
  split
  · exact ⟨h, rfl⟩
  split
  · rename_i hShown
    refine ⟨pointLocked_honest ?_ hShown.1, rfl⟩
    exact honest_of_same h ⟨setCursorImage_keeps.1, setCursorImage_keeps.2, rfl⟩
  · exact ⟨h, rfl⟩

/-- Hiding leaves the unit believing the sprite gone; it is gone just where the
kernel took it off, or it was not there. -/
theorem hide_visible {taken : Bool} (h : Honest u) :
    (u.hide taken).visible = false ∧
      ((u.hide taken).registers.visible = false ↔ (u.registers.visible = true → taken = true)) ∧
      ((u.hide taken).registers.visible = false → Honest (u.hide taken)) := by
  unfold hide
  by_cases hVisible : u.visible = true
  · rw [if_pos hVisible]
    by_cases hTaken : u.registers.lit = true ∧ taken = true
    · obtain ⟨-, hPointed, hLit, -⟩ := @pointLocked_taken u 0 0 false taken hTaken
      exact ⟨rfl, ⟨fun _ _ => hTaken.2, fun _ => hPointed⟩,
        fun _ => ⟨fun hOn => (by rw [hPointed] at hOn; cases hOn), fun _ => hPointed⟩⟩
    · rw [pointLocked_refused hTaken]
      simp only
      refine ⟨trivial, ⟨fun hOff hOn => ?_, fun hKept => ?_⟩, fun hOff =>
        ⟨fun hOn => (by rw [hOff] at hOn; cases hOn), fun _ => hOff⟩⟩
      · rw [hOff] at hOn
        cases hOn
      · by_contra hOn
        rw [Bool.not_eq_false] at hOn
        refine hTaken ⟨?_, hKept hOn⟩
        by_contra hDark
        rw [h.dark (Bool.eq_false_iff.mpr hDark)] at hOn
        cases hOn
  · rw [if_neg hVisible]
    have hOff : u.registers.visible = false := Bool.eq_false_iff.mpr fun hOn => hVisible (h.believed hOn)
    refine ⟨Bool.eq_false_iff.mpr hVisible, ⟨fun _ hOn => ?_, fun _ => hOff⟩, fun _ => h⟩
    rw [hOff] at hOn
    cases hOn

end CursorUnit

-- ---------------------------------------------------------------------------
-- The duty to hide
-- ---------------------------------------------------------------------------

namespace Pointer

variable {s : Pointer}

/-- The sprite is on the panel only as the manager has it. -/
structure Tied (s : Pointer) : Prop where
  honest : s.cursor.Honest
  shown : s.cursor.visible = true → s.cursorShown = true
  bare : s.bare = true → s.cursorShown = false

/-- **A duty kept.** No frame's sprite is refused while another stands on the
panel, and no sprite that stands is refused its taking off. -/
def Kept (s : Pointer) : Action → Prop
  | .execute point upload pointTaken =>
    if point.present then
      s.cursor.visible = true →
        s.cursor.Showable point (point.seq == s.cursorMoveSeq) upload pointTaken
    else s.cursor.registers.visible = true → pointTaken = true
  | _ => True

/-- A frame at the pointer's step ties the sprite just where the duty is
kept. -/
theorem execute_tied_iff {point : Cursor} {a : UploadAnswers} {pointTaken : Bool} (h : Tied s) :
    Tied (s.execute point a pointTaken) ↔ Kept s (.execute point a pointTaken) := by
  unfold execute Kept
  simp only
  by_cases hPresent : point.present = true
  · rw [if_pos hPresent, if_pos hPresent]
    obtain ⟨hShowable, hShown, -, hHonest⟩ | ⟨hNot, hRefused, hSame⟩ :=
      @CursorUnit.show_cases s.cursor point a (point.seq == s.cursorMoveSeq) pointTaken
    · exact ⟨fun _ _ => hShowable,
        fun _ => ⟨hHonest h.honest, fun _ => hShown, fun hBare => (nomatch hBare)⟩⟩
    · refine ⟨fun hTied hOn => ?_, fun hKept => ?_⟩
      · have := hTied.shown (hSame.2.2.trans hOn)
        simp only [hRefused] at this
        cases this
      · refine ⟨CursorUnit.honest_of_same h.honest hSame, fun hOn => ?_, fun hBare => (nomatch hBare)⟩
        exact absurd (hKept (hSame.2.2.symm.trans hOn)) hNot
  · rw [if_neg hPresent, if_neg hPresent]
    obtain ⟨hHidden, hOff, hHonest⟩ := @CursorUnit.hide_visible s.cursor pointTaken h.honest
    by_cases hShown : s.cursorShown = true
    · rw [if_pos hShown, ← hOff]
      constructor
      · intro hTied
        by_contra hOn
        rw [Bool.not_eq_false] at hOn
        have := hTied.honest.believed hOn
        simp only [hHidden] at this
        cases this
      · intro hGone
        refine ⟨hHonest hGone, fun hOn => ?_, fun _ => rfl⟩
        simp only [hHidden] at hOn
        cases hOn
    · rw [if_neg hShown]
      have hNone : s.cursorShown = false := Bool.eq_false_iff.mpr hShown
      refine ⟨fun _ hOn => absurd (h.shown (h.honest.believed hOn)) hShown,
        fun _ => ⟨h.honest, h.shown, fun _ => hNone⟩⟩

theorem tied_moveCursor {x y : Int} {taken : Bool} (h : Tied s) : Tied (s.moveCursor x y taken) := by
  obtain ⟨hHonest, hVisible⟩ := @CursorUnit.move_honest s.cursor x y taken h.honest
  exact ⟨hHonest, fun hOn => h.shown (hVisible.symm.trans hOn), h.bare⟩

/-- A head put out or lit holds no sprite the unit does not believe. -/
theorem honest_setPanelPowered {powered : Bool} (h : s.cursor.Honest) :
    CursorUnit.Honest
      { s.cursor with registers := s.cursor.registers.setPanelPowered powered } := by
  cases powered with
  | false => exact ⟨fun hOn => (nomatch hOn), fun _ => rfl⟩
  | true => exact ⟨h.believed, fun hDark => (nomatch hDark)⟩

theorem tied_setPowered {powered done imageTaken pointTaken : Bool} (h : Tied s) :
    Tied (s.setPowered powered done imageTaken pointTaken) := by
  unfold setPowered
  simp only
  split
  · exact h
  split
  · have hHonest := @honest_setPanelPowered s powered h.honest
    split
    · obtain ⟨hRearmed, hVisible⟩ := @CursorUnit.rearm_honest _ imageTaken pointTaken hHonest
      exact ⟨hRearmed, fun hOn => h.shown (hVisible.symm.trans hOn), h.bare⟩
    · exact ⟨hHonest, h.shown, h.bare⟩
  · exact h

theorem tied_step {a : Action} (h : Tied s) (hKept : Kept s a) : Tied (s.act a) := by
  cases a with
  | execute point upload pointTaken => exact (execute_tied_iff h).mpr hKept
  | moveCursor x y taken => exact tied_moveCursor h
  | setPowered powered done imageTaken pointTaken => exact tied_setPowered h

theorem tied_init : Tied {} where
  honest := ⟨fun h => (nomatch h), fun h => (nomatch h)⟩
  shown := fun h => (nomatch h)
  bare := fun _ => rfl

/-- **No sprite outlives its scene.** In every run that keeps the duty, once a
frame without a cursor has come to the pointer's step, nothing is on the panel
until one with a cursor does. -/
theorem cursor_hidden {actions : List Action} (hKept : machine.Meets Kept {} actions)
    (hRun : machine.run {} actions = some s) (hBare : s.bare = true) :
    s.cursor.registers.visible = false := by
  have hTied : Tied s := by
    refine Machine.run_of_meets (m := machine) (fun s a s' h hC hStep => ?_) tied_init hKept hRun
    obtain rfl := Option.some.inj hStep
    exact tied_step h hC
  have hNone := hTied.bare hBare
  by_contra hOn
  rw [Bool.not_eq_false] at hOn
  rw [hTied.shown (hTied.honest.believed hOn)] at hNone
  cases hNone

/-- A frame whose cursor is this sprite, and the answers to its upload. -/
def shows (id : Nat) (imageTaken : Bool) : Action :=
  .execute
    { present := true, handle := id, id := id, width := 24, height := 24, stridePx := 32, x := 5 }
    { given := some (128, 3), imageTaken := imageTaken } true

/-- A frame without a cursor. -/
def bareFrame : Action := .execute {} {} true

/-- A pointer shown, moved, shown again and gone. -/
theorem cursor_hidden_moved :
    ∃ s, machine.run {} [shows 1 true, .moveCursor 9 9 true, shows 2 true, bareFrame] = some s ∧
      s.cursor.registers.visible = false := by
  refine ⟨_, rfl, @cursor_hidden _
    [shows 1 true, .moveCursor 9 9 true, shows 2 true, bareFrame] ?_ rfl rfl⟩
  exact ⟨fun hOn => (nomatch hOn), trivial,
    fun _ => .inr ⟨fun _ => ⟨by decide, by decide, by decide, by decide, by decide, rfl, rfl⟩,
      rfl, rfl⟩,
    fun _ => rfl, trivial⟩

/-- **A sprite left behind.** The second frame's sprite is refused while the
first one's stands; the manager takes it that nothing is shown, and the frame
without a cursor hides nothing. -/
theorem cursor_left :
    ¬∀ (actions : List Action) (s : Pointer), machine.run {} actions = some s →
      s.bare = true → s.cursor.registers.visible = false := by
  intro h
  have hHidden := h [shows 1 true, shows 2 false, bareFrame] _ rfl rfl
  revert hHidden
  decide

end Pointer

end TegraHwc
