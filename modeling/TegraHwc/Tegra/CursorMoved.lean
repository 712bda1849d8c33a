import TegraHwc.Tegra.TegraAtomicRequest

/-!
# TegraHwc — the pointer moved and the frame that follows

The pointer's position has two owners. `SetCursorPosition` of
`hwc2_device/hwc2_device.cpp` goes straight to the unit and leaves the layer's
frame as it was; a present has the unit show the layer where the layer's frame
puts it, and a count of the moves is to keep a frame drawn up before a move from
putting the pointer back. The count is read when the request is built, and that
is done as the request is carried out, under the one lock of the composer, from
a plan drawn up at the validation or kept from a frame before: every request
finds its count current, and its position is followed whatever moved since.

`latest` is kept beside the code's own: the position last given, by either.

## Results

* `show_placed`             — where a sprite shown ends up.
* `pointer_holds_latest_iff` — when the hardware holds the position last given.
-/

namespace TegraHwc

open Runs

-- ---------------------------------------------------------------------------
-- What the unit holds
-- ---------------------------------------------------------------------------

namespace CursorUnit

variable {u : CursorUnit}

/-- The registers hold the unit's place, as the kernel takes it, while it
believes the sprite shown. -/
def Matched (u : CursorUnit) : Prop :=
  u.visible = true → u.registers.x = clamped u.x ∧ u.registers.y = clamped u.y

theorem pointLocked_place {x y : Int} {visible taken : Bool}
    (h : (u.pointLocked x y visible taken).1 = true) :
    (u.pointLocked x y visible taken).2.registers.x = clamped x ∧
      (u.pointLocked x y visible taken).2.registers.y = clamped y := by
  by_cases hTaken : u.registers.lit = true ∧ taken = true
  · unfold pointLocked CursorRegisters.setCursor
    rw [if_pos (Bool.and_eq_true_iff.mpr hTaken)]
    exact ⟨rfl, rfl⟩
  · rw [pointLocked_refused hTaken] at h
    cases h

theorem pointLocked_lit {x y : Int} {visible taken : Bool} :
    (u.pointLocked x y visible taken).2.registers.lit = u.registers.lit := by
  by_cases hTaken : u.registers.lit = true ∧ taken = true
  · rw [(pointLocked_taken hTaken).2.2.1, hTaken.1]
  · rw [pointLocked_refused hTaken]

/-- Showing a sprite lights nothing and puts nothing out. -/
theorem show_lit {c : Cursor} {positionFresh pointTaken : Bool} {a : UploadAnswers} :
    (u.show_ c positionFresh a pointTaken).2.registers.lit = u.registers.lit := by
  obtain ⟨hLit, -, -⟩ := @load_keeps u c a
  unfold show_
  simp only
  split
  · rfl
  split
  · split
    · exact pointLocked_lit.trans hLit
    · exact pointLocked_lit.trans hLit
  · exact hLit

theorem move_lit {x y : Int} {taken : Bool} :
    (u.move x y taken).registers.lit = u.registers.lit := by
  unfold move
  split
  · simp only
    split
    · exact pointLocked_lit
    · exact pointLocked_lit
  · rfl

/-- A sprite shown is where the frame has it, unless that was overtaken. -/
theorem show_placed {c : Cursor} {positionFresh pointTaken : Bool} {a : UploadAnswers}
    (hMatched : Matched u) (hShown : (u.show_ c positionFresh a pointTaken).1 = true) :
    Matched (u.show_ c positionFresh a pointTaken).2 ∧
      (u.show_ c positionFresh a pointTaken).2.registers.x =
        clamped (u.placeOf c positionFresh).1 ∧
      (u.show_ c positionFresh a pointTaken).2.registers.y =
        clamped (u.placeOf c positionFresh).2 := by
  unfold show_ at hShown ⊢
  simp only at hShown ⊢
  split at hShown
  · -- it stands there already
    rename_i hStands
    rw [if_pos hStands]
    obtain ⟨hVisible, -, hPlace⟩ := hStands
    rw [hPlace]
    exact ⟨hMatched, hMatched hVisible⟩
  rename_i hMoves
  rw [if_neg hMoves]
  split at hShown
  · rename_i hLoaded
    rw [if_pos hLoaded]
    split at hShown
    · rename_i hPointed
      rw [if_pos hPointed]
      have hPlace := pointLocked_place hPointed
      exact ⟨fun _ => hPlace, hPlace⟩
    · cases hShown
  · cases hShown

/-- A sprite moved is where the move has it. -/
theorem move_placed {x y : Int} (hVisible : u.visible = true) (hLit : u.registers.lit = true) :
    Matched (u.move x y true) ∧ (u.move x y true).registers.x = clamped x ∧
      (u.move x y true).registers.y = clamped y := by
  obtain ⟨hPointed, -, -, -⟩ := @pointLocked_taken u x y true true ⟨hLit, rfl⟩
  have hPlace := pointLocked_place hPointed
  unfold move
  rw [if_pos hVisible]
  simp only
  rw [if_pos hPointed]
  exact ⟨fun _ => hPlace, hPlace⟩

end CursorUnit

-- ---------------------------------------------------------------------------
-- The calls
-- ---------------------------------------------------------------------------

/-- A display with a cursor's layer. What is staged is the validated
composition: with the layer as its plan copied it, or without a copy where a
plan was kept, which is joined anew from the layer as it stands. -/
structure PointedDisplay where
  pointer : Pointer := {}
  layer : LayerData := {}
  staged : Option (Option LayerData) := none
  latest : Int × Int := (0, 0)

namespace PointedDisplay

/-- What is asked of it. -/
inductive Action where
  | setLayerDisplayFrame (frame : IRect)
  | setLayerBuffer (bi : BufferInfo)
  | setCursorPosition (x y : Int) (taken : Bool)
  | validate (reused : Bool)
  | present (args : RequestArgs) (upload : UploadAnswers) (pointTaken : Bool)

/-- The layer as a present carries it out. -/
def carried (s : PointedDisplay) : LayerData := (s.staged.getD none).getD s.layer

/-- The pointer's part of the request a present builds. -/
def requestCursor (s : PointedDisplay) (args : RequestArgs) : Cursor :=
  TegraAtomicRequest.cursorFrom { args with cursorMoveSeq := s.pointer.cursorMoveSeq } s.carried

/-- `SetLayerDisplayFrame`. -/
def setLayerDisplayFrame (s : PointedDisplay) (frame : IRect) : PointedDisplay :=
  { s with
    layer := { s.layer with pi := { s.layer.pi with displayFrame := some frame } }
    latest := (frame.left, frame.top) }

/-- `SetLayerBuffer`. -/
def setLayerBuffer (s : PointedDisplay) (bi : BufferInfo) : PointedDisplay :=
  { s with layer := { s.layer with bi := some bi, generation := s.layer.generation + 1 } }

/-- `SetCursorPosition`. -/
def setCursorPosition (s : PointedDisplay) (x y : Int) (taken : Bool) : PointedDisplay :=
  { s with pointer := s.pointer.moveCursor x y taken, latest := (x, y) }

/-- `ValidateDisplay`, planning anew or handing back the plan kept. -/
def validate (s : PointedDisplay) (reused : Bool) : PointedDisplay :=
  { s with staged := some (if reused then none else some s.layer) }

/-- `PresentDisplay`: the request is built and carried out. -/
def present (s : PointedDisplay) (args : RequestArgs) (upload : UploadAnswers)
    (pointTaken : Bool) : PointedDisplay :=
  { s with
    pointer := s.pointer.execute (s.requestCursor args) upload pointTaken
    staged := none }

/-- What an action leaves. -/
def act (s : PointedDisplay) : Action → PointedDisplay
  | .setLayerDisplayFrame frame => s.setLayerDisplayFrame frame
  | .setLayerBuffer bi => s.setLayerBuffer bi
  | .setCursorPosition x y taken => s.setCursorPosition x y taken
  | .validate reused => s.validate reused
  | .present args upload pointTaken => s.present args upload pointTaken

/-- What the hardware holds after a present or a move, and what was given
last. -/
structure Pointed where
  position : Int × Int
  latest : Int × Int
  deriving DecidableEq, Repr

/-- The position the hardware holds, and the one last given. -/
def pointed (s : PointedDisplay) : Pointed :=
  ⟨(s.pointer.cursor.registers.x, s.pointer.cursor.registers.y), s.latest⟩

/-- The display, run: a present needs something staged. -/
def machine : Machine PointedDisplay Action Pointed where
  step s
    | .present args upload pointTaken =>
      if s.staged.isSome then some (s.present args upload pointTaken) else none
    | a => some (s.act a)
  events s
    | .setCursorPosition x y taken => [(s.setCursorPosition x y taken).pointed]
    | .present args upload pointTaken => [(s.present args upload pointTaken).pointed]
    | _ => []

-- ---------------------------------------------------------------------------
-- When the position is kept
-- ---------------------------------------------------------------------------

/-- The layer stays composed as a visible hardware cursor and every call of the
kernel succeeds. -/
def Composed (s : PointedDisplay) : Action → Prop
  | .setCursorPosition _ _ taken => s.pointer.cursor.visible = true ∧ taken = true
  | .present args upload pointTaken =>
    (s.requestCursor args).present = true ∧
      s.pointer.cursor.Showable (s.requestCursor args) true upload pointTaken
  | _ => True

instance {u : CursorUnit} {c : Cursor} {a : UploadAnswers} : Decidable (u.Loadable c a) :=
  decidable_of_iff _ CursorUnit.uploadLocked_iff

instance {u : CursorUnit} {c : Cursor} {positionFresh pointTaken : Bool} {a : UploadAnswers} :
    Decidable (u.Showable c positionFresh a pointTaken) := by
  unfold CursorUnit.Showable
  infer_instance

instance : ∀ (s : PointedDisplay) (a : Action), Decidable (Composed s a)
  | _, .setLayerDisplayFrame _ => .isTrue trivial
  | _, .setLayerBuffer _ => .isTrue trivial
  | _, .setCursorPosition _ _ _ => instDecidableAnd
  | _, .validate _ => .isTrue trivial
  | _, .present _ _ _ => instDecidableAnd

/-- Where the layer is in what a present carries out. -/
def carriedPlace (s : PointedDisplay) : Int × Int :=
  (s.carried.pi.displayFrame.map fun frame => (frame.left, frame.top)).getD (0, 0)

/-- **A frame in time.** What a present carries out has the layer where the last
position given puts it; and every position fits the kernel's sixteen bits. -/
def InTime (s : PointedDisplay) : Action → Prop
  | .setCursorPosition x y _ => CursorUnit.clamped x = x ∧ CursorUnit.clamped y = y
  | .present _ _ _ =>
    (CursorUnit.clamped s.carriedPlace.1, CursorUnit.clamped s.carriedPlace.2) = s.latest
  | _ => True

instance : ∀ (s : PointedDisplay) (a : Action), Decidable (InTime s a)
  | _, .setLayerDisplayFrame _ => .isTrue trivial
  | _, .setLayerBuffer _ => .isTrue trivial
  | _, .setCursorPosition _ _ _ => instDecidableAnd
  | _, .validate _ => .isTrue trivial
  | s, .present _ _ _ =>
    inferInstanceAs (Decidable
      ((CursorUnit.clamped s.carriedPlace.1, CursorUnit.clamped s.carriedPlace.2) = s.latest))

/-- What holds along the run. -/
structure Standing (s : PointedDisplay) : Prop where
  lit : s.pointer.cursor.registers.lit = true
  matched : s.pointer.cursor.Matched

/-- The request's position is the layer's. -/
theorem requestCursor_place {s : PointedDisplay} {args : RequestArgs}
    (h : (s.requestCursor args).present = true) :
    ((s.requestCursor args).x, (s.requestCursor args).y) = s.carriedPlace ∧
      (s.requestCursor args).seq = s.pointer.cursorMoveSeq := by
  unfold requestCursor TegraAtomicRequest.cursorFrom at h ⊢
  unfold carriedPlace
  cases hBuffer : s.carried.bi with
  | none => simp [hBuffer] at h
  | some bi =>
    cases hFrame : s.carried.pi.displayFrame with
    | none => simp [hBuffer, hFrame] at h
    | some frame => exact ⟨rfl, rfl⟩

/-- **A present.** The unit shows the layer where what is carried out has it:
the count in the request is the count it is compared with. -/
theorem present_placed {s : PointedDisplay} {args : RequestArgs} {upload : UploadAnswers}
    {pointTaken : Bool} (h : Standing s)
    (hComposed : Composed s (.present args upload pointTaken)) :
    Standing (s.present args upload pointTaken) ∧
      (s.present args upload pointTaken).pointed =
        ⟨(CursorUnit.clamped s.carriedPlace.1, CursorUnit.clamped s.carriedPlace.2), s.latest⟩ := by
  obtain ⟨hPresent, hShowable⟩ := hComposed
  obtain ⟨hPlace, hSeq⟩ := requestCursor_place hPresent
  have hFresh : ((s.requestCursor args).seq == s.pointer.cursorMoveSeq) = true :=
    beq_iff_eq.mpr hSeq
  have hShown :
      (s.pointer.cursor.show_ (s.requestCursor args) true upload pointTaken).1 = true := by
    obtain ⟨-, hShown, -⟩ | ⟨hNot, -⟩ :=
      @CursorUnit.show_cases s.pointer.cursor (s.requestCursor args) upload true pointTaken
    · exact hShown
    · exact absurd hShowable hNot
  have hWhere : s.pointer.cursor.placeOf (s.requestCursor args) true = s.carriedPlace := by
    rw [← hPlace, CursorUnit.placeOf, if_neg (by simp)]
  obtain ⟨hMatched, hX, hY⟩ := CursorUnit.show_placed h.matched hShown
  rw [hWhere] at hX hY
  have hCursor : (s.present args upload pointTaken).pointer.cursor =
      (s.pointer.cursor.show_ (s.requestCursor args) true upload pointTaken).2 := by
    unfold present Pointer.execute
    rw [if_pos hPresent, hFresh]
  refine ⟨⟨?_, ?_⟩, ?_⟩
  · rw [hCursor, CursorUnit.show_lit]
    exact h.lit
  · rw [hCursor]
    exact hMatched
  · unfold pointed
    rw [hCursor, hX, hY]
    rfl

/-- **A move.** The unit is where the move has it. -/
theorem setCursorPosition_placed {s : PointedDisplay} {x y : Int} {taken : Bool} (h : Standing s)
    (hComposed : Composed s (.setCursorPosition x y taken)) :
    Standing (s.setCursorPosition x y taken) ∧
      (s.setCursorPosition x y taken).pointed =
        ⟨(CursorUnit.clamped x, CursorUnit.clamped y), (x, y)⟩ := by
  obtain ⟨hVisible, rfl⟩ := hComposed
  obtain ⟨hMatched, hX, hY⟩ := @CursorUnit.move_placed _ x y hVisible h.lit
  refine ⟨⟨CursorUnit.move_lit.trans h.lit, hMatched⟩, ?_⟩
  unfold pointed setCursorPosition Pointer.moveCursor
  simp only
  rw [hX, hY]

/-- A step keeps what holds along the run. -/
theorem standing_step {s s' : PointedDisplay} {a : Action} (h : Standing s)
    (hComposed : Composed s a) (hStep : machine.step s a = some s') : Standing s' := by
  cases a with
  | setLayerDisplayFrame frame =>
    obtain rfl := Option.some.inj hStep
    exact ⟨h.lit, h.matched⟩
  | setLayerBuffer bi =>
    obtain rfl := Option.some.inj hStep
    exact ⟨h.lit, h.matched⟩
  | setCursorPosition x y taken =>
    obtain rfl := Option.some.inj hStep
    exact (setCursorPosition_placed h hComposed).1
  | validate reused =>
    obtain rfl := Option.some.inj hStep
    exact ⟨h.lit, h.matched⟩
  | present args upload pointTaken =>
    simp only [machine] at hStep
    split at hStep
    · obtain rfl := Option.some.inj hStep
      exact (present_placed h hComposed).1
    · cases hStep

/-- After a step the hardware holds the position last given just where the step
is in time. -/
theorem pointed_step {s s' : PointedDisplay} {a : Action} (h : Standing s)
    (hComposed : Composed s a) (_hStep : machine.step s a = some s') :
    (∀ e ∈ machine.events s a, e.position = e.latest) ↔ InTime s a := by
  cases a with
  | setLayerDisplayFrame frame => simp [machine, InTime]
  | setLayerBuffer bi => simp [machine, InTime]
  | setCursorPosition x y taken =>
    simp [machine, InTime, (setCursorPosition_placed h hComposed).2]
  | validate reused => simp [machine, InTime]
  | present args upload pointTaken =>
    simp [machine, InTime, (present_placed h hComposed).2]

theorem standing_init : Standing {} := ⟨rfl, fun h => (nomatch h)⟩

/-- **The position last given.** In every run in which the layer stays composed
as a visible hardware cursor and the kernel refuses nothing: after each present
and each move the hardware holds the position last given exactly where every
step of the run is in time. -/
theorem pointer_holds_latest_iff {actions : List Action} {s : PointedDisplay}
    (hComposed : machine.Meets Composed {} actions) (hRun : machine.run {} actions = some s) :
    (∀ e ∈ machine.trace {} actions, e.position = e.latest) ↔
      machine.Meets InTime {} actions :=
  Machine.trace_iff_meets (I := Standing)
    (fun _ _ _ hStanding hStays _ => standing_step hStanding hStays) (fun _ _ _ => pointed_step)
    standing_init hComposed hRun

/-- A present of the layer, with what its sprite's upload is answered. -/
def shown : Action :=
  .present {} { given := some (128, 3) } true

/-- The layer given a place and a buffer, and shown. -/
def firstShown : List Action :=
  [.setLayerDisplayFrame ⟨5, 5, 29, 29⟩,
    .setLayerBuffer { width := 24, height := 24, uniqueId := 7, pitch := 128, handle := some 7 },
    .validate false, shown]

/-- Shown, moved, framed where it was moved to, and shown again. -/
def movedThenFramed : List Action :=
  firstShown ++
    [.setCursorPosition 9 9 true, .setLayerDisplayFrame ⟨9, 9, 33, 33⟩, .validate false, shown]

/-- Framed where it was moved to, the layer is shown there and each position is
kept. -/
theorem pointer_holds_latest_framed :
    machine.Meets InTime {} movedThenFramed ∧
      ∀ e ∈ machine.trace {} movedThenFramed, e.position = e.latest := by
  have hInTime : machine.Meets InTime {} movedThenFramed := by decide +kernel
  exact ⟨hInTime, (pointer_holds_latest_iff (by decide +kernel) rfl).mpr hInTime⟩

/-- **The pointer moved back.** A frame validated and presented after the move,
from a layer framed before it, puts the pointer where it was. -/
theorem pointer_moved_back :
    ¬∀ (actions : List Action) (s : PointedDisplay), machine.Meets Composed {} actions →
      machine.run {} actions = some s →
      ∀ e ∈ machine.trace {} actions, e.position = e.latest := by
  intro h
  have hHeld := h (firstShown ++ [.setCursorPosition 9 9 true, .validate false, shown]) _
    (by decide +kernel) rfl ⟨(5, 5), (9, 9)⟩ (by decide +kernel)
  exact absurd hHeld (by decide)

end PointedDisplay

end TegraHwc
