import Mathlib.Data.List.Basic
import Mathlib.Logic.Function.Basic
import Mathlib.Tactic.Common

/-!
# Scanout — who still reads a buffer, and what says when not

Engines are given drawings, each engine one after the other, and are done with
them in that order. A panel is given flips: one goes up once everything it waits
for is done, and its windows are read until the next has gone up. A fence names a
drawing or a flip, and is signalled once that is done, or up.

Nothing is known of when: an engine finishes a drawing and the panel takes a flip
whenever they may. So a fence says that a buffer is free only where the order of
things does, and that is what `Covered` is about. Everything here is over
arbitrary engines and buffers.

## Results

* `Landed`, `Later`   — what the hardware keeps to, and what it never takes back;
  each step's lemma says it does.
* `over_of_covered`   — a reading covered by a fence is over once that is due.
* `covered_of_flip`   — what the fence of a flip covers of a buffer it replaces.
* `unread_of_landed`  — a buffer nothing reads while a flip waits to go up.
-/

namespace Scanout

variable {E B : Type}

-- ---------------------------------------------------------------------------
-- The hardware
-- ---------------------------------------------------------------------------

/-- A drawing given to an engine: the job it is of, if it is of one, and the
buffers it reads. -/
structure Drawing (B : Type) where
  job : Option Nat := none
  reads : List B
  deriving DecidableEq, Repr

/-- The drawings of an engine, the oldest first, and how many it is done with. -/
structure Channel (B : Type) where
  drawings : List (Drawing B) := []
  done : Nat := 0
  deriving DecidableEq, Repr

/-- What a fence names: a drawing of an engine, or a flip. -/
inductive Fence (E : Type) where
  | drawn (engine : E) (n : Nat)
  | shown (n : Nat)
  deriving DecidableEq, Repr

/-- A flip: the buffers on its windows, and what it waits for. -/
structure Flip (E B : Type) where
  windows : List B := []
  waits : List (Fence E) := []
  deriving DecidableEq, Repr

/-- The engines and the panel: the flips it was given, the oldest first, and how
many have gone up. -/
structure Hardware (E B : Type) where
  channels : E → Channel B := fun _ => {}
  flips : List (Flip E B) := []
  latched : Nat := 0

/-- Something that reads: a drawing, or the panel while a flip is up. -/
inductive Reader (E : Type) where
  | drawing (engine : E) (n : Nat)
  | panel (n : Nat)
  deriving DecidableEq, Repr

/-- A fence is signalled no earlier than this reader is through with its
buffers, by the order of the engine's drawings. -/
def Fence.covers [DecidableEq E] : Fence E → Reader E → Bool
  | .drawn e m, .drawing e' n => decide (e = e') && decide (n ≤ m)
  | _, _ => false

/-- A flip goes up no earlier than this reader is through. -/
def Flip.awaits [DecidableEq E] (f : Flip E B) (x : Reader E) : Bool :=
  f.waits.any fun w => w.covers x

namespace Hardware

variable (hw : Hardware E B)

/-- Whether a fence is signalled. -/
def Signalled : Fence E → Prop
  | .drawn e n => n < (hw.channels e).done
  | .shown n => n < hw.latched

instance (w : Fence E) : Decidable (hw.Signalled w) :=
  match w with
  | .drawn e n => inferInstanceAs (Decidable (n < (hw.channels e).done))
  | .shown n => inferInstanceAs (Decidable (n < hw.latched))

/-- Whether a fence handed out is due; one that is missing reads as due. -/
def Due : Option (Fence E) → Prop
  | none => True
  | some w => hw.Signalled w

instance (fence : Option (Fence E)) : Decidable (hw.Due fence) :=
  match fence with
  | none => .isTrue trivial
  | some w => inferInstanceAs (Decidable (hw.Signalled w))

/-- Whether a reader is through. -/
def Over : Reader E → Prop
  | .drawing e n => n < (hw.channels e).done
  | .panel n => n + 1 < hw.latched

/-- The drawings of an engine, not yet done, that read a buffer. -/
def underWay [DecidableEq B] (e : E) (b : B) : List Nat :=
  (List.range (hw.channels e).drawings.length).filter fun n =>
    decide ((hw.channels e).done ≤ n) &&
      ((hw.channels e).drawings[n]?.map fun d => decide (b ∈ d.reads)).getD false

/-- The flips, not yet replaced, that have a buffer on a window. -/
def onPanel [DecidableEq B] (b : B) : List Nat :=
  (List.range hw.flips.length).filter fun n =>
    decide (hw.latched ≤ n + 1) && (hw.flips[n]?.map fun f => decide (b ∈ f.windows)).getD false

/-- Who reads a buffer, or is going to. -/
def Reads [DecidableEq B] (b : B) : Reader E → Prop
  | .drawing e n => n ∈ hw.underWay e b
  | .panel n => n ∈ hw.onPanel b

/-- A drawing given to an engine. -/
def submit [DecidableEq E] (e : E) (d : Drawing B) : Hardware E B :=
  { hw with
    channels := Function.update hw.channels e
      { hw.channels e with drawings := (hw.channels e).drawings ++ [d] } }

/-- An engine done with the drawing that was next, if there was one. -/
def finish [DecidableEq E] (e : E) : Option (Hardware E B) :=
  if (hw.channels e).done < (hw.channels e).drawings.length then
    some { hw with
      channels := Function.update hw.channels e
        { hw.channels e with done := (hw.channels e).done + 1 } }
  else none

/-- A flip given to the panel. -/
def flip (f : Flip E B) : Hardware E B := { hw with flips := hw.flips ++ [f] }

/-- The panel takes the flip that was next, if it need not wait. -/
def latch : Option (Hardware E B) :=
  match hw.flips[hw.latched]? with
  | none => none
  | some f =>
    if ∀ w ∈ f.waits, hw.Signalled w then some { hw with latched := hw.latched + 1 } else none

-- ---------------------------------------------------------------------------
-- What the hardware keeps to
-- ---------------------------------------------------------------------------

/-- No more has gone up than was given, and nothing of it too early. -/
structure Landed : Prop where
  given : hw.latched ≤ hw.flips.length
  waited : ∀ {k : Nat} {f : Flip E B}, k < hw.latched → hw.flips[k]? = some f →
    ∀ w ∈ f.waits, hw.Signalled w

/-- The hardware some steps on. -/
structure Later (hw hw' : Hardware E B) : Prop where
  done : ∀ e, (hw.channels e).done ≤ (hw'.channels e).done
  latched : hw.latched ≤ hw'.latched
  flips : ∀ {k : Nat} {f : Flip E B}, hw.flips[k]? = some f → hw'.flips[k]? = some f

variable {hw} {hw' : Hardware E B}

theorem Later.refl (hw : Hardware E B) : Later hw hw :=
  ⟨fun _ => Nat.le_refl _, Nat.le_refl _, id⟩

/-- A fence stays signalled. -/
theorem Later.signalled (h : Later hw hw') {w : Fence E} (hDue : hw.Signalled w) :
    hw'.Signalled w := by
  cases w with
  | drawn e n => exact Nat.lt_of_lt_of_le hDue (h.done e)
  | shown n => exact Nat.lt_of_lt_of_le hDue h.latched

/-- A reader stays through. -/
theorem Later.over (h : Later hw hw') {x : Reader E} (hOver : hw.Over x) : hw'.Over x := by
  cases x with
  | drawing e n => exact Nat.lt_of_lt_of_le hOver (h.done e)
  | panel n => exact Nat.lt_of_lt_of_le hOver h.latched

/-- Where nothing more has gone up, what has was not too early. -/
theorem Landed.later (h : hw.Landed) (hLater : Later hw hw') (hLatched : hw'.latched = hw.latched)
    (hGiven : hw.flips.length ≤ hw'.flips.length) : hw'.Landed := by
  refine ⟨by have := h.given; omega, ?_⟩
  intro k f hk hf w hWaits
  rw [hLatched] at hk
  obtain ⟨f', hf'⟩ : ∃ f', _ = some f' :=
    ⟨_, List.getElem?_eq_getElem (Nat.lt_of_lt_of_le hk h.given)⟩
  obtain rfl : f' = f := Option.some.inj ((hLater.flips hf').symm.trans hf)
  exact hLater.signalled (h.waited hk hf' w hWaits)

section Steps

variable [DecidableEq E]

theorem later_submit (e : E) (d : Drawing B) : Later hw (hw.submit e d) := by
  refine ⟨fun e' => ?_, Nat.le_refl _, id⟩
  by_cases h : e' = e
  · rw [h]
    simp [submit]
  · simp [submit, h]

theorem landed_submit (h : hw.Landed) (e : E) (d : Drawing B) : (hw.submit e d).Landed :=
  h.later (later_submit e d) rfl (Nat.le_refl _)

theorem later_finish {e : E} (h : hw.finish e = some hw') :
    Later hw hw' ∧ hw'.latched = hw.latched ∧ hw'.flips = hw.flips := by
  unfold finish at h
  split at h
  · obtain rfl := Option.some.inj h
    refine ⟨⟨fun e' => ?_, Nat.le_refl _, id⟩, rfl, rfl⟩
    by_cases he : e' = e
    · rw [he]
      simp
    · simp [he]
  · cases h

theorem landed_finish {e : E} (hLanded : hw.Landed) (h : hw.finish e = some hw') :
    hw'.Landed := by
  obtain ⟨hLater, hLatched, hFlips⟩ := later_finish h
  exact hLanded.later hLater hLatched (Nat.le_of_eq (congrArg List.length hFlips.symm))

end Steps

theorem later_flip (f : Flip E B) : Later hw (hw.flip f) := by
  refine ⟨fun _ => Nat.le_refl _, Nat.le_refl _, ?_⟩
  intro k g hg
  have hk : k < hw.flips.length := (List.getElem?_eq_some_iff.mp hg).1
  rw [flip, List.getElem?_append_left hk]
  exact hg

theorem landed_flip (h : hw.Landed) (f : Flip E B) : (hw.flip f).Landed := by
  refine h.later (later_flip f) rfl ?_
  simp [flip]

theorem later_latch (h : hw.latch = some hw') : Later hw hw' := by
  unfold latch at h
  split at h
  · cases h
  · split at h
    · obtain rfl := Option.some.inj h
      exact ⟨fun _ => Nat.le_refl _, Nat.le_succ _, id⟩
    · cases h

/-- What goes up waits for nothing any more. -/
theorem landed_latch (hLanded : hw.Landed) (h : hw.latch = some hw') : hw'.Landed := by
  have hLater := later_latch h
  unfold latch at h
  split at h
  · cases h
  · rename_i g hNext
    split at h
    · rename_i hWaited
      obtain rfl := Option.some.inj h
      refine ⟨(List.getElem?_eq_some_iff.mp hNext).1, ?_⟩
      intro k f hk hf w hWaits
      rcases Nat.lt_or_ge k hw.latched with hlt | hge
      · exact hLater.signalled (hLanded.waited hlt hf w hWaits)
      · obtain rfl : k = hw.latched := Nat.le_antisymm (Nat.le_of_lt_succ hk) hge
        obtain rfl : g = f := Option.some.inj (hNext.symm.trans hf)
        exact hLater.signalled (hWaited w hWaits)
    · cases h

-- ---------------------------------------------------------------------------
-- What a fence says
-- ---------------------------------------------------------------------------

section Readers

variable [DecidableEq B]

/-- A reader under way is not through. -/
theorem not_over_of_reads {b : B} {x : Reader E} (h : hw.Reads b x) : ¬ hw.Over x := by
  cases x with
  | drawing e n =>
    obtain ⟨-, hn⟩ := List.mem_filter.mp h
    exact Nat.not_lt.mpr (of_decide_eq_true (Bool.and_eq_true_iff.mp hn).1)
  | panel n =>
    obtain ⟨-, hn⟩ := List.mem_filter.mp h
    exact Nat.not_lt.mpr (of_decide_eq_true (Bool.and_eq_true_iff.mp hn).1)

/-- The panel reads the buffers of the flips it was given, until their turn is
past. -/
theorem mem_onPanel {b : B} {n : Nat} :
    n ∈ hw.onPanel b ↔ hw.latched ≤ n + 1 ∧ ∃ f, hw.flips[n]? = some f ∧ b ∈ f.windows := by
  unfold onPanel
  rw [List.mem_filter, List.mem_range, Bool.and_eq_true, decide_eq_true_eq]
  constructor
  · rintro ⟨hn, hLatched, hShows⟩
    rw [List.getElem?_eq_getElem hn] at hShows
    exact ⟨hLatched, _, List.getElem?_eq_getElem hn, by simpa using hShows⟩
  · rintro ⟨hLatched, f, hf, hShows⟩
    exact ⟨(List.getElem?_eq_some_iff.mp hf).1, hLatched, by simpa [hf] using hShows⟩

end Readers

/-- What a flip does not show is on a window of one before it. -/
theorem before_flip {f g : Flip E B} {b : B} (hShows : b ∉ f.windows) {n : Nat}
    (hg : (hw.flip f).flips[n]? = some g) (hWindow : b ∈ g.windows) : hw.flips[n]? = some g := by
  rcases Nat.lt_or_ge n hw.flips.length with hlt | hge
  · rwa [flip, List.getElem?_append_left hlt] at hg
  · rw [flip, List.getElem?_append_right hge] at hg
    have hIn := List.mem_of_getElem? hg
    exact absurd (List.mem_singleton.mp hIn ▸ hWindow) hShows

section Fences

variable [DecidableEq E]

variable (hw) in
/-- The order of things has a reader through before a fence is due: it is
through already, or the fence is of a flip that replaces it, or that goes up no
earlier than one that waits for it. -/
def Covered (fence : Option (Fence E)) (x : Reader E) : Prop :=
  hw.Over x ∨
    ∃ n, fence = some (.shown n) ∧
      ((∃ k, x = .panel k ∧ k < n) ∨ ∃ k f, k ≤ n ∧ hw.flips[k]? = some f ∧ f.awaits x = true)

/-- What is covered stays so. -/
theorem Later.covered (h : Later hw hw') {fence : Option (Fence E)} {x : Reader E}
    (hCovered : hw.Covered fence x) : hw'.Covered fence x := by
  rcases hCovered with hOver | ⟨n, hFence, hReplaced | ⟨k, f, hk, hf, hAwaits⟩⟩
  · exact .inl (h.over hOver)
  · exact .inr ⟨n, hFence, .inl hReplaced⟩
  · exact .inr ⟨n, hFence, .inr ⟨k, f, hk, h.flips hf, hAwaits⟩⟩

/-- A fence that is signalled has what it covers through. -/
theorem over_of_covers {w : Fence E} {x : Reader E} (hDue : hw.Signalled w)
    (hCovers : w.covers x = true) : hw.Over x := by
  cases w with
  | shown n => cases x <;> cases hCovers
  | drawn e m =>
    cases x with
    | panel n => cases hCovers
    | drawing e' n =>
      obtain ⟨hEngine, hn⟩ := Bool.and_eq_true_iff.mp hCovers
      obtain rfl := of_decide_eq_true hEngine
      exact Nat.lt_of_le_of_lt (of_decide_eq_true hn) hDue

/-- What a flip that has gone up waited for is through. -/
theorem Landed.over_of_awaits (h : hw.Landed) {k : Nat} {f : Flip E B} {x : Reader E}
    (hk : k < hw.latched) (hf : hw.flips[k]? = some f) (hAwaits : f.awaits x = true) :
    hw.Over x := by
  obtain ⟨w, hWaits, hCovers⟩ := List.any_eq_true.mp hAwaits
  exact over_of_covers (h.waited hk hf w hWaits) hCovers

/-- **A reading covered by a fence is over once that is due.** -/
theorem Landed.over_of_covered (h : hw.Landed) {fence : Option (Fence E)} {x : Reader E}
    (hCovered : hw.Covered fence x) (hDue : hw.Due fence) : hw.Over x := by
  rcases hCovered with hOver | ⟨n, rfl, ⟨k, rfl, hk⟩ | ⟨k, f, hk, hf, hAwaits⟩⟩
  · exact hOver
  · exact Nat.lt_of_le_of_lt hk hDue
  · exact h.over_of_awaits (Nat.lt_of_le_of_lt hk hDue) hf hAwaits

variable [DecidableEq B]

/-- **What the fence of a flip covers.** A buffer that the flip does not show
again is free once the flip is up, where a flip waits for each drawing under way
that reads it. -/
theorem covered_of_flip {f : Flip E B} {b : B} (hShows : b ∉ f.windows)
    (hAwaited : ∀ e, ∀ n ∈ hw.underWay e b, ∃ g ∈ (hw.flip f).flips, g.awaits (.drawing e n) = true)
    {x : Reader E} (hReads : (hw.flip f).Reads b x) :
    (hw.flip f).Covered (some (.shown hw.flips.length)) x := by
  refine .inr ⟨_, rfl, ?_⟩
  cases x with
  | drawing e n =>
    obtain ⟨g, hMem, hAwaits⟩ := hAwaited e n hReads
    obtain ⟨k, hk⟩ := List.mem_iff_getElem?.mp hMem
    have hLength : k < hw.flips.length + 1 := by
      simpa [flip] using (List.getElem?_eq_some_iff.mp hk).1
    exact .inr ⟨k, g, Nat.le_of_lt_succ hLength, hk, hAwaits⟩
  | panel n =>
    obtain ⟨-, g, hg, hWindow⟩ := mem_onPanel.mp hReads
    obtain ⟨hlt, -⟩ := List.getElem?_eq_some_iff.mp (before_flip hShows hg hWindow)
    exact .inl ⟨n, rfl, hlt⟩

/-- **A buffer nothing reads.** With all flips up but one that does not show it,
a buffer that the last of them did not show either is free already, where each
drawing under way that reads it is one a flip has waited for. -/
theorem unread_of_landed (h : hw.Landed) (hLast : hw.latched = hw.flips.length) {f : Flip E B}
    {b : B} (hShows : b ∉ f.windows) (hShown : ∀ g ∈ hw.flips.getLast?, b ∉ g.windows)
    (hAwaited : ∀ e, ∀ n ∈ hw.underWay e b, ∃ g ∈ hw.flips, g.awaits (.drawing e n) = true)
    (x : Reader E) : ¬ (hw.flip f).Reads b x := by
  intro hReads
  cases x with
  | drawing e n =>
    obtain ⟨g, hMem, hAwaits⟩ := hAwaited e n hReads
    obtain ⟨k, hk⟩ := List.mem_iff_getElem?.mp hMem
    have hUp : k < hw.latched := hLast ▸ (List.getElem?_eq_some_iff.mp hk).1
    exact not_over_of_reads hReads (h.over_of_awaits hUp hk hAwaits)
  | panel n =>
    obtain ⟨hLatched, g, hg, hWindow⟩ := mem_onPanel.mp hReads
    have hLate : hw.flips.length ≤ n + 1 := hLast ▸ hLatched
    have hBefore := before_flip hShows hg hWindow
    obtain ⟨hlt, -⟩ := List.getElem?_eq_some_iff.mp hBefore
    obtain rfl : n = hw.flips.length - 1 := by omega
    exact hShown g (by rw [List.getLast?_eq_getElem?]; exact hBefore) hWindow

end Fences

end Hardware

end Scanout
