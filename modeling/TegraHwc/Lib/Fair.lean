import Mathlib.Data.Nat.Init
import TegraHwc.Lib.Runs

/-!
# Fair — behaviours without end, and what comes of them

A `Behaviour` of a machine goes on for ever: at each instant an action is taken or
nothing happens. What is said of it is said of its instants, as predicates on `Nat`.
Nothing need ever happen unless it is assumed to; `WeakFair` is how it is.

## Results

* `Behaviour.invariant` — the history rule, at every instant.
* `WeakFair.leadsTo_occurs` — what lasts until a step that it enables comes to that
  step.
* `WeakFair.leadsTo`, `WeakFair.leadsTo_of_rank` — and to what the step brings, at
  once or as a rank falls.
* `not_often_less`      — a number that never grows does not fall again and again.
-/

namespace Runs

variable {σ α ε : Type*}

-- ---------------------------------------------------------------------------
-- Behaviours
-- ---------------------------------------------------------------------------

/-- An endless run of a machine. -/
structure Behaviour (m : Machine σ α ε) (start : σ) where
  state : Nat → σ
  act : Nat → Option α
  first : state 0 = start
  next : ∀ n, (match act n with
    | none => some (state n)
    | some a => m.step (state n) a) = some (state (n + 1))

namespace Behaviour

variable {m : Machine σ α ε} {start : σ} (b : Behaviour m start)

/-- The events of an instant. -/
def events (n : Nat) : List ε :=
  match b.act n with
  | none => []
  | some a => m.events (b.state n) a

/-- The events before an instant. -/
def history (n : Nat) : List ε := (List.range n).flatMap b.events

theorem history_succ (n : Nat) : b.history (n + 1) = b.history n ++ b.events n := by
  simp [history, List.range_succ]

/-- What happens at an instant is a step, or nothing. -/
theorem step_or_rest (n : Nat) :
    (∃ a, b.act n = some a ∧ m.step (b.state n) a = some (b.state (n + 1)) ∧
      b.events n = m.events (b.state n) a) ∨
      (b.act n = none ∧ b.state (n + 1) = b.state n ∧ b.events n = []) := by
  have hNext := b.next n
  unfold events
  cases hAct : b.act n with
  | none =>
    rw [hAct] at hNext
    exact .inr ⟨rfl, (Option.some.inj hNext).symm, rfl⟩
  | some a =>
    rw [hAct] at hNext
    exact .inl ⟨a, rfl, hNext, rfl⟩

/-- **History rule.** What holds at the start, and is kept by every step as its events
are added, holds at every instant. -/
theorem invariant {I : List ε → σ → Prop}
    (hStep : ∀ h s a s', I h s → m.step s a = some s' → I (h ++ m.events s a) s')
    (hStart : I [] start) (n : Nat) : I (b.history n) (b.state n) := by
  induction n with
  | zero =>
    rw [b.first]
    exact hStart
  | succ n ih =>
    rw [history_succ]
    rcases b.step_or_rest n with ⟨a, -, hTaken, hEvents⟩ | ⟨-, hRest, hEvents⟩
    · rw [hEvents]
      exact hStep _ _ a _ ih hTaken
    · rw [hEvents, hRest, List.append_nil]
      exact ih

/-- The states of a run, the last of them for ever. -/
def runStates (m : Machine σ α ε) : σ → List α → Nat → σ
  | s, [], _ => s
  | s, _ :: _, 0 => s
  | s, a :: as, n + 1 =>
    match m.step s a with
    | none => s
    | some s' => runStates m s' as n

@[simp] theorem runStates_zero (s : σ) (as : List α) : runStates m s as 0 = s := by
  cases as <;> rfl

theorem runStates_next {s s' : σ} {as : List α} (hRun : m.run s as = some s') (n : Nat) :
    (match as[n]? with
      | none => some (runStates m s as n)
      | some a => m.step (runStates m s as n) a) = some (runStates m s as (n + 1)) := by
  induction as generalizing s n with
  | nil => rfl
  | cons a as ih =>
    obtain ⟨t, hTaken, hRest⟩ := Machine.run_cons.mp hRun
    cases n with
    | zero => simp [runStates, hTaken]
    | succ n => simpa [runStates, hTaken] using ih hRest n

theorem runStates_last {s s' : σ} {as : List α} (hRun : m.run s as = some s') {n : Nat}
    (hPast : as.length ≤ n) : runStates m s as n = s' := by
  induction as generalizing s n with
  | nil => exact Option.some.inj hRun
  | cons a as ih =>
    obtain ⟨t, hTaken, hRest⟩ := Machine.run_cons.mp hRun
    cases n with
    | zero => cases hPast
    | succ n => simpa [runStates, hTaken] using ih hRest (Nat.le_of_succ_le_succ hPast)

/-- A run, and nothing thereafter. -/
def ofRun {as : List α} {last : σ} (hRun : m.run start as = some last) : Behaviour m start where
  state := runStates m start as
  act n := as[n]?
  first := runStates_zero start as
  next := runStates_next hRun

end Behaviour

-- ---------------------------------------------------------------------------
-- Leading to
-- ---------------------------------------------------------------------------

/-- Whenever the one holds, the other does then or later. -/
def LeadsTo (P Q : Nat → Prop) : Prop := ∀ n, P n → ∃ m, n ≤ m ∧ Q m

/-- What is enabled for ever comes to occur. -/
def WeakFair (enabled occurs : Nat → Prop) : Prop :=
  ∀ n, (∀ m, n ≤ m → enabled m) → ∃ m, n ≤ m ∧ occurs m

variable {P Q R enabled occurs : Nat → Prop}

theorem LeadsTo.trans (hFirst : LeadsTo P Q) (hSecond : LeadsTo Q R) : LeadsTo P R := by
  intro n hP
  obtain ⟨m, hLater, hQ⟩ := hFirst n hP
  obtain ⟨k, hEvenLater, hR⟩ := hSecond m hQ
  exact ⟨k, Nat.le_trans hLater hEvenLater, hR⟩

/-- **Rank rule.** What leads to the end or to a lower rank leads to the end. -/
theorem LeadsTo.of_rank (rank : Nat → Nat)
    (h : ∀ k, LeadsTo (fun n => P n ∧ rank n = k) (fun n => Q n ∨ P n ∧ rank n < k)) :
    LeadsTo P Q := by
  intro n hP
  induction hRank : rank n using Nat.strong_induction_on generalizing n with
  | _ k ih =>
    obtain ⟨m, hLater, hQ | ⟨hPm, hLess⟩⟩ := h k n ⟨hP, hRank⟩
    · exact ⟨m, hLater, hQ⟩
    · obtain ⟨i, hEvenLater, hQ⟩ := ih (rank m) hLess m hPm rfl
      exact ⟨i, Nat.le_trans hLater hEvenLater, hQ⟩

/-- Nothing is asked of what is never enabled for good. -/
theorem WeakFair.of_not (hNot : ∀ n, ∃ m, n ≤ m ∧ ¬enabled m) : WeakFair enabled occurs := by
  intro n hAlways
  obtain ⟨m, hLater, hNone⟩ := hNot n
  exact absurd (hAlways m hLater) hNone

/-- What lasts until a step that it enables comes to that step. -/
theorem WeakFair.leadsTo_occurs (hFair : WeakFair enabled occurs)
    (hEnabled : ∀ n, P n → enabled n) (hLasts : ∀ n, P n → ¬occurs n → P (n + 1)) :
    LeadsTo P (fun n => P n ∧ occurs n) := by
  intro n hP
  by_contra hNever
  have hAlways : ∀ m, n ≤ m → P m := by
    intro m hLater
    induction m, hLater using Nat.le_induction with
    | base => exact hP
    | succ m hLater ih => exact hLasts m ih fun hOccurs => hNever ⟨m, hLater, ih, hOccurs⟩
  obtain ⟨m, hLater, hOccurs⟩ := hFair n fun m hLater => hEnabled m (hAlways m hLater)
  exact hNever ⟨m, hLater, hAlways m hLater, hOccurs⟩

/-- What lasts until a step that it enables, or until the end, comes to what the step
brings. -/
theorem WeakFair.leadsTo (hFair : WeakFair enabled occurs) (hEnabled : ∀ n, P n → enabled n)
    (hStep : ∀ n, P n → occurs n → Q (n + 1))
    (hElse : ∀ n, P n → ¬occurs n → Q (n + 1) ∨ P (n + 1)) : LeadsTo P Q := by
  intro n hP
  by_contra hNever
  -- until the end there is no end, so what lasts until then lasts for ever
  have hNot : ∀ m, n ≤ m → ¬Q m := fun m hLater hQ => hNever ⟨m, hLater, hQ⟩
  have hComes := WeakFair.leadsTo_occurs (P := fun m => n ≤ m ∧ P m) hFair
    (fun m hHere => hEnabled m hHere.2)
    (fun m hHere hNone => ⟨Nat.le_succ_of_le hHere.1,
      (hElse m hHere.2 hNone).resolve_left (hNot (m + 1) (Nat.le_succ_of_le hHere.1))⟩)
  obtain ⟨m, -, ⟨hLater, hPm⟩, hOccurs⟩ := hComes n ⟨Nat.le_refl n, hP⟩
  exact hNot (m + 1) (Nat.le_succ_of_le hLater) (hStep m hPm hOccurs)

/-- The same where the step brings the end or a lower rank, and nothing else raises
it. -/
theorem WeakFair.leadsTo_of_rank (hFair : WeakFair enabled occurs) (rank : Nat → Nat)
    (hEnabled : ∀ n, P n → enabled n)
    (hStep : ∀ n, P n → occurs n → Q (n + 1) ∨ P (n + 1) ∧ rank (n + 1) < rank n)
    (hElse : ∀ n, P n → ¬occurs n → Q (n + 1) ∨ P (n + 1) ∧ rank (n + 1) ≤ rank n) :
    LeadsTo P Q := by
  refine LeadsTo.of_rank rank fun k => ?_
  refine WeakFair.leadsTo hFair (fun n hHere => hEnabled n hHere.1) ?_ ?_
  · rintro n ⟨hP, rfl⟩ hOccurs
    exact hStep n hP hOccurs
  · rintro n ⟨hP, rfl⟩ hNone
    rcases hElse n hP hNone with hQ | ⟨hPn, hLe⟩
    · exact .inl (.inl hQ)
    · rcases Nat.lt_or_eq_of_le hLe with hLess | hSame
      · exact .inl (.inr ⟨hPn, hLess⟩)
      · exact .inr ⟨hPn, hSame⟩

/-- A number that never grows does not fall again and again. -/
theorem not_often_less {f : Nat → Nat} {n : Nat} (hNever : ∀ m, n ≤ m → f (m + 1) ≤ f m)
    (hOften : ∀ m, n ≤ m → ∃ k, m ≤ k ∧ f (k + 1) < f k) : False := by
  have hFalls : LeadsTo (fun m => n ≤ m) (fun _ => False) := by
    refine LeadsTo.of_rank f fun k => ?_
    rintro m ⟨hLater, rfl⟩
    obtain ⟨i, hEvenLater, hLess⟩ := hOften m hLater
    have hMono : f i ≤ f m := by
      clear hLess
      induction i, hEvenLater using Nat.le_induction with
      | base => exact Nat.le_refl _
      | succ i hBetween ih => exact Nat.le_trans (hNever i (Nat.le_trans hLater hBetween)) ih
    exact ⟨i + 1, Nat.le_succ_of_le hEvenLater, .inr
      ⟨Nat.le_succ_of_le (Nat.le_trans hLater hEvenLater), Nat.lt_of_lt_of_le hLess hMono⟩⟩
  obtain ⟨-, -, hFalse⟩ := hFalls n (Nat.le_refl n)
  exact hFalse

/-- What holds, and later does not, ends at some instant. -/
theorem ends_of_not {n m : Nat} (hLater : n ≤ m) (hP : P n) (hNot : ¬P m) :
    ∃ k, n ≤ k ∧ P k ∧ ¬P (k + 1) := by
  by_contra hNever
  have hGoesOn : ∀ k, n ≤ k → P k → P (k + 1) := fun k hBetween hHere =>
    by_contra fun hEnds => hNever ⟨k, hBetween, hHere, hEnds⟩
  exact hNot (Nat.le_induction hP hGoesOn m hLater)

end Runs
