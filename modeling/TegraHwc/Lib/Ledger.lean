import Mathlib.Data.Multiset.AddSub
import Mathlib.Data.Multiset.Count
import Mathlib.Tactic.Common

/-!
# Ledger — things taken, used and let go

A ledger replays a history of things that are taken, used and let go. What is
held is a multiset: a thing may be taken again once it has been let go, or
twice at the same time. Using or letting go what is not held is no ledger.
Things are of any type.

## Results

* `run_append`      — ledgers join.
* `run_takes`, `run_drops`, `run_uses` — taking some things, letting go some of
  what is held, and using it.
* `held_of_touched` — what is used or let go had been taken more often than it
  was let go.
* `taken_eq_dropped` — where nothing is left, all was let go as often as taken.
-/

namespace Ledger

variable {τ : Type*} [DecidableEq τ]

/-- What happens to a thing. -/
inductive Event (τ : Type*) where
  | take (t : τ)
  | use (t : τ)
  | drop (t : τ)
  deriving DecidableEq, Repr

/-- What is held after an event. -/
def step (held : Multiset τ) : Event τ → Option (Multiset τ)
  | .take t => some (t ::ₘ held)
  | .use t => if t ∈ held then some held else none
  | .drop t => if t ∈ held then some (held.erase t) else none

/-- What is held after some events. -/
def run : Multiset τ → List (Event τ) → Option (Multiset τ)
  | held, [] => some held
  | held, e :: es => (step held e).bind fun held => run held es

/-- How often a thing was taken. -/
def takes (t : τ) (es : List (Event τ)) : Nat := es.count (.take t)

/-- How often it was let go. -/
def drops (t : τ) (es : List (Event τ)) : Nat := es.count (.drop t)

/-- An event that needs a thing held. -/
def Touches (t : τ) (e : Event τ) : Prop := e = .use t ∨ e = .drop t

@[simp] theorem run_nil (held : Multiset τ) : run held [] = some held := rfl

theorem run_cons {held : Multiset τ} {e : Event τ} {es : List (Event τ)} :
    run held (e :: es) = (step held e).bind fun held => run held es := rfl

/-- **Ledgers join.** -/
theorem run_append {held : Multiset τ} {es es' : List (Event τ)} :
    run held (es ++ es') = (run held es).bind fun held => run held es' := by
  induction es generalizing held with
  | nil => rfl
  | cons e es ih =>
    rw [List.cons_append, run_cons, run_cons, Option.bind_assoc]
    congr 1
    funext held
    exact ih

/-- Some things are taken. -/
theorem run_takes (held : Multiset τ) (ts : List τ) :
    run held (ts.map .take) = some ((ts : Multiset τ) + held) := by
  induction ts generalizing held with
  | nil => simp
  | cons t ts ih =>
    rw [List.map_cons, run_cons, step, Option.bind_some, ih, ← Multiset.cons_coe,
      Multiset.cons_add, Multiset.add_cons]

/-- Some of what is held is let go. -/
theorem run_drops (held : Multiset τ) (ts : List τ) :
    run ((ts : Multiset τ) + held) (ts.map .drop) = some held := by
  induction ts with
  | nil => simp
  | cons t ts ih =>
    rw [List.map_cons, run_cons]
    have hStep : step (((t :: ts : List τ) : Multiset τ) + held) (.drop t) = some ((ts : Multiset τ) + held) := by
      rw [← Multiset.cons_coe, Multiset.cons_add, step, if_pos (Multiset.mem_cons_self _ _),
        Multiset.erase_cons_head]
    rw [hStep]
    exact ih

/-- What is held is used. -/
theorem run_uses {held : Multiset τ} {ts : List τ} (hHeld : ∀ t ∈ ts, t ∈ held) :
    run held (ts.map .use) = some held := by
  induction ts with
  | nil => rfl
  | cons t ts ih =>
    rw [List.map_cons, run_cons, step, if_pos (hHeld t List.mem_cons_self)]
    exact ih fun u hu => hHeld u (List.mem_cons_of_mem _ hu)

/-- A thing is held as often as it was taken and not let go. -/
theorem count_step {held held' : Multiset τ} {e : Event τ} (hStep : step held e = some held')
    (t : τ) : held'.count t + drops t [e] = held.count t + takes t [e] := by
  cases e with
  | take u =>
    obtain rfl := Option.some.inj hStep
    by_cases h : t = u
    · subst h
      simp [takes, drops]
    · simp [takes, drops, Multiset.count_cons_of_ne h, Ne.symm h]
  | use u =>
    simp only [step, Option.ite_none_right_eq_some] at hStep
    obtain ⟨-, hSame⟩ := hStep
    obtain rfl := Option.some.inj hSame
    simp [takes, drops]
  | drop u =>
    simp only [step, Option.ite_none_right_eq_some] at hStep
    obtain ⟨hHeld, hLess⟩ := hStep
    obtain rfl := Option.some.inj hLess
    have hPos := Multiset.count_pos.mpr hHeld
    by_cases h : t = u
    · subst h
      simp [takes, drops, Multiset.count_erase_self]
      omega
    · simp [takes, drops, Multiset.count_erase_of_ne h, Ne.symm h]

theorem count_run {held held' : Multiset τ} {es : List (Event τ)} (hRun : run held es = some held')
    (t : τ) : held'.count t + drops t es = held.count t + takes t es := by
  induction es generalizing held with
  | nil =>
    obtain rfl := Option.some.inj hRun
    rfl
  | cons e es ih =>
    rw [run_cons, Option.bind_eq_some_iff] at hRun
    obtain ⟨middle, hStep, hRest⟩ := hRun
    have hFirst := count_step hStep t
    have hLater := ih hRest
    simp only [takes, drops, List.count_cons, List.count_nil] at hFirst hLater ⊢
    omega

/-- **What is used or let go is held.** -/
theorem held_of_touched {held' : Multiset τ} {before after : List (Event τ)} {e : Event τ} {t : τ}
    (hRun : run 0 (before ++ e :: after) = some held') (hTouches : Touches t e) :
    drops t before < takes t before := by
  rw [run_append, Option.bind_eq_some_iff] at hRun
  obtain ⟨held, hBefore, hRest⟩ := hRun
  have hCount := count_run hBefore t
  rw [Multiset.count_zero, Nat.zero_add] at hCount
  rw [run_cons, Option.bind_eq_some_iff] at hRest
  obtain ⟨next, hStep, -⟩ := hRest
  have hHeld : t ∈ held := by
    rcases hTouches with rfl | rfl <;> exact (Option.ite_none_right_eq_some.mp hStep).1
  have hPos := Multiset.count_pos.mpr hHeld
  omega

/-- **Where nothing is left, all was let go as often as it was taken.** -/
theorem taken_eq_dropped {es : List (Event τ)} (hRun : run 0 es = some 0) (t : τ) :
    drops t es = takes t es := by
  have hCount := count_run hRun t
  rwa [Multiset.count_zero, Nat.zero_add, Nat.zero_add] at hCount

end Ledger
