import Mathlib.Data.List.Basic

/-!
# Runs — machines, their runs and their histories

A `Machine` is a state, a set of actions and a step that may refuse an
action; each step taken also emits a list of events. A run is a list of
actions, its history the events of its steps in order. Everything here is
over arbitrary states, actions and events.

Interleavings need no machinery of their own: where several threads share a
state under one lock, each of their critical sections is an action, and the
runs of the machine are exactly the interleavings.

## Results

* `Machine.run_history`  — an invariant of history and state, kept by every
  step, holds after every run.
* `Machine.run_of_meets`, `Machine.run_history_of_meets` — what is kept by the
  steps that meet a condition holds after every run all of whose steps meet it.
* `Machine.meets_steps`  — what is told of a run's own steps can be asked of them.
* `Machine.trace_iff_meets` — the events of a run are as wanted just where its
  steps meet a condition, where those of each step are.
* `follows_concat`       — an order kept among the events, an event at a time.
* `Path.invariant`       — the rule for a relation that emits events.
* `Machine.run_path`     — a machine each of whose steps is a path of a
  relation has only runs that are paths of it.
-/

namespace Runs

variable {σ α ε : Type*}

/-- A machine: the next state, none where the action cannot be taken, and
the events a taken step emits. -/
structure Machine (σ α ε : Type*) where
  step : σ → α → Option σ
  events : σ → α → List ε

namespace Machine

variable (m : Machine σ α ε)

/-- The state after the actions; none when one of them could not be taken. -/
def run : σ → List α → Option σ
  | s, [] => some s
  | s, a :: as =>
    match m.step s a with
    | none => none
    | some s' => run s' as

/-- The events of the run, up to the first action that could not be taken. -/
def trace : σ → List α → List ε
  | _, [] => []
  | s, a :: as =>
    match m.step s a with
    | none => []
    | some s' => m.events s a ++ trace s' as

/-- The steps of the run, each with the state before it and the one after. -/
def steps : σ → List α → List (σ × σ)
  | _, [] => []
  | s, a :: as =>
    match m.step s a with
    | none => []
    | some s' => (s, s') :: steps s' as

/-- Every step of the run meets the condition `C` on the state it starts
from and its action. -/
def Meets (C : σ → α → Prop) : σ → List α → Prop
  | _, [] => True
  | s, a :: as =>
    C s a ∧
      match m.step s a with
      | none => True
      | some s' => Meets C s' as

/-- Whether a run meets a condition that can be decided can be decided. -/
instance decidableMeets {C : σ → α → Prop} [∀ s a, Decidable (C s a)] :
    ∀ (s : σ) (as : List α), Decidable (m.Meets C s as)
  | _, [] => .isTrue trivial
  | s, a :: as =>
    @instDecidableAnd _ _ _
      (match m.step s a with
        | none => .isTrue trivial
        | some s' => decidableMeets s' as)

variable {m}

/-- A condition on actions alone is met where every action meets it. -/
theorem meets_of_forall {C : α → Prop} {as : List α} (h : ∀ a ∈ as, C a) (s : σ) :
    m.Meets (fun _ a => C a) s as := by
  induction as generalizing s with
  | nil => trivial
  | cons a as ih =>
    refine ⟨h a (by simp), ?_⟩
    cases m.step s a with
    | none => trivial
    | some s' => exact ih (fun b hb => h b (by simp [hb])) s'

/-- A run meets two conditions where it meets each. -/
theorem Meets.and {C D : σ → α → Prop} {s : σ} {as : List α} (hC : m.Meets C s as)
    (hD : m.Meets D s as) : m.Meets (fun s a => C s a ∧ D s a) s as := by
  induction as generalizing s with
  | nil => trivial
  | cons a as ih =>
    refine ⟨⟨hC.1, hD.1⟩, ?_⟩
    have hRestC := hC.2
    have hRestD := hD.2
    cases h : m.step s a with
    | none => trivial
    | some s' =>
      rw [h] at hRestC hRestD
      exact ih hRestC hRestD

/-- Each step of a run is one of its steps. -/
theorem meets_steps {told : List (σ × σ)} {s : σ} {as : List α}
    (hTold : ∀ x ∈ m.steps s as, x ∈ told) :
    m.Meets (fun s a => ∀ s', m.step s a = some s' → (s, s') ∈ told) s as := by
  induction as generalizing s with
  | nil => trivial
  | cons a as ih =>
    unfold steps at hTold
    cases h : m.step s a with
    | none => simp [Meets, h]
    | some t =>
      rw [h] at hTold
      refine ⟨fun s' hTaken => ?_, ?_⟩
      · obtain rfl := Option.some.inj (h.symm.trans hTaken)
        exact hTold _ (by simp)
      · rw [h]
        exact ih fun x hx => hTold x (by simp [hx])

@[simp] theorem run_nil (s : σ) : m.run s [] = some s := rfl

@[simp] theorem trace_nil (s : σ) : m.trace s [] = [] := rfl

/-- A run of one action more is a step and a run. -/
theorem run_cons {s s' : σ} {a : α} {as : List α} :
    m.run s (a :: as) = some s' ↔ ∃ t, m.step s a = some t ∧ m.run t as = some s' := by
  cases h : m.step s a with
  | none => simp [run, h]
  | some t => simp [run, h]

/-- The history of a run starts with the events of its first step. -/
theorem trace_cons {s t : σ} {a : α} {as : List α} (h : m.step s a = some t) :
    m.trace s (a :: as) = m.events s a ++ m.trace t as := by
  simp [trace, h]

/-- A machine that refuses no action runs any list of them. -/
theorem run_of_total (hTotal : ∀ s a, ∃ s', m.step s a = some s') (s : σ) (as : List α) :
    ∃ s', m.run s as = some s' := by
  induction as generalizing s with
  | nil => exact ⟨s, rfl⟩
  | cons a as ih =>
    obtain ⟨t, hTaken⟩ := hTotal s a
    obtain ⟨s', hRest⟩ := ih t
    exact ⟨s', run_cons.mpr ⟨t, hTaken, hRest⟩⟩

/-- **Guarded history rule.** What holds at the start, and is kept by every step
that meets `C` as its events are added, holds after every run whose steps all
meet `C`. -/
theorem run_history_of_meets {C : σ → α → Prop} {I : List ε → σ → Prop}
    (hStep : ∀ h s a s', I h s → C s a → m.step s a = some s' → I (h ++ m.events s a) s')
    {s s' : σ} {as : List α} {h : List ε} (hI : I h s) (hMeets : m.Meets C s as)
    (hRun : m.run s as = some s') : I (h ++ m.trace s as) s' := by
  induction as generalizing s h with
  | nil =>
    obtain rfl := Option.some.inj hRun
    simpa using hI
  | cons a as ih =>
    obtain ⟨t, hTaken, hRest⟩ := run_cons.mp hRun
    obtain ⟨hC, hMeetsRest⟩ := hMeets
    rw [hTaken] at hMeetsRest
    rw [trace_cons hTaken, ← List.append_assoc]
    exact ih (hStep h s a t hI hC hTaken) hMeetsRest hRest

/-- **History rule.** What holds of the empty history at the start, and is
kept by every step as its events are added, holds after every run. -/
theorem run_history {I : List ε → σ → Prop}
    (hStep : ∀ h s a s', I h s → m.step s a = some s' → I (h ++ m.events s a) s')
    {s s' : σ} {as : List α} {h : List ε} (hI : I h s) (hRun : m.run s as = some s') :
    I (h ++ m.trace s as) s' :=
  run_history_of_meets (fun h s a s' hI _ => hStep h s a s' hI) hI
    (meets_of_forall (C := fun _ => True) (fun _ _ => trivial) s) hRun

/-- **Guarded invariant rule.** What every step that meets `C` keeps holds
after every run whose steps all meet `C`. -/
theorem run_of_meets {C : σ → α → Prop} {I : σ → Prop}
    (hStep : ∀ s a s', I s → C s a → m.step s a = some s' → I s')
    {s s' : σ} {as : List α} (hI : I s) (hMeets : m.Meets C s as)
    (hRun : m.run s as = some s') : I s' :=
  run_history_of_meets (I := fun _ => I) (h := []) (fun _ s a s' => hStep s a s') hI hMeets hRun

/-- **Trace rule.** Where the events of a step that meets `C` are as wanted just where
the step meets `D`, at every state an invariant holds of that is kept by the steps
that meet both, the events of a run whose steps all meet `C` are as wanted just where
they all meet `D`. -/
theorem trace_iff_meets {C D : σ → α → Prop} {I : σ → Prop} {P : ε → Prop}
    (hStep : ∀ s a s', I s → C s a → D s a → m.step s a = some s' → I s')
    (hEvents : ∀ s a s', I s → C s a → m.step s a = some s' →
      ((∀ e ∈ m.events s a, P e) ↔ D s a))
    {s s' : σ} {as : List α} (hI : I s) (hMeets : m.Meets C s as) (hRun : m.run s as = some s') :
    (∀ e ∈ m.trace s as, P e) ↔ m.Meets D s as := by
  induction as generalizing s with
  | nil => simp [Meets]
  | cons a as ih =>
    obtain ⟨t, hTaken, hRest⟩ := run_cons.mp hRun
    obtain ⟨hC, hMeetsRest⟩ := hMeets
    rw [hTaken] at hMeetsRest
    have hTail : D s a → ((∀ e ∈ m.trace t as, P e) ↔ m.Meets D t as) := fun hD =>
      ih (hStep s a t hI hC hD hTaken) hMeetsRest hRest
    rw [trace_cons hTaken, List.forall_mem_append, hEvents s a t hI hC hTaken]
    simpa [Meets, hTaken] using hTail

/-- The trace rule of every run of a machine that refuses no action. -/
theorem trace_iff_meets_of_total {D : σ → α → Prop} {I : σ → Prop} {P : ε → Prop}
    (hTotal : ∀ s a, ∃ s', m.step s a = some s')
    (hStep : ∀ s a s', I s → D s a → m.step s a = some s' → I s')
    (hEvents : ∀ s a, I s → ((∀ e ∈ m.events s a, P e) ↔ D s a)) {s : σ} (hI : I s)
    (as : List α) : (∀ e ∈ m.trace s as, P e) ↔ m.Meets D s as := by
  obtain ⟨s', hRun⟩ := run_of_total hTotal s as
  exact trace_iff_meets (C := fun _ _ => True) (fun s a s' hI _ => hStep s a s' hI)
    (fun s a _ hI _ _ => hEvents s a hI) hI
    (meets_of_forall (C := fun _ => True) (fun _ _ => trivial) s) hRun

end Machine

/-- Every event of a history stands to those before it as `P` says. -/
def Follows (P : List ε → ε → Prop) (h : List ε) : Prop :=
  ∀ before e after, h = before ++ e :: after → P before e

@[simp] theorem follows_nil {P : List ε → ε → Prop} : Follows P [] := by
  intro before e after h
  simp at h

/-- A history of one event more. -/
theorem follows_concat {P : List ε → ε → Prop} {h : List ε} {e : ε} :
    Follows P (h ++ [e]) ↔ Follows P h ∧ P h e := by
  constructor
  · intro hAll
    refine ⟨fun before x after hEq => hAll before x (after ++ [e]) ?_, hAll h e [] rfl⟩
    rw [hEq, List.append_assoc, List.cons_append]
  · rintro ⟨hEarlier, hLast⟩ before x after hEq
    rcases List.eq_nil_or_concat after with rfl | ⟨after, y, rfl⟩
    · obtain ⟨rfl, hSame⟩ := List.append_inj' hEq rfl
      obtain rfl := List.singleton_inj.mp hSame
      exact hLast
    · rw [List.concat_eq_append, ← List.cons_append, ← List.append_assoc] at hEq
      exact hEarlier before x after (List.append_inj' hEq rfl).1

/-- The paths of a relation that emits events: any number of its steps, and
the events of all of them in order. -/
inductive Path (step : σ → List ε → σ → Prop) (s : σ) : List ε → σ → Prop
  | nil : Path step s [] s
  | snoc {h es : List ε} {t u : σ} (before : Path step s h t) (last : step t es u) :
      Path step s (h ++ es) u

namespace Path

variable {step : σ → List ε → σ → Prop}

/-- A single step is a path. -/
theorem single {s t : σ} {es : List ε} (h : step s es t) : Path step s es t := by
  simpa using Path.snoc Path.nil h

/-- Paths join. -/
theorem append {s t u : σ} {h h' : List ε} (hFirst : Path step s h t)
    (hSecond : Path step t h' u) : Path step s (h ++ h') u := by
  induction hSecond with
  | nil => simpa using hFirst
  | snoc _ last ih =>
    rw [← List.append_assoc]
    exact Path.snoc ih last

/-- **History rule for relations.** -/
theorem invariant {I : List ε → σ → Prop}
    (hStep : ∀ h s es s', I h s → step s es s' → I (h ++ es) s')
    {s s' : σ} {h h' : List ε} (hI : I h s) (hPath : Path step s h' s') : I (h ++ h') s' := by
  induction hPath with
  | nil => simpa using hI
  | snoc _ last ih =>
    rw [← List.append_assoc]
    exact hStep _ _ _ _ ih last

end Path

/-- **Refinement rule.** Where each step of the machine is a path of the
relation with the events the machine emits, so is each run. -/
theorem Machine.run_path {m : Machine σ α ε} {step : σ → List ε → σ → Prop}
    (hStep : ∀ s a s', m.step s a = some s' → Path step s (m.events s a) s')
    {s s' : σ} {as : List α} (hRun : m.run s as = some s') :
    Path step s (m.trace s as) s' := by
  have h := Machine.run_history (I := fun h t => Path step s h t)
    (fun _ t a t' hPath hTaken => hPath.append (hStep t a t' hTaken)) Path.nil hRun
  simpa using h

end Runs
