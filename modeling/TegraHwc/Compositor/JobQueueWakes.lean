import TegraHwc.Compositor.JobQueue

/-!
# TegraHwc — who is woken at the job queue

`compositor/JobQueue.h` once more, with the threads that sleep on its condition
variable. A pass of `Take` or of `Resolve` that answers nothing puts its thread
to sleep; `Queue`, `Stop` and a `Done` that settles a job wake all that sleep,
and any thread may wake of itself. An awake thread's next pass is an operation
like any other.

## Results

* `returns_forget_iff`   — whom an entry that is forgotten lets go.
* `Callers.left_iff`     — a call leaves nobody asleep that it lets go exactly
  when it is tidy.
* `jobQueue_asleep_iff`  — nor does a run, exactly when all its calls are.
-/

namespace TegraHwc

open Runs

namespace JobQueue

variable {Job Result : Type}

-- ---------------------------------------------------------------------------
-- The threads that wait
-- ---------------------------------------------------------------------------

/-- A thread inside `Take` or `Resolve`. -/
inductive Waiter where
  | take
  | resolve (id : Id) (wait : Bool)
  deriving DecidableEq, Repr

/-- The condition its call returns under: the next pass of its loop answers, or
the queue is stopped. -/
def returns (q : JobQueue Job Result) : Waiter → Bool
  | .take => q.stopped || (takeLocked q.entries).isSome
  | .resolve id wait => (q.resolve id wait).1.isSome

/-- Whether the operation comes to a `notify_all`. -/
def notifies (q : JobQueue Job Result) : Action Job Result → Bool
  | .queue _ _ | .stop => true
  | .done id _ _ => (q.find id).any fun e => !e.cancelled
  | .take | .tryTake | .resolve _ _ | .cancel _ => false

/-- The thread an operation puts to sleep. -/
def sleeper (q : JobQueue Job Result) : Action Job Result → Option Waiter
  | .take => if q.returns .take then none else some .take
  | .resolve id wait => if q.returns (.resolve id wait) then none else some (.resolve id wait)
  | .queue _ _ | .tryTake | .done _ _ _ | .cancel _ | .stop => none

/-- The queue and the threads asleep at it. -/
structure Callers (Job Result : Type) where
  queue : JobQueue Job Result := {}
  asleep : List Waiter := []
  deriving DecidableEq, Repr

/-- An operation of one of the threads, or a thread that wakes of itself. -/
inductive Call (Job Result : Type) where
  | op (a : Action Job Result)
  | wake (w : Waiter)

namespace Callers

def step (s : Callers Job Result) : Call Job Result → Callers Job Result
  | .op a =>
    { queue := s.queue.step a
      asleep := (if s.queue.notifies a then [] else s.asleep) ++ (s.queue.sleeper a).toList }
  | .wake w => { s with asleep := s.asleep.erase w }

/-- The threads a call leaves asleep though it lets them go. -/
def left (s : Callers Job Result) : Call Job Result → List Waiter
  | .op a =>
    if s.queue.notifies a then []
    else s.asleep.filter fun w => !s.queue.returns w && (s.queue.step a).returns w
  | .wake _ => []

end Callers

/-- The queue under its threads: every call is always possible. -/
def callers (Job Result : Type) : Machine (Callers Job Result) (Call Job Result) Waiter where
  step s c := some (s.step c)
  events s c := s.left c

/-- A thread that sleeps and has nothing to return yet. -/
def Callers.Waits (s : Callers Job Result) (w : Waiter) : Prop :=
  w ∈ s.asleep ∧ s.queue.returns w = false

/-- The calls that wake nobody let nobody go: a job given up by `Cancel`, or
dropped by an impatient `Resolve`, or let go by `Done` when it was cancelled, has
nobody waiting for it; and where such a `Done` ends a row of drops, no impatient
`Resolve` waits for a job that may be dropped again. -/
def Callers.Tidy (s : Callers Job Result) : Call Job Result → Prop
  | .op (.cancel id) => ∀ e, s.queue.find id = some e → e.state ≠ .kSubmitting →
      ∀ wait, ¬ s.Waits (.resolve id wait)
  | .op (.resolve id wait) => ∀ e, s.queue.find id = some e → s.queue.mayDropNow e wait = true →
      ¬ s.Waits (.resolve id true)
  | .op (.done id submitted _) => ∀ e, s.queue.find id = some e → e.cancelled = true →
      (∀ wait, ¬ s.Waits (.resolve id wait)) ∧
      (submitted = true → ∀ other x, s.queue.find other = some x → x.state = .kQueued →
        x.droppable = true → ¬ s.Waits (.resolve other false))
  | .op (.queue _ _) | .op .take | .op .tryTake | .op .stop | .wake _ => True

-- ---------------------------------------------------------------------------
-- What a thread waits for
-- ---------------------------------------------------------------------------

/-- What the queue keeps that a waiting thread relies on: an id is one entry's,
and a queued entry has its job until the queue is stopped. -/
structure Sound (q : JobQueue Job Result) : Prop where
  sorted : q.entries.Pairwise fun a b => a.id < b.id
  ready : q.stopped = false → ∀ e ∈ q.entries, e.state = .kQueued → e.job.isSome

theorem takeLocked_isSome_iff {es : List (Entry Job Result)}
    (h : ∀ e ∈ es, e.state = .kQueued → e.job.isSome) :
    (takeLocked es).isSome ↔ ∃ e ∈ es, e.state = .kQueued := by
  induction es with
  | nil => simp [takeLocked]
  | cons e es ih =>
    have ih := ih fun x hx => h x (by simp [hx])
    by_cases hState : e.state = .kQueued
    · obtain ⟨job, hJob⟩ := Option.isSome_iff_exists.mp (h e (by simp) hState)
      refine iff_of_true ?_ ⟨e, by simp, hState⟩
      simp [takeLocked, hState, hJob]
    · simp [takeLocked, hState, ih]

/-- The worker goes on when there is a job queued, or nothing to come. -/
theorem returns_take_iff {q : JobQueue Job Result} (h : q.Sound) :
    q.returns .take = true ↔ q.stopped = true ∨ ∃ e ∈ q.entries, e.state = .kQueued := by
  rw [returns, Bool.or_eq_true]
  by_cases hStopped : q.stopped = true
  · simp [hStopped]
  · rw [takeLocked_isSome_iff (h.ready (by simpa using hStopped))]

/-- The frame goes on when its job is gone, settled or given up, or nothing is
to come. -/
theorem returns_resolve_iff {q : JobQueue Job Result} {id : Id} {wait : Bool} :
    q.returns (.resolve id wait) = true ↔ q.stopped = true ∨ ∀ e, q.find id = some e →
      (e.state ≠ .kQueued ∧ e.state ≠ .kSubmitting) ∨ q.mayDropNow e wait = true := by
  cases hFind : q.find id with
  | none => simp [returns, resolve, hFind]
  | some e =>
    simp only [returns, resolve, hFind]
    by_cases hDrop : q.mayDropNow e wait = true
    · simp [hDrop]
    · by_cases hSettled : e.state ≠ .kQueued ∧ e.state ≠ .kSubmitting
      · rw [if_neg hDrop, if_pos hSettled]
        refine iff_of_true rfl (.inr ?_)
        rintro x ⟨⟩
        exact .inl hSettled
      · by_cases hStopped : q.stopped = true
        · simp [hDrop, hSettled, hStopped]
        · rw [if_neg hDrop, if_neg hSettled, if_neg hStopped]
          refine iff_of_false (by simp) ?_
          rintro (h | h)
          · exact hStopped h
          · exact (h e rfl).elim hSettled hDrop

/-- A frame that waits has a job that is queued or with the worker, and may not
drop it. -/
theorem waits_resolve {q : JobQueue Job Result} {id : Id} {wait : Bool}
    (h : q.returns (.resolve id wait) = false) : q.stopped = false ∧ ∃ e, q.find id = some e ∧
      (e.state = .kQueued ∨ e.state = .kSubmitting) ∧ q.mayDropNow e wait = false := by
  have hNot := mt returns_resolve_iff.mpr (Bool.eq_false_iff.mp h)
  rw [not_or, not_forall] at hNot
  obtain ⟨hStopped, e, hNot⟩ := hNot
  obtain ⟨hFind, hNot⟩ := Classical.not_imp.mp hNot
  obtain ⟨hSettled, hDrop⟩ := not_or.mp hNot
  refine ⟨by simpa using hStopped, e, hFind, ?_, by simpa using hDrop⟩
  by_cases hState : e.state = .kQueued
  · exact .inl hState
  · exact .inr (by_contra fun h => hSettled ⟨hState, h⟩)

theorem mayDropNow_iff {q : JobQueue Job Result} {e : Entry Job Result} {wait : Bool} :
    q.mayDropNow e wait = true ↔ e.state = .kQueued ∧ wait = false ∧ e.droppable = true ∧
      q.droppedInARow < kMostDroppedInARow := by
  simp [mayDropNow, and_assoc]

/-- Nobody waits at a stopped queue. -/
theorem returns_of_stopped {q : JobQueue Job Result} (h : q.stopped = true) {w : Waiter} :
    q.returns w = true := by
  cases w with
  | take => simp [returns, h]
  | resolve id wait => exact returns_resolve_iff.mpr (.inl h)

-- ---------------------------------------------------------------------------
-- Whom an operation lets go
-- ---------------------------------------------------------------------------

/-- An entry put in another's place under its id is the one found for it. -/
theorem find_replace {before after : List (Entry Job Result)} {e : Entry Job Result}
    (e' : Entry Job Result) (hBefore : ∀ x ∈ before, x.id ≠ e.id) (hId : e'.id = e.id) (other : Id) :
    (before ++ e' :: after).find? (fun x => decide (x.id = other)) =
      if other = e.id then some e'
      else (before ++ e :: after).find? (fun x => decide (x.id = other)) := by
  by_cases hOther : other = e.id
  · subst hOther
    have hNone : before.find? (fun x => decide (x.id = e.id)) = none := by
      rw [List.find?_eq_none]
      simpa using hBefore
    simp [List.find?_append, hNone, hId]
  · have hne : ¬ e.id = other := fun h => hOther h.symm
    simp [List.find?_append, hOther, hne, hId]

/-- Once an id is forgotten it is not found, and the others are as they were. -/
theorem find_forget {q : JobQueue Job Result} (h : q.Sound) (id other : Id) :
    (q.forget id).find other = if other = id then none else q.find other := by
  cases hFind : q.find id with
  | none =>
    have hSame : q.entries.eraseP (fun e => decide (e.id = id)) = q.entries :=
      List.eraseP_of_forall_not (List.find?_eq_none.mp hFind)
    unfold forget find
    rw [hSame]
    split
    · rename_i hOther
      rw [hOther]
      exact hFind
    · rfl
  | some e =>
    obtain ⟨before, after, hSplit, rfl, hBefore⟩ := find_split hFind
    have hSorted := h.sorted
    rw [hSplit, List.pairwise_append, List.pairwise_cons] at hSorted
    have hAfter : ∀ x ∈ after, x.id ≠ e.id := fun x hx => Nat.ne_of_gt (hSorted.2.1.1 x hx)
    unfold forget find
    rw [hSplit, eraseP_split rfl hBefore]
    by_cases hOther : other = e.id
    · subst hOther
      rw [if_pos rfl, List.find?_eq_none]
      intro x hx
      rw [decide_eq_true_eq]
      rcases List.mem_append.mp hx with hx | hx
      · exact hBefore x hx
      · exact hAfter x hx
    · have hne : ¬ e.id = other := fun h => hOther h.symm
      simp [List.find?_append, hOther, hne]

/-- Nobody is let go by entries that stay as they were or pass to the worker. -/
theorem waits_of_kept {q q' : JobQueue Job Result} (h : q.Sound) (h' : q'.Sound)
    (hStopped : q'.stopped = q.stopped) (hRow : q'.droppedInARow = q.droppedInARow)
    (hFind : ∀ id e, q.find id = some e → ∃ e', q'.find id = some e' ∧
      (e'.state = e.state ∨ e'.state = .kSubmitting) ∧ e'.droppable = e.droppable)
    (hMem : ∀ e' ∈ q'.entries, e'.state = .kQueued → ∃ e ∈ q.entries, e.state = .kQueued)
    {w : Waiter} (hw : q.returns w = false) : q'.returns w = false := by
  rw [← Bool.not_eq_true]
  cases w with
  | take =>
    have hNot := mt (returns_take_iff h).mpr (Bool.eq_false_iff.mp hw)
    rw [returns_take_iff h', hStopped]
    rintro (hStop | ⟨e', he', hState⟩)
    · exact hNot (.inl hStop)
    · exact hNot (.inr (hMem e' he' hState))
  | resolve id wait =>
    obtain ⟨hStop, e, he, hState, hDrop⟩ := waits_resolve hw
    obtain ⟨e', he', hState', hDroppable⟩ := hFind id e he
    rw [returns_resolve_iff, hStopped, hStop]
    rintro (hStop | hAll)
    · cases hStop
    · rcases hAll e' he' with ⟨hQueued, hSubmitting⟩ | hDrop'
      · rcases hState' with hSame | hTaken
        · rw [hSame] at hQueued hSubmitting
          exact hState.elim hQueued hSubmitting
        · exact hSubmitting hTaken
      · obtain ⟨hQueued, hWait, hFlag, hLess⟩ := mayDropNow_iff.mp hDrop'
        have hSame : e.state = .kQueued := by
          rcases hState' with hSame | hTaken
          · rw [← hSame, hQueued]
          · rw [hTaken] at hQueued
            cases hQueued
        rw [mayDropNow_iff.mpr ⟨hSame, hWait, hDroppable ▸ hFlag, hRow ▸ hLess⟩] at hDrop
        cases hDrop

/-- An entry forgotten lets go whoever waits for it, and, where it ends the row
of drops, whoever waits without patience for one that may be dropped again. -/
theorem returns_forget_iff {q q' : JobQueue Job Result} {id : Id} (h : q.Sound) (h' : q'.Sound)
    (hEntries : q'.entries = (q.forget id).entries) (hStopped : q'.stopped = q.stopped)
    {w : Waiter} (hw : q.returns w = false) :
    q'.returns w = true ↔ (∃ wait, w = .resolve id wait) ∨
      (q'.droppedInARow < kMostDroppedInARow ∧ ∃ other x, w = .resolve other false ∧
        q.find other = some x ∧ x.state = .kQueued ∧ x.droppable = true) := by
  have hFound : ∀ other, q'.find other = if other = id then none else q.find other := by
    intro other
    rw [← find_forget h, find, find, hEntries]
  cases w with
  | take =>
    refine iff_of_false ?_ (by simp)
    have hNot := mt (returns_take_iff h).mpr (Bool.eq_false_iff.mp hw)
    rw [returns_take_iff h', hStopped, hEntries]
    rintro (hStop | ⟨e, he, hState⟩)
    · exact hNot (.inl hStop)
    · exact hNot (.inr ⟨e, List.mem_of_mem_eraseP he, hState⟩)
  | resolve other wait =>
    obtain ⟨hStop, e, he, hState, hDrop⟩ := waits_resolve hw
    rw [returns_resolve_iff, hStopped, hStop, hFound]
    by_cases hOther : other = id
    · rw [if_pos hOther, hOther]
      exact iff_of_true (.inr (by simp)) (.inl ⟨wait, rfl⟩)
    · rw [if_neg hOther, he]
      constructor
      · rintro (hStop | hAll)
        · cases hStop
        · rcases hAll e rfl with ⟨hQueued, hSubmitting⟩ | hDrop'
          · exact absurd hState (not_or.mpr ⟨hQueued, hSubmitting⟩)
          · obtain ⟨hQueued, rfl, hFlag, hLess⟩ := mayDropNow_iff.mp hDrop'
            exact .inr ⟨hLess, other, e, rfl, he, hQueued, hFlag⟩
      · rintro (⟨_, ⟨⟩⟩ | ⟨hLess, _, x, ⟨⟩, hx, hQueued, hFlag⟩)
        · exact absurd rfl hOther
        · obtain rfl : e = x := Option.some.inj (he.symm.trans hx)
          refine .inr ?_
          rintro y ⟨⟩
          exact .inr (mayDropNow_iff.mpr ⟨hQueued, rfl, hFlag, hLess⟩)

/-- Nor by an entry put in the place of another that is as good to wait for. -/
theorem waits_of_replaced {q q' : JobQueue Job Result} {before after : List (Entry Job Result)}
    {e e' : Entry Job Result} (h : q.Sound) (h' : q'.Sound)
    (hSplit : q.entries = before ++ e :: after)
    (hReplaced : q' = { q with entries := before ++ e' :: after })
    (hBefore : ∀ x ∈ before, x.id ≠ e.id) (hId : e'.id = e.id)
    (hState : e'.state = e.state ∨ e'.state = .kSubmitting)
    (hDroppable : e'.droppable = e.droppable) {w : Waiter} (hw : q.returns w = false) :
    q'.returns w = false := by
  have hFound : ∀ other, q'.find other = if other = e.id then some e' else q.find other := by
    intro other
    rw [hReplaced, find, find, hSplit]
    exact find_replace e' hBefore hId other
  have hHere : q.find e.id = some e := by
    have hSame := @find_replace _ _ before after e e hBefore rfl e.id
    rwa [if_pos rfl, ← hSplit] at hSame
  refine waits_of_kept h h' (by rw [hReplaced]) (by rw [hReplaced]) ?_ ?_ hw
  · intro other x hx
    by_cases hOther : other = e.id
    · obtain rfl : e = x := Option.some.inj (hHere.symm.trans (hOther ▸ hx))
      exact ⟨e', by rw [hFound, if_pos hOther], hState, hDroppable⟩
    · exact ⟨x, by rw [hFound, if_neg hOther, hx], .inl rfl, rfl⟩
  · intro x hx hQueued
    rw [hReplaced, List.mem_append, List.mem_cons] at hx
    rcases hx with hx | rfl | hx
    · exact ⟨x, by simp [hSplit, hx], hQueued⟩
    · rcases hState with hSame | hTaken
      · exact ⟨e, by simp [hSplit], hSame ▸ hQueued⟩
      · rw [hTaken] at hQueued
        cases hQueued
    · exact ⟨x, by simp [hSplit, hx], hQueued⟩

/-- Nobody is let go by a worker taking a job. -/
theorem waits_take {q : JobQueue Job Result} (h : q.Sound) (h' : q.take.2.Sound) {w : Waiter}
    (hw : q.returns w = false) : q.take.2.returns w = false := by
  by_cases hStopped : q.stopped = true
  · have hSame : q.take.2 = q := by rw [take, if_pos hStopped]
    rwa [hSame]
  cases hTaken : takeLocked q.entries with
  | none =>
    have hSame : q.take.2 = q := by simp [take, hStopped, hTaken]
    rwa [hSame]
  | some taken =>
    obtain ⟨⟨id, job⟩, rest⟩ := taken
    obtain ⟨before, e, after, hSplit, hQueuedBefore, hState, -, rfl, rfl⟩ :=
      takeLocked_split hTaken
    have hSorted := h.sorted
    rw [hSplit, List.pairwise_append] at hSorted
    have hBefore : ∀ x ∈ before, x.id ≠ e.id :=
      fun x hx => Nat.ne_of_lt (hSorted.2.2 x hx e (by simp))
    have hTake : q.take.2 = { q with entries :=
        before ++ { e with state := .kSubmitting, job := none } :: after } := by
      simp [take, hStopped, hTaken]
    exact waits_of_replaced h h' hSplit hTake hBefore rfl (.inr rfl) rfl hw

/-- Nobody is let go by a job with the worker being given up. -/
theorem waits_flag {q : JobQueue Job Result} {id : Id} {e : Entry Job Result} (h : q.Sound)
    (h' : (q.cancel id).Sound) (hFind : q.find id = some e) (hState : e.state = .kSubmitting)
    {w : Waiter} (hw : q.returns w = false) : (q.cancel id).returns w = false := by
  obtain ⟨before, after, hSplit, rfl, hBefore⟩ := find_split hFind
  have hCancel : q.cancel e.id = { q with entries :=
      before ++ { e with cancelled := true } :: after } := by
    rw [cancel, hFind]
    dsimp only
    rw [if_pos hState, hSplit, modifyEntry_split rfl hBefore]
  exact waits_of_replaced h h' hSplit hCancel hBefore rfl (.inl rfl) rfl hw

-- ---------------------------------------------------------------------------
-- Who is left asleep
-- ---------------------------------------------------------------------------

namespace Callers

variable {s : Callers Job Result} {a : Action Job Result}

theorem mem_left {w : Waiter} : w ∈ s.left (.op a) ↔
    s.queue.notifies a = false ∧ s.Waits w ∧ (s.queue.step a).returns w = true := by
  unfold left Waits
  by_cases hNotifies : s.queue.notifies a = true
  · simp [hNotifies]
  · simp [hNotifies, and_assoc]

/-- An operation that notifies leaves nobody. -/
theorem left_of_notifies (h : s.queue.notifies a = true) : ∀ w, w ∉ s.left (.op a) := by
  intro w hw
  rw [mem_left, h] at hw
  cases hw.1

/-- Neither does one that lets nobody go. -/
theorem left_of_kept
    (h : ∀ w, s.queue.returns w = false → (s.queue.step a).returns w = false) :
    ∀ w, w ∉ s.left (.op a) := by
  intro w hw
  obtain ⟨-, hWaits, hReturns⟩ := mem_left.mp hw
  rw [h w hWaits.2] at hReturns
  cases hReturns

/-- One that forgets an entry leaves nobody when nobody waits for it, nor for
one that may be dropped where the row of drops is over. -/
theorem left_forget_iff {id : Id} (h : s.queue.Sound) (h' : (s.queue.step a).Sound)
    (hNotifies : s.queue.notifies a = false)
    (hEntries : (s.queue.step a).entries = (s.queue.forget id).entries)
    (hStopped : (s.queue.step a).stopped = s.queue.stopped) :
    (∀ w, w ∉ s.left (.op a)) ↔ (∀ wait, ¬ s.Waits (.resolve id wait)) ∧
      ((s.queue.step a).droppedInARow < kMostDroppedInARow → ∀ other x,
        s.queue.find other = some x → x.state = .kQueued → x.droppable = true →
          ¬ s.Waits (.resolve other false)) := by
  constructor
  · intro hLeft
    refine ⟨fun wait hWaits => ?_, fun hRow other x hx hState hFlag hWaits => ?_⟩
    · exact hLeft _ (mem_left.mpr ⟨hNotifies, hWaits,
        (returns_forget_iff h h' hEntries hStopped hWaits.2).mpr (.inl ⟨wait, rfl⟩)⟩)
    · exact hLeft _ (mem_left.mpr ⟨hNotifies, hWaits,
        (returns_forget_iff h h' hEntries hStopped hWaits.2).mpr
          (.inr ⟨hRow, other, x, rfl, hx, hState, hFlag⟩)⟩)
  · rintro ⟨hGone, hRow⟩ w hw
    obtain ⟨-, hWaits, hReturns⟩ := mem_left.mp hw
    rcases (returns_forget_iff h h' hEntries hStopped hWaits.2).mp hReturns with
      ⟨wait, rfl⟩ | ⟨hLess, other, x, rfl, hx, hState, hFlag⟩
    · exact hGone wait hWaits
    · exact hRow hLess other x hx hState hFlag hWaits

/-- While a row of drops is not over, whoever waits without patience for a job
that may be dropped would have dropped it. -/
theorem row_of_waits {other : Id} {x : Entry Job Result} (hWaits : s.Waits (.resolve other false))
    (hFind : s.queue.find other = some x) (hState : x.state = .kQueued)
    (hFlag : x.droppable = true) : ¬ s.queue.droppedInARow < kMostDroppedInARow := by
  intro hLess
  obtain ⟨-, e, he, -, hDrop⟩ := waits_resolve hWaits.2
  obtain rfl : x = e := Option.some.inj (hFind.symm.trans he)
  rw [mayDropNow_iff.mpr ⟨hState, rfl, hFlag, hLess⟩] at hDrop
  cases hDrop

theorem left_cancel_iff {id : Id} (h : s.queue.Sound) (h' : (s.queue.step (.cancel id)).Sound) :
    (∀ w, w ∉ s.left (.op (.cancel id))) ↔ s.Tidy (.op (.cancel id)) := by
  cases hFind : s.queue.find id with
  | none =>
    refine iff_of_true (left_of_kept fun w hw => ?_) (fun e he => ?_)
    · simpa [JobQueue.step, cancel, hFind] using hw
    · rw [hFind] at he
      cases he
  | some e =>
    by_cases hState : e.state = .kSubmitting
    · refine iff_of_true (left_of_kept fun w hw => waits_flag h h' hFind hState hw) ?_
      intro x hx hNot
      obtain rfl : e = x := Option.some.inj (hFind.symm.trans hx)
      exact absurd hState hNot
    · have hCancel : s.queue.step (.cancel id) = s.queue.forget id := by
        simp [JobQueue.step, cancel, hFind, hState]
      rw [left_forget_iff h h' rfl (by rw [hCancel]) (by rw [hCancel]; rfl)]
      constructor
      · rintro ⟨hGone, -⟩ _ _ _
        exact hGone
      · refine fun hTidy => ⟨hTidy e hFind hState, fun hLess other x hx hQueued hFlag hWaits => ?_⟩
        rw [hCancel] at hLess
        exact row_of_waits hWaits hx hQueued hFlag hLess

theorem left_resolve_iff {id : Id} {wait : Bool} (h : s.queue.Sound)
    (h' : (s.queue.step (.resolve id wait)).Sound) :
    (∀ w, w ∉ s.left (.op (.resolve id wait))) ↔ s.Tidy (.op (.resolve id wait)) := by
  cases hFind : s.queue.find id with
  | none =>
    refine iff_of_true (left_of_kept fun w hw => ?_) (fun e he => ?_)
    · simpa [JobQueue.step, resolve, hFind] using hw
    · rw [hFind] at he
      cases he
  | some e =>
    by_cases hDrop : s.queue.mayDropNow e wait = true
    · have hStep : s.queue.step (.resolve id wait) = { s.queue with
          droppedInARow := s.queue.droppedInARow + 1
          dropped := s.queue.dropped + 1 }.forget id := by
        simp [JobQueue.step, resolve, hFind, hDrop]
      obtain ⟨hState, -, hFlag, hLess⟩ := mayDropNow_iff.mp hDrop
      rw [left_forget_iff h h' rfl (by rw [hStep]; rfl) (by rw [hStep]; rfl)]
      constructor
      · rintro ⟨hGone, -⟩ _ _ _
        exact hGone true
      · intro hTidy
        refine ⟨fun patient hWaits => ?_, fun hRow => ?_⟩
        · cases patient with
          | true => exact hTidy e hFind hDrop hWaits
          | false => exact row_of_waits hWaits hFind hState hFlag hLess
        · rw [hStep] at hRow
          exact absurd hRow (by simp [forget, kMostDroppedInARow])
    · have hTidy : s.Tidy (.op (.resolve id wait)) := by
        intro x hx hMay
        obtain rfl : e = x := Option.some.inj (hFind.symm.trans hx)
        exact absurd hMay hDrop
      refine iff_of_true ?_ hTidy
      by_cases hSettled : e.state ≠ .kQueued ∧ e.state ≠ .kSubmitting
      · have hStep : s.queue.step (.resolve id wait) = s.queue.forget id := by
          simp [JobQueue.step, resolve, hFind, hDrop, hSettled]
        rw [left_forget_iff h h' rfl (by rw [hStep]) (by rw [hStep]; rfl)]
        refine ⟨fun patient hWaits => ?_, fun hLess other x hx hQueued hFlag hWaits => ?_⟩
        · obtain ⟨-, x, hx, hState, -⟩ := waits_resolve hWaits.2
          obtain rfl : e = x := Option.some.inj (hFind.symm.trans hx)
          exact hState.elim hSettled.1 hSettled.2
        · rw [hStep] at hLess
          exact row_of_waits hWaits hx hQueued hFlag hLess
      · by_cases hStopped : s.queue.stopped = true
        · refine left_of_kept fun w hw => ?_
          rw [returns_of_stopped hStopped] at hw
          cases hw
        · have hSame : s.queue.step (.resolve id wait) = s.queue := by
            simp [JobQueue.step, resolve, hFind, hDrop, hSettled, hStopped]
          exact left_of_kept fun w hw => by rwa [hSame]

theorem left_done_iff {id : Id} {submitted : Bool} {result : Option Result} (h : s.queue.Sound)
    (h' : (s.queue.step (.done id submitted result)).Sound) :
    (∀ w, w ∉ s.left (.op (.done id submitted result))) ↔
      s.Tidy (.op (.done id submitted result)) := by
  cases hFind : s.queue.find id with
  | none =>
    refine iff_of_true (left_of_kept fun w hw => ?_) (fun e he => ?_)
    · simpa [JobQueue.step, done, hFind] using hw
    · rw [hFind] at he
      cases he
  | some e =>
    by_cases hCancelled : e.cancelled = true
    · have hStep : s.queue.step (.done id submitted result) = { s.queue with
          droppedInARow := if submitted then 0 else s.queue.droppedInARow }.forget id := by
        simp [JobQueue.step, done, hFind, hCancelled]
      have hNotifies : s.queue.notifies (.done id submitted result) = false := by
        simp [notifies, hFind, hCancelled]
      rw [left_forget_iff h h' hNotifies (by rw [hStep]; rfl) (by rw [hStep]; rfl), hStep]
      constructor
      · rintro ⟨hGone, hRow⟩ x hx -
        refine ⟨hGone, fun hSubmitted => hRow ?_⟩
        simp [forget, hSubmitted, kMostDroppedInARow]
      · intro hTidy
        obtain ⟨hGone, hRow⟩ := hTidy e hFind hCancelled
        refine ⟨hGone, fun hLess other x hx hQueued hFlag hWaits => ?_⟩
        cases submitted with
        | true => exact hRow rfl other x hx hQueued hFlag hWaits
        | false => exact row_of_waits hWaits hx hQueued hFlag hLess
    · refine iff_of_true (left_of_notifies ?_) ?_
      · simp [notifies, hFind, hCancelled]
      · intro x hx hNot
        obtain rfl : e = x := Option.some.inj (hFind.symm.trans hx)
        exact absurd hNot hCancelled

/-- A call leaves nobody asleep that it lets go exactly when it is tidy. -/
theorem left_iff {c : Call Job Result} (h : s.queue.Sound) (h' : (s.step c).queue.Sound) :
    (∀ w, w ∉ s.left c) ↔ s.Tidy c := by
  cases c with
  | wake w => exact iff_of_true (fun _ => List.not_mem_nil) trivial
  | op a =>
    cases a with
    | queue job droppable => exact iff_of_true (left_of_notifies rfl) trivial
    | take => exact iff_of_true (left_of_kept fun w hw => waits_take h h' hw) trivial
    | tryTake => exact iff_of_true (left_of_kept fun w hw => waits_take h h' hw) trivial
    | done id submitted result => exact left_done_iff h h'
    | resolve id wait => exact left_resolve_iff h h'
    | cancel id => exact left_cancel_iff h h'
    | stop => exact iff_of_true (left_of_notifies rfl) trivial

end Callers

-- ---------------------------------------------------------------------------
-- Over every run
-- ---------------------------------------------------------------------------

theorem Inv.sound {hist : List (Event Job Result)} {q : JobQueue Job Result} (h : Inv hist q) :
    q.Sound := ⟨h.sorted, h.ready⟩

/-- Every call leaves the queue with a history. -/
theorem callers_inv {s : Callers Job Result} (c : Call Job Result) (h : ∃ hist, Inv hist s.queue) :
    ∃ hist, Inv hist (s.step c).queue := by
  obtain ⟨hist, hInv⟩ := h
  cases c with
  | wake w => exact ⟨hist, hInv⟩
  | op a =>
    exact ⟨_, inv_step hInv a⟩

/-- In every run, however the calls of however many threads fall, no operation
lets a sleeping thread go without waking it exactly when every call is tidy. -/
theorem jobQueue_asleep_iff (calls : List (Call Job Result)) :
    (callers Job Result).trace {} calls = [] ↔
      (callers Job Result).Meets Callers.Tidy {} calls := by
  have hNil : (callers Job Result).trace {} calls = [] ↔
      ∀ w ∈ (callers Job Result).trace {} calls, False := List.eq_nil_iff_forall_not_mem
  rw [hNil]
  refine Machine.trace_iff_meets_of_total (I := fun s => ∃ hist, Inv hist s.queue)
    (fun _ _ => ⟨_, rfl⟩) ?_ ?_ ⟨[], inv_init⟩ calls
  · rintro s c _ hInv - ⟨⟩
    exact callers_inv c hInv
  · intro s c hInv
    obtain ⟨hist', hInv'⟩ := callers_inv c hInv
    obtain ⟨hist, hInv⟩ := hInv
    exact Callers.left_iff hInv.sound hInv'.sound

/-- A cancelled job's `Done` ends a row of drops and wakes nobody: the frame that
may now drop its own job sleeps on. -/
theorem jobQueue_leaves_asleep : ¬ ∀ calls : List (Call Unit Unit),
    (callers Unit Unit).trace {} calls = [] := by
  intro h
  have hLeft := h [.op (.queue () false), .op .take, .op (.queue () true), .op (.queue () true),
    .op (.cancel 1), .op (.resolve 3 false), .op (.done 1 true (some ()))]
  revert hLeft
  decide

end JobQueue

end TegraHwc
