import Mathlib.Data.List.Count
import TegraHwc.Compositor.JobQueueWakes

/-!
# TegraHwc — how long a job waits

`compositor/JobQueue.h` once more, counted: how many jobs are queued, how many of them
before a given one, and what may become of it. What is counted is counted over the
moves of the queue, so that each operation is told by what is seen of it.

## Results

* `waitingWhere_path` — as many jobs are added as are seen to come in, at most.
* `waitingWhere_take` — the worker's pass takes one of them.
* `queued_step`       — a queued job stays, or is seen to be taken, dropped or cancelled.
-/

namespace TegraHwc

open Runs

namespace JobQueue

variable {Job Result : Type} {q q' : JobQueue Job Result} {id : Id}

-- ---------------------------------------------------------------------------
-- Counting
-- ---------------------------------------------------------------------------

/-- The jobs queued under ids that are as asked. -/
def waitingWhere (q : JobQueue Job Result) (p : Id → Bool) : Nat :=
  q.entries.countP fun e => decide (e.state = .kQueued) && p e.id

/-- The jobs seen to come in under such ids. -/
def arrivals (p : Id → Bool) (es : List (Event Job Result)) : Nat :=
  es.countP fun
    | .queued id _ _ => p id
    | .dropped _ | .taken _ _ | .finished _ _ _ | .answered _ _ | .cancelled _ => false

/-- A job waits under the id. -/
def IsQueued (q : JobQueue Job Result) (id : Id) : Prop :=
  ∃ e ∈ q.entries, e.id = id ∧ e.state = .kQueued

theorem waiting_eq (q : JobQueue Job Result) : q.waiting = q.waitingWhere fun _ => true := by
  simp [waiting, waitingWhere]

theorem waiting_pos_iff : 0 < q.waiting ↔ ∃ id, q.IsQueued id := by
  rw [waiting, List.countP_pos_iff]
  constructor
  · rintro ⟨e, he, hState⟩
    exact ⟨e.id, e, he, rfl, of_decide_eq_true hState⟩
  · rintro ⟨id, e, he, -, hState⟩
    exact ⟨e, he, decide_eq_true hState⟩

/-- A turn counts no job more. -/
theorem waitingWhere_turn {p : Id → Bool} {before after : List (Entry Job Result)}
    {e : Entry Job Result} {event : Event Job Result} {kept : Option (Entry Job Result)}
    {row row' : Nat} (hTurn : Turn e row event kept row') :
    (before ++ (kept.toList ++ after)).countP (fun e => decide (e.state = .kQueued) && p e.id) ≤
      (before ++ e :: after).countP fun e => decide (e.state = .kQueued) && p e.id := by
  have hNone : kept.toList.countP (fun e => decide (e.state = .kQueued) && p e.id) = 0 := by
    rw [List.countP_eq_zero]
    intro k hk
    obtain rfl := Option.mem_toList.mp hk
    simp [(turn_kept hTurn).2.2.1]
  rw [List.countP_append, List.countP_append, hNone, List.countP_append, List.countP_cons]
  omega

theorem waitingWhere_move {p : Id → Bool} {es : List (Event Job Result)} (hMove : Move q es q') :
    q'.waitingWhere p ≤ q.waitingWhere p + arrivals p es := by
  cases hMove with
  | push job droppable =>
    rw [waitingWhere, List.countP_append, waitingWhere, arrivals]
    refine Nat.add_le_add_left ?_ _
    cases hP : p (q.lastId + 1) <;> simp [hP]
  | turn hSplit hTurn hOldest dropped =>
    rw [waitingWhere, waitingWhere, hSplit]
    exact Nat.le_add_right_of_le (waitingWhere_turn hTurn)
  | miss id => exact Nat.le_add_right _ _
  | stop =>
    refine Nat.le_add_right_of_le ?_
    rw [waitingWhere, waitingWhere, stop, List.countP_map]
    refine List.countP_mono_left fun e _ he => ?_
    by_cases hState : e.state = .kQueued
    · simpa [hState] using he
    · simp [hState] at he

/-- As many jobs are added as are seen to come in, at most. -/
theorem waitingWhere_path {p : Id → Bool} {es : List (Event Job Result)}
    (hPath : Path Move q es q') : q'.waitingWhere p ≤ q.waitingWhere p + arrivals p es := by
  induction hPath with
  | nil => exact Nat.le_add_right _ _
  | @snoc h es t u before last ih =>
    have hLast := waitingWhere_move (p := p) last
    have hAll : arrivals p (h ++ es) = arrivals p h + arrivals p es := List.countP_append
    omega

/-- Jobs come in by `Queue` alone, one at a time. -/
theorem arrivals_events (q : JobQueue Job Result) (a : Action Job Result) (p : Id → Bool) :
    arrivals p (q.events a) =
      match a with
      | .queue _ _ => if p (q.lastId + 1) then 1 else 0
      | .take | .tryTake | .done .. | .resolve .. | .cancel _ | .stop => 0 := by
  cases a with
  | queue job droppable =>
    have hDropped : ∀ ids : List Id,
        arrivals p (ids.map fun id => (.dropped id : Event Job Result)) = 0 := by
      intro ids
      rw [arrivals, List.countP_eq_zero]
      intro event hEvent
      obtain ⟨id, -, rfl⟩ := List.mem_map.mp hEvent
      simp
    simp only [events]
    rw [arrivals, List.countP_append, ← arrivals, hDropped, Nat.zero_add, List.countP_singleton]
  | take => simp only [events]; cases q.take.1 <;> rfl
  | tryTake => simp only [events]; cases q.take.1 <;> rfl
  | done id submitted result => simp only [events]; cases q.find id <;> rfl
  | resolve id wait =>
    simp only [events]
    rw [arrivals, List.countP_append]
    cases (q.resolve id wait).1 <;> cases q.find id with
    | none => rfl
    | some e => cases hDrop : q.mayDropNow e wait <;> simp
  | cancel id => simp only [events]; cases q.find id <;> rfl
  | stop => rfl

/-- So an operation adds the job it queues, or none. -/
theorem waitingWhere_step (q : JobQueue Job Result) (a : Action Job Result) (p : Id → Bool) :
    (q.step a).waitingWhere p ≤ q.waitingWhere p +
      match a with
      | .queue _ _ => if p (q.lastId + 1) then 1 else 0
      | .take | .tryTake | .done .. | .resolve .. | .cancel _ | .stop => 0 := by
  have hPath := waitingWhere_path (p := p) (step_moves q a)
  rwa [arrivals_events] at hPath

theorem waiting_queue (q : JobQueue Job Result) (job : Job) (droppable : Bool) :
    (q.queue job droppable).waiting ≤ q.waiting + 1 := by
  rw [waiting_eq, waiting_eq]
  exact waitingWhere_step q (.queue job droppable) fun _ => true

/-- Nothing but `Queue` adds a job. -/
theorem waiting_step (q : JobQueue Job Result) {a : Action Job Result}
    (hOther : ∀ job droppable, a ≠ .queue job droppable) : (q.step a).waiting ≤ q.waiting := by
  rw [waiting_eq, waiting_eq]
  refine Nat.le_trans (waitingWhere_step q a fun _ => true) ?_
  cases a with
  | queue job droppable => exact absurd rfl (hOther job droppable)
  | _ => exact Nat.le_refl _

/-- Nothing but `Stop` stops the queue. -/
theorem stopped_step (q : JobQueue Job Result) {a : Action Job Result} (hOther : a ≠ .stop) :
    (q.step a).stopped = q.stopped := by
  have hTake : q.take.2.stopped = q.stopped := by
    unfold take
    split
    · rfl
    · cases takeLocked q.entries <;> rfl
  cases a with
  | queue => rfl
  | take => exact hTake
  | tryTake => exact hTake
  | done id submitted result =>
    show (q.done id submitted result).stopped = q.stopped
    unfold done
    cases q.find id with
    | none => rfl
    | some e =>
      dsimp only
      split <;> rfl
  | resolve id wait =>
    show (q.resolve id wait).2.stopped = q.stopped
    unfold resolve
    cases q.find id with
    | none => rfl
    | some e =>
      dsimp only
      split
      · rfl
      · split
        · rfl
        · split <;> rfl
  | cancel id =>
    show (q.cancel id).stopped = q.stopped
    unfold cancel
    cases q.find id with
    | none => rfl
    | some e =>
      dsimp only
      split <;> rfl
  | stop => exact absurd rfl hOther

/-- The worker's pass takes one of the jobs. -/
theorem waitingWhere_take {p : Id → Bool} {job : Job} (hTaken : q.take.1 = some (id, job)) :
    q.take.2.waitingWhere p + (if p id then 1 else 0) = q.waitingWhere p := by
  unfold take at hTaken ⊢
  split at hTaken
  · cases hTaken
  · next hStopped =>
    rw [if_neg hStopped]
    cases hLocked : takeLocked q.entries with
    | none =>
      rw [hLocked] at hTaken
      cases hTaken
    | some answer =>
      obtain ⟨⟨id', job'⟩, rest⟩ := answer
      rw [hLocked] at hTaken
      obtain ⟨rfl, rfl⟩ : id' = id ∧ job' = job := by simpa using hTaken
      obtain ⟨before, e, after, hSplit, -, hState, -, rfl, rfl⟩ := takeLocked_split hLocked
      show List.countP _ (before ++ _ :: after) + _ = List.countP _ q.entries
      rw [hSplit, List.countP_append, List.countP_cons, List.countP_append, List.countP_cons]
      cases p e.id <;> simp [hState, Nat.add_assoc]

/-- It finds none only where none is queued. -/
theorem waiting_of_take_none (hSound : q.Sound) (hStopped : q.stopped = false)
    (hNone : q.take.1 = none) : q.waiting = 0 := by
  by_contra hSome
  obtain ⟨id, e, he, -, hState⟩ := waiting_pos_iff.mp (Nat.pos_of_ne_zero hSome)
  have hFound := (takeLocked_isSome_iff (hSound.ready hStopped)).mpr ⟨e, he, hState⟩
  obtain ⟨⟨taken, rest⟩, hLocked⟩ := Option.isSome_iff_exists.mp hFound
  simp [take, hStopped, hLocked] at hNone

/-- It takes none queued later than another. -/
theorem take_le {job : Job} {other : Id} (hSound : q.Sound) (hTaken : q.take.1 = some (id, job))
    (hQueued : q.IsQueued other) : id ≤ other := by
  obtain ⟨x, hx, rfl, hState⟩ := hQueued
  unfold take at hTaken
  split at hTaken
  · cases hTaken
  · cases hLocked : takeLocked q.entries with
    | none =>
      rw [hLocked] at hTaken
      cases hTaken
    | some answer =>
      obtain ⟨⟨id', job'⟩, rest⟩ := answer
      rw [hLocked] at hTaken
      obtain ⟨rfl, rfl⟩ : id' = id ∧ job' = job := by simpa using hTaken
      obtain ⟨before, e, after, hSplit, hBefore, -, -, rfl, -⟩ := takeLocked_split hLocked
      have hSorted := hSound.sorted
      rw [hSplit, List.pairwise_append, List.pairwise_cons] at hSorted
      rw [hSplit, List.mem_append, List.mem_cons] at hx
      rcases hx with hx | rfl | hx
      · exact absurd hState (hBefore x hx)
      · exact Nat.le_refl _
      · exact Nat.le_of_lt (hSorted.2.1.1 x hx)

-- ---------------------------------------------------------------------------
-- What becomes of a queued job
-- ---------------------------------------------------------------------------

/-- The job an event tells of the end of its waiting. -/
def Event.ends : Event Job Result → Option Id
  | .queued _ _ _ => none
  | .dropped id | .taken id _ | .finished id _ _ | .answered id _ | .cancelled id => some id

theorem turn_ends {e : Entry Job Result} {row row' : Nat} {event : Event Job Result}
    {kept : Option (Entry Job Result)} (hTurn : Turn e row event kept row') :
    event.ends = some e.id := by
  cases hTurn <;> rfl

/-- A queued job stays, or an event ends its waiting. -/
theorem queued_move {es : List (Event Job Result)} (hMove : Move q es q')
    (hQueued : q.IsQueued id) : q'.IsQueued id ∨ ∃ event ∈ es, event.ends = some id := by
  obtain ⟨x, hx, rfl, hState⟩ := hQueued
  cases hMove with
  | push job droppable => exact .inl ⟨x, List.mem_append_left _ hx, rfl, hState⟩
  | turn hSplit hTurn hOldest dropped =>
    rw [hSplit, List.mem_append, List.mem_cons] at hx
    rcases hx with hx | rfl | hx
    · exact .inl ⟨x, by simp [hx], rfl, hState⟩
    · exact .inr ⟨_, List.mem_singleton_self _, turn_ends hTurn⟩
    · exact .inl ⟨x, by simp [hx], rfl, hState⟩
  | miss id => exact .inl ⟨x, hx, rfl, hState⟩
  | stop =>
    refine .inl ⟨_, List.mem_map_of_mem hx, ?_, ?_⟩ <;> simp [hState]

theorem queued_path {es : List (Event Job Result)} (hPath : Path Move q es q')
    (hQueued : q.IsQueued id) : q'.IsQueued id ∨ ∃ event ∈ es, event.ends = some id := by
  induction hPath with
  | nil => exact .inl hQueued
  | snoc before last ih =>
    rcases ih with hStill | ⟨event, hEvent, hEnds⟩
    · rcases queued_move last hStill with hStill | ⟨event, hEvent, hEnds⟩
      · exact .inl hStill
      · exact .inr ⟨event, List.mem_append_right _ hEvent, hEnds⟩
    · exact .inr ⟨event, List.mem_append_left _ hEvent, hEnds⟩

/-- A frame that is answered for a queued job has dropped it. -/
theorem dropped_of_resolve {wait : Bool} {outcome : Outcome Result} (hSound : q.Sound)
    (hStopped : q.stopped = false) (hQueued : q.IsQueued id)
    (hAnswer : (q.resolve id wait).1 = some outcome) :
    .dropped id ∈ q.events (.resolve id wait) := by
  obtain ⟨x, hx, rfl, hState⟩ := hQueued
  obtain ⟨e, hFind⟩ : ∃ e, q.find x.id = some e := by
    rw [← Option.isSome_iff_exists, find, List.find?_isSome]
    exact ⟨x, hx, by simp⟩
  -- the entry found is the one that is queued: an id is one entry's
  obtain rfl : e = x := by
    obtain ⟨before, after, hSplit, hId, hBefore⟩ := find_split hFind
    have hSorted := hSound.sorted
    rw [hSplit, List.pairwise_append, List.pairwise_cons] at hSorted
    rw [hSplit, List.mem_append, List.mem_cons] at hx
    rcases hx with hx | rfl | hx
    · exact absurd rfl (hBefore x hx)
    · rfl
    · exact absurd hId (Nat.ne_of_lt (hSorted.2.1.1 x hx))
  have hDrop : q.mayDropNow e wait = true := by
    by_contra hNot
    simp [resolve, hFind, hNot, hState, hStopped] at hAnswer
  simp [events, hFind, hDrop]

/-- The events an operation may show. -/
def Shows (q : JobQueue Job Result) : Action Job Result → Event Job Result → Prop
  | .queue job droppable, .queued id job' droppable' =>
    id = q.lastId + 1 ∧ job' = job ∧ droppable' = droppable
  | .queue _ _, .dropped _ | .take, .taken _ _ | .tryTake, .taken _ _ => True
  | .done id submitted result, .finished id' submitted' result' =>
    id' = id ∧ submitted' = submitted ∧ result' = result
  | .resolve id _, .dropped id' | .cancel id, .cancelled id' => id' = id
  | .resolve id wait, .answered id' outcome => id' = id ∧ (q.resolve id wait).1 = some outcome
  | _, _ => False

theorem shows_of_mem {a : Action Job Result} {event : Event Job Result}
    (hEvent : event ∈ q.events a) : q.Shows a event := by
  cases a with
  | queue job droppable =>
    rcases List.mem_append.mp hEvent with hDropped | hQueued
    · obtain ⟨id, -, rfl⟩ := List.mem_map.mp hDropped
      trivial
    · obtain rfl := List.mem_singleton.mp hQueued
      exact ⟨rfl, rfl, rfl⟩
  | take | tryTake =>
    simp only [events] at hEvent
    cases hTaken : q.take.1 with
    | none => simp [hTaken] at hEvent
    | some taken =>
      rw [hTaken] at hEvent
      obtain rfl := List.mem_singleton.mp hEvent
      trivial
  | done id submitted result =>
    simp only [events] at hEvent
    cases hFind : q.find id with
    | none => simp [hFind] at hEvent
    | some e =>
      rw [hFind] at hEvent
      obtain rfl := List.mem_singleton.mp hEvent
      exact ⟨rfl, rfl, rfl⟩
  | resolve id wait =>
    rcases List.mem_append.mp hEvent with hDropped | hAnswered
    · cases hFind : q.find id with
      | none => simp [hFind] at hDropped
      | some e =>
        simp only [hFind] at hDropped
        split at hDropped
        · obtain rfl := List.mem_singleton.mp hDropped
          rfl
        · cases hDropped
    · cases hAnswer : (q.resolve id wait).1 with
      | none => simp [hAnswer] at hAnswered
      | some outcome =>
        rw [hAnswer] at hAnswered
        obtain rfl := List.mem_singleton.mp hAnswered
        exact ⟨rfl, hAnswer⟩
  | cancel id =>
    simp only [events] at hEvent
    cases hFind : q.find id with
    | none => simp [hFind] at hEvent
    | some e =>
      rw [hFind] at hEvent
      obtain rfl := List.mem_singleton.mp hEvent
      rfl
  | stop => cases hEvent

/-- A job seen to come in is queued. -/
theorem queued_of_event {a : Action Job Result} {job : Job} {droppable : Bool}
    (hEvent : .queued id job droppable ∈ q.events a) : (q.step a).IsQueued id := by
  have hShows := shows_of_mem hEvent
  cases a with
  | queue job' droppable' =>
    obtain ⟨rfl, -, -⟩ := hShows
    exact ⟨_, List.mem_append_right _ (List.mem_singleton_self _), rfl, rfl⟩
  | _ => exact hShows.elim

theorem done_of_finished {a : Action Job Result} {submitted : Bool} {result : Option Result}
    (hEvent : .finished id submitted result ∈ q.events a) : a = .done id submitted result := by
  have hShows := shows_of_mem hEvent
  cases a with
  | done other submitted' result' =>
    obtain ⟨rfl, rfl, rfl⟩ := hShows
    rfl
  | _ => exact hShows.elim

theorem resolve_of_answered {a : Action Job Result} {outcome : Outcome Result}
    (hEvent : .answered id outcome ∈ q.events a) :
    ∃ wait, a = .resolve id wait ∧ (q.resolve id wait).1 = some outcome := by
  have hShows := shows_of_mem hEvent
  cases a with
  | resolve other wait =>
    obtain ⟨rfl, hAnswer⟩ := hShows
    exact ⟨wait, rfl, hAnswer⟩
  | _ => exact hShows.elim

/-- A queued job stays, or is seen to be taken, dropped or cancelled, or is done with
before it was taken. -/
theorem queued_step {a : Action Job Result} (hSound : q.Sound) (hStopped : q.stopped = false)
    (hQueued : q.IsQueued id) :
    (q.step a).IsQueued id ∨ (∃ job, .taken id job ∈ q.events a) ∨ .dropped id ∈ q.events a ∨
      .cancelled id ∈ q.events a ∨ ∃ submitted result, a = .done id submitted result := by
  rcases queued_path (step_moves q a) hQueued with hStill | ⟨event, hEvent, hEnds⟩
  · exact .inl hStill
  right
  cases event with
  | queued => cases hEnds
  | dropped other =>
    obtain rfl := Option.some.inj hEnds
    exact .inr (.inl hEvent)
  | taken other job =>
    obtain rfl := Option.some.inj hEnds
    exact .inl ⟨job, hEvent⟩
  | cancelled other =>
    obtain rfl := Option.some.inj hEnds
    exact .inr (.inr (.inl hEvent))
  | finished other submitted result =>
    obtain rfl := Option.some.inj hEnds
    exact .inr (.inr (.inr ⟨submitted, result, done_of_finished hEvent⟩))
  | answered other outcome =>
    obtain rfl := Option.some.inj hEnds
    obtain ⟨wait, rfl, hAnswer⟩ := resolve_of_answered hEvent
    exact .inr (.inl (dropped_of_resolve hSound hStopped hQueued hAnswer))

end JobQueue

end TegraHwc
