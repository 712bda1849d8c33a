import TegraHwc.Lib.Runs
import Mathlib.Data.List.Induction
import Mathlib.Data.List.Nodup
import Mathlib.Tactic.Common

/-!
# TegraHwc — the job queue

`compositor/JobQueue.h`: the work one engine is asked for, between the thread
that plans a frame and the worker that submits it. All seven operations run
under one mutex, so an interleaving of any number of callers is a list of
`Action`s; `take` and `resolve` are one pass of their waiting loops, and a
pass that answers nothing is a wait.

The operations are the source's own (`queue`, `take`, `done`, `resolve`,
`cancel`, `stop`). Above them stands `Move`: what may happen to one entry of
the queue at a time, with what a watcher of the queue would see of it. Every
operation is a path of moves (`step_moves`), and what the queue promises is
proved of the moves.

## Results

* `jobQueue_history`   — every history of the queue is a history of moves.
* `jobQueue_contract`  — the promises of the header, over every run.
* `jobQueue_taken_is_queued`, `jobQueue_take_has_job` — the worker is handed
  the job that was queued under the id, never an emptied one.
-/

namespace TegraHwc

open Runs

namespace JobQueue

/-- `JobQueue::Id`; ids are counted up from 1. -/
abbrev Id := Nat

/-- `JobQueue::State`. -/
inductive State where
  | kQueued
  | kSubmitting
  | kSubmitted
  | kRefused
  | kDropped
  | kCancelled
  deriving DecidableEq, Repr

/-- `JobQueue::Outcome`. -/
structure Outcome (Result : Type) where
  state : State
  result : Option Result
  deriving DecidableEq, Repr

/-- `kMostDroppedInARow`: after this many drops in a row the next superseded
job is drawn anyway. -/
def kMostDroppedInARow : Nat := 1

/-- `JobQueue::Entry`. -/
structure Entry (Job Result : Type) where
  id : Id
  state : State
  droppable : Bool
  job : Option Job
  result : Option Result := none
  cancelled : Bool := false
  deriving DecidableEq, Repr

end JobQueue

/-- `JobQueue<Job, Result>`. -/
structure JobQueue (Job Result : Type) where
  entries : List (JobQueue.Entry Job Result) := []
  lastId : JobQueue.Id := 0
  droppedInARow : Nat := 0
  dropped : Nat := 0
  stopped : Bool := false
  deriving DecidableEq, Repr

namespace JobQueue

variable {Job Result : Type}

-- ---------------------------------------------------------------------------
-- The operations
-- ---------------------------------------------------------------------------

/-- A job given up before the worker took it: its entry stays for the frame
to collect. -/
def Entry.drop (e : Entry Job Result) : Entry Job Result :=
  { e with state := .kDropped, job := none }

/-- The loop of `Queue` over the entries, from a count of drops in a row:
the entries after it, and the ids it dropped. -/
def dropSuperseded : Nat → List (Entry Job Result) → List (Entry Job Result) × List Id
  | _, [] => ([], [])
  | row, e :: es =>
    if e.state ≠ .kQueued ∨ e.droppable = false then
      let rest := dropSuperseded row es
      (e :: rest.1, rest.2)
    else if kMostDroppedInARow ≤ row then (e :: es, [])
    else
      let rest := dropSuperseded (row + 1) es
      (e.drop :: rest.1, e.id :: rest.2)

/-- `JobQueue::Queue`; the id given out is `lastId` of the queue after. -/
def queue (q : JobQueue Job Result) (job : Job) (droppable : Bool) : JobQueue Job Result :=
  let swept := dropSuperseded q.droppedInARow q.entries
  { q with
    entries := swept.1 ++
      [{ id := q.lastId + 1, state := .kQueued, droppable := droppable, job := some job }]
    lastId := q.lastId + 1
    droppedInARow := q.droppedInARow + swept.2.length
    dropped := q.dropped + swept.2.length }

/-- `TakeLocked`: the oldest queued entry, marked as taken, and its job. The
source reads the job of a queued entry without asking whether it is there;
`jobQueue_take_has_job` shows it always is, so the last branch is never the
one taken. -/
def takeLocked : List (Entry Job Result) → Option ((Id × Job) × List (Entry Job Result))
  | [] => none
  | e :: es =>
    if e.state ≠ .kQueued then
      (takeLocked es).map fun taken => (taken.1, e :: taken.2)
    else
      match e.job with
      | some job => some ((e.id, job), { e with state := .kSubmitting, job := none } :: es)
      | none => none

/-- `TryTake`, and one pass of the loop of `Take`: what the worker is handed,
if anything, and the queue after. -/
def take (q : JobQueue Job Result) : Option (Id × Job) × JobQueue Job Result :=
  if q.stopped then (none, q)
  else
    match takeLocked q.entries with
    | none => (none, q)
    | some (taken, entries) => (some taken, { q with entries := entries })

/-- `Find`: the first entry of that id. -/
def find (q : JobQueue Job Result) (id : Id) : Option (Entry Job Result) :=
  q.entries.find? fun e => e.id = id

/-- Writes through the pointer `Find` answers: the first entry of that id. -/
def modifyEntry (id : Id) (f : Entry Job Result → Entry Job Result) :
    List (Entry Job Result) → List (Entry Job Result)
  | [] => []
  | e :: es => if e.id = id then f e :: es else e :: modifyEntry id f es

/-- `Forget`: the first entry of that id goes. -/
def forget (q : JobQueue Job Result) (id : Id) : JobQueue Job Result :=
  { q with entries := q.entries.eraseP fun e => e.id = id }

/-- `JobQueue::Done`. -/
def done (q : JobQueue Job Result) (id : Id) (submitted : Bool) (result : Option Result) :
    JobQueue Job Result :=
  match q.find id with
  | none => q
  | some e =>
    let counted := { q with droppedInARow := if submitted then 0 else q.droppedInARow }
    if e.cancelled then counted.forget id
    else
      { counted with
        entries := modifyEntry id
          (fun e => { e with state := if submitted then .kSubmitted else .kRefused, result := result })
          q.entries }

/-- The condition under which `Resolve` gives a queued job up. -/
def mayDropNow (q : JobQueue Job Result) (e : Entry Job Result) (wait : Bool) : Bool :=
  e.state = .kQueued && !wait && e.droppable && decide (q.droppedInARow < kMostDroppedInARow)

/-- One pass of the loop of `JobQueue::Resolve`: the outcome, none where the
frame waits for a change, and the queue after. -/
def resolve (q : JobQueue Job Result) (id : Id) (wait : Bool) :
    Option (Outcome Result) × JobQueue Job Result :=
  match q.find id with
  | none => (some ⟨.kCancelled, none⟩, q)
  | some e =>
    if q.mayDropNow e wait then
      -- dropped here and, being neither queued nor submitting now, answered
      (some ⟨.kDropped, e.result⟩,
        { q with droppedInARow := q.droppedInARow + 1, dropped := q.dropped + 1 }.forget id)
    else if e.state ≠ .kQueued ∧ e.state ≠ .kSubmitting then
      (some ⟨e.state, e.result⟩, q.forget id)
    else if q.stopped then (some ⟨.kCancelled, none⟩, q.forget id)
    else (none, q)

/-- `JobQueue::Cancel`. -/
def cancel (q : JobQueue Job Result) (id : Id) : JobQueue Job Result :=
  match q.find id with
  | none => q
  | some e =>
    if e.state = .kSubmitting then
      { q with entries := modifyEntry id (fun e => { e with cancelled := true }) q.entries }
    else q.forget id

/-- `JobQueue::Stop`. -/
def stop (q : JobQueue Job Result) : JobQueue Job Result :=
  { q with
    stopped := true
    entries := q.entries.map fun e => if e.state = .kQueued then { e with job := none } else e }

/-- `JobQueue::waiting`. -/
def waiting (q : JobQueue Job Result) : Nat :=
  q.entries.countP fun e => e.state = .kQueued

-- ---------------------------------------------------------------------------
-- The queue as a machine, and what is seen of it
-- ---------------------------------------------------------------------------

/-- One critical section of one of the threads. -/
inductive Action (Job Result : Type) where
  | queue (job : Job) (droppable : Bool)
  | take
  | tryTake
  | done (id : Id) (submitted : Bool) (result : Option Result)
  | resolve (id : Id) (wait : Bool)
  | cancel (id : Id)
  | stop
  deriving DecidableEq, Repr

/-- What a watcher of the queue sees happen to a job. -/
inductive Event (Job Result : Type) where
  | queued (id : Id) (job : Job) (droppable : Bool)
  | dropped (id : Id)
  | taken (id : Id) (job : Job)
  | finished (id : Id) (submitted : Bool) (result : Option Result)
  | answered (id : Id) (outcome : Outcome Result)
  | cancelled (id : Id)
  deriving DecidableEq, Repr

/-- The queue after the action. -/
def step (q : JobQueue Job Result) : Action Job Result → JobQueue Job Result
  | .queue job droppable => q.queue job droppable
  | .take | .tryTake => q.take.2
  | .done id submitted result => q.done id submitted result
  | .resolve id wait => (q.resolve id wait).2
  | .cancel id => q.cancel id
  | .stop => q.stop

/-- What is seen of the action. A `Done` or a `Cancel` of an id the queue does
not hold happens to no job. -/
def events (q : JobQueue Job Result) : Action Job Result → List (Event Job Result)
  | .queue job droppable =>
    (dropSuperseded q.droppedInARow q.entries).2.map .dropped ++
      [.queued (q.lastId + 1) job droppable]
  | .take | .tryTake =>
    match q.take.1 with
    | none => []
    | some (id, job) => [.taken id job]
  | .done id submitted result =>
    match q.find id with
    | none => []
    | some _ => [.finished id submitted result]
  | .resolve id wait =>
    (match q.find id with
      | none => []
      | some e => if q.mayDropNow e wait then [.dropped id] else []) ++
    (match (q.resolve id wait).1 with
      | none => []
      | some outcome => [.answered id outcome])
  | .cancel id =>
    match q.find id with
    | none => []
    | some _ => [.cancelled id]
  | .stop => []

/-- The queue with its callers: every critical section is always possible. -/
def machine (Job Result : Type) :
    Machine (JobQueue Job Result) (Action Job Result) (Event Job Result) where
  step q a := some (q.step a)
  events q a := q.events a

/-- The history of the queue under the actions, from its construction. -/
def history (actions : List (Action Job Result)) : List (Event Job Result) :=
  (machine Job Result).trace {} actions

-- ---------------------------------------------------------------------------
-- Moves: what may happen to one entry at a time
-- ---------------------------------------------------------------------------

/-- What may happen to an entry of the queue: what is seen of it, the entry
as it stays, none where it goes, and the drops in a row before and after. -/
inductive Turn (e : Entry Job Result) (row : Nat) :
    Event Job Result → Option (Entry Job Result) → Nat → Prop
  | drop (hState : e.state = .kQueued) (hDroppable : e.droppable = true)
      (hRow : row < kMostDroppedInARow) :
      Turn e row (.dropped e.id) (some e.drop) (row + 1)
  | take {job : Job} (hState : e.state = .kQueued) (hJob : e.job = some job) :
      Turn e row (.taken e.id job) (some { e with state := .kSubmitting, job := none }) row
  | settle (submitted : Bool) (result : Option Result) :
      Turn e row (.finished e.id submitted result)
        (some { e with state := if submitted then .kSubmitted else .kRefused, result := result })
        (if submitted then 0 else row)
  | letGo (submitted : Bool) (result : Option Result) (hCancelled : e.cancelled = true) :
      Turn e row (.finished e.id submitted result) none (if submitted then 0 else row)
  | answer (outcome : Outcome Result)
      (hOutcome : outcome.state = .kCancelled ∨ outcome = ⟨e.state, e.result⟩) :
      Turn e row (.answered e.id outcome) none row
  | flag (hState : e.state = .kSubmitting) :
      Turn e row (.cancelled e.id) (some { e with cancelled := true }) row
  | giveUp : Turn e row (.cancelled e.id) none row

/-- The moves of the queue: a job comes in, one entry has its turn, an id it
does not hold is asked for, or it is stopped. -/
inductive Move (q : JobQueue Job Result) :
    List (Event Job Result) → JobQueue Job Result → Prop
  | push (job : Job) (droppable : Bool) :
      Move q [.queued (q.lastId + 1) job droppable]
        { q with
          entries := q.entries ++
            [{ id := q.lastId + 1, state := .kQueued, droppable := droppable, job := some job }]
          lastId := q.lastId + 1 }
  | turn {before after : List (Entry Job Result)} {e : Entry Job Result}
      {event : Event Job Result} {kept : Option (Entry Job Result)} {row : Nat}
      (hSplit : q.entries = before ++ e :: after)
      (hTurn : Turn e q.droppedInARow event kept row)
      (hOldest : ∀ id job, event = .taken id job → ∀ x ∈ before, x.state ≠ .kQueued)
      (dropped : Nat) :
      Move q [event]
        { q with entries := before ++ (kept.toList ++ after), droppedInARow := row,
                 dropped := dropped }
  | miss (id : Id) : Move q [.answered id ⟨.kCancelled, none⟩] q
  | stop : Move q [] q.stop

/-- An entry that had its turn keeps its id and whether it may be dropped,
is queued no more, and holds no job but the one it held. -/
theorem turn_kept {e k : Entry Job Result} {row row' : Nat} {event : Event Job Result}
    (hTurn : Turn e row event (some k) row') :
    k.id = e.id ∧ k.droppable = e.droppable ∧ k.state ≠ .kQueued ∧
      ∀ job, k.job = some job → e.job = some job := by
  cases hTurn with
  | drop => simp [Entry.drop]
  | take => simp
  | settle submitted => cases submitted <;> simp
  | flag hState => simp [hState]

/-- The entry an id names, with what stands before and after it. -/
theorem find_split {q : JobQueue Job Result} {id : Id} {e : Entry Job Result}
    (h : q.find id = some e) :
    ∃ before after, q.entries = before ++ e :: after ∧ e.id = id ∧
      ∀ x ∈ before, x.id ≠ id := by
  obtain ⟨hId, before, after, hSplit, hBefore⟩ := List.find?_eq_some_iff_append.mp h
  refine ⟨before, after, hSplit, by simpa using hId, ?_⟩
  intro x hx
  simpa using hBefore x hx

/-- Writing through the pointer to an entry changes that entry alone. -/
theorem modifyEntry_split {id : Id} {f : Entry Job Result → Entry Job Result}
    {before after : List (Entry Job Result)} {e : Entry Job Result} (hId : e.id = id)
    (hBefore : ∀ x ∈ before, x.id ≠ id) :
    modifyEntry id f (before ++ e :: after) = before ++ f e :: after := by
  induction before with
  | nil => simp [modifyEntry, hId]
  | cons x before ih =>
    have hx : x.id ≠ id := hBefore x (by simp)
    simp [modifyEntry, hx, ih fun y hy => hBefore y (by simp [hy])]

/-- A write that keeps an entry's id keeps all ids. -/
theorem id_of_mem_modifyEntry {id : Id} {f : Entry Job Result → Entry Job Result}
    {entries : List (Entry Job Result)} {e : Entry Job Result} (he : e ∈ modifyEntry id f entries)
    (hKeeps : ∀ e, (f e).id = e.id) : ∃ x ∈ entries, x.id = e.id := by
  induction entries with
  | nil => cases he
  | cons y entries ih =>
    unfold modifyEntry at he
    split at he
    · rcases List.mem_cons.mp he with rfl | hIn
      · exact ⟨y, by simp, (hKeeps y).symm⟩
      · exact ⟨e, by simp [hIn], rfl⟩
    · rcases List.mem_cons.mp he with rfl | hIn
      · exact ⟨e, by simp, rfl⟩
      · obtain ⟨x, hx, hId⟩ := ih hIn
        exact ⟨x, by simp [hx], hId⟩

/-- Forgetting an entry takes that entry alone. -/
theorem eraseP_split {id : Id} {before after : List (Entry Job Result)} {e : Entry Job Result}
    (hId : e.id = id) (hBefore : ∀ x ∈ before, x.id ≠ id) :
    (before ++ e :: after).eraseP (fun e => decide (e.id = id)) = before ++ after := by
  rw [List.eraseP_append_right _ (by simpa using hBefore)]
  simp [hId]

/-- The loop of `Queue` drops one entry after another. -/
theorem dropSuperseded_moves (q : JobQueue Job Result) (before es : List (Entry Job Result))
    (hSplit : q.entries = before ++ es) :
    Path Move q ((dropSuperseded q.droppedInARow es).2.map .dropped)
      { q with
        entries := before ++ (dropSuperseded q.droppedInARow es).1
        droppedInARow := q.droppedInARow + (dropSuperseded q.droppedInARow es).2.length
        dropped := q.dropped + (dropSuperseded q.droppedInARow es).2.length } := by
  induction es generalizing q before with
  | nil =>
    have hSame : { q with entries := before } = q := by rw [← List.append_nil before, ← hSplit]
    simpa [dropSuperseded, hSame] using Path.nil
  | cons e es ih =>
    by_cases hSkip : e.state ≠ .kQueued ∨ e.droppable = false
    · -- not one to be dropped: the loop goes on past it
      have hPath := ih q (before ++ [e]) (by simpa using hSplit)
      simpa [dropSuperseded, hSkip] using hPath
    · have hState : e.state = .kQueued := by_contra fun h => hSkip (.inl h)
      have hDroppable : e.droppable = true := by
        by_contra h
        exact hSkip (.inr (by simpa using h))
      by_cases hRow : kMostDroppedInARow ≤ q.droppedInARow
      · -- the bound is reached: the loop stops here
        have hSame : { q with entries := before ++ e :: es } = q := by rw [← hSplit]
        simpa [dropSuperseded, hState, hDroppable, hRow, hSame] using Path.nil
      · have hDrop := Move.turn hSplit
          (Turn.drop hState hDroppable (Nat.lt_of_not_le hRow))
          (fun _ _ h => by cases h) (q.dropped + 1)
        have hRest := ih { q with
            entries := before ++ ((some e.drop).toList ++ es)
            droppedInARow := q.droppedInARow + 1
            dropped := q.dropped + 1 } (before ++ [e.drop]) (by simp)
        have hPath := (Path.single hDrop).append hRest
        simpa [dropSuperseded, hState, hDroppable, hRow, Nat.add_assoc, Nat.add_comm 1]
          using hPath

/-- What the worker is handed is the oldest queued entry. -/
theorem takeLocked_split {es es' : List (Entry Job Result)} {id : Id} {job : Job}
    (h : takeLocked es = some ((id, job), es')) :
    ∃ before e after, es = before ++ e :: after ∧ (∀ x ∈ before, x.state ≠ .kQueued) ∧
      e.state = .kQueued ∧ e.job = some job ∧ e.id = id ∧
      es' = before ++ { e with state := .kSubmitting, job := none } :: after := by
  induction es generalizing es' with
  | nil => simp [takeLocked] at h
  | cons e es ih =>
    by_cases hState : e.state = .kQueued
    · cases hJob : e.job with
      | none => simp [takeLocked, hState, hJob] at h
      | some found =>
        simp only [takeLocked, hState, hJob, ne_eq, not_true_eq_false, if_false,
          Option.some.injEq, Prod.mk.injEq] at h
        obtain ⟨⟨rfl, rfl⟩, rfl⟩ := h
        exact ⟨[], e, es, rfl, by simp, hState, hJob, rfl, rfl⟩
    · simp only [takeLocked, ne_eq, hState, not_false_eq_true, if_true, Option.map_eq_some_iff,
        Prod.mk.injEq] at h
      obtain ⟨⟨_, rest⟩, hRest, rfl, rfl⟩ := h
      obtain ⟨before, found, after, rfl, hBefore, hFound⟩ := ih hRest
      refine ⟨e :: before, found, after, rfl, ?_, hFound.1, hFound.2.1, hFound.2.2.1, ?_⟩
      · simpa [hState] using hBefore
      · rw [hFound.2.2.2]
        rfl

/-- A pass of the worker takes one entry or changes nothing. -/
theorem take_moves (q : JobQueue Job Result) : Path Move q (q.events .take) q.take.2 := by
  unfold events take
  by_cases hStopped : q.stopped = true
  · simpa [hStopped] using Path.nil
  · cases hTaken : takeLocked q.entries with
    | none => simpa [hStopped, hTaken] using Path.nil
    | some answer =>
      obtain ⟨⟨id, job⟩, rest⟩ := answer
      obtain ⟨before, e, after, hSplit, hBefore, hState, hJob, rfl, rfl⟩ :=
        takeLocked_split hTaken
      have hMove := Move.turn hSplit (Turn.take hState hJob) (fun _ _ _ => hBefore) q.dropped
      simpa [hStopped, hTaken] using Path.single hMove

/-- `Done` has one entry's turn, or finds none. -/
theorem done_moves (q : JobQueue Job Result) (id : Id) (submitted : Bool)
    (result : Option Result) :
    Path Move q (q.events (.done id submitted result)) (q.done id submitted result) := by
  cases hFind : q.find id with
  | none => simpa [events, done, hFind] using Path.nil
  | some e =>
    simp only [events, done, hFind]
    obtain ⟨before, after, hSplit, rfl, hBefore⟩ := find_split hFind
    by_cases hCancelled : e.cancelled = true
    · have hMove := Move.turn hSplit (Turn.letGo submitted result hCancelled)
        (fun _ _ h => by cases h) q.dropped
      rw [if_pos hCancelled, forget, hSplit, eraseP_split rfl hBefore]
      simpa using Path.single hMove
    · have hMove := Move.turn hSplit (Turn.settle submitted result)
        (fun _ _ h => by cases h) q.dropped
      rw [if_neg hCancelled, hSplit, modifyEntry_split rfl hBefore]
      simpa using Path.single hMove

/-- A pass of `Resolve` drops, answers or waits. -/
theorem resolve_moves (q : JobQueue Job Result) (id : Id) (wait : Bool) :
    Path Move q (q.events (.resolve id wait)) (q.resolve id wait).2 := by
  cases hFind : q.find id with
  | none => simpa [events, resolve, hFind] using Path.single (Move.miss id)
  | some e =>
    simp only [events, resolve, hFind]
    obtain ⟨before, after, hSplit, rfl, hBefore⟩ := find_split hFind
    have hForget : q.entries.eraseP (fun x => decide (x.id = e.id)) = before ++ after := by
      rw [hSplit, eraseP_split rfl hBefore]
    by_cases hDrop : q.mayDropNow e wait = true
    · -- given up: dropped where it stands, then answered
      have hMay := hDrop
      simp only [mayDropNow, Bool.and_eq_true, decide_eq_true_eq] at hMay
      obtain ⟨⟨⟨hState, -⟩, hDroppable⟩, hRow⟩ := hMay
      have hFirst := Move.turn hSplit (Turn.drop hState hDroppable hRow)
        (fun _ _ h => by cases h) (q.dropped + 1)
      have hSecond := Move.turn (q := { q with
          entries := before ++ ((some e.drop).toList ++ after)
          droppedInARow := q.droppedInARow + 1
          dropped := q.dropped + 1 }) (e := e.drop) rfl (Turn.answer ⟨.kDropped, e.result⟩ (.inr rfl))
        (fun _ _ h => by cases h) (q.dropped + 1)
      have hPath := (Path.single hFirst).append (Path.single hSecond)
      simpa [hDrop, Entry.drop, forget, hForget] using hPath
    · by_cases hSettled : e.state ≠ .kQueued ∧ e.state ≠ .kSubmitting
      · have hMove := Move.turn hSplit (Turn.answer ⟨e.state, e.result⟩ (.inr rfl))
          (fun _ _ h => by cases h) q.dropped
        simpa [hDrop, hSettled, forget, hForget] using Path.single hMove
      · by_cases hStopped : q.stopped = true
        · have hMove := Move.turn hSplit (Turn.answer ⟨.kCancelled, none⟩ (.inl rfl))
            (fun _ _ h => by cases h) q.dropped
          simpa [hDrop, hSettled, hStopped, forget, hForget] using Path.single hMove
        · simpa [hDrop, hSettled, hStopped] using Path.nil

/-- `Cancel` flags or forgets one entry, or finds none. -/
theorem cancel_moves (q : JobQueue Job Result) (id : Id) :
    Path Move q (q.events (.cancel id)) (q.cancel id) := by
  cases hFind : q.find id with
  | none => simpa [events, cancel, hFind] using Path.nil
  | some e =>
    simp only [events, cancel, hFind]
    obtain ⟨before, after, hSplit, rfl, hBefore⟩ := find_split hFind
    by_cases hState : e.state = .kSubmitting
    · have hMove := Move.turn hSplit (Turn.flag hState) (fun _ _ h => by cases h) q.dropped
      rw [if_pos hState, hSplit, modifyEntry_split rfl hBefore]
      simpa using Path.single hMove
    · have hMove := Move.turn hSplit Turn.giveUp (fun _ _ h => by cases h) q.dropped
      rw [if_neg hState, forget, hSplit, eraseP_split rfl hBefore]
      simpa using Path.single hMove

/-- **Every operation is a path of moves.** -/
theorem step_moves (q : JobQueue Job Result) (a : Action Job Result) :
    Path Move q (q.events a) (q.step a) := by
  cases a with
  | queue job droppable =>
    have hPath := (dropSuperseded_moves q [] q.entries rfl).append
      (Path.single (Move.push job droppable))
    simpa [events, step, queue] using hPath
  | take => exact take_moves q
  | tryTake => exact take_moves q
  | done id submitted result => exact done_moves q id submitted result
  | resolve id wait => exact resolve_moves q id wait
  | cancel id => exact cancel_moves q id
  | stop => exact Path.single Move.stop

-- ---------------------------------------------------------------------------
-- The contract, on histories
-- ---------------------------------------------------------------------------

/-- The ids taken, in order. -/
def takenIds (h : List (Event Job Result)) : List Id :=
  h.filterMap fun
    | .taken id _ => some id
    | _ => none

/-- The ids dropped. -/
def droppedIds (h : List (Event Job Result)) : List Id :=
  h.filterMap fun
    | .dropped id => some id
    | _ => none

/-- The ids a `Cancel` found. -/
def cancelledIds (h : List (Event Job Result)) : List Id :=
  h.filterMap fun
    | .cancelled id => some id
    | _ => none

/-- The ids whose outcome was handed out; an answer of `kCancelled` is the
answer that there is none. -/
def outcomeIds (h : List (Event Job Result)) : List Id :=
  h.filterMap fun
    | .answered id outcome => if outcome.state = .kCancelled then none else some id
    | _ => none

/-- The queued jobs: id, job and whether it may be dropped. -/
def queuedJobs (h : List (Event Job Result)) : List (Id × Job × Bool) :=
  h.filterMap fun
    | .queued id job droppable => some (id, job, droppable)
    | _ => none

@[simp] theorem mem_takenIds {h : List (Event Job Result)} {i : Id} :
    i ∈ takenIds h ↔ ∃ job, .taken i job ∈ h := by
  simp only [takenIds, List.mem_filterMap]
  constructor
  · rintro ⟨event, hMem, hId⟩
    cases event with
    | taken id job =>
      obtain rfl := Option.some.inj hId
      exact ⟨job, hMem⟩
    | _ => simp at hId
  · rintro ⟨job, hMem⟩
    exact ⟨_, hMem, rfl⟩

@[simp] theorem mem_droppedIds {h : List (Event Job Result)} {i : Id} :
    i ∈ droppedIds h ↔ .dropped i ∈ h := by
  simp only [droppedIds, List.mem_filterMap]
  constructor
  · rintro ⟨event, hMem, hId⟩
    cases event with
    | dropped id =>
      obtain rfl := Option.some.inj hId
      exact hMem
    | _ => simp at hId
  · intro hMem
    exact ⟨_, hMem, rfl⟩

@[simp] theorem mem_cancelledIds {h : List (Event Job Result)} {i : Id} :
    i ∈ cancelledIds h ↔ .cancelled i ∈ h := by
  simp only [cancelledIds, List.mem_filterMap]
  constructor
  · rintro ⟨event, hMem, hId⟩
    cases event with
    | cancelled id =>
      obtain rfl := Option.some.inj hId
      exact hMem
    | _ => simp at hId
  · intro hMem
    exact ⟨_, hMem, rfl⟩

@[simp] theorem mem_outcomeIds {h : List (Event Job Result)} {i : Id} :
    i ∈ outcomeIds h ↔ ∃ outcome, outcome.state ≠ .kCancelled ∧ .answered i outcome ∈ h := by
  simp only [outcomeIds, List.mem_filterMap]
  constructor
  · rintro ⟨event, hMem, hId⟩
    cases event with
    | answered id outcome =>
      by_cases hState : outcome.state = .kCancelled
      · simp [hState] at hId
      · obtain rfl : id = i := by simpa [hState] using hId
        exact ⟨outcome, hState, hMem⟩
    | _ => simp at hId
  · rintro ⟨outcome, hState, hMem⟩
    exact ⟨_, hMem, by simp [hState]⟩

@[simp] theorem mem_queuedJobs {h : List (Event Job Result)} {i : Id} {job : Job}
    {droppable : Bool} : (i, job, droppable) ∈ queuedJobs h ↔ .queued i job droppable ∈ h := by
  simp only [queuedJobs, List.mem_filterMap]
  constructor
  · rintro ⟨event, hMem, hId⟩
    cases event with
    | queued id job' droppable' =>
      obtain ⟨rfl, rfl, rfl⟩ : id = i ∧ job' = job ∧ droppable' = droppable := by simpa using hId
      exact hMem
    | _ => simp at hId
  · intro hMem
    exact ⟨_, hMem, rfl⟩

/-- The drops in a row after one more event. -/
def dropsAfter (row : Nat) : Event Job Result → Nat
  | .dropped _ => row + 1
  | .finished _ true _ => 0
  | _ => row

/-- The drops since the last job that reached the engine. -/
def openDrops (h : List (Event Job Result)) : Nat :=
  h.foldl dropsAfter 0

theorem openDrops_append (h es : List (Event Job Result)) :
    openDrops (h ++ es) = es.foldl dropsAfter (openDrops h) := by
  rw [openDrops, List.foldl_append, openDrops]

/-- What the header of the queue promises of a history. -/
structure Contract (h : List (Event Job Result)) : Prop where
  /-- The ids taken are strictly increasing. -/
  takenInOrder : (takenIds h).Pairwise (· < ·)
  /-- Each job is taken at most once. -/
  takenOnce : (takenIds h).Nodup
  /-- A dropped job is never taken, a taken one never dropped. -/
  droppedNotTaken : ∀ id ∈ droppedIds h, id ∉ takenIds h
  /-- A job cancelled before it was taken is never taken. -/
  cancelledNotTaken : ∀ before after id, h = before ++ .cancelled id :: after →
    id ∉ takenIds before → id ∉ takenIds h
  /-- A job that may not be dropped is never dropped. -/
  keptNotDropped : ∀ id job, (id, job, false) ∈ queuedJobs h → id ∉ droppedIds h
  /-- Between any two drops a job reached the engine. -/
  doneBetweenDrops : ∀ before between after i j,
    h = before ++ .dropped i :: (between ++ .dropped j :: after) →
    ∃ id result, .finished id true result ∈ between
  /-- No outcome is handed out twice. -/
  outcomeOnce : (outcomeIds h).Nodup

/-- What an event must not contradict in the history before it. -/
def Admissible (h : List (Event Job Result)) : Event Job Result → Prop
  | .queued id _ _ => id ∉ droppedIds h
  | .dropped id => id ∉ takenIds h ∧ (∀ job, (id, job, false) ∉ queuedJobs h) ∧ openDrops h = 0
  | .taken id _ => (∀ i ∈ takenIds h, i < id) ∧ id ∉ droppedIds h ∧ id ∉ cancelledIds h
  | .answered id outcome => outcome.state ≠ .kCancelled → id ∉ outcomeIds h
  | _ => True

/-- With no drop open, every drop has been followed by a job that reached
the engine. -/
theorem finished_of_openDrops {h before after : List (Event Job Result)} {i : Id}
    (hOpen : openDrops h = 0) (hSplit : h = before ++ .dropped i :: after) :
    ∃ id result, .finished id true result ∈ after := by
  subst hSplit
  induction after using List.reverseRecOn with
  | nil => simp [openDrops_append, dropsAfter] at hOpen
  | append_singleton after event ih =>
    rw [← List.cons_append, ← List.append_assoc, openDrops_append] at hOpen
    by_cases hEvent : ∃ id result, event = .finished id true result
    · obtain ⟨id, result, rfl⟩ := hEvent
      exact ⟨id, result, by simp⟩
    · -- any other event leaves the count no lower than it was
      have hBefore : openDrops (before ++ .dropped i :: after) = 0 := by
        match event, hEvent with
        | .dropped _, _ => simp [dropsAfter] at hOpen
        | .finished id true result, hEvent => exact absurd ⟨id, result, rfl⟩ hEvent
        | .finished _ false _, _ => exact hOpen
        | .queued _ _ _, _ => exact hOpen
        | .taken _ _, _ => exact hOpen
        | .answered _ _, _ => exact hOpen
        | .cancelled _, _ => exact hOpen
      obtain ⟨id, result, hMem⟩ := ih hBefore
      exact ⟨id, result, by simp [hMem]⟩

/-- An event that ends a list split at two of its events is the second of
them or comes after it. -/
theorem split_snoc {α : Type} {h before after : List α} {x event : α}
    (hSplit : h ++ [event] = before ++ x :: after) :
    (after = [] ∧ x = event ∧ h = before) ∨
      ∃ rest, after = rest ++ [event] ∧ h = before ++ x :: rest := by
  rcases List.eq_nil_or_concat after with rfl | ⟨rest, last, rfl⟩
  · obtain ⟨hBefore, hLast⟩ := List.append_inj' hSplit rfl
    exact .inl ⟨rfl, by simpa using hLast.symm, hBefore⟩
  · rw [List.concat_eq_append, ← List.cons_append, ← List.append_assoc] at hSplit
    obtain ⟨hBefore, hLast⟩ := List.append_inj' hSplit rfl
    obtain rfl : event = last := by simpa using hLast
    exact .inr ⟨rest, by simp, hBefore⟩

/-- The ids taken stay in order. -/
theorem takenIds_snoc_pairwise {h : List (Event Job Result)} {event : Event Job Result}
    (hOrder : (takenIds h).Pairwise (· < ·)) (hAdm : Admissible h event) :
    (takenIds (h ++ [event])).Pairwise (· < ·) := by
  rw [takenIds, List.filterMap_append, List.pairwise_append]
  refine ⟨hOrder, ?_, ?_⟩
  · cases event <;> simp
  · intro i hi j hj
    cases event with
    | taken id job =>
      obtain rfl : j = id := by simpa using hj
      exact hAdm.1 i hi
    | _ => simp at hj

/-- The contract is kept by every admissible event. -/
theorem contract_snoc {h : List (Event Job Result)} {event : Event Job Result}
    (hC : Contract h) (hAdm : Admissible h event) : Contract (h ++ [event]) where
  takenInOrder := takenIds_snoc_pairwise hC.takenInOrder hAdm
  takenOnce := (takenIds_snoc_pairwise hC.takenInOrder hAdm).imp Nat.ne_of_lt
  droppedNotTaken := by
    intro id hDropped hTaken
    rw [mem_droppedIds, List.mem_append, List.mem_singleton] at hDropped
    obtain ⟨job, hTaken⟩ := mem_takenIds.mp hTaken
    rw [List.mem_append, List.mem_singleton] at hTaken
    rcases hDropped with hDropped | rfl <;> rcases hTaken with hTaken | hTaken
    · exact hC.droppedNotTaken id (by simpa using hDropped) (mem_takenIds.mpr ⟨job, hTaken⟩)
    · subst hTaken
      exact hAdm.2.1 (by simpa using hDropped)
    · exact hAdm.1 (mem_takenIds.mpr ⟨job, hTaken⟩)
    · cases hTaken
  cancelledNotTaken := by
    intro before after id hSplit hBefore hTaken
    obtain ⟨job, hTaken⟩ := mem_takenIds.mp hTaken
    rw [List.mem_append, List.mem_singleton] at hTaken
    rcases split_snoc hSplit with ⟨-, rfl, rfl⟩ | ⟨rest, -, rfl⟩
    · rcases hTaken with hTaken | hTaken
      · exact hBefore (mem_takenIds.mpr ⟨job, hTaken⟩)
      · cases hTaken
    · rcases hTaken with hTaken | rfl
      · exact hC.cancelledNotTaken before rest id rfl hBefore (mem_takenIds.mpr ⟨job, hTaken⟩)
      · exact hAdm.2.2 (by simp)
  keptNotDropped := by
    intro id job hQueued hDropped
    rw [mem_queuedJobs, List.mem_append, List.mem_singleton] at hQueued
    rw [mem_droppedIds, List.mem_append, List.mem_singleton] at hDropped
    rcases hQueued with hQueued | rfl <;> rcases hDropped with hDropped | hDropped
    · exact hC.keptNotDropped id job (by simpa using hQueued) (by simpa using hDropped)
    · subst hDropped
      exact hAdm.2.1 job (by simpa using hQueued)
    · exact hAdm (by simpa using hDropped)
    · cases hDropped
  doneBetweenDrops := by
    intro before between after i j hSplit
    rw [← List.cons_append, ← List.append_assoc] at hSplit
    rcases split_snoc hSplit with ⟨-, rfl, hBefore⟩ | ⟨rest, -, hBefore⟩
    · exact finished_of_openDrops hAdm.2.2 hBefore
    · exact hC.doneBetweenDrops before between rest i j (by simpa using hBefore)
  outcomeOnce := by
    rw [outcomeIds, List.filterMap_append, List.nodup_append]
    refine ⟨hC.outcomeOnce, ?_, ?_⟩
    · cases event with
      | answered id outcome => by_cases hState : outcome.state = .kCancelled <;> simp [hState]
      | _ => simp
    · rintro i hi j hj rfl
      cases event with
      | answered id outcome =>
        by_cases hState : outcome.state = .kCancelled
        · simp [hState] at hj
        · obtain rfl : i = id := by simpa [hState] using hj
          exact hAdm hState hi
      | _ => simp at hj

-- ---------------------------------------------------------------------------
-- The entries against the history
-- ---------------------------------------------------------------------------

/-- What the entries of the queue and its counters know of its history. -/
structure Inv (h : List (Event Job Result)) (q : JobQueue Job Result) : Prop where
  contract : Contract h
  /-- The entries stand in the order they came in. -/
  sorted : q.entries.Pairwise fun a b => a.id < b.id
  bounded : ∀ e ∈ q.entries, e.id ≤ q.lastId
  /-- No id is seen before it is given out. -/
  seen : ∀ id, (id ∈ takenIds h ∨ id ∈ droppedIds h ∨ id ∈ cancelledIds h ∨ id ∈ outcomeIds h ∨
    ∃ job droppable, (id, job, droppable) ∈ queuedJobs h) → id ≤ q.lastId
  /-- An entry is as it was queued. -/
  flagged : ∀ e ∈ q.entries, ∀ job droppable,
    (e.id, job, droppable) ∈ queuedJobs h → droppable = e.droppable
  held : ∀ e ∈ q.entries, ∀ job, e.job = some job → (e.id, job, e.droppable) ∈ queuedJobs h
  /-- A queued entry still waits for its turn, and so do all after it. -/
  waiting : ∀ e ∈ q.entries, e.state = .kQueued →
    (∀ i ∈ takenIds h, i < e.id) ∧ e.id ∉ droppedIds h ∧ e.id ∉ cancelledIds h
  /-- A queued entry has its job, until the queue is stopped. -/
  ready : q.stopped = false → ∀ e ∈ q.entries, e.state = .kQueued → e.job.isSome
  unanswered : ∀ e ∈ q.entries, e.id ∉ outcomeIds h
  row : q.droppedInARow = openDrops h
  /-- What the worker was handed is what was queued. -/
  handed : ∀ id job, .taken id job ∈ h → ∃ droppable, (id, job, droppable) ∈ queuedJobs h

/-- The empty queue has no history. -/
theorem inv_init : Inv [] ({} : JobQueue Job Result) := by
  refine ⟨⟨?_, ?_, ?_, ?_, ?_, ?_, ?_⟩, ?_, ?_, ?_, ?_, ?_, ?_, ?_, ?_, ?_, ?_⟩ <;>
    simp [takenIds, outcomeIds, openDrops]

/-- An entry still there after a turn is the one that had it, or stands
before or after it as it did. -/
theorem mem_turn {before after : List (Entry Job Result)} {e x : Entry Job Result}
    {kept : Option (Entry Job Result)}
    (hSorted : (before ++ e :: after).Pairwise fun a b => a.id < b.id)
    (hx : x ∈ before ++ (kept.toList ++ after)) :
    (x ∈ before ∧ x.id < e.id) ∨ (x ∈ after ∧ e.id < x.id) ∨ kept = some x := by
  rw [List.pairwise_append, List.pairwise_cons] at hSorted
  obtain ⟨-, ⟨hAfter, -⟩, hBefore⟩ := hSorted
  rw [List.mem_append, List.mem_append, Option.mem_toList] at hx
  rcases hx with hx | hx | hx
  · exact .inl ⟨hx, hBefore x hx e (by simp)⟩
  · exact .inr (.inr hx)
  · exact .inr (.inl ⟨hx, hAfter x hx⟩)

/-- A turn leaves the entries in order. -/
theorem sorted_turn {before after : List (Entry Job Result)} {e : Entry Job Result}
    {kept : Option (Entry Job Result)} (hKept : ∀ k, kept = some k → k.id = e.id)
    (hSorted : (before ++ e :: after).Pairwise fun a b => a.id < b.id) :
    (before ++ (kept.toList ++ after)).Pairwise fun a b => a.id < b.id := by
  cases kept with
  | none => exact hSorted.sublist (by simp)
  | some k =>
    have hId : k.id = e.id := hKept k rfl
    simpa [List.pairwise_append, List.pairwise_cons, hId] using hSorted

/-- What is seen of a turn is of the entry that had it, and not its coming
in. -/
theorem turn_event {e : Entry Job Result} {row row' : Nat} {event : Event Job Result}
    {kept : Option (Entry Job Result)} (hTurn : Turn e row event kept row') :
    row' = dropsAfter row event ∧ (∀ i job, event = .taken i job → i = e.id) ∧
      (∀ i, event = .dropped i → i = e.id) ∧ (∀ i, event = .cancelled i → i = e.id) ∧
      (∀ i outcome, event = .answered i outcome → i = e.id ∧ kept = none) ∧
      ∀ i job droppable, event ≠ .queued i job droppable := by
  cases hTurn with
  | settle submitted => cases submitted <;> simp [dropsAfter]
  | letGo submitted => cases submitted <;> simp [dropsAfter]
  | _ => simp [dropsAfter]

/-- What is seen of a turn contradicts nothing before it. -/
theorem turn_admissible {h : List (Event Job Result)} {q : JobQueue Job Result}
    {e : Entry Job Result} {row : Nat} {event : Event Job Result}
    {kept : Option (Entry Job Result)} (hInv : Inv h q) (hMem : e ∈ q.entries)
    (hTurn : Turn e q.droppedInARow event kept row) : Admissible h event := by
  cases hTurn with
  | drop hState hDroppable hRow =>
    refine ⟨?_, ?_, ?_⟩
    · intro hTaken
      exact Nat.lt_irrefl _ ((hInv.waiting e hMem hState).1 e.id hTaken)
    · intro job hQueued
      have hFlag := hInv.flagged e hMem job false hQueued
      simp [hDroppable] at hFlag
    · have hZero : q.droppedInARow = 0 := Nat.lt_one_iff.mp hRow
      rw [← hInv.row, hZero]
  | take hState hJob => exact hInv.waiting e hMem hState
  | answer outcome hOutcome => exact fun _ => hInv.unanswered e hMem
  | settle | letGo | flag | giveUp => trivial

/-- A job that comes in keeps the invariant: its id is newer than all. -/
theorem push_inv {h : List (Event Job Result)} {q : JobQueue Job Result} (hInv : Inv h q)
    (job : Job) (droppable : Bool) :
    Inv (h ++ [.queued (q.lastId + 1) job droppable])
      { q with
        entries := q.entries ++
          [{ id := q.lastId + 1, state := .kQueued, droppable := droppable, job := some job }]
        lastId := q.lastId + 1 } where
  contract := by
    refine contract_snoc hInv.contract fun hDropped => ?_
    have hle := hInv.seen (q.lastId + 1) (.inr (.inl hDropped))
    exact Nat.not_succ_le_self _ hle
  sorted := by
    refine List.pairwise_append.mpr ⟨hInv.sorted, List.pairwise_singleton _ _, ?_⟩
    intro a ha b hb
    obtain rfl := List.mem_singleton.mp hb
    exact Nat.lt_succ_of_le (hInv.bounded a ha)
  bounded := by
    intro e he
    rcases List.mem_append.mp he with he | he
    · exact Nat.le_succ_of_le (hInv.bounded e he)
    · obtain rfl := List.mem_singleton.mp he
      exact Nat.le_refl _
  seen := by
    intro id hId
    have hOld := hInv.seen id
    simp only [mem_takenIds, mem_droppedIds, mem_cancelledIds, mem_outcomeIds, mem_queuedJobs,
      List.mem_append, List.mem_singleton, reduceCtorEq, or_false, Event.queued.injEq] at hId hOld
    show id ≤ q.lastId + 1
    rcases hId with hId | hId | hId | hId | ⟨j, d, hId | ⟨rfl, -, -⟩⟩
    · exact Nat.le_succ_of_le (hOld (.inl hId))
    · exact Nat.le_succ_of_le (hOld (.inr (.inl hId)))
    · exact Nat.le_succ_of_le (hOld (.inr (.inr (.inl hId))))
    · exact Nat.le_succ_of_le (hOld (.inr (.inr (.inr (.inl hId)))))
    · exact Nat.le_succ_of_le (hOld (.inr (.inr (.inr (.inr ⟨j, d, hId⟩)))))
    · exact Nat.le_refl _
  flagged := by
    intro e he j d hQueued
    rw [mem_queuedJobs, List.mem_append, List.mem_singleton] at hQueued
    rcases List.mem_append.mp he with he | he
    · rcases hQueued with hQueued | hQueued
      · exact hInv.flagged e he j d (by simpa using hQueued)
      · have hle := hInv.bounded e he
        simp only [Event.queued.injEq] at hQueued
        exact absurd (hQueued.1 ▸ hle) (Nat.not_succ_le_self _)
    · obtain rfl := List.mem_singleton.mp he
      rcases hQueued with hQueued | hQueued
      · have hle := hInv.seen (q.lastId + 1)
          (.inr (.inr (.inr (.inr ⟨j, d, by simpa using hQueued⟩))))
        exact absurd hle (Nat.not_succ_le_self _)
      · simp only [Event.queued.injEq] at hQueued
        exact hQueued.2.2
  held := by
    intro e he j hJob
    rw [mem_queuedJobs, List.mem_append, List.mem_singleton]
    rcases List.mem_append.mp he with he | he
    · exact .inl (by simpa using hInv.held e he j hJob)
    · obtain rfl := List.mem_singleton.mp he
      obtain rfl : job = j := by simpa using hJob
      exact .inr rfl
  waiting := by
    intro e he hState
    simp only [mem_takenIds, mem_droppedIds, mem_cancelledIds, List.mem_append,
      List.mem_singleton, reduceCtorEq, or_false]
    rcases List.mem_append.mp he with he | he
    · simpa using hInv.waiting e he hState
    · obtain rfl := List.mem_singleton.mp he
      refine ⟨?_, ?_, ?_⟩
      · intro i hTaken
        exact Nat.lt_succ_of_le (hInv.seen i (.inl (by simpa using hTaken)))
      · intro hDropped
        have hle := hInv.seen (q.lastId + 1) (.inr (.inl (by simpa using hDropped)))
        exact Nat.not_succ_le_self _ hle
      · intro hCancelled
        have hle := hInv.seen (q.lastId + 1) (.inr (.inr (.inl (by simpa using hCancelled))))
        exact Nat.not_succ_le_self _ hle
  ready := by
    intro hStopped e he hState
    rcases List.mem_append.mp he with he | he
    · exact hInv.ready hStopped e he hState
    · obtain rfl := List.mem_singleton.mp he
      rfl
  unanswered := by
    intro e he hAnswered
    simp only [mem_outcomeIds, List.mem_append, List.mem_singleton, reduceCtorEq,
      or_false] at hAnswered
    rcases List.mem_append.mp he with he | he
    · exact hInv.unanswered e he (by simpa using hAnswered)
    · obtain rfl := List.mem_singleton.mp he
      have hle := hInv.seen (q.lastId + 1) (.inr (.inr (.inr (.inl (by simpa using hAnswered)))))
      exact Nat.not_succ_le_self _ hle
  row := by
    rw [openDrops_append]
    exact hInv.row
  handed := by
    intro id j hTaken
    simp only [List.mem_append, List.mem_singleton, reduceCtorEq, or_false] at hTaken
    obtain ⟨d, hQueued⟩ := hInv.handed id j hTaken
    exact ⟨d, by simp [mem_queuedJobs.mp hQueued]⟩

/-- One entry's turn keeps the invariant. -/
theorem turn_inv {h : List (Event Job Result)} {q : JobQueue Job Result}
    {before after : List (Entry Job Result)} {e : Entry Job Result} {event : Event Job Result}
    {kept : Option (Entry Job Result)} {row : Nat} (hInv : Inv h q)
    (hSplit : q.entries = before ++ e :: after)
    (hTurn : Turn e q.droppedInARow event kept row)
    (hOldest : ∀ id job, event = .taken id job → ∀ x ∈ before, x.state ≠ .kQueued)
    (dropped : Nat) :
    Inv (h ++ [event])
      { q with entries := before ++ (kept.toList ++ after), droppedInARow := row,
               dropped := dropped } := by
  have hMem : e ∈ q.entries := by simp [hSplit]
  have hSorted := hInv.sorted
  rw [hSplit] at hSorted
  obtain ⟨hRow, hTaken, hDropped, hCancelled, hAnswered, hQueued⟩ := turn_event hTurn
  -- every entry after the turn is an old one other than `e`, or what stays of `e`
  have hFrom : ∀ x ∈ before ++ (kept.toList ++ after),
      (x ∈ q.entries ∧ x.id ≠ e.id) ∨ kept = some x := by
    intro x hx
    rcases mem_turn hSorted hx with ⟨hx, hlt⟩ | ⟨hx, hlt⟩ | hx
    · exact .inl ⟨by simp [hSplit, hx], Nat.ne_of_lt hlt⟩
    · exact .inl ⟨by simp [hSplit, hx], Nat.ne_of_gt hlt⟩
    · exact .inr hx
  have hKept : ∀ k, kept = some k → k.id = e.id ∧ k.droppable = e.droppable ∧
      k.state ≠ .kQueued ∧ ∀ job, k.job = some job → e.job = some job := by
    rintro k rfl
    exact turn_kept hTurn
  have hOldJobs : ∀ i job d, .queued i job d ∈ h ++ [event] ↔ .queued i job d ∈ h := by
    intro i job d
    rw [List.mem_append, List.mem_singleton]
    exact ⟨fun hOr => hOr.elim id fun hEq => absurd hEq.symm (hQueued i job d), .inl⟩
  constructor
  case contract => exact contract_snoc hInv.contract (turn_admissible hInv hMem hTurn)
  case sorted => exact sorted_turn (fun k hk => (hKept k hk).1) hSorted
  case bounded =>
    intro x hx
    rcases hFrom x hx with ⟨hx, -⟩ | hx
    · exact hInv.bounded x hx
    · rw [(hKept x hx).1]
      exact hInv.bounded e hMem
  case seen =>
    intro id hId
    have hOld := hInv.seen id
    have hSelf : id = e.id → id ≤ q.lastId := fun hEq => hEq ▸ hInv.bounded e hMem
    simp only [mem_takenIds, mem_droppedIds, mem_cancelledIds, mem_outcomeIds, mem_queuedJobs,
      hOldJobs] at hId hOld
    simp only [List.mem_append, List.mem_singleton] at hId
    rcases hId with ⟨job, hId | hId⟩ | (hId | hId) | (hId | hId) | ⟨o, hState, hId | hId⟩ | hId
    · exact hOld (.inl ⟨job, hId⟩)
    · exact hSelf (hTaken id job hId.symm)
    · exact hOld (.inr (.inl hId))
    · exact hSelf (hDropped id hId.symm)
    · exact hOld (.inr (.inr (.inl hId)))
    · exact hSelf (hCancelled id hId.symm)
    · exact hOld (.inr (.inr (.inr (.inl ⟨o, hState, hId⟩))))
    · exact hSelf (hAnswered id o hId.symm).1
    · exact hOld (.inr (.inr (.inr (.inr hId))))
  case flagged =>
    intro x hx job d hJob
    rw [mem_queuedJobs, hOldJobs, ← mem_queuedJobs] at hJob
    rcases hFrom x hx with ⟨hx, -⟩ | hx
    · exact hInv.flagged x hx job d hJob
    · obtain ⟨hId, hFlag, -⟩ := hKept x hx
      rw [hFlag]
      exact hInv.flagged e hMem job d (hId ▸ hJob)
  case held =>
    intro x hx job hJob
    rw [mem_queuedJobs, hOldJobs, ← mem_queuedJobs]
    rcases hFrom x hx with ⟨hx, -⟩ | hx
    · exact hInv.held x hx job hJob
    · obtain ⟨hId, hFlag, -, hSame⟩ := hKept x hx
      rw [hId, hFlag]
      exact hInv.held e hMem job (hSame job hJob)
  case waiting =>
    intro x hx hState
    -- what stays of `e` waits no more, so `x` is another entry
    have hOther : (x ∈ before ∧ x.id < e.id) ∨ (x ∈ after ∧ e.id < x.id) := by
      rcases mem_turn hSorted hx with hx | hx | hx
      · exact .inl hx
      · exact .inr hx
      · exact absurd hState (hKept x hx).2.2.1
    have hxMem : x ∈ q.entries := by
      rcases hOther with ⟨hx, -⟩ | ⟨hx, -⟩ <;> simp [hSplit, hx]
    have hne : x.id ≠ e.id := by
      rcases hOther with ⟨-, hlt⟩ | ⟨-, hlt⟩
      · exact Nat.ne_of_lt hlt
      · exact Nat.ne_of_gt hlt
    obtain ⟨hOldTaken, hOldDropped, hOldCancelled⟩ := hInv.waiting x hxMem hState
    refine ⟨?_, ?_, ?_⟩
    · intro i hi
      obtain ⟨job, hi⟩ := mem_takenIds.mp hi
      rw [List.mem_append, List.mem_singleton] at hi
      rcases hi with hi | hi
      · exact hOldTaken i (mem_takenIds.mpr ⟨job, hi⟩)
      · -- `e` was taken: nothing before it was waiting
        rw [hTaken i job hi.symm]
        rcases hOther with ⟨hx, -⟩ | ⟨-, hlt⟩
        · exact absurd hState (hOldest i job hi.symm x hx)
        · exact hlt
    · rw [mem_droppedIds, List.mem_append, List.mem_singleton]
      rintro (hi | hi)
      · exact hOldDropped (by simpa using hi)
      · exact hne (hDropped x.id hi.symm)
    · rw [mem_cancelledIds, List.mem_append, List.mem_singleton]
      rintro (hi | hi)
      · exact hOldCancelled (by simpa using hi)
      · exact hne (hCancelled x.id hi.symm)
  case ready =>
    intro hStopped x hx hState
    rcases hFrom x hx with ⟨hx, -⟩ | hx
    · exact hInv.ready hStopped x hx hState
    · exact absurd hState (hKept x hx).2.2.1
  case unanswered =>
    intro x hx hOut
    obtain ⟨outcome, hState, hOut⟩ := mem_outcomeIds.mp hOut
    rw [List.mem_append, List.mem_singleton] at hOut
    rcases hOut with hOut | hOut
    · have hOld := mem_outcomeIds.mpr ⟨outcome, hState, hOut⟩
      rcases hFrom x hx with ⟨hx, -⟩ | hx
      · exact hInv.unanswered x hx hOld
      · rw [(hKept x hx).1] at hOld
        exact hInv.unanswered e hMem hOld
    · obtain ⟨hId, hGone⟩ := hAnswered x.id outcome hOut.symm
      rcases hFrom x hx with ⟨-, hne⟩ | hx
      · exact hne hId
      · simp [hGone] at hx
  case row =>
    show row = _
    rw [openDrops_append, hRow, hInv.row]
    rfl
  case handed =>
    intro id job hGot
    simp only [mem_queuedJobs, hOldJobs]
    rw [List.mem_append, List.mem_singleton] at hGot
    rcases hGot with hGot | hGot
    · simpa using hInv.handed id job hGot
    · subst hGot
      cases hTurn with
      | take hState hJob => exact ⟨e.droppable, by simpa using hInv.held e hMem job hJob⟩

/-- Asking for an id the queue does not hold changes nothing. -/
theorem miss_inv {h : List (Event Job Result)} {q : JobQueue Job Result} (hInv : Inv h q)
    (id : Id) : Inv (h ++ [.answered id ⟨.kCancelled, none⟩]) q := by
  have hTaken : takenIds (h ++ [.answered id ⟨.kCancelled, none⟩]) = takenIds h := by
    simp [takenIds]
  have hDropped : droppedIds (h ++ [.answered id ⟨.kCancelled, none⟩]) = droppedIds h := by
    simp [droppedIds]
  have hCancelled : cancelledIds (h ++ [.answered id ⟨.kCancelled, none⟩]) = cancelledIds h := by
    simp [cancelledIds]
  have hOutcome : outcomeIds (h ++ [.answered id ⟨.kCancelled, none⟩]) = outcomeIds h := by
    simp [outcomeIds]
  have hQueued : queuedJobs (h ++ [.answered id ⟨.kCancelled, none⟩]) = queuedJobs h := by
    simp [queuedJobs]
  constructor
  case contract => exact contract_snoc hInv.contract fun hState => absurd rfl hState
  case sorted => exact hInv.sorted
  case bounded => exact hInv.bounded
  case seen => simpa only [hTaken, hDropped, hCancelled, hOutcome, hQueued] using hInv.seen
  case flagged => simpa only [hQueued] using hInv.flagged
  case held => simpa only [hQueued] using hInv.held
  case waiting => simpa only [hTaken, hDropped, hCancelled] using hInv.waiting
  case ready => exact hInv.ready
  case unanswered => simpa only [hOutcome] using hInv.unanswered
  case row => simpa [openDrops_append, dropsAfter] using hInv.row
  case handed =>
    intro i job hGot
    rw [hQueued]
    exact hInv.handed i job (by simpa using hGot)

/-- Stopping lets go of the jobs not taken and keeps the entries. -/
theorem stop_inv {h : List (Event Job Result)} {q : JobQueue Job Result} (hInv : Inv h q) :
    Inv h q.stop := by
  have hFrom : ∀ x ∈ q.stop.entries, ∃ e ∈ q.entries, x.id = e.id ∧ x.droppable = e.droppable ∧
      x.state = e.state ∧ ∀ job, x.job = some job → e.job = some job := by
    intro x hx
    obtain ⟨e, he, rfl⟩ := List.mem_map.mp hx
    refine ⟨e, he, ?_⟩
    by_cases hState : e.state = .kQueued <;> simp [hState]
  constructor
  case contract => exact hInv.contract
  case sorted =>
    rw [stop, List.pairwise_map]
    refine hInv.sorted.imp fun {a b} hlt => ?_
    by_cases ha : a.state = .kQueued <;> by_cases hb : b.state = .kQueued <;> simpa [ha, hb] using hlt
  case bounded =>
    intro x hx
    obtain ⟨e, he, hId, -⟩ := hFrom x hx
    exact hId ▸ hInv.bounded e he
  case seen => exact hInv.seen
  case flagged =>
    intro x hx job d hQueued
    obtain ⟨e, he, hId, hFlag, -⟩ := hFrom x hx
    rw [hFlag]
    exact hInv.flagged e he job d (hId ▸ hQueued)
  case held =>
    intro x hx job hJob
    obtain ⟨e, he, hId, hFlag, -, hSame⟩ := hFrom x hx
    rw [hId, hFlag]
    exact hInv.held e he job (hSame job hJob)
  case waiting =>
    intro x hx hState
    obtain ⟨e, he, hId, -, hSame, -⟩ := hFrom x hx
    rw [hId]
    exact hInv.waiting e he (hSame ▸ hState)
  case ready => intro hStopped; simp [stop] at hStopped
  case unanswered =>
    intro x hx
    obtain ⟨e, he, hId, -⟩ := hFrom x hx
    rw [hId]
    exact hInv.unanswered e he
  case row => exact hInv.row
  case handed => exact hInv.handed

/-- Every move keeps the invariant. -/
theorem move_inv {h es : List (Event Job Result)} {q q' : JobQueue Job Result}
    (hInv : Inv h q) (hMove : Move q es q') : Inv (h ++ es) q' := by
  cases hMove with
  | push job droppable => exact push_inv hInv job droppable
  | turn hSplit hTurn hOldest dropped => exact turn_inv hInv hSplit hTurn hOldest dropped
  | miss id => exact miss_inv hInv id
  | stop => simpa using stop_inv hInv

/-- So does every operation. -/
theorem inv_step {h : List (Event Job Result)} {q : JobQueue Job Result} (hInv : Inv h q)
    (a : Action Job Result) : Inv (h ++ q.events a) (q.step a) :=
  Path.invariant (fun _ _ _ _ hInv hMove => move_inv hInv hMove) hInv (step_moves q a)

-- ---------------------------------------------------------------------------
-- Over every run
-- ---------------------------------------------------------------------------

/-- Every history of the queue is a history of moves. -/
theorem jobQueue_history {q : JobQueue Job Result} {actions : List (Action Job Result)}
    (hRun : (machine Job Result).run {} actions = some q) : Path Move {} (history actions) q :=
  Machine.run_path
    (fun q a q' hStep => by
      obtain rfl := Option.some.inj hStep
      exact step_moves q a)
    hRun

/-- The queue takes every action, so every list of them is a run. -/
theorem jobQueue_runs (q : JobQueue Job Result) (actions : List (Action Job Result)) :
    ∃ q', (machine Job Result).run q actions = some q' :=
  Machine.run_of_total (fun q a => ⟨q.step a, rfl⟩) q actions

/-- The invariant holds after every run. -/
theorem jobQueue_inv {q : JobQueue Job Result} {actions : List (Action Job Result)}
    (hRun : (machine Job Result).run {} actions = some q) : Inv (history actions) q := by
  have hPath := Path.invariant (fun _ _ _ _ hInv hMove => move_inv hInv hMove) inv_init
    (jobQueue_history hRun)
  simpa using hPath

/--
**The promises of `JobQueue.h`.** Whatever the order of any number of
`Queue`, `Take`, `TryTake`, `Done`, `Resolve`, `Cancel` and `Stop`, the
history keeps the contract. `Done` need not even be called for a taken job:
the queue keeps its word to a worker that calls it for any id, any number of
times.
-/
theorem jobQueue_contract (actions : List (Action Job Result)) : Contract (history actions) := by
  obtain ⟨q, hRun⟩ := jobQueue_runs {} actions
  exact (jobQueue_inv hRun).contract

/-- The worker is handed only what was queued under that id. -/
theorem jobQueue_taken_is_queued (actions : List (Action Job Result)) (id : Id) (job : Job)
    (hTaken : .taken id job ∈ history actions) :
    ∃ droppable, .queued id job droppable ∈ history actions := by
  obtain ⟨q, hRun⟩ := jobQueue_runs {} actions
  simpa using (jobQueue_inv hRun).handed id job hTaken

/-- A worker that comes for a job while one is queued gets one, with its job
still in it: the read of an emptied job in `TakeLocked` does not happen. -/
theorem jobQueue_take_has_job {q : JobQueue Job Result} {actions : List (Action Job Result)}
    (hRun : (machine Job Result).run {} actions = some q) (hStopped : q.stopped = false)
    {e : Entry Job Result} (hMem : e ∈ q.entries) (hState : e.state = .kQueued) :
    e.job.isSome :=
  (jobQueue_inv hRun).ready hStopped e hMem hState

end JobQueue

end TegraHwc
