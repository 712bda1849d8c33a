import TegraHwc.Lib.Runs
import Mathlib.Logic.Function.Basic
import Mathlib.Tactic.Common

/-!
# TegraHwc — what is let go is let go once

`compositor/GarbageCollector.h`: jobs posted by any thread, run by a thread of the
collector's own that starts with the first of them. Each stretch under the lock is
a step of the machine; a notification that is made after the lock is let go is a
step of its own, and a thread that waits may wake of itself. Jobs post further
jobs, and do nothing else to the collector; nobody else calls it once its
destructor has begun, though calls of `Flush` may still wait.

## Results

* `kept_act`               — what every step keeps.
* `drains`                 — the thread alone runs whatever is posted.
* `garbageCollector_once`  — every job once, in order, and nobody left waiting.
-/

namespace TegraHwc

open Runs

namespace GarbageCollector

variable {J : Type}

/-- A job: one given to `Post`, or a descriptor given to `Close`. -/
inductive Job (J : Type) where
  | call (job : J)
  | closeFd (fd : Int)
  deriving DecidableEq, Repr

/-- Where the collector's thread is: not started, before its lock, asleep on
`changed_`, in a job, or out of its loop. -/
inductive Thread (J : Type) where
  | unstarted
  | top
  | asleep
  | run (job : Job J)
  | gone
  deriving DecidableEq, Repr

/-- The job the thread is in. -/
def Thread.job : Thread J → Option (Job J)
  | .run job => some job
  | .unstarted | .top | .asleep | .gone => none

/-- `thread_` is started by whoever finds it not joinable. -/
def Thread.started : Thread J → Thread J
  | .unstarted => .top
  | t => t

/-- Where the destructor is. -/
inductive Destructor where
  | uncalled
  | notifying
  | joining
  | returned
  deriving DecidableEq, Repr

/-- A thread inside `Flush`: asleep on `idle_`, or about to look. -/
structure Flusher where
  asleep : Bool := false
  notified : Bool := false
  deriving DecidableEq, Repr

end GarbageCollector

/-- `GarbageCollector`, with the threads about it. `notified` is whether the
collector's thread, asleep, has been notified; `owed` counts the notifications
posters have still to make. -/
structure GarbageCollector (J : Type) where
  jobs : List (GarbageCollector.Job J) := []
  running : Bool := false
  stopping : Bool := false
  thread : GarbageCollector.Thread J := .unstarted
  notified : Bool := false
  owed : Nat := 0
  flushers : Nat → Option GarbageCollector.Flusher := fun _ => none
  destructor : GarbageCollector.Destructor := .uncalled

namespace GarbageCollector

variable {J : Type}

/-- A call of another thread or of a job, a step of the collector's thread, or a
step of a thread in `Flush` or in the destructor. -/
inductive Action (J : Type) where
  | post (byJob : Bool) (job : J)
  | close (byJob : Bool) (fd : Int)
  | notify
  | lock
  | wake
  | wakeUnasked
  | finish
  | flush (caller : Nat)
  | look (caller : Nat)
  | rouse (caller : Nat)
  | rouseUnasked (caller : Nat)
  | destroy
  | notifyStopping
  | join
  deriving DecidableEq, Repr

/-- What is told of a run. -/
inductive Event (J : Type) where
  | posted (job : Job J)
  | begun (job : Job J)
  | ended (job : Job J)
  | flushCalled (caller : Nat)
  | flushed (caller : Nat)
  | destroyed
  deriving DecidableEq, Repr

/-- `Post`, up to its notification. -/
def post (s : GarbageCollector J) (job : Job J) : GarbageCollector J :=
  { s with jobs := s.jobs ++ [job], thread := s.thread.started, owed := s.owed + 1 }

/-- `changed_.notify_all`. -/
def notifyChanged (s : GarbageCollector J) : GarbageCollector J :=
  { s with
    notified :=
      match s.thread with
      | .asleep => true
      | .unstarted | .top | .run _ | .gone => s.notified }

/-- `idle_.notify_all`. -/
def notifyIdle (s : GarbageCollector J) : GarbageCollector J :=
  { s with
    flushers := fun caller =>
      (s.flushers caller).map fun w => { w with notified := w.notified || w.asleep } }

/-- The loop from its wait on: asleep, out of the loop, or in the next job. -/
def next (s : GarbageCollector J) : GarbageCollector J :=
  match s.jobs with
  | job :: jobs => { s with jobs := jobs, running := true, thread := .run job }
  | [] =>
    if s.stopping then { s with thread := .gone }.notifyIdle
    else { s with thread := .asleep, notified := false }

/-- A job's end, and the loop on. -/
def finish (s : GarbageCollector J) : GarbageCollector J :=
  let s := { s with running := false }
  (if s.jobs.isEmpty then s.notifyIdle else s).next

/-- The condition `Flush` returns under. -/
def idle (s : GarbageCollector J) : Bool := s.jobs.isEmpty && !s.running

/-- A look of a thread in `Flush`, under the lock. -/
def look (s : GarbageCollector J) (caller : Nat) : GarbageCollector J :=
  { s with
    flushers := Function.update s.flushers caller
      (if s.idle then none else some { asleep := true }) }

/-- Whether a caller may call: a job while it runs, others until the destructor
begins. -/
def mayCall (s : GarbageCollector J) (byJob : Bool) : Bool :=
  if byJob then s.thread.job.isSome else s.destructor = .uncalled

/-- The step; none where its thread is elsewhere. -/
def act (s : GarbageCollector J) : Action J → Option (GarbageCollector J)
  | .post byJob job => if s.mayCall byJob then some (s.post (.call job)) else none
  | .close byJob fd =>
    if s.mayCall byJob then some (if fd < 0 then s else s.post (.closeFd fd)) else none
  | .notify => if 0 < s.owed then some { s with owed := s.owed - 1 }.notifyChanged else none
  | .lock => match s.thread with
    | .top => some s.next
    | .unstarted | .asleep | .run _ | .gone => none
  | .wake => match s.thread with
    | .asleep => if s.notified then some s.next else none
    | .unstarted | .top | .run _ | .gone => none
  | .wakeUnasked => match s.thread with
    | .asleep => some s.next
    | .unstarted | .top | .run _ | .gone => none
  | .finish => if s.thread.job.isSome then some s.finish else none
  | .flush caller =>
    if s.destructor = .uncalled ∧ (s.flushers caller).isNone then
      some { s with flushers := Function.update s.flushers caller (some {}) }
    else none
  | .look caller =>
    if (s.flushers caller).any fun w => !w.asleep then some (s.look caller) else none
  | .rouse caller =>
    if (s.flushers caller).any fun w => w.asleep && w.notified then
      some { s with flushers := Function.update s.flushers caller (some {}) }
    else none
  | .rouseUnasked caller =>
    if (s.flushers caller).any fun w => w.asleep then
      some { s with flushers := Function.update s.flushers caller (some {}) }
    else none
  | .destroy =>
    if s.destructor = .uncalled then some { s with stopping := true, destructor := .notifying }
    else none
  | .notifyStopping =>
    if s.destructor = .notifying then some { s with destructor := .joining }.notifyChanged else none
  | .join => match s.thread with
    | .unstarted | .gone =>
      if s.destructor = .joining then some { s with destructor := .returned } else none
    | .top | .asleep | .run _ => none

/-- What `next` tells. -/
def begins (s : GarbageCollector J) : List (Event J) := (s.jobs.head?.map Event.begun).toList

/-- What is told of a step. -/
def tells (s : GarbageCollector J) : Action J → List (Event J)
  | .post _ job => [.posted (.call job)]
  | .close _ fd => if fd < 0 then [] else [.posted (.closeFd fd)]
  | .lock | .wake | .wakeUnasked => s.begins
  | .finish => (s.thread.job.map Event.ended).toList ++ s.begins
  | .flush caller => [.flushCalled caller]
  | .look caller => if s.idle then [.flushed caller] else []
  | .join => [.destroyed]
  | .notify | .rouse _ | .rouseUnasked _ | .destroy | .notifyStopping => []

/-- The collector, run. -/
def machine (J : Type) : Machine (GarbageCollector J) (Action J) (Event J) where
  step := act
  events := tells

/-- `pending`. -/
def pending (s : GarbageCollector J) : Nat := s.jobs.length + if s.running then 1 else 0

-- ---------------------------------------------------------------------------
-- What a history tells
-- ---------------------------------------------------------------------------

/-- The jobs posted, in order. -/
def posted (h : List (Event J)) : List (Job J) :=
  h.filterMap fun
    | .posted job => some job
    | _ => none

/-- The jobs begun, in order. -/
def begun (h : List (Event J)) : List (Job J) :=
  h.filterMap fun
    | .begun job => some job
    | _ => none

/-- The jobs that have run, in order. -/
def ended (h : List (Event J)) : List (Job J) :=
  h.filterMap fun
    | .ended job => some job
    | _ => none

variable {h : List (Event J)} {s s' : GarbageCollector J} {job : Job J} {caller : Nat}

@[simp] theorem posted_append (h h' : List (Event J)) : posted (h ++ h') = posted h ++ posted h' :=
  List.filterMap_append

@[simp] theorem begun_append (h h' : List (Event J)) : begun (h ++ h') = begun h ++ begun h' :=
  List.filterMap_append

@[simp] theorem ended_append (h h' : List (Event J)) : ended (h ++ h') = ended h ++ ended h' :=
  List.filterMap_append

/-- The latest call of `Flush` by this caller, with what was told before it and
since. -/
def LastCall (h : List (Event J)) (caller : Nat) (earlier : List (Event J)) : Prop :=
  ∃ later, h = earlier ++ .flushCalled caller :: later ∧ .flushCalled caller ∉ later

theorem lastCall_concat {e : Event J} {earlier : List (Event J)} (hCall : LastCall h caller earlier)
    (hOther : e ≠ .flushCalled caller) : LastCall (h ++ [e]) caller earlier := by
  obtain ⟨later, rfl, hNone⟩ := hCall
  refine ⟨later ++ [e], by rw [List.append_assoc, List.cons_append], fun hMem => ?_⟩
  rcases List.mem_append.mp hMem with hEarly | hLast
  · exact hNone hEarly
  · exact hOther (List.mem_singleton.mp hLast).symm

/-- A job begins where the one before has ended, and ends as the one begun; a
`Flush` returns where every job posted before its call has run; and the destructor,
where every job posted has. -/
def Right (before : List (Event J)) : Event J → Prop
  | .begun _ => begun before = ended before
  | .ended job => begun before = ended before ++ [job]
  | .flushed caller => ∃ earlier, LastCall before caller earlier ∧ posted earlier <+: ended before
  | .destroyed => ended before = posted before
  | .posted _ | .flushCalled _ => True

-- ---------------------------------------------------------------------------
-- What every step keeps
-- ---------------------------------------------------------------------------

/-- The jobs posted are those begun and those queued, those begun are those run and
the one running. Nobody who waits and may go on is left without a notification. -/
structure Kept (h : List (Event J)) (s : GarbageCollector J) : Prop where
  order : posted h = begun h ++ s.jobs
  alone : begun h = ended h ++ s.thread.job.toList
  running : s.running = s.thread.job.isSome
  unstarted : s.thread = .unstarted → s.jobs = []
  gone : s.thread = .gone → s.jobs = [] ∧ s.stopping = true
  stopping : s.stopping = true ↔ s.destructor ≠ .uncalled
  returned : s.destructor = .returned → s.thread = .unstarted ∨ s.thread = .gone
  awake : s.thread = .asleep → s.stopping = true ∨ s.jobs ≠ [] →
    s.notified = true ∨ 0 < s.owed ∨ s.destructor = .notifying
  told : ∀ caller w, s.flushers caller = some w → w.asleep = true → s.idle = true →
    w.notified = true
  called : ∀ caller w, s.flushers caller = some w → ∃ earlier, LastCall h caller earlier
  right : Follows Right h

theorem idle_iff : s.idle = true ↔ s.jobs = [] ∧ s.running = false := by
  unfold idle
  rw [Bool.and_eq_true, List.isEmpty_iff, Bool.not_eq_true']

/-- A thread not started, or gone, has nothing queued and is in no job. -/
theorem still_of_gone (hKept : Kept h s) (hAt : s.thread = .unstarted ∨ s.thread = .gone) :
    s.jobs = [] ∧ s.thread.job = none := by
  rcases hAt with hAt | hAt
  · rw [hAt]
    exact ⟨hKept.unstarted hAt, rfl⟩
  · rw [hAt]
    exact ⟨(hKept.gone hAt).1, rfl⟩

/-- The destructor waits for a thread that has started. -/
theorem not_returned (hKept : Kept h s) (hStarted : s.thread ≠ .unstarted)
    (hStays : s.thread ≠ .gone) : s.destructor ≠ .returned := fun hReturned =>
  (hKept.returned hReturned).elim hStarted hStays

/-- An event that is no call leaves every call the latest it was. -/
theorem called_concat {flushers : Nat → Option Flusher} {e : Event J}
    (hCalled : ∀ caller w, flushers caller = some w → ∃ earlier, LastCall h caller earlier)
    (hOther : ∀ caller, e ≠ .flushCalled caller) :
    ∀ caller w, flushers caller = some w → ∃ earlier, LastCall (h ++ [e]) caller earlier := by
  intro caller w hInside
  obtain ⟨earlier, hCall⟩ := hCalled caller w hInside
  exact ⟨earlier, lastCall_concat hCall (hOther caller)⟩

theorem kept_post {byJob : Bool} (hKept : Kept h s) (hCall : s.mayCall byJob = true) :
    Kept (h ++ [.posted job]) (s.post job) := by
  have hLives : s.thread ≠ .gone ∧ s.destructor ≠ .returned := by
    unfold mayCall at hCall
    cases byJob with
    | true =>
      have hSome : s.thread.job.isSome = true := hCall
      have hStays : s.thread ≠ .gone := fun hAt => by simp [hAt, Thread.job] at hSome
      exact ⟨hStays, not_returned hKept (fun hAt => by simp [hAt, Thread.job] at hSome) hStays⟩
    | false =>
      have hUncalled : s.destructor = .uncalled := by simpa using hCall
      refine ⟨fun hGone => hKept.stopping.mp (hKept.gone hGone).2 hUncalled, ?_⟩
      rw [hUncalled]
      decide
  have hJob : s.thread.started.job = s.thread.job := by
    cases s.thread <;> rfl
  constructor
  case order =>
    rw [posted_append, begun_append, hKept.order, List.append_assoc]
    simp [posted, begun, post]
  case alone =>
    rw [begun_append, ended_append]
    simpa [begun, ended, post, hJob] using hKept.alone
  case running => exact hKept.running.trans (congrArg Option.isSome hJob.symm)
  case unstarted =>
    intro hAt
    unfold post at hAt
    cases hThread : s.thread with
    | unstarted =>
      rw [hThread] at hAt
      cases hAt
    | top | asleep | run | gone =>
      rw [hThread] at hAt
      cases hAt
  case gone =>
    intro hAt
    exfalso
    unfold post at hAt
    cases hThread : s.thread with
    | gone => exact hLives.1 hThread
    | unstarted | top | asleep | run =>
      rw [hThread] at hAt
      cases hAt
  case stopping => exact hKept.stopping
  case returned => exact fun hReturned => absurd hReturned hLives.2
  case awake => exact fun _ _ => .inr (.inl (Nat.succ_pos _))
  case told =>
    intro caller w _ _ hIdle
    have := (idle_iff.mp hIdle).1
    simp [post] at this
  case called => exact called_concat hKept.called fun _ hSame => (nomatch hSame)
  case right => exact follows_concat.mpr ⟨hKept.right, trivial⟩

/-- What holds where the loop is about to go on, whatever its thread did before. -/
structure Between (h : List (Event J)) (s : GarbageCollector J) : Prop where
  order : posted h = begun h ++ s.jobs
  alone : begun h = ended h
  running : s.running = false
  stopping : s.stopping = true ↔ s.destructor ≠ .uncalled
  alive : s.destructor ≠ .returned
  told : ∀ caller w, s.flushers caller = some w → w.asleep = true → s.idle = true →
    w.notified = true
  called : ∀ caller w, s.flushers caller = some w → ∃ earlier, LastCall h caller earlier
  right : Follows Right h

/-- Who waits to find the collector idle is notified by `idle_.notify_all`. -/
theorem told_notifyIdle {w : Flusher} (hInside : s.notifyIdle.flushers caller = some w)
    (hAsleep : w.asleep = true) : w.notified = true := by
  obtain ⟨v, -, rfl⟩ := Option.map_eq_some_iff.mp hInside
  have hWas : v.asleep = true := hAsleep
  rw [hWas]
  exact Bool.or_true _

theorem called_notifyIdle
    (hCalled : ∀ caller w, s.flushers caller = some w → ∃ earlier, LastCall h caller earlier) :
    ∀ caller w, s.notifyIdle.flushers caller = some w → ∃ earlier, LastCall h caller earlier := by
  intro caller w hInside
  obtain ⟨v, hWas, -⟩ := Option.map_eq_some_iff.mp hInside
  exact hCalled caller v hWas

theorem next_cons {jobs : List (Job J)} (hJobs : s.jobs = job :: jobs) :
    s.next = { s with jobs := jobs, running := true, thread := .run job } := by
  unfold next
  rw [hJobs]

theorem next_stop (hJobs : s.jobs = []) (hStopping : s.stopping = true) :
    s.next = { s with thread := .gone }.notifyIdle := by
  unfold next
  split
  · rename_i hMore
    rw [hJobs] at hMore
    cases hMore
  · rw [if_pos hStopping]

theorem next_sleep (hJobs : s.jobs = []) (hStopping : ¬s.stopping = true) :
    s.next = { s with thread := .asleep, notified := false } := by
  unfold next
  split
  · rename_i hMore
    rw [hJobs] at hMore
    cases hMore
  · rw [if_neg hStopping]

/-- The loop goes on. -/
theorem kept_next (hBetween : Between h s) : Kept (h ++ s.begins) s.next := by
  unfold begins
  cases hJobs : s.jobs with
  | cons job jobs =>
    rw [next_cons hJobs]
    have hOrder := hBetween.order
    rw [hJobs] at hOrder
    constructor
    case order =>
      rw [posted_append, begun_append, hOrder]
      simp [posted, begun]
    case alone =>
      rw [begun_append, ended_append, hBetween.alone]
      simp [begun, ended, Thread.job]
    case running => rfl
    case unstarted => exact fun hAt => (nomatch hAt)
    case gone => exact fun hAt => (nomatch hAt)
    case stopping => exact hBetween.stopping
    case returned => exact fun hReturned => absurd hReturned hBetween.alive
    case awake => exact fun hAt => (nomatch hAt)
    case told =>
      intro caller w _ _ hIdle
      cases (idle_iff.mp hIdle).2
    case called => exact called_concat hBetween.called fun _ hSame => (nomatch hSame)
    case right => exact follows_concat.mpr ⟨hBetween.right, hBetween.alone⟩
  | nil =>
    simp only [List.head?_nil, Option.map_none, Option.toList_none, List.append_nil]
    by_cases hStopping : s.stopping = true
    · rw [next_stop hJobs hStopping]
      constructor
      case order => exact hBetween.order
      case alone => exact hBetween.alone.trans (List.append_nil _).symm
      case running => exact hBetween.running
      case unstarted => exact fun hAt => (nomatch hAt)
      case gone => exact fun _ => ⟨hJobs, hStopping⟩
      case stopping => exact hBetween.stopping
      case returned => exact fun _ => .inr rfl
      case awake => exact fun hAt => (nomatch hAt)
      case told => exact fun caller w hInside hAsleep _ => told_notifyIdle hInside hAsleep
      case called => exact called_notifyIdle hBetween.called
      case right => exact hBetween.right
    · rw [next_sleep hJobs hStopping]
      constructor
      case order => exact hBetween.order
      case alone => exact hBetween.alone.trans (List.append_nil _).symm
      case running => exact hBetween.running
      case unstarted => exact fun hAt => (nomatch hAt)
      case gone => exact fun hAt => (nomatch hAt)
      case stopping => exact hBetween.stopping
      case returned => exact fun hReturned => absurd hReturned hBetween.alive
      case awake => exact fun _ hGo => absurd hGo (not_or_intro hStopping (not_not_intro hJobs))
      case told => exact hBetween.told
      case called => exact hBetween.called
      case right => exact hBetween.right

/-- A thread that has not looked yet, or wakes, goes on. -/
theorem kept_go (hKept : Kept h s) (hAt : s.thread = .top ∨ s.thread = .asleep) :
    Kept (h ++ s.begins) s.next := by
  have hJob : s.thread.job = none := by
    rcases hAt with h | h
    · rw [h]
      rfl
    · rw [h]
      rfl
  have hAlive : s.destructor ≠ .returned :=
    not_returned hKept (fun hBack => by simp [hBack] at hAt) fun hBack => by simp [hBack] at hAt
  refine kept_next ⟨hKept.order, ?_, ?_, hKept.stopping, hAlive, hKept.told, hKept.called,
    hKept.right⟩
  · rw [hKept.alone, hJob]
    exact List.append_nil _
  · rw [hKept.running, hJob]
    rfl

/-- A job ends, and the loop goes on. -/
theorem kept_finish (hKept : Kept h s) (hRun : s.thread = .run job) :
    Kept (h ++ ([.ended job] ++ s.begins)) s.finish := by
  have hAlone : begun h = ended h ++ [job] := by
    rw [hKept.alone, hRun]
    rfl
  have hAlive : s.destructor ≠ .returned := not_returned hKept (by simp [hRun]) (by simp [hRun])
  have hOrder : posted (h ++ [.ended job]) = begun (h ++ [.ended job]) ++ s.jobs := by
    rw [posted_append, begun_append, hKept.order]
    simp [posted, begun]
  have hEnded : begun (h ++ [.ended job]) = ended (h ++ [.ended job]) := by
    rw [begun_append, ended_append, hAlone]
    simp [begun, ended]
  have hRight : Follows Right (h ++ [.ended job]) := follows_concat.mpr ⟨hKept.right, hAlone⟩
  have hCalled := called_concat hKept.called (e := .ended job) fun _ hSame => (nomatch hSame)
  rw [← List.append_assoc]
  unfold finish
  simp only
  split
  · exact @kept_next _ _ { s with running := false }.notifyIdle
      ⟨hOrder, hEnded, rfl, hKept.stopping, hAlive,
        fun caller w hInside hAsleep _ => told_notifyIdle hInside hAsleep,
        called_notifyIdle hCalled, hRight⟩
  · rename_i hMore
    refine @kept_next _ _ { s with running := false } ⟨hOrder, hEnded, rfl, hKept.stopping, hAlive,
      fun caller w _ _ hIdle => absurd ?_ hMore, hCalled, hRight⟩
    exact List.isEmpty_iff.mpr (idle_iff.mp hIdle).1

/-- An event that is about no job leaves the jobs as they were told. -/
theorem order_concat {e : Event J} (hKept : Kept h s)
    (hNone : posted [e] = [] ∧ begun [e] = [] ∧ ended [e] = []) :
    posted (h ++ [e]) = begun (h ++ [e]) ++ s.jobs ∧
      begun (h ++ [e]) = ended (h ++ [e]) ++ s.thread.job.toList := by
  obtain ⟨hPosted, hBegun, hEnded⟩ := hNone
  rw [posted_append, begun_append, ended_append, hPosted, hBegun, hEnded, List.append_nil,
    List.append_nil, List.append_nil]
  exact ⟨hKept.order, hKept.alone⟩

/-- A notification of the collector's thread. -/
theorem kept_notifyChanged {owed : Nat} {destructor : Destructor} (hKept : Kept h s)
    (hStopping : s.stopping = true ↔ destructor ≠ .uncalled)
    (hReturned : destructor = .returned → s.destructor = .returned) :
    Kept h { s with owed := owed, destructor := destructor }.notifyChanged where
  order := hKept.order
  alone := hKept.alone
  running := hKept.running
  unstarted := hKept.unstarted
  gone := hKept.gone
  stopping := hStopping
  returned hAt := hKept.returned (hReturned hAt)
  awake hAsleep _ := by
    have hAt : s.thread = .asleep := hAsleep
    refine .inl ?_
    unfold notifyChanged
    simp only [hAt]
  told := hKept.told
  called := hKept.called
  right := hKept.right

/-- Nobody is inside `Flush` but the callers there already and this one, awake. -/
theorem inside_update {w : Option Flusher} {other : Nat} {v : Flusher}
    (hInside : Function.update s.flushers caller w other = some v) :
    other = caller ∧ w = some v ∨ other ≠ caller ∧ s.flushers other = some v := by
  by_cases hSame : other = caller
  · subst hSame
    rw [Function.update_self] at hInside
    exact .inl ⟨rfl, hInside⟩
  · rw [Function.update_of_ne hSame] at hInside
    exact .inr ⟨hSame, hInside⟩

theorem kept_flush (hKept : Kept h s) :
    Kept (h ++ [.flushCalled caller])
      { s with flushers := Function.update s.flushers caller (some {}) } where
  order := (order_concat hKept ⟨rfl, rfl, rfl⟩).1
  alone := (order_concat hKept ⟨rfl, rfl, rfl⟩).2
  running := hKept.running
  unstarted := hKept.unstarted
  gone := hKept.gone
  stopping := hKept.stopping
  returned := hKept.returned
  awake := hKept.awake
  told other v hInside hAsleep hIdle := by
    obtain ⟨-, hNew⟩ | ⟨-, hWas⟩ := inside_update hInside
    · cases hNew
      cases hAsleep
    · exact hKept.told other v hWas hAsleep hIdle
  called other v hInside := by
    obtain ⟨rfl, -⟩ | ⟨hNe, hWas⟩ := inside_update hInside
    · exact ⟨h, [], rfl, List.not_mem_nil⟩
    · obtain ⟨earlier, hCall⟩ := hKept.called other v hWas
      exact ⟨earlier, lastCall_concat hCall fun hSame => hNe (Event.flushCalled.inj hSame).symm⟩
  right := follows_concat.mpr ⟨hKept.right, trivial⟩

/-- A thread in `Flush` wakes. -/
theorem kept_rouse {w : Flusher} (hKept : Kept h s) (hInside : s.flushers caller = some w) :
    Kept h { s with flushers := Function.update s.flushers caller (some {}) } where
  order := hKept.order
  alone := hKept.alone
  running := hKept.running
  unstarted := hKept.unstarted
  gone := hKept.gone
  stopping := hKept.stopping
  returned := hKept.returned
  awake := hKept.awake
  told other v hInside hAsleep hIdle := by
    obtain ⟨-, hNew⟩ | ⟨-, hWas⟩ := inside_update hInside
    · cases hNew
      cases hAsleep
    · exact hKept.told other v hWas hAsleep hIdle
  called other v hUpdated := by
    obtain ⟨rfl, -⟩ | ⟨-, hWas⟩ := inside_update hUpdated
    · exact hKept.called other w hInside
    · exact hKept.called other v hWas
  right := hKept.right

/-- Of a collector with nothing queued and no job running, all posted has run. -/
theorem posted_eq_ended (hKept : Kept h s) (hJobs : s.jobs = []) (hJob : s.thread.job = none) :
    posted h = ended h := by
  rw [hKept.order, hKept.alone, hJobs, hJob]
  simp

/-- A thread in `Flush` looks, and returns where the collector is idle. -/
theorem kept_look {w : Flusher} (hKept : Kept h s) (hInside : s.flushers caller = some w) :
    Kept (h ++ if s.idle then [.flushed caller] else []) (s.look caller) := by
  unfold look
  by_cases hIdle : s.idle = true
  · rw [if_pos hIdle, if_pos hIdle]
    constructor
    case order => exact (order_concat hKept ⟨rfl, rfl, rfl⟩).1
    case alone => exact (order_concat hKept ⟨rfl, rfl, rfl⟩).2
    case running => exact hKept.running
    case unstarted => exact hKept.unstarted
    case gone => exact hKept.gone
    case stopping => exact hKept.stopping
    case returned => exact hKept.returned
    case awake => exact hKept.awake
    case told =>
      intro other v hUpdated
      obtain ⟨-, hNone⟩ | ⟨-, hWas⟩ := inside_update hUpdated
      · cases hNone
      · exact hKept.told other v hWas
    case called =>
      refine called_concat (fun other v hUpdated => ?_) fun _ hSame => (nomatch hSame)
      obtain ⟨-, hNone⟩ | ⟨-, hWas⟩ := inside_update hUpdated
      · cases hNone
      · exact hKept.called other v hWas
    case right =>
      obtain ⟨hJobs, hRunning⟩ := idle_iff.mp hIdle
      have hJob : s.thread.job = none := by
        rw [← Option.isNone_iff_eq_none, ← Option.not_isSome, ← hKept.running, hRunning]
        rfl
      obtain ⟨earlier, hCall⟩ := hKept.called caller w hInside
      refine follows_concat.mpr ⟨hKept.right, earlier, hCall, ?_⟩
      rw [← posted_eq_ended hKept hJobs hJob]
      obtain ⟨later, rfl, -⟩ := hCall
      rw [posted_append]
      exact List.prefix_append _ _
  · rw [if_neg hIdle, if_neg hIdle, List.append_nil]
    constructor
    case order => exact hKept.order
    case alone => exact hKept.alone
    case running => exact hKept.running
    case unstarted => exact hKept.unstarted
    case gone => exact hKept.gone
    case stopping => exact hKept.stopping
    case returned => exact hKept.returned
    case awake => exact hKept.awake
    case told => exact fun _ _ _ _ hNow => absurd hNow hIdle
    case called =>
      intro other v hUpdated
      obtain ⟨rfl, -⟩ | ⟨-, hWas⟩ := inside_update hUpdated
      · exact hKept.called other w hInside
      · exact hKept.called other v hWas
    case right => exact hKept.right

theorem kept_destroy (hKept : Kept h s) :
    Kept h { s with stopping := true, destructor := .notifying } where
  order := hKept.order
  alone := hKept.alone
  running := hKept.running
  unstarted := hKept.unstarted
  gone hAt := ⟨(hKept.gone hAt).1, rfl⟩
  stopping := ⟨fun _ hAt => (nomatch hAt), fun _ => rfl⟩
  returned hAt := (nomatch hAt)
  awake _ _ := .inr (.inr rfl)
  told := hKept.told
  called := hKept.called
  right := hKept.right

/-- The destructor returns, its thread gone or never started. -/
theorem kept_join (hKept : Kept h s) (hAt : s.thread = .unstarted ∨ s.thread = .gone)
    (hJoining : s.destructor = .joining) :
    Kept (h ++ [.destroyed]) { s with destructor := .returned } := by
  obtain ⟨hJobs, hJob⟩ := still_of_gone hKept hAt
  constructor
  case order => exact (order_concat hKept ⟨rfl, rfl, rfl⟩).1
  case alone => exact (order_concat hKept ⟨rfl, rfl, rfl⟩).2
  case running => exact hKept.running
  case unstarted => exact hKept.unstarted
  case gone => exact hKept.gone
  case stopping =>
    refine ⟨fun _ hBack => (nomatch hBack), fun _ => hKept.stopping.mpr ?_⟩
    rw [hJoining]
    decide
  case returned => exact fun _ => hAt
  case awake =>
    intro hAsleep
    rcases hAt with h | h
    · rw [h] at hAsleep
      cases hAsleep
    · rw [h] at hAsleep
      cases hAsleep
  case told => exact hKept.told
  case called => exact called_concat hKept.called fun _ hSame => (nomatch hSame)
  case right => exact follows_concat.mpr ⟨hKept.right, (posted_eq_ended hKept hJobs hJob).symm⟩

/-- **Every step keeps the collector.** -/
theorem kept_act {a : Action J} (hKept : Kept h s) (hStep : s.act a = some s') :
    Kept (h ++ s.tells a) s' := by
  cases a with
  | post byJob job =>
    rw [act, Option.ite_none_right_eq_some] at hStep
    obtain ⟨hCall, hStep⟩ := hStep
    obtain rfl := Option.some.inj hStep
    exact kept_post hKept hCall
  | close byJob fd =>
    rw [act, Option.ite_none_right_eq_some] at hStep
    obtain ⟨hCall, hStep⟩ := hStep
    obtain rfl := Option.some.inj hStep
    rw [tells]
    by_cases hNone : fd < 0
    · rw [if_pos hNone, if_pos hNone, List.append_nil]
      exact hKept
    · rw [if_neg hNone, if_neg hNone]
      exact kept_post hKept hCall
  | notify =>
    rw [act, Option.ite_none_right_eq_some] at hStep
    obtain rfl := Option.some.inj hStep.2
    rw [tells, List.append_nil]
    exact kept_notifyChanged hKept hKept.stopping id
  | lock =>
    unfold act at hStep
    simp only at hStep
    split at hStep
    · rename_i hAt
      obtain rfl := Option.some.inj hStep
      exact kept_go hKept (.inl hAt)
    all_goals cases hStep
  | wake =>
    unfold act at hStep
    simp only at hStep
    split at hStep
    · rename_i hAt
      rw [Option.ite_none_right_eq_some] at hStep
      obtain rfl := Option.some.inj hStep.2
      exact kept_go hKept (.inr hAt)
    all_goals cases hStep
  | wakeUnasked =>
    unfold act at hStep
    simp only at hStep
    split at hStep
    · rename_i hAt
      obtain rfl := Option.some.inj hStep
      exact kept_go hKept (.inr hAt)
    all_goals cases hStep
  | finish =>
    rw [act, Option.ite_none_right_eq_some] at hStep
    obtain ⟨hSome, hStep⟩ := hStep
    obtain rfl := Option.some.inj hStep
    rw [tells]
    cases hAt : s.thread with
    | run job => exact kept_finish hKept hAt
    | unstarted | top | asleep | gone =>
      rw [hAt] at hSome
      cases hSome
  | flush caller =>
    rw [act, Option.ite_none_right_eq_some] at hStep
    obtain rfl := Option.some.inj hStep.2
    exact kept_flush hKept
  | look caller =>
    rw [act, Option.ite_none_right_eq_some, Option.any_eq_true] at hStep
    obtain ⟨⟨w, hInside, -⟩, hStep⟩ := hStep
    obtain rfl := Option.some.inj hStep
    exact kept_look hKept hInside
  | rouse caller =>
    rw [act, Option.ite_none_right_eq_some, Option.any_eq_true] at hStep
    obtain ⟨⟨w, hInside, -⟩, hStep⟩ := hStep
    obtain rfl := Option.some.inj hStep
    rw [tells, List.append_nil]
    exact kept_rouse hKept hInside
  | rouseUnasked caller =>
    rw [act, Option.ite_none_right_eq_some, Option.any_eq_true] at hStep
    obtain ⟨⟨w, hInside, -⟩, hStep⟩ := hStep
    obtain rfl := Option.some.inj hStep
    rw [tells, List.append_nil]
    exact kept_rouse hKept hInside
  | destroy =>
    rw [act, Option.ite_none_right_eq_some] at hStep
    obtain rfl := Option.some.inj hStep.2
    rw [tells, List.append_nil]
    exact kept_destroy hKept
  | notifyStopping =>
    rw [act, Option.ite_none_right_eq_some] at hStep
    obtain ⟨hNotifying, hStep⟩ := hStep
    obtain rfl := Option.some.inj hStep
    rw [tells, List.append_nil]
    refine kept_notifyChanged hKept ⟨fun _ hBack => (nomatch hBack), fun _ => ?_⟩
      fun hBack => (nomatch hBack)
    rw [hKept.stopping, hNotifying]
    decide
  | join =>
    unfold act at hStep
    simp only at hStep
    split at hStep
    · rename_i hAt
      rw [Option.ite_none_right_eq_some] at hStep
      obtain ⟨hJoining, hStep⟩ := hStep
      obtain rfl := Option.some.inj hStep
      exact kept_join hKept (.inl hAt) hJoining
    · rename_i hAt
      rw [Option.ite_none_right_eq_some] at hStep
      obtain ⟨hJoining, hStep⟩ := hStep
      obtain rfl := Option.some.inj hStep
      exact kept_join hKept (.inr hAt) hJoining
    all_goals cases hStep

theorem kept_init : Kept [] ({} : GarbageCollector J) where
  order := rfl
  alone := rfl
  running := rfl
  unstarted _ := rfl
  gone hAt := (nomatch hAt)
  stopping := ⟨fun hStopping => (nomatch hStopping), fun hBegun => absurd rfl hBegun⟩
  returned hAt := (nomatch hAt)
  awake hAt := (nomatch hAt)
  told _ _ hInside := (nomatch hInside)
  called _ _ hInside := (nomatch hInside)
  right := follows_nil

/-- What is kept is kept by whole runs. -/
theorem kept_run {actions : List (Action J)} (hKept : Kept h s)
    (hRun : (machine J).run s actions = some s') : Kept (h ++ (machine J).trace s actions) s' :=
  Machine.run_history (fun _ _ _ _ => kept_act) hKept hRun

/-- The queue's length for the dump: what was posted and has not run. -/
theorem pending_eq (hKept : Kept h s) : s.pending + (ended h).length = (posted h).length := by
  unfold pending
  rw [hKept.order, hKept.alone, hKept.running, List.length_append, List.length_append]
  cases s.thread.job with
  | none =>
    simp
    omega
  | some job =>
    simp
    omega

-- ---------------------------------------------------------------------------
-- The thread alone
-- ---------------------------------------------------------------------------

/-- The collector's thread's own steps, and the notifications on their way to it. -/
def Own : Action J → Prop
  | .notify | .notifyStopping | .lock | .wake | .finish => True
  | .post _ _ | .close _ _ | .wakeUnasked | .flush _ | .look _ | .rouse _ | .rouseUnasked _
  | .destroy | .join => False

/-- Some steps of its own leave the thread with nothing queued and in no job. -/
def Drains (s : GarbageCollector J) : Prop :=
  ∃ rest s', (∀ a ∈ rest, Own a) ∧ (machine J).run s rest = some s' ∧ s'.jobs = [] ∧
    s'.thread.job = none

theorem drains_step {t : GarbageCollector J} {a : Action J} (hOwn : Own a)
    (hStep : s.act a = some t) (hRest : Drains t) : Drains s := by
  obtain ⟨rest, s', hAll, hRun, hDone⟩ := hRest
  refine ⟨a :: rest, s', fun b hb => ?_, Machine.run_cons.mpr ⟨t, hStep, hRun⟩, hDone⟩
  rcases List.mem_cons.mp hb with rfl | hb
  · exact hOwn
  · exact hAll b hb

theorem act_finish (hAt : s.thread = .run job) : s.act .finish = some s.finish := by
  unfold act
  rw [hAt]
  rfl

theorem act_lock (hAt : s.thread = .top) : s.act .lock = some s.next := by
  unfold act
  rw [hAt]

theorem act_notify (hOwed : 0 < s.owed) :
    s.act .notify = some { s with owed := s.owed - 1 }.notifyChanged := by
  unfold act
  exact if_pos hOwed

theorem act_notifyStopping (hNotifying : s.destructor = .notifying) :
    s.act .notifyStopping = some { s with destructor := .joining }.notifyChanged := by
  unfold act
  exact if_pos hNotifying

theorem notified_notifyChanged (hAt : s.thread = .asleep) : s.notifyChanged.notified = true := by
  unfold notifyChanged
  simp only [hAt]

theorem act_wake (hAt : s.thread = .asleep) (hNotified : s.notified = true) :
    s.act .wake = some s.next := by
  unfold act
  rw [hAt]
  exact if_pos hNotified

theorem finish_next (s : GarbageCollector J) :
    s.finish.jobs = s.next.jobs ∧ s.finish.thread = s.next.thread := by
  unfold finish next
  cases s.jobs with
  | nil => cases s.stopping <;> simp [notifyIdle]
  | cons job jobs => simp

/-- A thread in a job ends it and runs the jobs queued after it. -/
theorem drains_run {jobs : List (Job J)} (hAt : s.thread = .run job) (hJobs : s.jobs = jobs) :
    Drains s := by
  induction jobs generalizing s job with
  | nil =>
    refine drains_step (a := .finish) trivial (act_finish hAt) ⟨[], s.finish, by simp, rfl, ?_⟩
    rw [(finish_next s).1, (finish_next s).2]
    by_cases hStopping : s.stopping = true
    · rw [next_stop hJobs hStopping]
      exact ⟨hJobs, rfl⟩
    · rw [next_sleep hJobs hStopping]
      exact ⟨hJobs, rfl⟩
  | cons next jobs ih =>
    refine drains_step (a := .finish) trivial (act_finish hAt) (@ih _ next ?_ ?_)
    · rw [(finish_next s).2, next_cons hJobs]
    · rw [(finish_next s).1, next_cons hJobs]

/-- A thread about to go on runs what is queued. -/
theorem drains_next : Drains s.next := by
  cases hJobs : s.jobs with
  | nil =>
    by_cases hStopping : s.stopping = true
    · rw [next_stop hJobs hStopping]
      exact ⟨[], _, by simp, rfl, hJobs, rfl⟩
    · rw [next_sleep hJobs hStopping]
      exact ⟨[], _, by simp, rfl, hJobs, rfl⟩
  | cons job jobs =>
    rw [next_cons hJobs]
    exact drains_run rfl rfl

/-- A thread asleep and notified wakes and runs what is queued. -/
theorem drains_wake (hAt : s.thread = .asleep) (hNotified : s.notified = true) : Drains s :=
  drains_step (a := .wake) trivial (act_wake hAt hNotified) drains_next

/-- **The thread alone runs whatever is posted.** -/
theorem drains (hKept : Kept h s) : Drains s := by
  by_cases hJobs : s.jobs = [] ∧ s.thread.job = none
  · exact ⟨[], s, by simp, rfl, hJobs⟩
  cases hAt : s.thread with
  | unstarted => exact absurd (still_of_gone hKept (.inl hAt)) hJobs
  | gone => exact absurd (still_of_gone hKept (.inr hAt)) hJobs
  | top => exact drains_step (a := .lock) trivial (act_lock hAt) drains_next
  | run job => exact drains_run hAt rfl
  | asleep =>
    have hMore : s.jobs ≠ [] := fun hNone => hJobs ⟨hNone, by rw [hAt]; rfl⟩
    obtain hNotified | hOwed | hNotifying := hKept.awake hAt (.inr hMore)
    · exact drains_wake hAt hNotified
    · exact drains_step (a := .notify) trivial (act_notify hOwed)
        (drains_wake hAt (notified_notifyChanged hAt))
    · exact drains_step (a := .notifyStopping) trivial (act_notifyStopping hNotifying)
        (drains_wake hAt (notified_notifyChanged hAt))

/-- The thread's own steps post nothing. -/
theorem posted_own {rest : List (Action J)} (hOwn : ∀ a ∈ rest, Own a) (s : GarbageCollector J) :
    posted ((machine J).trace s rest) = [] := by
  induction rest generalizing s with
  | nil => rfl
  | cons a rest ih =>
    have hHere : posted (s.tells a) = [] := by
      have hIs := hOwn a List.mem_cons_self
      cases a with
      | notify | notifyStopping => rfl
      | lock | wake =>
        unfold tells begins
        cases s.jobs <;> rfl
      | finish =>
        unfold tells begins
        cases s.jobs <;> cases s.thread <;> rfl
      | _ => cases hIs
    unfold Machine.trace
    split
    · rfl
    · rw [posted_append, ih fun b hb => hOwn b (List.mem_cons_of_mem _ hb)]
      exact (List.append_nil _).trans hHere

/-- **Everything once and in order.** In every run the jobs begun are the first of
those posted, in order, and all but the last of them at most have ended when the
last begins; a `Flush` returns where what was posted before it has run, and the
destructor where all has. Nobody sleeps who may go on and is not notified, and the
thread alone runs whatever is left. -/
theorem garbageCollector_once {actions : List (Action J)}
    (hRun : (machine J).run {} actions = some s) :
    let h := (machine J).trace {} actions
    (posted h = begun h ++ s.jobs ∧ begun h = ended h ++ s.thread.job.toList) ∧
      Follows Right h ∧
      (∀ caller w, s.flushers caller = some w → w.asleep = true → s.idle = true →
        w.notified = true) ∧
      (s.thread = .asleep → s.stopping = true ∨ s.jobs ≠ [] →
        s.notified = true ∨ 0 < s.owed ∨ s.destructor = .notifying) ∧
      (s.destructor = .returned → ended h = posted h) ∧
      ∃ rest s', (∀ a ∈ rest, Own a) ∧ (machine J).run s rest = some s' ∧
        ended (h ++ (machine J).trace s rest) = posted h := by
  intro h
  have hKept : Kept h s := by simpa using kept_run kept_init hRun
  refine ⟨⟨hKept.order, hKept.alone⟩, hKept.right, hKept.told, hKept.awake, fun hReturned => ?_, ?_⟩
  · obtain ⟨hJobs, hJob⟩ := still_of_gone hKept (hKept.returned hReturned)
    exact (posted_eq_ended hKept hJobs hJob).symm
  · obtain ⟨rest, s', hOwn, hRest, hJobs, hJob⟩ := drains hKept
    refine ⟨rest, s', hOwn, hRest, ?_⟩
    rw [← posted_eq_ended (kept_run hKept hRest) hJobs hJob, posted_append, posted_own hOwn,
      List.append_nil]

/-- A job that posts another, a `Flush` that waits for both, and the destructor. -/
def postedTwice : List (Action Nat) :=
  [.post false 1, .lock, .flush 7, .look 7, .post true 2, .notify, .finish, .finish, .rouse 7,
    .look 7, .notify, .close false (-1), .destroy, .notifyStopping, .wake, .join]

example : (machine Nat).trace {} postedTwice =
    [.posted (.call 1), .begun (.call 1), .flushCalled 7, .posted (.call 2), .ended (.call 1),
      .begun (.call 2), .ended (.call 2), .flushed 7, .destroyed] := by decide

theorem garbageCollector_once_postedTwice : Follows Right ((machine Nat).trace {} postedTwice) :=
  (@garbageCollector_once Nat _ postedTwice rfl).2.1

end GarbageCollector

end TegraHwc
