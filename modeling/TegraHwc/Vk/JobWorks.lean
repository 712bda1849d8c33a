import Mathlib.Data.List.Basic
import TegraHwc.Compositor.JobQueueWaiting
import TegraHwc.Lib.Fair

/-!
# TegraHwc — no job of the GPU compositor is stranded

`vk/Compositor.cpp`: `Queue`, `RunJob`, `Resolve`, `Cancel` and the loop of
`ThreadMain`. Each stretch under one of the two locks, the queue's and that of the
works, is a step of the machine, so that the calls of any number of threads interleave
between any two; a call of `Queue` is two, its job and its work. What the thread
reads of its own alone goes with the step before. Every `Post` notifies, so the thread
may go on wherever there is a work for it. Drawing is a step that says whether it was
submitted. The compositor is not taken down.

## Results

* `covered_step`        — a work for every queued job, those still owed counted.
* `looked_at`           — the thread comes to look at the GPU again and again.
* `jobWorks_strand_none` — so it is in every run, and every job is tried, dropped or
  cancelled.
-/

namespace TegraHwc.Vk

open Runs

namespace JobWorks

/-- What the thread is given: a `RunJob`, or anything else. -/
inductive Work where
  | runJob
  | other
  deriving DecidableEq, Repr

/-- Where the thread is: between two works, or in a `RunJob` that found the GPU busy
and is to count the jobs, or to post itself again, or that found it idle and is to take
one, or that draws it. -/
inductive Phase where
  | idle
  | counting
  | reposting
  | taking
  | drawing (id : JobQueue.Id)
  deriving DecidableEq, Repr

/-- The `RunJob` the thread is in has yet to take a job, or to post itself again. -/
def Phase.unrun : Phase → Nat
  | .counting | .reposting | .taking => 1
  | .idle | .drawing _ => 0

end JobWorks

/-- `VkCompositor`, of its jobs and works. `owed` counts the calls of `Queue` that have
queued their job and not yet posted its work; `lastDrawn` is whether `last_drawn_`
holds a fence. -/
structure JobWorks (Job Fence : Type) where
  jobs : JobQueue Job Fence := {}
  work : List JobWorks.Work := []
  owed : Nat := 0
  phase : JobWorks.Phase := .idle
  lastDrawn : Bool := false
  deriving DecidableEq, Repr

namespace JobWorks

variable {Job Fence : Type}

/-- A step of a caller, or of the thread. -/
inductive Action (Job Fence : Type) where
  | queue (job : Job) (droppable : Bool)
  | post
  | postOther
  | resolve (id : JobQueue.Id) (wait : Bool)
  | cancel (id : JobQueue.Id)
  | runOther
  | look (busy : Bool)
  | count
  | repost
  | tryTake
  | done (submitted kept : Bool) (fence : Fence)
  deriving DecidableEq, Repr

/-- The steps of the thread. -/
def Action.isThread : Action Job Fence → Bool
  | .runOther | .look _ | .count | .repost | .tryTake | .done .. => true
  | .queue .. | .post | .postOther | .resolve .. | .cancel _ => false

/-- What the step asks of the queue. -/
def op (s : JobWorks Job Fence) : Action Job Fence → Option (JobQueue.Action Job Fence)
  | .queue job droppable => some (.queue job droppable)
  | .resolve id wait => some (.resolve id wait)
  | .cancel id => some (.cancel id)
  | .tryTake => some .tryTake
  | .done submitted _ fence =>
    match s.phase with
    | .drawing id => some (.done id submitted (some fence))
    | .idle | .counting | .reposting | .taking => none
  | .post | .postOther | .runOther | .look _ | .count | .repost => none

/-- The compositor after a step; none where it is not the thread's next, or nobody's. -/
def step (s : JobWorks Job Fence) : Action Job Fence → Option (JobWorks Job Fence)
  -- `Queue`, up to its works
  | .queue job droppable =>
    some { s with jobs := s.jobs.queue job droppable, owed := s.owed + 1 }
  -- its `Post` of a `RunJob`
  | .post =>
    if s.owed = 0 then none
    else some { s with owed := s.owed - 1, work := s.work ++ [.runJob] }
  | .postOther => some { s with work := s.work ++ [.other] }
  | .resolve id wait => some { s with jobs := (s.jobs.resolve id wait).2 }
  | .cancel id => some { s with jobs := s.jobs.cancel id }
  -- the thread, from its wait on
  | .runOther =>
    match s.phase, s.work with
    | .idle, .other :: work => some { s with work := work }
    | _, _ => none
  -- a `RunJob` up to its poll, which is answered `busy` where there is a fence
  | .look busy =>
    match s.phase, s.work with
    | .idle, .runJob :: work =>
      some { s with work := work, phase := if s.lastDrawn && busy then .counting else .taking }
    | _, _ => none
  | .count =>
    match s.phase with
    | .counting => some { s with phase := if s.jobs.waiting ≠ 0 then .reposting else .idle }
    | _ => none
  | .repost =>
    match s.phase with
    | .reposting => some { s with work := s.work ++ [.runJob], phase := .idle }
    | _ => none
  | .tryTake =>
    match s.phase with
    | .taking =>
      some { s with
        jobs := s.jobs.take.2
        phase :=
          match s.jobs.take.1 with
          | none => .idle
          | some (id, _) => .drawing id }
    | _ => none
  -- `ComposeNow`, the duplicate of its fence kept where there is one, and `Done`
  | .done submitted kept fence =>
    match s.phase with
    | .drawing id =>
      some { s with
        jobs := s.jobs.done id submitted (some fence)
        lastDrawn := submitted && kept
        phase := .idle }
    | _ => none

/-- The compositor under its callers; what is told is what is seen of the queue. -/
def machine (Job Fence : Type) :
    Runs.Machine (JobWorks Job Fence) (Action Job Fence) (JobQueue.Event Job Fence) where
  step := step
  events s a :=
    match s.op a with
    | none => []
    | some op => s.jobs.events op

/-- The works posted of `RunJob` that have not run. -/
def posted (s : JobWorks Job Fence) : Nat := s.work.count .runJob + s.phase.unrun

-- ---------------------------------------------------------------------------
-- What a step does
-- ---------------------------------------------------------------------------

variable {s s' : JobWorks Job Fence} {a : Action Job Fence}

/-- The steps there are, with what each comes to. -/
inductive Did (s : JobWorks Job Fence) : Action Job Fence → JobWorks Job Fence → Prop
  | queue (job : Job) (droppable : Bool) :
    Did s (.queue job droppable) { s with jobs := s.jobs.queue job droppable, owed := s.owed + 1 }
  | post (hOwed : 0 < s.owed) :
    Did s .post { s with owed := s.owed - 1, work := s.work ++ [.runJob] }
  | postOther : Did s .postOther { s with work := s.work ++ [.other] }
  | resolve (id : JobQueue.Id) (wait : Bool) :
    Did s (.resolve id wait) { s with jobs := (s.jobs.resolve id wait).2 }
  | cancel (id : JobQueue.Id) : Did s (.cancel id) { s with jobs := s.jobs.cancel id }
  | runOther {work : List Work} (hPhase : s.phase = .idle) (hWork : s.work = .other :: work) :
    Did s .runOther { s with work := work }
  | look {work : List Work} (busy : Bool) (hPhase : s.phase = .idle)
      (hWork : s.work = .runJob :: work) :
    Did s (.look busy)
      { s with work := work, phase := if s.lastDrawn && busy then .counting else .taking }
  | countSome (hPhase : s.phase = .counting) (hWaiting : s.jobs.waiting ≠ 0) :
    Did s .count { s with phase := .reposting }
  | countNone (hPhase : s.phase = .counting) (hWaiting : s.jobs.waiting = 0) :
    Did s .count { s with phase := .idle }
  | repost (hPhase : s.phase = .reposting) :
    Did s .repost { s with work := s.work ++ [.runJob], phase := .idle }
  | took {id : JobQueue.Id} {job : Job} (hPhase : s.phase = .taking)
      (hTaken : s.jobs.take.1 = some (id, job)) :
    Did s .tryTake { s with jobs := s.jobs.take.2, phase := .drawing id }
  | tookNone (hPhase : s.phase = .taking) (hTaken : s.jobs.take.1 = none) :
    Did s .tryTake { s with jobs := s.jobs.take.2, phase := .idle }
  | done {id : JobQueue.Id} (submitted kept : Bool) (fence : Fence)
      (hPhase : s.phase = .drawing id) :
    Did s (.done submitted kept fence)
      { s with
        jobs := s.jobs.done id submitted (some fence)
        lastDrawn := submitted && kept
        phase := .idle }

theorem did_of_step (hStep : s.step a = some s') : Did s a s' := by
  cases a with
  | queue job droppable => exact Option.some.inj hStep ▸ .queue job droppable
  | post =>
    simp only [step] at hStep
    split at hStep
    · cases hStep
    · next hOwed => exact Option.some.inj hStep ▸ .post (Nat.pos_of_ne_zero hOwed)
  | postOther => exact Option.some.inj hStep ▸ .postOther
  | resolve id wait => exact Option.some.inj hStep ▸ .resolve id wait
  | cancel id => exact Option.some.inj hStep ▸ .cancel id
  | runOther =>
    simp only [step] at hStep
    split at hStep
    · next hPhase hWork => exact Option.some.inj hStep ▸ .runOther hPhase hWork
    · cases hStep
  | look busy =>
    simp only [step] at hStep
    split at hStep
    · next hPhase hWork => exact Option.some.inj hStep ▸ .look busy hPhase hWork
    · cases hStep
  | count =>
    simp only [step] at hStep
    split at hStep
    · next hPhase =>
      by_cases hWaiting : s.jobs.waiting = 0
      · rw [if_neg (not_not_intro hWaiting)] at hStep
        exact Option.some.inj hStep ▸ .countNone hPhase hWaiting
      · rw [if_pos hWaiting] at hStep
        exact Option.some.inj hStep ▸ .countSome hPhase hWaiting
    · cases hStep
  | repost =>
    simp only [step] at hStep
    split at hStep
    · next hPhase => exact Option.some.inj hStep ▸ .repost hPhase
    · cases hStep
  | tryTake =>
    simp only [step] at hStep
    split at hStep
    · next hPhase =>
      cases hTaken : s.jobs.take.1 with
      | none =>
        rw [hTaken] at hStep
        exact Option.some.inj hStep ▸ .tookNone hPhase hTaken
      | some taken =>
        rw [hTaken] at hStep
        exact Option.some.inj hStep ▸ .took hPhase hTaken
    · cases hStep
  | done submitted kept fence =>
    simp only [step] at hStep
    split at hStep
    · next hPhase => exact Option.some.inj hStep ▸ .done submitted kept fence hPhase
    · cases hStep

/-- The queue after a step is as what was asked of it leaves it. -/
theorem step_jobs (hStep : s.step a = some s') :
    s'.jobs = match s.op a with
      | none => s.jobs
      | some op => s.jobs.step op := by
  cases did_of_step hStep with
  | done submitted kept fence hPhase =>
    simp only [op, hPhase]
    rfl
  | _ => rfl

/-- The compositor never stops its queue. -/
theorem op_ne_stop (s : JobWorks Job Fence) (a : Action Job Fence) : s.op a ≠ some .stop := by
  cases a with
  | done submitted kept fence => cases hPhase : s.phase <;> simp [op, hPhase]
  | _ => simp [op]

-- ---------------------------------------------------------------------------
-- A work for every job
-- ---------------------------------------------------------------------------

/-- What is kept over a run: what the queue keeps of its own, that what is drawn was
taken, and that there is a work for every queued job, posted or owed. -/
structure Covered (h : List (JobQueue.Event Job Fence)) (s : JobWorks Job Fence) : Prop where
  inv : JobQueue.Inv h s.jobs
  running : s.jobs.stopped = false
  taken : ∀ id, s.phase = .drawing id → id ∈ JobQueue.takenIds h
  covered : s.jobs.waiting ≤ s.posted + s.owed

theorem covered_init : Covered [] ({} : JobWorks Job Fence) where
  inv := JobQueue.inv_init
  running := rfl
  taken _ hPhase := nomatch hPhase
  covered := Nat.zero_le _

/-- Every step keeps a work for every queued job. -/
theorem waiting_did {h : List (JobQueue.Event Job Fence)} (hCovered : Covered h s)
    (hDid : Did s a s') : s'.jobs.waiting ≤ s'.posted + s'.owed := by
  have hHere := hCovered.covered
  unfold posted at hHere ⊢
  cases hDid with
  | queue job droppable =>
    have hMore := JobQueue.waiting_queue s.jobs job droppable
    dsimp only
    omega
  | post hOwed =>
    dsimp only
    rw [List.count_append, List.count_singleton_self]
    omega
  | postOther =>
    dsimp only
    rw [List.count_append]
    omega
  | resolve id wait =>
    exact Nat.le_trans (JobQueue.waiting_step s.jobs (a := .resolve id wait) nofun) hHere
  | cancel id => exact Nat.le_trans (JobQueue.waiting_step s.jobs (a := .cancel id) nofun) hHere
  | runOther hPhase hWork =>
    rw [hWork, List.count_cons_of_ne (by decide)] at hHere
    exact hHere
  | look busy hPhase hWork =>
    rw [hWork, List.count_cons_self, hPhase] at hHere
    dsimp only
    split <;> exact hHere
  | countSome hPhase hWaiting =>
    rw [hPhase] at hHere
    exact hHere
  | countNone hPhase hWaiting =>
    dsimp only
    rw [hWaiting]
    exact Nat.zero_le _
  | repost hPhase =>
    rw [hPhase] at hHere
    dsimp only
    rw [List.count_append, List.count_singleton_self]
    exact hHere
  | took hPhase hTaken =>
    -- a work is spent, on a job
    have hOne := JobQueue.waitingWhere_take (p := fun _ => true) hTaken
    rw [← JobQueue.waiting_eq, ← JobQueue.waiting_eq, if_pos rfl] at hOne
    rw [hPhase] at hHere
    simp only [Phase.unrun] at hHere ⊢
    omega
  | tookNone hPhase hTaken =>
    have hNone := JobQueue.waiting_of_take_none hCovered.inv.sound hCovered.running hTaken
    have hLeft := JobQueue.waiting_step s.jobs (a := .tryTake) nofun
    rw [hNone] at hLeft
    exact Nat.le_trans hLeft (Nat.zero_le _)
  | done submitted kept fence hPhase =>
    rw [hPhase] at hHere
    exact Nat.le_trans (JobQueue.waiting_step s.jobs (a := .done _ submitted (some fence)) nofun) hHere

theorem covered_step {h : List (JobQueue.Event Job Fence)} (hCovered : Covered h s)
    (hStep : s.step a = some s') : Covered (h ++ (machine Job Fence).events s a) s' := by
  have hJobs := step_jobs hStep
  constructor
  case inv =>
    show JobQueue.Inv (h ++ match s.op a with
      | none => []
      | some op => s.jobs.events op) s'.jobs
    rw [hJobs]
    cases s.op a with
    | none => simpa using hCovered.inv
    | some op => exact JobQueue.inv_step hCovered.inv op
  case running =>
    rw [hJobs]
    cases hOp : s.op a with
    | none => exact hCovered.running
    | some op =>
      have hOther : op ≠ .stop := fun hStop => op_ne_stop s a (hStop ▸ hOp)
      exact (JobQueue.stopped_step s.jobs hOther).trans hCovered.running
  case taken =>
    intro id hDrawing
    rw [JobQueue.takenIds, List.filterMap_append, List.mem_append, ← JobQueue.takenIds]
    cases did_of_step hStep with
    | took hPhase hTaken =>
      obtain rfl := Phase.drawing.inj hDrawing
      right
      simp [machine, op, JobQueue.events, hTaken]
    | look busy =>
      dsimp only at hDrawing
      split at hDrawing <;> cases hDrawing
    | queue | post | postOther | resolve | cancel | runOther =>
      exact .inl (hCovered.taken id hDrawing)
    | countSome | countNone | repost | tookNone | done => cases hDrawing
  case covered => exact waiting_did hCovered (did_of_step hStep)

-- ---------------------------------------------------------------------------
-- A job that waits
-- ---------------------------------------------------------------------------

variable {h : List (JobQueue.Event Job Fence)} {id : JobQueue.Id}

/-- What is under way was taken, and what is queued was not. -/
theorem not_queued_of_taken (hCovered : Covered h s) (hQueued : s.jobs.IsQueued id) :
    id ∉ JobQueue.takenIds h := by
  obtain ⟨e, he, rfl, hState⟩ := hQueued
  exact fun hTaken => Nat.lt_irrefl _ ((hCovered.inv.waiting e he hState).1 e.id hTaken)

/-- A job that waits no more was taken, dropped or cancelled. -/
theorem ends_of_step (hCovered : Covered h s) (hStep : s.step a = some s')
    (hQueued : s.jobs.IsQueued id) (hEnds : ¬s'.jobs.IsQueued id) :
    (∃ job, .taken id job ∈ (machine Job Fence).events s a) ∨
      .dropped id ∈ (machine Job Fence).events s a ∨
      .cancelled id ∈ (machine Job Fence).events s a := by
  have hJobs := step_jobs hStep
  show (∃ job, .taken id job ∈ match s.op a with
      | none => []
      | some op => s.jobs.events op) ∨ (.dropped id ∈ match s.op a with
      | none => []
      | some op => s.jobs.events op) ∨ .cancelled id ∈ match s.op a with
      | none => []
      | some op => s.jobs.events op
  cases hOp : s.op a with
  | none =>
    rw [hOp] at hJobs
    exact absurd (hJobs ▸ hQueued) hEnds
  | some op =>
    rw [hOp] at hJobs
    rcases JobQueue.queued_step (a := op) hCovered.inv.sound hCovered.running hQueued with
      hStill | hTaken | hDropped | hCancelled | ⟨submitted, result, rfl⟩
    · exact absurd (hJobs ▸ hStill) hEnds
    · exact .inl hTaken
    · exact .inr (.inl hDropped)
    · exact .inr (.inr hCancelled)
    · -- `Done` is called for what is drawn, which was taken
      cases did_of_step hStep with
      | done submitted' kept fence hPhase =>
        simp only [JobWorks.op, hPhase, Option.some.injEq, JobQueue.Action.done.injEq] at hOp
        obtain ⟨rfl, -⟩ := hOp
        exact absurd (hCovered.taken _ hPhase) (not_queued_of_taken hCovered hQueued)
      | _ => simp [JobWorks.op] at hOp

/-- The jobs queued before one. -/
def ahead (s : JobWorks Job Fence) (id : JobQueue.Id) : Nat :=
  s.jobs.waitingWhere fun i => decide (i < id)

/-- No job comes in before one that is queued. -/
theorem ahead_step (hCovered : Covered h s) (hStep : s.step a = some s')
    (hQueued : s.jobs.IsQueued id) : s'.ahead id ≤ s.ahead id := by
  have hJobs := step_jobs hStep
  obtain ⟨e, he, rfl, -⟩ := hQueued
  have hBound := hCovered.inv.bounded e he
  unfold ahead
  rw [hJobs]
  cases s.op a with
  | none => exact Nat.le_refl _
  | some op =>
    refine Nat.le_trans (JobQueue.waitingWhere_step s.jobs op _) ?_
    cases op with
    | queue job droppable =>
      have hLater : ¬s.jobs.lastId + 1 < e.id := Nat.not_lt.mpr (Nat.le_succ_of_le hBound)
      simp [hLater]
    | _ => exact Nat.le_refl _

/-- A job taken while one waits on was queued before it. -/
theorem ahead_tryTake (hCovered : Covered h s) (hCovered' : Covered
      (h ++ (machine Job Fence).events s .tryTake) s')
    (hStep : s.step .tryTake = some s') (hQueued : s.jobs.IsQueued id)
    (hStill : s'.jobs.IsQueued id) : s'.ahead id < s.ahead id := by
  cases did_of_step hStep with
  | @took other job hPhase hTaken =>
    have hLe := JobQueue.take_le hCovered.inv.sound hTaken hQueued
    have hOther : other ≠ id := by
      rintro rfl
      refine not_queued_of_taken hCovered' hStill ?_
      rw [JobQueue.mem_takenIds]
      exact ⟨job, List.mem_append_right _ (by simp [machine, op, JobQueue.events, hTaken])⟩
    have hOne := JobQueue.waitingWhere_take (p := fun i => decide (i < id)) hTaken
    rw [if_pos (decide_eq_true (Nat.lt_of_le_of_ne hLe hOther))] at hOne
    show JobQueue.waitingWhere s.jobs.take.2 _ < JobQueue.waitingWhere s.jobs _
    omega
  | tookNone hPhase hTaken =>
    have hNone := JobQueue.waiting_of_take_none hCovered.inv.sound hCovered.running hTaken
    exact absurd hNone (Nat.ne_of_gt (JobQueue.waiting_pos_iff.mpr ⟨id, hQueued⟩))

-- ---------------------------------------------------------------------------
-- The thread goes on
-- ---------------------------------------------------------------------------

/-- The thread is in a work, or has one to do. -/
def Busy (s : JobWorks Job Fence) : Prop := s.phase ≠ .idle ∨ s.work ≠ []

/-- A step of a caller leaves the thread where it is, with works added at the end. -/
theorem did_caller (hDid : Did s a s') (hCaller : a.isThread = false) :
    s'.phase = s.phase ∧ ∃ more, s'.work = s.work ++ more := by
  cases hDid with
  | queue | resolve | cancel => exact ⟨rfl, [], (List.append_nil _).symm⟩
  | post => exact ⟨rfl, [.runJob], rfl⟩
  | postOther => exact ⟨rfl, [.other], rfl⟩
  | runOther | look | countSome | countNone | repost | took | tookNone | done => cases hCaller

theorem posted_post (hDid : Did s .post s') : 0 < s'.posted := by
  cases hDid with
  | post hOwed =>
    rw [posted, List.count_append, List.count_singleton_self]
    omega

/-- A `RunJob` that found the GPU busy posts itself again while a job waits. -/
theorem reposting_thread (hDid : Did s a s') (hThread : a.isThread = true)
    (hWaiting : s.jobs.waiting ≠ 0) (hPhase : s.phase = .counting ∨ s.phase = .reposting) :
    .runJob ∈ s'.work ∨ s.phase = .counting ∧ s'.phase = .reposting := by
  cases hDid with
  | queue | post | postOther | resolve | cancel => cases hThread
  | countSome hCounting => exact .inr ⟨hCounting, rfl⟩
  | countNone hCounting hNone => exact absurd hNone hWaiting
  | repost => exact .inl (List.mem_append_right _ (List.mem_singleton_self _))
  | runOther hOther | look _ hOther | took hOther | tookNone hOther | done _ _ _ hOther =>
    rw [hOther] at hPhase
    rcases hPhase with hPhase | hPhase <;> cases hPhase

/-- How far the thread is from its next `RunJob`. -/
def distance (s : JobWorks Job Fence) : Nat :=
  2 * s.work.idxOf .runJob + if s.phase = .idle then 0 else 1

/-- Between two looks at the GPU. -/
def Between (s : JobWorks Job Fence) : Prop :=
  .runJob ∈ s.work ∧ s.phase ≠ .counting ∧ s.phase ≠ .taking

/-- The thread comes nearer to its next `RunJob`, or is in it. -/
theorem distance_thread (hDid : Did s a s') (hThread : a.isThread = true)
    (hBetween : s.Between) :
    (s'.phase = .counting ∨ s'.phase = .taking) ∨ s'.Between ∧ s'.distance < s.distance := by
  obtain ⟨hMem, hCounting, hTaking⟩ := hBetween
  cases hDid with
  | queue | post | postOther | resolve | cancel => cases hThread
  | @runOther work hPhase hWork =>
    rw [hWork, List.mem_cons] at hMem
    refine .inr ⟨⟨hMem.resolve_left nofun, hCounting, hTaking⟩, ?_⟩
    unfold distance
    rw [hWork, hPhase, List.idxOf_cons_ne _ (by decide)]
    simp
  | look busy =>
    left
    cases s.lastDrawn && busy
    · exact .inr rfl
    · exact .inl rfl
  | countSome hPhase | countNone hPhase => exact absurd hPhase hCounting
  | took hPhase | tookNone hPhase => exact absurd hPhase hTaking
  | repost hPhase =>
    refine .inr ⟨⟨List.mem_append_left _ hMem, nofun, nofun⟩, ?_⟩
    unfold distance
    rw [List.idxOf_append_of_mem hMem, hPhase]
    simp
  | done submitted kept fence hPhase =>
    refine .inr ⟨⟨hMem, nofun, nofun⟩, ?_⟩
    unfold distance
    rw [hPhase]
    simp

theorem distance_rest {more : List Work} (hPhase : s'.phase = s.phase)
    (hWork : s'.work = s.work ++ more) (hBetween : s.Between) :
    s'.Between ∧ s'.distance = s.distance := by
  obtain ⟨hMem, hCounting, hTaking⟩ := hBetween
  unfold Between distance
  rw [hPhase, hWork, List.idxOf_append_of_mem hMem]
  exact ⟨⟨List.mem_append_left _ hMem, hCounting, hTaking⟩, rfl⟩

/-- A `RunJob` that found the GPU idle takes a job next. -/
theorem tryTake_of_taking (hDid : Did s a s') (hThread : a.isThread = true)
    (hPhase : s.phase = .taking) : a = .tryTake := by
  cases hDid with
  | queue | post | postOther | resolve | cancel => cases hThread
  | took | tookNone => rfl
  | runOther hOther | look _ hOther | countSome hOther | countNone hOther | repost hOther
  | done _ _ _ hOther =>
    rw [hPhase] at hOther
    cases hOther

-- ---------------------------------------------------------------------------
-- Over every behaviour
-- ---------------------------------------------------------------------------

/-- What is asked of those the compositor runs among: its thread is not kept from
running for ever, a call of `Queue` comes to post its work, and a GPU that is found busy
again and again is found idle in the end. -/
structure Fair (b : Behaviour (machine Job Fence) {}) : Prop where
  thread : WeakFair (fun n => (b.state n).Busy) fun n => ∃ a, b.act n = some a ∧ a.isThread = true
  posts : WeakFair (fun n => 0 < (b.state n).owed) fun n => b.act n = some .post
  gpu : ∀ n, (∀ m, n ≤ m → ∃ k, m ≤ k ∧ (b.state k).phase = .counting) →
    ∃ m, n ≤ m ∧ (b.state m).phase = .taking

section Liveness

variable {b : Behaviour (machine Job Fence) {}} {start : Nat}

theorem covered_at (b : Behaviour (machine Job Fence) {}) (n : Nat) :
    Covered (b.history n) (b.state n) :=
  b.invariant (fun _ _ _ _ hCovered hStep => covered_step hCovered hStep) covered_init n

theorem step_of_act {n : Nat} (hAct : b.act n = some a) :
    (b.state n).step a = some (b.state (n + 1)) := by
  rcases b.step_or_rest n with ⟨a', hAct', hStep, -⟩ | ⟨hNone, -⟩
  · obtain rfl := Option.some.inj (hAct.symm.trans hAct')
    exact hStep
  · rw [hAct] at hNone
    cases hNone

/-- Where the thread has no step, it is where it was, with works added at the end. -/
theorem rests_at {n : Nat} (hNone : ¬∃ a, b.act n = some a ∧ a.isThread = true) :
    (b.state (n + 1)).phase = (b.state n).phase ∧
      ∃ more, (b.state (n + 1)).work = (b.state n).work ++ more := by
  cases hAct : b.act n with
  | none =>
    rcases b.step_or_rest n with ⟨a, hAct', -⟩ | ⟨-, hRest, -⟩
    · rw [hAct] at hAct'
      cases hAct'
    · rw [hRest]
      exact ⟨rfl, [], (List.append_nil _).symm⟩
  | some a =>
    have hCaller : a.isThread = false := by
      rw [← Bool.not_eq_true]
      exact fun hThread => hNone ⟨a, hAct, hThread⟩
    exact did_caller (did_of_step (step_of_act hAct)) hCaller

/-- While a job waits there is a work for it, or one is posted. -/
theorem posted_for (hFair : Fair b) (hStays : ∀ n, start ≤ n → (b.state n).jobs.IsQueued id) :
    LeadsTo (fun n => start ≤ n) fun n => start ≤ n ∧ 0 < (b.state n).posted := by
  have hOwed : LeadsTo (fun n => start ≤ n ∧ (b.state n).posted = 0)
      fun n => start ≤ n ∧ 0 < (b.state n).posted := by
    refine WeakFair.leadsTo hFair.posts ?_ ?_ ?_
    · rintro n ⟨hLater, hNone⟩
      have hSome := JobQueue.waiting_pos_iff.mpr ⟨id, hStays n hLater⟩
      have hCovered := (covered_at b n).covered
      omega
    · rintro n ⟨hLater, -⟩ hPost
      exact ⟨Nat.le_succ_of_le hLater, posted_post (did_of_step (step_of_act hPost))⟩
    · rintro n ⟨hLater, -⟩ -
      rcases Nat.eq_zero_or_pos (b.state (n + 1)).posted with hNone | hSome
      · exact .inr ⟨Nat.le_succ_of_le hLater, hNone⟩
      · exact .inl ⟨Nat.le_succ_of_le hLater, hSome⟩
  intro n hLater
  rcases Nat.eq_zero_or_pos (b.state n).posted with hNone | hSome
  · exact hOwed n ⟨hLater, hNone⟩
  · exact ⟨n, Nat.le_refl n, hLater, hSome⟩

/-- A work that has not run is among those the thread has to do, or is the one it is
in, which is to take a job or comes to be posted again. -/
theorem listed_for (hFair : Fair b) (hStays : ∀ n, start ≤ n → (b.state n).jobs.IsQueued id) :
    LeadsTo (fun n => start ≤ n ∧ 0 < (b.state n).posted)
      fun n => start ≤ n ∧ (.runJob ∈ (b.state n).work ∨ (b.state n).phase = .taking) := by
  have hReposted : LeadsTo
      (fun n => start ≤ n ∧ ((b.state n).phase = .counting ∨ (b.state n).phase = .reposting))
      fun n => start ≤ n ∧ (.runJob ∈ (b.state n).work ∨ (b.state n).phase = .taking) := by
    refine WeakFair.leadsTo_of_rank hFair.thread
      (fun n => if (b.state n).phase = .counting then 1 else 0) ?_ ?_ ?_
    · rintro n ⟨-, hPhase | hPhase⟩ <;> exact .inl (by rw [hPhase]; nofun)
    · rintro n ⟨hLater, hPhase⟩ ⟨a, hAct, hThread⟩
      have hLaterStill : start ≤ n + 1 := Nat.le_succ_of_le hLater
      have hWaiting := JobQueue.waiting_pos_iff.mpr ⟨id, hStays n hLater⟩
      rcases reposting_thread (did_of_step (step_of_act hAct)) hThread (Nat.ne_of_gt hWaiting)
        hPhase with hListed | ⟨hCounting, hReposting⟩
      · exact .inl ⟨hLaterStill, .inl hListed⟩
      · refine .inr ⟨⟨hLaterStill, .inr hReposting⟩, ?_⟩
        rw [hCounting, hReposting]
        decide
    · rintro n ⟨hLater, hPhase⟩ hNone
      obtain ⟨hSame, -⟩ := rests_at hNone
      simp only [hSame]
      exact .inr ⟨⟨Nat.le_succ_of_le hLater, hPhase⟩, Nat.le_refl _⟩
  rintro n ⟨hLater, hPosted⟩
  by_cases hListed : .runJob ∈ (b.state n).work
  · exact ⟨n, Nat.le_refl n, hLater, .inl hListed⟩
  · rw [posted, List.count_eq_zero_of_not_mem hListed, Nat.zero_add] at hPosted
    cases hPhase : (b.state n).phase with
    | counting => exact hReposted n ⟨hLater, .inl hPhase⟩
    | reposting => exact hReposted n ⟨hLater, .inr hPhase⟩
    | taking => exact ⟨n, Nat.le_refl n, hLater, .inr hPhase⟩
    | idle | drawing =>
      rw [hPhase] at hPosted
      cases hPosted

/-- Its turn comes: the GPU is looked at. -/
theorem looked_at (hFair : Fair b) (hStays : ∀ n, start ≤ n → (b.state n).jobs.IsQueued id) :
    LeadsTo (fun n => start ≤ n)
      fun n => (b.state n).phase = .counting ∨ (b.state n).phase = .taking := by
  have hNext : LeadsTo (fun n => (b.state n).Between)
      fun n => (b.state n).phase = .counting ∨ (b.state n).phase = .taking := by
    refine WeakFair.leadsTo_of_rank hFair.thread (fun n => (b.state n).distance) ?_ ?_ ?_
    · exact fun n hBetween => .inr (List.ne_nil_of_mem hBetween.1)
    · rintro n hBetween ⟨a, hAct, hThread⟩
      exact distance_thread (did_of_step (step_of_act hAct)) hThread hBetween
    · rintro n hBetween hNone
      obtain ⟨hPhase, more, hWork⟩ := rests_at hNone
      obtain ⟨hSame, hLess⟩ := distance_rest hPhase hWork hBetween
      exact .inr ⟨hSame, Nat.le_of_eq hLess⟩
  refine ((posted_for hFair hStays).trans (listed_for hFair hStays)).trans ?_
  rintro n ⟨-, hListed | hTaking⟩
  · by_cases hLook : (b.state n).phase = .counting ∨ (b.state n).phase = .taking
    · exact ⟨n, Nat.le_refl n, hLook⟩
    · obtain ⟨hCounting, hTaking⟩ := not_or.mp hLook
      exact hNext n ⟨hListed, hCounting, hTaking⟩
  · exact ⟨n, Nat.le_refl n, .inr hTaking⟩

/-- The GPU is found idle, and the thread takes a job. -/
theorem tried_at (hFair : Fair b) (hStays : ∀ n, start ≤ n → (b.state n).jobs.IsQueued id) :
    LeadsTo (fun n => start ≤ n) fun n => b.act n = some .tryTake := by
  intro n hLater
  obtain ⟨m, hThen, hTaking⟩ : ∃ m, n ≤ m ∧ (b.state m).phase = .taking := by
    by_contra hNever
    -- every look from then on would find it busy
    refine hNever (hFair.gpu n fun m hThen => ?_)
    obtain ⟨k, hLaterStill, hCounting | hTaking⟩ :=
      looked_at hFair hStays m (Nat.le_trans hLater hThen)
    · exact ⟨k, hLaterStill, hCounting⟩
    · exact absurd ⟨k, Nat.le_trans hThen hLaterStill, hTaking⟩ hNever
  obtain ⟨k, hLaterStill, hPhase, a, hAct, hThread⟩ := WeakFair.leadsTo_occurs
    (P := fun n => (b.state n).phase = .taking) hFair.thread
    (fun i hPhase => .inl (by rw [hPhase]; nofun))
    (fun i hPhase hNone => (rests_at hNone).1.trans hPhase) m hTaking
  obtain rfl := tryTake_of_taking (did_of_step (step_of_act hAct)) hThread hPhase
  exact ⟨k, Nat.le_trans hThen hLaterStill, hAct⟩

/-- **A job that is queued does not stay so for ever.** -/
theorem not_queued_for_ever (hFair : Fair b)
    (hStays : ∀ n, start ≤ n → (b.state n).jobs.IsQueued id) : False := by
  refine not_often_less (f := fun n => (b.state n).ahead id) (n := start) ?_ ?_
  · intro n hLater
    rcases b.step_or_rest n with ⟨a, -, hStep, -⟩ | ⟨-, hRest, -⟩
    · exact ahead_step (covered_at b n) hStep (hStays n hLater)
    · exact Nat.le_of_eq (by rw [hRest])
  · intro n hLater
    obtain ⟨m, hThen, hAct⟩ := tried_at hFair hStays n hLater
    have hLaterStill := Nat.le_trans hLater hThen
    have hStep := step_of_act hAct
    exact ⟨m, hThen, ahead_tryTake (covered_at b m) (covered_step (covered_at b m) hStep) hStep
      (hStays m hLaterStill) (hStays (m + 1) (Nat.le_succ_of_le hLaterStill))⟩

/-- A job seen to come in is seen to be taken, dropped or cancelled. -/
theorem ends_of_queued {n : Nat} {job : Job} {droppable : Bool} (hFair : Fair b)
    (hQueued : .queued id job droppable ∈ b.events n) :
    ∃ m, n < m ∧ ((∃ job, .taken id job ∈ b.events m) ∨ .dropped id ∈ b.events m ∨
      .cancelled id ∈ b.events m) := by
  have hThere : (b.state (n + 1)).jobs.IsQueued id := by
    rcases b.step_or_rest n with ⟨a, -, hStep, hEvents⟩ | ⟨-, -, hEvents⟩
    · rw [hEvents] at hQueued
      rw [step_jobs hStep]
      change .queued id job droppable ∈ (match (b.state n).op a with
        | none => []
        | some op => (b.state n).jobs.events op) at hQueued
      cases hOp : (b.state n).op a with
      | none => simp [hOp] at hQueued
      | some op =>
        rw [hOp] at hQueued
        exact JobQueue.queued_of_event hQueued
    · simp [hEvents] at hQueued
  obtain ⟨m, hLater, hGone⟩ : ∃ m, n + 1 ≤ m ∧ ¬(b.state m).jobs.IsQueued id := by
    by_contra hNever
    exact not_queued_for_ever hFair fun m hLater => by_contra fun hGone => hNever ⟨m, hLater, hGone⟩
  obtain ⟨k, hBetween, hHere, hEnds⟩ :=
    ends_of_not (P := fun m => (b.state m).jobs.IsQueued id) hLater hThere hGone
  rcases b.step_or_rest k with ⟨a, -, hStep, hEvents⟩ | ⟨-, hRest, -⟩
  · refine ⟨k, hBetween, ?_⟩
    rw [hEvents]
    exact ends_of_step (covered_at b k) hStep hHere hEnds
  · exact absurd (hRest ▸ hHere) hEnds

end Liveness

/-- **No job is stranded.** In every run there are at least as many works of `RunJob`
posted and not run as jobs queued, once every call of `Queue` has posted its own; and in
every behaviour that is fair every job queued is taken, dropped or cancelled. -/
theorem jobWorks_strand_none (Job Fence : Type) :
    (∀ (actions : List (Action Job Fence)) (s : JobWorks Job Fence),
      (machine Job Fence).run {} actions = some s → s.owed = 0 → s.jobs.waiting ≤ s.posted) ∧
    ∀ b : Behaviour (machine Job Fence) {}, Fair b → ∀ n id job droppable,
      .queued id job droppable ∈ b.events n →
        ∃ m, n < m ∧ ((∃ job, .taken id job ∈ b.events m) ∨ .dropped id ∈ b.events m ∨
          .cancelled id ∈ b.events m) := by
  constructor
  · intro actions s hRun hOwed
    have hCovered := (Machine.run_history (I := Covered)
      (fun _ _ _ _ hCovered hStep => covered_step hCovered hStep) covered_init hRun).covered
    rwa [hOwed] at hCovered
  · intro b hFair n id job droppable hQueued
    exact ends_of_queued hFair hQueued

/-- The second of two jobs supersedes the first; a third is queued while it is drawn,
and is drawn once the GPU, found busy, is found idle. -/
def threeJobs : List (Action Unit Unit) :=
  [.queue () true, .queue () true, .post, .look false, .post, .tryTake, .queue () false,
    .done true true (), .look true, .count, .repost, .post, .look false, .tryTake,
    .done true true (), .look false, .tryTake]

/-- So it goes, and nothing thereafter. -/
def threeJobsDrawn : Behaviour (machine Unit Unit) {} :=
  Behaviour.ofRun (show (machine Unit Unit).run {} threeJobs = some _ from rfl)

example : threeJobsDrawn.history 17 =
    [.queued 1 () true, .dropped 1, .queued 2 () true, .taken 2 (), .queued 3 () false,
      .finished 2 true (some ()), .taken 3 (), .finished 3 true (some ())] := by decide

theorem fair_threeJobs : Fair threeJobsDrawn := by
  obtain ⟨last, hRun, hIdle, hWork, hOwed⟩ : ∃ last, (machine Unit Unit).run {} threeJobs = some last ∧
      last.phase = .idle ∧ last.work = [] ∧ last.owed = 0 := ⟨_, rfl, rfl, rfl, rfl⟩
  have hLast : ∀ n, 17 ≤ n → threeJobsDrawn.state n = last :=
    fun n hPast => Behaviour.runStates_last hRun hPast
  have hPast : ∀ n, 17 ≤ n + 17 := fun n => Nat.le_add_left 17 n
  constructor
  case thread =>
    refine WeakFair.of_not fun n => ⟨n + 17, Nat.le_add_right n 17, ?_⟩
    rw [hLast _ (hPast n)]
    rintro (hPhase | hMore)
    · exact hPhase hIdle
    · exact hMore hWork
  case posts =>
    refine WeakFair.of_not fun n => ⟨n + 17, Nat.le_add_right n 17, ?_⟩
    rw [hLast _ (hPast n), hOwed]
    exact Nat.lt_irrefl 0
  case gpu =>
    intro n hBusy
    obtain ⟨k, hLater, hCounting⟩ := hBusy (n + 17) (Nat.le_add_right n 17)
    rw [hLast k (Nat.le_trans (hPast n) hLater), hIdle] at hCounting
    cases hCounting

theorem jobWorks_strand_none_threeJobs :
    (∃ s, (machine Unit Unit).run {} threeJobs = some s ∧ s.jobs.waiting ≤ s.posted) ∧
      ∃ m, 6 < m ∧ ((∃ job, .taken 3 job ∈ threeJobsDrawn.events m) ∨
        .dropped 3 ∈ threeJobsDrawn.events m ∨ .cancelled 3 ∈ threeJobsDrawn.events m) :=
  ⟨⟨_, rfl, (jobWorks_strand_none Unit Unit).1 threeJobs _ rfl rfl⟩,
    (jobWorks_strand_none Unit Unit).2 threeJobsDrawn fair_threeJobs 6 3 () false (by decide)⟩

end JobWorks

end TegraHwc.Vk
