import TegraHwc.Tegra.TegraAtomicStateManager

/-!
# TegraHwc — what the worker's queue holds

The merge engine's queue never holds more than two drawings: one given up
while the worker had it, and the one of the pending merge. What each operation
of the queue does to such a line is said here once, for all that is proved of
the two threads.

## Results

* `Line`  — the entries, given what the worker has and what is to be collected.
* `Line.queue`, `Line.take`, `Line.compose`, `Line.done`, `Line.resolve`,
  `Line.cancel` — what each step leaves of it.
* `lined_step` — every step of the two threads leaves such a line.
-/

namespace TegraHwc

open Runs PartialRedraw

-- ---------------------------------------------------------------------------
-- The engine's channel
-- ---------------------------------------------------------------------------

@[simp] theorem lastOn_cons (sub : Submission) (engine : List Submission) (slot : Nat) :
    lastOn (sub :: engine) slot = if sub.slot = slot then some sub else lastOn engine slot := by
  unfold lastOn
  rw [List.find?_cons]
  by_cases h : sub.slot = slot
  · simp [h]
  · rw [if_neg h, beq_false_of_ne h]

/-- A drawing for one slot leaves the others as they were. -/
theorem lastOn_submit_other {d : Drawing} {slot : Nat} (h : d.job.target ≠ slot)
    (answer : Option Nat) (engine : List Submission) :
    lastOn (d.submit answer engine) slot = lastOn engine slot := by
  cases answer with
  | none => rfl
  | some fence => simp [Drawing.submit, h]

/-- A drawing taken is the slot's last. -/
theorem lastOn_submit_self (d : Drawing) (fence : Nat) (engine : List Submission) :
    ∃ sub, lastOn (d.submit (some fence) engine) d.job.target = some sub ∧
      sub.merge = d.job.merge := by
  simp [Drawing.submit]

/-- A drawing ends with the answer to its last `Compose`. -/
theorem compose_inl {d : Drawing} {answer : Option Nat} {drawn : VicDrawn}
    (h : d.compose answer = .inl drawn) : drawn.fence = answer := by
  unfold Drawing.compose at h
  split at h
  · obtain rfl := Sum.inl.inj h
    rfl
  · obtain rfl := Sum.inl.inj h
    rfl
  · cases answer with
    | none => cases h
    | some fence =>
      simp only at h
      split at h
      · obtain rfl := Sum.inl.inj h
        rfl
      · cases h

/-- A drawing goes on for the same job. -/
theorem compose_inr {d d' : Drawing} {answer : Option Nat} (h : d.compose answer = .inr d') :
    d'.job = d.job := by
  unfold Drawing.compose at h
  split at h
  · cases h
  · cases h
  · cases answer with
    | none =>
      obtain rfl := Sum.inr.inj h
      rfl
    | some fence =>
      simp only at h
      split at h
      · cases h
      · obtain rfl := Sum.inr.inj h
        rfl

-- ---------------------------------------------------------------------------
-- What the queue holds
-- ---------------------------------------------------------------------------

/-- The job the worker has. -/
def Worker.id : Worker → Option JobQueue.Id
  | .idle => none
  | .drawing id _ => some id
  | .drawn id _ => some id

/-- The worker has no drawing for this slot that it has not yet submitted. -/
def Away (worker : Worker) (slot : Nat) : Prop :=
  ∀ id d, worker = .drawing id d → d.job.target ≠ slot

/-- The job queued for a pending merge: its slot, its members, their size. -/
structure JobOf (pending : PendingMerge) (job : VicJob) : Prop where
  target : job.target = pending.target
  members : mergeMembers job.merge = pending.members
  key : pending.key
    = PictureMemory.remember job.merge.width job.merge.height (mergeMembers job.merge)

/-- The last drawing for a job's slot is the job's. -/
def Reached (engine : List Submission) (job : VicJob) : Prop :=
  ∃ sub, lastOn engine job.target = some sub ∧ sub.merge = job.merge

/-- The worker has this job; once it is drawn, it has reached the engine. -/
inductive Has (engine : List Submission) (id : JobQueue.Id) (job : VicJob) : Worker → Prop
  | drawing {d : Drawing} (hJob : d.job = job) : Has engine id job (.drawing id d)
  | drawn {result : VicDrawn} (hDrawn : result.fence.isSome = true → Reached engine job) :
      Has engine id job (.drawn id result)

/-- The entries of the queue, given what the worker has and the pending merge
whose drawing is to be collected: at most a drawing given up while the worker
had it, and then the pending merge's own. -/
inductive Line (engine : List Submission) :
    Worker → Option PendingMerge → List (JobQueue.Entry VicJob VicDrawn) → Prop
  | empty : Line engine .idle none []
  | stale {worker : Worker} {e : JobQueue.Entry VicJob VicDrawn} (hId : worker.id = some e.id)
      (hState : e.state = .kSubmitting) (hCancelled : e.cancelled = true) :
      Line engine worker none [e]
  | queued {worker : Worker} {entries : List (JobQueue.Entry VicJob VicDrawn)}
      {e : JobQueue.Entry VicJob VicDrawn} {pending : PendingMerge} {job : VicJob}
      (hBefore : Line engine worker none entries) (hFresh : ∀ x ∈ entries, x.id ≠ pending.id)
      (hId : e.id = pending.id) (hState : e.state = .kQueued) (hJob : e.job = some job)
      (hCancelled : e.cancelled = false) (hOf : JobOf pending job) :
      Line engine worker (some pending) (entries ++ [e])
  | taken {worker : Worker} {e : JobQueue.Entry VicJob VicDrawn} {pending : PendingMerge}
      {job : VicJob} (hHas : Has engine pending.id job worker) (hId : e.id = pending.id)
      (hState : e.state = .kSubmitting) (hCancelled : e.cancelled = false)
      (hOf : JobOf pending job) : Line engine worker (some pending) [e]
  | settled {e : JobQueue.Entry VicJob VicDrawn} {pending : PendingMerge} {job : VicJob}
      (hId : e.id = pending.id) (hState : e.state = .kSubmitted ∨ e.state = .kRefused)
      (hDrawn : ∀ result, e.result = some result → result.fence.isSome = true →
        Reached engine job)
      (hOf : JobOf pending job) : Line engine .idle (some pending) [e]

/-- With nothing to be collected the line does not depend on the engine. -/
theorem Line.engine {engine engine' : List Submission} {worker : Worker}
    {entries : List (JobQueue.Entry VicJob VicDrawn)} (h : Line engine worker none entries) :
    Line engine' worker none entries := by
  cases h with
  | empty => exact .empty
  | stale hId hState hCancelled => exact .stale hId hState hCancelled

/-- With nothing to be collected no entry is queued. -/
theorem Line.none_queued {engine : List Submission} {worker : Worker}
    {entries : List (JobQueue.Entry VicJob VicDrawn)} (h : Line engine worker none entries) :
    ∀ x ∈ entries, x.state ≠ .kQueued := by
  cases h with
  | empty => simp
  | stale hId hState hCancelled => simp [hState]

/-- The entry of an id that no entry before it has. -/
theorem find_append {jobs : VicJobs} {before : List (JobQueue.Entry VicJob VicDrawn)}
    {e : JobQueue.Entry VicJob VicDrawn} {id : JobQueue.Id} (h : jobs.entries = before ++ [e])
    (hBefore : ∀ x ∈ before, x.id ≠ id) (hId : e.id = id) : jobs.find id = some e := by
  unfold JobQueue.find
  rw [h, List.find?_append, List.find?_eq_none.mpr (by simpa using hBefore)]
  simp [hId]

theorem find_only {jobs : VicJobs} {e : JobQueue.Entry VicJob VicDrawn} {id : JobQueue.Id}
    (h : jobs.entries = [e]) (hId : e.id = id) : jobs.find id = some e := by
  unfold JobQueue.find
  rw [h]
  simp [hId]

/-- An id no entry has is not found. -/
theorem find_none {jobs : VicJobs} {id : JobQueue.Id} (h : ∀ x ∈ jobs.entries, x.id ≠ id) :
    jobs.find id = none := by
  unfold JobQueue.find
  exact List.find?_eq_none.mpr (by simpa using h)

/-- Cancelling what is not there changes nothing. -/
theorem cancel_none {jobs : VicJobs} {id : JobQueue.Id} (h : ∀ x ∈ jobs.entries, x.id ≠ id) :
    jobs.cancel id = jobs := by
  unfold JobQueue.cancel
  rw [find_none h]

/-- Giving the pending merge up leaves what the worker has. -/
theorem Line.cancel {engine : List Submission} {worker : Worker} {pending : PendingMerge}
    {jobs : VicJobs} (h : Line engine worker (some pending) jobs.entries) :
    Line engine worker none (jobs.cancel pending.id).entries := by
  generalize hEntries : jobs.entries = entries at h
  unfold JobQueue.cancel
  cases h with
  | queued hBefore hFresh hId hState hJob hCancelled hOf =>
    rw [find_append hEntries hFresh hId]
    simp only
    rw [if_neg (by rw [hState]; decide), JobQueue.forget, hEntries,
      JobQueue.eraseP_split hId hFresh, List.append_nil]
    exact hBefore
  | taken hHas hId hState hCancelled hOf =>
    rename_i e job
    rw [find_only hEntries hId]
    simp only
    rw [if_pos hState, hEntries]
    simp only [JobQueue.modifyEntry, hId, if_true]
    refine .stale ?_ hState rfl
    cases hHas with
    | drawing _ => rfl
    | drawn _ => rfl
  | settled hId hState hDrawn hOf =>
    rename_i e job
    rw [find_only hEntries hId]
    simp only
    rw [if_neg (by rcases hState with h | h <;> rw [h] <;> decide), JobQueue.forget, hEntries]
    simp [hId, Line.empty]

/-- A drawing queued stands behind what the worker has. -/
theorem Line.queue {engine : List Submission} {worker : Worker} {pending : PendingMerge}
    {jobs : VicJobs} {job : VicJob} (h : Line engine worker none jobs.entries)
    (hIds : ∀ x ∈ jobs.entries, x.id ≤ jobs.lastId) (hId : pending.id = jobs.lastId + 1)
    (hOf : JobOf pending job) (droppable : Bool) :
    Line engine worker (some pending) (jobs.queue job droppable).entries := by
  have hSwept : ∀ (row : Nat) (es : List (JobQueue.Entry VicJob VicDrawn)),
      (∀ x ∈ es, x.state ≠ .kQueued) → (JobQueue.dropSuperseded row es).1 = es := by
    intro row es
    induction es with
    | nil => exact fun _ => rfl
    | cons e es ih =>
      intro hNone
      unfold JobQueue.dropSuperseded
      rw [if_pos (.inl (hNone e (by simp)))]
      simp only [List.cons.injEq, true_and]
      exact ih fun x hx => hNone x (by simp [hx])
  unfold JobQueue.queue
  simp only
  rw [hSwept _ _ h.none_queued]
  refine .queued h (fun x hx => ?_) hId.symm rfl rfl rfl hOf
  have hLe := hIds x hx
  rw [hId]
  exact Nat.ne_of_lt (Nat.lt_succ_of_le hLe)

/-- The worker takes the pending merge's drawing, and no other. -/
theorem Line.take {engine : List Submission} {mine : Option PendingMerge} {jobs jobs' : VicJobs}
    {id : JobQueue.Id} {job : VicJob} (h : Line engine .idle mine jobs.entries)
    (hTake : jobs.take = (some (id, job), jobs')) :
    ∃ pending, mine = some pending ∧ JobOf pending job ∧
      Line engine (.drawing id (.start job)) (some pending) jobs'.entries := by
  unfold JobQueue.take at hTake
  split at hTake
  · cases hTake
  split at hTake
  · cases hTake
  rename_i taken entries hLocked
  obtain ⟨hTaken, rfl⟩ := Prod.mk.inj hTake
  obtain rfl := Option.some.inj hTaken
  obtain ⟨before, e, after, hSplit, hBefore, hState, hJob, rfl, rfl⟩ :=
    JobQueue.takeLocked_split hLocked
  generalize hEntries : jobs.entries = entries' at h
  rw [hEntries] at hSplit
  cases h with
  | empty => simp at hSplit
  | stale hId _ _ => cases hId
  | queued hLine hFresh hId hQueued hQueuedJob hCancelled hOf =>
    rename_i stale e' pending job'
    obtain rfl : stale = [] := by
      cases hLine with
      | empty => rfl
      | stale hId _ _ => cases hId
    obtain ⟨rfl, rfl, rfl⟩ : before = [] ∧ e = e' ∧ after = [] := by
      cases before with
      | nil => simpa [eq_comm] using hSplit
      | cons x before => simp at hSplit
    obtain rfl : job' = job := Option.some.inj (hQueuedJob.symm.trans hJob)
    rw [hId]
    exact ⟨pending, rfl, hOf, .taken (.drawing rfl) rfl rfl hCancelled hOf⟩
  | taken hHas _ _ _ _ => cases hHas
  | settled hId hSettled _ _ =>
    exfalso
    have hIn : e ∈ [_] := hSplit ▸ (by simp : e ∈ before ++ e :: after)
    rw [List.mem_singleton.mp hIn] at hState
    rcases hSettled with h | h <;> rw [h] at hState <;> cases hState

/-- A `Compose` of the worker goes on with its drawing, or ends it. -/
theorem Line.compose {engine : List Submission} {mine : Option PendingMerge}
    {entries : List (JobQueue.Entry VicJob VicDrawn)} {id : JobQueue.Id} {d : Drawing}
    (h : Line engine (.drawing id d) mine entries) (answer : Option Nat) :
    match d.compose answer with
    | .inl drawn => Line (d.submit answer engine) (.drawn id drawn) mine entries
    | .inr d' => Line (d.submit answer engine) (.drawing id d') mine entries := by
  have hBare : ∀ {entries : List (JobQueue.Entry VicJob VicDrawn)} {worker : Worker},
      worker.id = some id → Line engine (.drawing id d) none entries →
      Line (d.submit answer engine) worker none entries := by
    intro entries worker hWorker hLine
    cases hLine with
    | stale hId hState hCancelled => exact .stale (hWorker.trans hId) hState hCancelled
  cases h with
  | stale hId hState hCancelled =>
    split
    · exact .stale hId hState hCancelled
    · exact .stale hId hState hCancelled
  | queued hBefore hFresh hId hState hJob hCancelled hOf =>
    split
    · exact .queued (hBare rfl hBefore) hFresh hId hState hJob hCancelled hOf
    · exact .queued (hBare rfl hBefore) hFresh hId hState hJob hCancelled hOf
  | taken hHas hId hState hCancelled hOf =>
    cases hHas with
    | drawing hJob =>
      split
      · rename_i drawn hDrawn
        refine .taken (.drawn fun hFence => ?_) hId hState hCancelled hOf
        rw [compose_inl hDrawn] at hFence
        obtain ⟨fence, rfl⟩ := Option.isSome_iff_exists.mp hFence
        rw [← hJob]
        exact lastOn_submit_self d fence engine
      · rename_i d' hDrawing
        exact .taken (.drawing ((compose_inr hDrawing).trans hJob)) hId hState hCancelled hOf

/-- The worker's answer settles the pending merge's drawing, or ends one given
up. -/
theorem Line.done {engine : List Submission} {mine : Option PendingMerge} {jobs : VicJobs}
    {id : JobQueue.Id} {result : VicDrawn} (h : Line engine (.drawn id result) mine jobs.entries) :
    Line engine .idle mine (jobs.done id result.fence.isSome (some result)).entries := by
  generalize hEntries : jobs.entries = entries at h
  unfold JobQueue.done
  cases h with
  | stale hId hState hCancelled =>
    rename_i e
    obtain rfl : id = e.id := Option.some.inj hId
    rw [find_only hEntries rfl]
    simp only
    rw [if_pos hCancelled, JobQueue.forget, hEntries]
    simp [Line.empty]
  | queued hBefore hFresh hId hState hJob hCancelled hOf =>
    rename_i before e pending job
    cases hBefore with
    | stale hStaleId hStaleState hStale =>
      rename_i x
      obtain rfl : id = x.id := Option.some.inj hStaleId
      have hFind : jobs.find x.id = some x := by
        unfold JobQueue.find
        rw [hEntries]
        simp
      rw [hFind]
      simp only
      rw [if_pos hStale, JobQueue.forget, hEntries]
      simp only [List.singleton_append, List.eraseP_cons, decide_true, cond_true]
      exact @Line.queued _ _ [] _ _ _ .empty (by simp) hId hState hJob hCancelled hOf
  | taken hHas hId hState hCancelled hOf =>
    rename_i e pending job
    cases hHas with
    | drawn hDrawn =>
      rw [find_only hEntries hId]
      simp only
      rw [if_neg (by simp [hCancelled]), hEntries]
      simp only [JobQueue.modifyEntry, hId, if_true]
      refine .settled rfl ?_ ?_ hOf
      · simp only
        split
        · exact .inl rfl
        · exact .inr rfl
      · intro result' hResult
        obtain rfl := Option.some.inj hResult
        exact hDrawn

/-- Collecting the pending merge's drawing: dropped before the worker had it,
or drawn, and then nothing else is left in the queue. -/
theorem Line.resolve {engine : List Submission} {worker : Worker} {pending : PendingMerge}
    {jobs jobs' : VicJobs} (h : Line engine worker (some pending) jobs.entries)
    (hRunning : jobs.stopped = false) {wait : Bool} {outcome : JobQueue.Outcome VicDrawn}
    (hResolve : jobs.resolve pending.id wait = (some outcome, jobs')) :
    Line engine worker none jobs'.entries ∧ (∀ x ∈ jobs'.entries, x.id ≠ pending.id) ∧
      (outcome.state = .kDropped ∨
        (worker = .idle ∧
          ∀ result, outcome.result = some result → result.fence.isSome = true →
            ∃ job, JobOf pending job ∧ Reached engine job)) := by
  generalize hEntries : jobs.entries = entries at h
  unfold JobQueue.resolve at hResolve
  cases h with
  | queued hBefore hFresh hId hState hJob hCancelled hOf =>
    rename_i before e job
    rw [find_append hEntries hFresh hId] at hResolve
    simp only at hResolve
    split at hResolve
    · obtain ⟨hOutcome, rfl⟩ := Prod.mk.inj hResolve
      obtain rfl := Option.some.inj hOutcome
      rw [JobQueue.forget]
      simp only
      rw [hEntries, JobQueue.eraseP_split hId hFresh, List.append_nil]
      exact ⟨hBefore, hFresh, .inl trivial⟩
    · rw [if_neg (by simp [hState]), if_neg (by simp [hRunning])] at hResolve
      cases hResolve
  | taken hHas hId hState hCancelled hOf =>
    rename_i e job
    rw [find_only hEntries hId] at hResolve
    simp only at hResolve
    rw [if_neg (by simp [JobQueue.mayDropNow, hState]), if_neg (by simp [hState]),
      if_neg (by simp [hRunning])] at hResolve
    cases hResolve
  | settled hId hState hDrawn hOf =>
    rename_i e job
    rw [find_only hEntries hId] at hResolve
    simp only at hResolve
    have hNotQueued : e.state ≠ .kQueued ∧ e.state ≠ .kSubmitting := by
      rcases hState with h | h <;> rw [h] <;> decide
    rw [if_neg (by simp [JobQueue.mayDropNow, hNotQueued.1]), if_pos hNotQueued] at hResolve
    obtain ⟨hOutcome, rfl⟩ := Prod.mk.inj hResolve
    obtain rfl := Option.some.inj hOutcome
    rw [JobQueue.forget]
    simp only
    rw [hEntries]
    have hNone : [e].eraseP (fun x => decide (x.id = pending.id)) = [] := by simp [hId]
    rw [hNone]
    refine ⟨.empty, by simp, .inr ⟨trivial, fun result hResult hFence => ?_⟩⟩
    exact ⟨job, hOf, hDrawn result hResult hFence⟩

-- ---------------------------------------------------------------------------
-- The ids of the queue
-- ---------------------------------------------------------------------------

namespace System

/-- `Done` keeps the ids of the queue, and its stop flag. -/
theorem done_ids (jobs : VicJobs) (id : JobQueue.Id) (submitted : Bool)
    (result : Option VicDrawn) :
    (jobs.done id submitted result).stopped = jobs.stopped ∧
      (jobs.done id submitted result).lastId = jobs.lastId ∧
      ∀ e ∈ (jobs.done id submitted result).entries, ∃ x ∈ jobs.entries, x.id = e.id := by
  unfold JobQueue.done
  cases hFind : jobs.find id with
  | none => exact ⟨rfl, rfl, fun e he => ⟨e, he, rfl⟩⟩
  | some x =>
    simp only
    split
    · exact ⟨rfl, rfl, fun e he => ⟨e, List.mem_of_mem_eraseP he, rfl⟩⟩
    · exact ⟨rfl, rfl, fun e he => JobQueue.id_of_mem_modifyEntry he fun _ => rfl⟩

/-- `Cancel` keeps the ids of the queue, and its stop flag. -/
theorem cancel_ids (jobs : VicJobs) (id : JobQueue.Id) :
    (jobs.cancel id).stopped = jobs.stopped ∧ (jobs.cancel id).lastId = jobs.lastId ∧
      ∀ e ∈ (jobs.cancel id).entries, ∃ x ∈ jobs.entries, x.id = e.id := by
  unfold JobQueue.cancel
  cases hFind : jobs.find id with
  | none => exact ⟨rfl, rfl, fun e he => ⟨e, he, rfl⟩⟩
  | some x =>
    simp only
    split
    · exact ⟨rfl, rfl, fun e he => JobQueue.id_of_mem_modifyEntry he fun _ => rfl⟩
    · exact ⟨rfl, rfl, fun e he => ⟨e, List.mem_of_mem_eraseP he, rfl⟩⟩

/-- `Resolve` keeps the ids of the queue, and its stop flag. -/
theorem resolve_ids (jobs : VicJobs) (id : JobQueue.Id) (wait : Bool) :
    (jobs.resolve id wait).2.stopped = jobs.stopped ∧
      (jobs.resolve id wait).2.lastId = jobs.lastId ∧
      ∀ e ∈ (jobs.resolve id wait).2.entries, e ∈ jobs.entries := by
  unfold JobQueue.resolve
  split
  · exact ⟨rfl, rfl, fun e he => he⟩
  split
  · exact ⟨rfl, rfl, fun e he => List.mem_of_mem_eraseP he⟩
  split
  · exact ⟨rfl, rfl, fun e he => List.mem_of_mem_eraseP he⟩
  split
  · exact ⟨rfl, rfl, fun e he => List.mem_of_mem_eraseP he⟩
  · exact ⟨rfl, rfl, fun e he => he⟩

/-- `Take` keeps the ids of the queue, and its stop flag. -/
theorem take_ids {jobs jobs' : VicJobs} {id : JobQueue.Id} {job : VicJob}
    (h : jobs.take = (some (id, job), jobs')) :
    jobs'.stopped = jobs.stopped ∧ jobs'.lastId = jobs.lastId ∧
      jobs'.entries.map (·.id) = jobs.entries.map (·.id) := by
  unfold JobQueue.take at h
  split at h
  · cases h
  split at h
  · cases h
  rename_i taken entries hLocked
  obtain ⟨before, e, after, hSplit, -, -, -, -, rfl⟩ := JobQueue.takeLocked_split hLocked
  obtain ⟨-, rfl⟩ := Prod.mk.inj h
  simp [hSplit]

/-- `Queue` gives out the next id. -/
theorem queue_ids {jobs : VicJobs} (h : ∀ e ∈ jobs.entries, 0 < e.id ∧ e.id ≤ jobs.lastId)
    (job : VicJob) (droppable : Bool) :
    ∀ e ∈ (jobs.queue job droppable).entries,
      0 < e.id ∧ e.id ≤ (jobs.queue job droppable).lastId := by
  have hSwept : ∀ (row : Nat) (es : List (JobQueue.Entry VicJob VicDrawn)),
      ∀ e ∈ (JobQueue.dropSuperseded row es).1, ∃ x ∈ es, x.id = e.id := by
    intro row es
    induction es generalizing row with
    | nil => simp [JobQueue.dropSuperseded]
    | cons x es ih =>
      unfold JobQueue.dropSuperseded
      split
      · intro e he
        rcases List.mem_cons.mp he with rfl | he
        · exact ⟨e, by simp, rfl⟩
        · obtain ⟨y, hy, hId⟩ := ih row e he
          exact ⟨y, by simp [hy], hId⟩
      split
      · exact fun e he => ⟨e, he, rfl⟩
      · intro e he
        rcases List.mem_cons.mp he with rfl | he
        · exact ⟨x, by simp, rfl⟩
        · obtain ⟨y, hy, hId⟩ := ih (row + 1) e he
          exact ⟨y, by simp [hy], hId⟩
  intro e he
  unfold JobQueue.queue at he ⊢
  simp only at he ⊢
  rcases List.mem_append.mp he with he | he
  · obtain ⟨x, hx, hId⟩ := hSwept _ _ e he
    have hx' := h x hx
    rw [hId] at hx'
    exact ⟨hx'.1, hx'.2.trans (Nat.le_succ _)⟩
  · rw [List.mem_singleton.mp he]
    exact ⟨Nat.succ_pos _, le_rfl⟩

-- ---------------------------------------------------------------------------
-- The line over every run
-- ---------------------------------------------------------------------------

/-- The pending merge's drawing still to be collected, seen from the manager. -/
def toCollect (m : Manager) : Option PendingMerge := m.pendingMerge.filter fun p => !p.untouched

theorem toCollect_none {m : Manager} (h : m.pendingMerge = none) : toCollect m = none := by
  unfold toCollect
  rw [h]
  rfl

/-- A drawing to be collected is the pending merge's. -/
theorem pending_of_toCollect {m : Manager} {p : PendingMerge} (h : toCollect m = some p) :
    m.pendingMerge = some p := by
  unfold toCollect at h
  exact (Option.filter_eq_some_iff.mp h).1

/-- What holds of queue and worker whatever the frame thread is about; `awaited` is the
pending merge whose drawing is still to be collected. -/
structure Tended (engine : List Submission) (worker : Worker) (jobs : VicJobs)
    (pending awaited : Option PendingMerge) : Prop where
  running : jobs.stopped = false
  ids : ∀ e ∈ jobs.entries, 0 < e.id ∧ e.id ≤ jobs.lastId
  line : Line engine worker awaited jobs.entries
  /-- A pending merge that is not drawn has no job. -/
  jobless : ∀ p, pending = some p → p.untouched = true → p.id = 0

section Parts

variable {engine engine' : List Submission} {worker : Worker} {jobs : VicJobs} {m : Manager}
  {pending awaited : Option PendingMerge}

/-- A pending merge with nothing to be collected is under an id no job has. -/
theorem Tended.fresh (h : Tended engine worker jobs m.pendingMerge (toCollect m)) :
    toCollect m = none → ∀ p, m.pendingMerge = some p → ∀ x ∈ jobs.entries, x.id ≠ p.id := by
  intro hNone p hp x hx
  unfold toCollect at hNone
  rw [hp] at hNone
  have hUntouched : p.untouched = true := by simpa [Option.filter] using hNone
  rw [h.jobless p hp hUntouched]
  exact Nat.ne_of_gt (h.ids x hx).1

/-- A pending merge drawn, or given up, is pending no more. -/
theorem Tended.clear (h : Tended engine worker jobs pending none) :
    Tended engine worker jobs none none :=
  ⟨h.running, h.ids, h.line, nofun⟩

/-- `DropPendingMerge`: the drawing is not to be collected any more. -/
theorem Tended.drop (h : Tended engine worker jobs m.pendingMerge awaited)
    (hAwaited : ∀ p, awaited = some p → m.pendingMerge = some p)
    (hFresh : awaited = none → ∀ p, m.pendingMerge = some p → ∀ x ∈ jobs.entries, x.id ≠ p.id) :
    (m.dropPendingMerge jobs).1.pendingMerge = none ∧
      Tended engine worker (m.dropPendingMerge jobs).2 none none := by
  unfold Manager.dropPendingMerge
  split
  · rename_i hNone
    have hAwaitedNone : awaited = none := by
      cases hA : awaited with
      | none => rfl
      | some p =>
        rw [hAwaited p hA] at hNone
        cases hNone
    rw [hAwaitedNone] at h
    exact ⟨hNone, h.clear⟩
  · rename_i p hp
    obtain ⟨hStopped, hLast, hFrom⟩ := cancel_ids jobs p.id
    refine ⟨rfl, hStopped.trans h.running, fun e he => ?_, ?_, nofun⟩
    · obtain ⟨x, hx, hId⟩ := hFrom e he
      rw [← hId]
      show 0 < x.id ∧ x.id ≤ (jobs.cancel p.id).lastId
      rw [hLast]
      exact h.ids x hx
    · cases hA : awaited with
      | none =>
        have hLine := h.line
        rw [hA] at hLine
        rw [cancel_none (hFresh hA p hp)]
        exact hLine
      | some q =>
        obtain rfl := Option.some.inj ((hAwaited q hA).symm.trans hp)
        have hLine := h.line
        rw [hA] at hLine
        exact hLine.cancel

end Parts

/-- The pending merge whose drawing is still to be collected. -/
def awaited (s : System) : Option PendingMerge :=
  match s.frame with
  | .judging _ _ true _ _ => none
  | _ => s.manager.pendingMerge.filter fun p => !p.untouched

/-- What is pending where the frame thread stands. -/
def Standing (s : System) : Prop :=
  match s.frame with
  | .idle => True
  | .queueing _ | .drawing .. | .flipping _ => s.manager.pendingMerge = none
  | .resolving _ => ∃ p, s.manager.pendingMerge = some p ∧ p.untouched = false
  | .judging _ _ queued dropped _ =>
    (queued = true → ∃ p, s.manager.pendingMerge = some p ∧ ∀ x ∈ s.jobs.entries, x.id ≠ p.id) ∧
      (dropped = true → queued = true)

/-- The worker's queue is a line. -/
structure Lined (s : System) : Prop where
  tended : Tended s.engine s.worker s.jobs s.manager.pendingMerge s.awaited
  standing : s.Standing

variable {c : Config} {s s' : System}

/-- With nothing pending, nothing is awaited. -/
theorem awaited_none (hNone : s.manager.pendingMerge = none) : s.awaited = none := by
  unfold awaited
  split
  · rfl
  · simp [hNone]

/-- Where it is not the answer of the queue that is judged, the drawing awaited is the
one to be collected. -/
theorem awaited_eq (hAt : ∀ merge same dropped resolved,
    s.frame ≠ .judging merge same true dropped resolved) : s.awaited = toCollect s.manager := by
  unfold awaited toCollect
  split
  · rename_i hJudging
    exact absurd hJudging (hAt _ _ _ _)
  · rfl

/-- With nothing pending, the frame thread stands anywhere but before a queued drawing. -/
theorem lined_of_none (hNone : s.manager.pendingMerge = none)
    (hTended : Tended s.engine s.worker s.jobs none none)
    (hAt : s.frame = .idle ∨ (∃ merge, s.frame = .queueing merge) ∨
      (∃ target d, s.frame = .drawing target d) ∨ ∃ put, s.frame = .flipping put) : Lined s := by
  refine ⟨?_, ?_⟩
  · rw [hNone, awaited_none hNone]
    exact hTended
  · unfold Standing
    rcases hAt with h | ⟨merge, h⟩ | ⟨target, d, h⟩ | ⟨put, h⟩
    · rw [h]
      trivial
    all_goals
      rw [h]
      exact hNone

/-- A frame given up with nothing pending. -/
theorem lined_refuse {m : Manager} (hNone : m.pendingMerge = none)
    (hTended : Tended s.engine s.worker s.jobs none none) : Lined (s.refuse m) :=
  lined_of_none hNone hTended (.inl rfl)

/-- A group put on its window. -/
theorem lined_finish {target : Target} {untouched : Bool} {heldFence : Option Nat}
    {drawn : VicDrawn} (hTended : Tended s.engine s.worker s.jobs none none) :
    Lined (s.finish c target untouched heldFence drawn) := by
  unfold finish
  simp only
  split
  · exact lined_refuse rfl hTended
  split
  · exact lined_refuse rfl hTended
  · exact lined_of_none rfl hTended (.inr (.inr (.inr ⟨_, rfl⟩)))

/-- Taking a slot's turn leaves what is pending. -/
theorem nextSlot_pending {m m' : Manager} {answer : Option (Nat × Option Nat)}
    (h : m.nextSlot = (answer, m')) : m'.pendingMerge = m.pendingMerge := by
  obtain ⟨-, rfl⟩ | ⟨-, -, rfl⟩ := Manager.nextSlot_cases h
  · rfl
  · rfl

/-- A group drawn by the frame thread. -/
theorem lined_drawHere {m : Manager} {merge : Merge} {forced : Int}
    (hNone : m.pendingMerge = none) (hTended : Tended s.engine s.worker s.jobs none none) :
    Lined (s.drawHere c m merge forced) := by
  unfold drawHere
  split
  · rename_i m' hNext
    exact lined_refuse ((nextSlot_pending hNext).trans hNone) hTended
  rename_i slot ready m' hNext
  split
  · exact lined_refuse rfl hTended
  simp only
  split
  · exact lined_finish hTended
  · exact lined_of_none ((nextSlot_pending hNext).trans hNone) hTended
      (.inr (.inr (.inl ⟨_, _, rfl⟩)))

/-- The remembered group shown again. -/
theorem lined_showAgain {m : Manager} {awaited : Option PendingMerge}
    (hTended : Tended s.engine s.worker s.jobs m.pendingMerge awaited)
    (hAwaited : ∀ p, awaited = some p → m.pendingMerge = some p)
    (hFresh : awaited = none → ∀ p, m.pendingMerge = some p → ∀ x ∈ s.jobs.entries, x.id ≠ p.id)
    (merge : Merge) (shown : Shown) : Lined (s.showAgain m merge shown) := by
  obtain ⟨hNone, hDropped⟩ := hTended.drop hAwaited hFresh
  exact lined_of_none hNone hDropped (.inr (.inr (.inr ⟨_, rfl⟩)))

/-- A frame judged by what the queue answered. -/
theorem lined_judge_queued {merge : Merge} {same dropped : Bool} {resolved : Option VicDrawn}
    {isPending : Nat → Bool} {forced : Int} (hLined : Lined s)
    (hAt : s.frame = .judging merge same true dropped resolved) :
    Lined (s.judge c merge same true dropped resolved isPending forced) := by
  obtain ⟨hTended, hStanding⟩ := hLined
  unfold Standing at hStanding
  rw [hAt] at hStanding
  obtain ⟨p, hp, hFresh⟩ := hStanding.1 rfl
  have hAwaited : s.awaited = none := by
    unfold awaited
    rw [hAt]
  rw [hAwaited] at hTended
  -- shown again, the pending merge given up before or now
  have hAgain : ∀ (m : Manager) (shown : Shown), m.pendingMerge = none ∨
      m.pendingMerge = some p → Lined (s.showAgain m merge shown) := by
    intro m shown hm
    refine @lined_showAgain s m none ?_ nofun (fun _ q hq => ?_) merge shown
    · rcases hm with hm | hm
      · rw [hm]
        exact hTended.clear
      · rw [hm, ← hp]
        exact hTended
    · rcases hm with hm | hm
      · rw [hm] at hq
        cases hq
      · obtain rfl := Option.some.inj (hm.symm.trans hq)
        exact hFresh
  -- a dropped drawing's merge is pending no more
  have hLeft : ∀ m : Manager, m.pendingMerge = some p →
      (if dropped then { m with pendingMerge := none }.ask .rewind else m).pendingMerge = none ∨
        (if dropped then { m with pendingMerge := none }.ask .rewind else m).pendingMerge =
          some p := by
    intro m hm
    cases dropped with
    | true => exact .inl rfl
    | false => exact .inr hm
  unfold judge
  simp only
  split
  · exact hAgain _ _ (hLeft _ hp)
  split
  · exact hAgain _ _ (hLeft _ hp)
  split
  · exact hAgain _ _ (.inl rfl)
  simp only [if_true]
  split
  · rename_i hNone
    exact lined_refuse hNone hTended.clear
  · unfold showQueued
    split
    · exact lined_refuse rfl hTended.clear
    · exact lined_finish hTended.clear

/-- A frame judged with nothing queued for it. -/
theorem lined_judge_here {merge : Merge} {same dropped : Bool} {resolved : Option VicDrawn}
    {isPending : Nat → Bool} {forced : Int} (hLined : Lined s)
    (hAt : s.frame = .judging merge same false dropped resolved) :
    Lined (s.judge c merge same false dropped resolved isPending forced) := by
  obtain ⟨hTended, hStanding⟩ := hLined
  unfold Standing at hStanding
  rw [hAt] at hStanding
  have hKept : dropped = false := by
    cases hd : dropped with
    | false => rfl
    | true => cases hStanding.2 hd
  have hAwaited : s.awaited = toCollect s.manager := awaited_eq fun _ _ _ _ h => by
    rw [hAt] at h
    cases h
  rw [hAwaited] at hTended
  rw [hKept]
  have hPending : ∀ p, toCollect s.manager = some p → s.manager.pendingMerge = some p :=
    fun _ h => pending_of_toCollect h
  unfold judge
  simp only [Bool.false_eq_true, if_false]
  generalize (!same && s.manager.lags c merge isPending) = lag
  have hLag : ∀ shown, Lined (s.showAgain { s.manager with laggedLast := lag } merge shown) :=
    fun shown => lined_showAgain (m := { s.manager with laggedLast := lag }) hTended hPending
      hTended.fresh merge shown
  split
  · exact hLag .same
  split
  · exact hLag .lagged
  · obtain ⟨hNone, hLet⟩ :=
      Tended.drop (m := { s.manager with laggedLast := lag }) hTended hPending hTended.fresh
    exact lined_drawHere hNone hLet

/-- A frame judged. -/
theorem lined_judge {isPending : Nat → Bool} {forced : Int} (hLined : Lined s)
    (h : step c s (.judge isPending forced) = some s') : Lined s' := by
  obtain ⟨merge, same, queued, dropped, resolved, hAt, rfl⟩ := step_judge h
  cases queued with
  | true => exact lined_judge_queued hLined hAt
  | false => exact lined_judge_here hLined hAt

/-- Collecting the drawing queued at validate. -/
theorem lined_resolve (hLined : Lined s) (h : step c s .resolve = some s') : Lined s' := by
  obtain ⟨merge, p, outcome, jobs, hAt, hp, hResolve, rfl⟩ := step_resolve h
  obtain ⟨hTended, hStanding⟩ := hLined
  unfold Standing at hStanding
  rw [hAt] at hStanding
  obtain ⟨q, hq, hTouched⟩ := hStanding
  obtain rfl := Option.some.inj (hp.symm.trans hq)
  have hAwaited : s.awaited = some p := by
    unfold awaited
    rw [hAt]
    simp [hp, Option.filter, hTouched]
  rw [hAwaited] at hTended
  obtain ⟨hStopped, hLast, hSub⟩ := resolve_ids s.jobs p.id (!p.droppable)
  rw [hResolve] at hStopped hLast hSub
  obtain ⟨hLine, hFresh, -⟩ := hTended.line.resolve hTended.running hResolve
  refine ⟨⟨hStopped.trans hTended.running, fun e he => ?_, hLine, hTended.jobless⟩,
    fun _ => ⟨p, hp, hFresh⟩, fun _ => rfl⟩
  show 0 < e.id ∧ e.id ≤ jobs.lastId
  rw [hLast]
  exact hTended.ids e (hSub e he)

/-- A group queued at validate. -/
theorem lined_queueMerge {forced : Int} (hLined : Lined s)
    (h : step c s (.queueMerge forced) = some s') : Lined s' := by
  obtain ⟨merge, hAt, rfl⟩ := step_queueMerge h
  obtain ⟨hTended, hStanding⟩ := hLined
  have hNone : s.manager.pendingMerge = none := by
    unfold Standing at hStanding
    rw [hAt] at hStanding
    exact hStanding
  rw [awaited_none hNone, hNone] at hTended
  cases hQueue : s.manager.queueMerge c s.jobs merge forced with
  | mk m jobs =>
  show Lined { s with manager := m, jobs := jobs, frame := .idle }
  obtain ⟨rfl, rfl⟩ | ⟨slot, ready, history, p, -, rfl, hTarget, hMembers, hKey, hHow⟩ :=
    Manager.queueMerge_cases hQueue
  · exact lined_of_none hNone hTended (.inl rfl)
  refine ⟨?_, trivial⟩
  show Tended s.engine s.worker jobs (some p)
    (Option.filter (fun p => !p.untouched) (some p))
  rw [Option.filter_some]
  obtain ⟨hUntouched, hId, rfl, -⟩ | ⟨hTouched, hId, job, hJobTarget, rfl, rfl⟩ := hHow
  · rw [if_neg (by simp [hUntouched])]
    refine ⟨hTended.running, hTended.ids, hTended.line, fun q hq _ => ?_⟩
    obtain rfl := Option.some.inj hq
    exact hId
  · rw [if_pos (by simp [hTouched])]
    refine ⟨hTended.running, queue_ids hTended.ids job p.droppable,
      hTended.line.queue (fun x hx => (hTended.ids x hx).2) hId
        ⟨hJobTarget.trans hTarget.symm, hMembers.symm, hKey⟩ p.droppable, fun q hq hUntouched => ?_⟩
    obtain rfl := Option.some.inj hq
    rw [hTouched] at hUntouched
    cases hUntouched

/-- A frame starts: what it is to be judged by is looked up, or it ends at once. -/
theorem lined_execute {request : Request} (hLined : Lined s)
    (h : step c s (.execute request) = some s') : Lined s' := by
  obtain ⟨hAt, rfl⟩ := step_execute h
  have hTended := hLined.tended
  have hIdle : ∀ t : System, t.frame = .idle → t.awaited = toCollect t.manager := fun t ht =>
    awaited_eq fun _ _ _ _ h => by
      rw [ht] at h
      cases h
  rw [hIdle s hAt] at hTended
  have hStays : ∀ (m : Manager) (frames : List Shown), m.pendingMerge = s.manager.pendingMerge →
      Lined { s with manager := m, frame := .idle, frames := frames } := by
    intro m frames hm
    refine ⟨?_, trivial⟩
    rw [hIdle _ rfl]
    show Tended s.engine s.worker s.jobs m.pendingMerge (m.pendingMerge.filter _)
    rw [hm]
    exact hTended
  unfold execute
  simp only
  split
  · exact hStays _ _ rfl
  split
  · exact hAt ▸ hStays _ _ rfl
  split
  · obtain ⟨hNone, hLet⟩ := hTended.drop (fun _ h => pending_of_toCollect h) hTended.fresh
    exact lined_of_none hNone hLet (.inr (.inr (.inr ⟨_, rfl⟩)))
  split
  · exact hAt ▸ hStays _ _ rfl
  split
  · exact ⟨hTended, nofun, nofun⟩
  · rename_i p hp
    split
    · rename_i hQueued
      exact ⟨hTended, p, hp, hQueued.2⟩
    · rename_i hQueued
      generalize (!(c.mergeCache && decide (s.manager.judgeMerge request.merge = .kSame)) &&
        decide (p.key.judge request.merge.width request.merge.height
          (mergeMembers request.merge) = .kSame)) = queued at hQueued
      cases queued with
      | false => exact ⟨hTended, nofun, nofun⟩
      | true =>
        -- queued, and found to stand in its slot already
        have hUntouched : p.untouched = true := by simpa using hQueued
        have hNone : toCollect s.manager = none := by
          unfold toCollect
          rw [hp, Option.filter_some, if_neg (by simp [hUntouched])]
        have hFresh := hTended.fresh hNone p hp
        rw [hNone] at hTended
        exact ⟨hTended, fun _ => ⟨p, hp, hFresh⟩, nofun⟩

/-- A step of the worker leaves the frame thread where it stands. -/
theorem lined_worker (hLined : Lined s) (hManager : s'.manager = s.manager)
    (hFrame : s'.frame = s.frame) (hRunning : s'.jobs.stopped = false)
    (hIds : ∀ e ∈ s'.jobs.entries, 0 < e.id ∧ e.id ≤ s'.jobs.lastId)
    (hSub : s.awaited = none → ∀ e ∈ s'.jobs.entries, e ∈ s.jobs.entries)
    (hLine : Line s'.engine s'.worker s.awaited s'.jobs.entries) : Lined s' := by
  have hAwaited : s'.awaited = s.awaited := by
    unfold awaited
    rw [hFrame, hManager]
  refine ⟨⟨hRunning, hIds, hAwaited ▸ hLine, hManager ▸ hLined.tended.jobless⟩, ?_⟩
  have hStanding := hLined.standing
  unfold Standing at hStanding ⊢
  rw [hFrame, hManager]
  cases hAt : s.frame with
  | judging merge same queued dropped resolved =>
    rw [hAt] at hStanding
    refine ⟨fun hQueued => ?_, hStanding.2⟩
    obtain ⟨p, hp, hFresh⟩ := hStanding.1 hQueued
    refine ⟨p, hp, fun x hx => hFresh x (hSub ?_ x hx)⟩
    unfold awaited
    rw [hAt, hQueued]
  | idle | queueing _ | resolving _ | drawing _ _ | flipping _ =>
    rw [hAt] at hStanding
    exact hStanding

/-- Taking the queued drawing. -/
theorem lined_take (hLined : Lined s) (h : step c s .take = some s') : Lined s' := by
  obtain ⟨id, job, jobs, hWorker, hTake, rfl⟩ := step_take h
  have hLine := hLined.tended.line
  rw [hWorker] at hLine
  obtain ⟨p, hAwaited, -, hLine'⟩ := hLine.take hTake
  have hJobs := take_ids hTake
  refine lined_worker hLined rfl rfl (hJobs.1.trans hLined.tended.running) (fun e he => ?_)
    (fun hNone => ?_) (hAwaited ▸ hLine')
  · have hIn : e.id ∈ jobs.entries.map (·.id) := List.mem_map_of_mem he
    rw [hJobs.2.2] at hIn
    obtain ⟨x, hx, hId⟩ := List.mem_map.mp hIn
    show 0 < e.id ∧ e.id ≤ jobs.lastId
    rw [← hId, hJobs.2.1]
    exact hLined.tended.ids x hx
  · rw [hAwaited] at hNone
    cases hNone

/-- A `Compose` of the worker. -/
theorem lined_workerCompose {answer : Option Nat} (hLined : Lined s)
    (h : step c s (.workerCompose answer) = some s') : Lined s' := by
  obtain ⟨id, d, hWorker, hOutcome⟩ := step_workerCompose h
  have hLine := hLined.tended.line
  rw [hWorker] at hLine
  have hComposed := hLine.compose answer
  rcases hOutcome with ⟨drawn, hDrawn, rfl⟩ | ⟨d', hDrawing, rfl⟩
  · rw [hDrawn] at hComposed
    exact lined_worker hLined rfl rfl hLined.tended.running hLined.tended.ids (fun _ e he => he)
      hComposed
  · rw [hDrawing] at hComposed
    exact lined_worker hLined rfl rfl hLined.tended.running hLined.tended.ids (fun _ e he => he)
      hComposed

/-- With nothing to be collected the worker's answer empties the queue. -/
theorem done_empty {engine : List Submission} {id : JobQueue.Id} {jobs : VicJobs}
    {result : VicDrawn} (h : Line engine (.drawn id result) none jobs.entries) :
    (jobs.done id result.fence.isSome (some result)).entries = [] := by
  have hDone := h.done
  generalize (jobs.done id result.fence.isSome (some result)).entries = entries at hDone
  cases hDone with
  | empty => rfl
  | stale hId _ _ => cases hId

/-- The worker's `Done`. -/
theorem lined_workerDone (hLined : Lined s) (h : step c s .workerDone = some s') : Lined s' := by
  obtain ⟨id, result, hWorker, rfl⟩ := step_workerDone h
  have hLine := hLined.tended.line
  rw [hWorker] at hLine
  obtain ⟨hStopped, hLast, hFrom⟩ := done_ids s.jobs id result.fence.isSome (some result)
  refine lined_worker hLined rfl rfl (hStopped.trans hLined.tended.running) (fun e he => ?_)
    (fun hNone e he => ?_) hLine.done
  · obtain ⟨x, hx, hId⟩ := hFrom e he
    rw [← hId]
    show 0 < x.id ∧ x.id ≤ (s.jobs.done id result.fence.isSome (some result)).lastId
    rw [hLast]
    exact hLined.tended.ids x hx
  · rw [hNone] at hLine
    have hMem : e ∈ (s.jobs.done id result.fence.isSome (some result)).entries := he
    rw [done_empty hLine] at hMem
    cases hMem

/-- **Every step of the two threads leaves a line.** -/
theorem lined_step {a : Action} (hLined : Lined s) (h : step c s a = some s') : Lined s' := by
  cases a with
  | validate merge =>
    obtain ⟨hAt, rfl⟩ := step_validate h
    have hTended := hLined.tended
    rw [awaited_eq (s := s) fun _ _ _ _ h => by rw [hAt] at h; cases h] at hTended
    obtain ⟨hNone, hLet⟩ := hTended.drop (fun _ h => pending_of_toCollect h) hTended.fresh
    exact lined_of_none hNone hLet (.inr (.inl ⟨_, rfl⟩))
  | queueMerge forced => exact lined_queueMerge hLined h
  | noteFrameUnjudged =>
    obtain ⟨hAt, rfl⟩ := step_noteFrameUnjudged h
    refine ⟨hLined.tended, ?_⟩
    unfold Standing
    simp only [hAt]
  | execute request => exact lined_execute hLined h
  | resolve => exact lined_resolve hLined h
  | judge isPending forced => exact lined_judge hLined h
  | compose answer =>
    obtain ⟨target, d, hAt, hOutcome⟩ := step_compose h
    have hStanding := hLined.standing
    unfold Standing at hStanding
    rw [hAt] at hStanding
    have hNone : s.manager.pendingMerge = none := hStanding
    have hTended := hLined.tended
    rw [awaited_none hNone, hNone] at hTended
    have hAfter : Tended (d.submit answer s.engine) s.worker s.jobs none none :=
      ⟨hTended.running, hTended.ids, hTended.line.engine, hTended.jobless⟩
    rcases hOutcome with ⟨drawn, -, rfl⟩ | ⟨d', -, rfl⟩
    · exact lined_finish (s := { s with engine := d.submit answer s.engine }) hAfter
    · exact lined_of_none hNone hAfter (.inr (.inr (.inl ⟨_, _, rfl⟩)))
  | flip answer =>
    obtain ⟨put, hAt, rfl⟩ := step_flip h
    have hStanding := hLined.standing
    unfold Standing at hStanding
    rw [hAt] at hStanding
    have hNone : s.manager.pendingMerge = none := hStanding
    have hTended := hLined.tended
    rw [awaited_none hNone, hNone] at hTended
    unfold flipped
    split
    all_goals exact lined_of_none hNone hTended (.inl rfl)
  | take => exact lined_take hLined h
  | workerCompose answer => exact lined_workerCompose hLined h
  | workerDone => exact lined_workerDone hLined h

theorem lined_init (slots : Nat) : Lined (init slots) :=
  ⟨⟨rfl, by simp [init], .empty, nofun⟩, trivial⟩

end System

end TegraHwc
