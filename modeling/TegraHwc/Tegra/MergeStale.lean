import TegraHwc.Tegra.VicLine

/-!
# TegraHwc — how long an old group may stand

A frame whose group changed may still show the group remembered: because a
member's client is late (`lagged_last_` lets that happen once in a row) or
because the engine did not come to the drawing (the queue drops once between
two drawings it submits). Each bound is kept by its own object, and neither
knows of the other's: a frame may lag and the next be dropped, a frame may be
dropped and the next lag, and a drawing given up by a second validate counts
as the queue's progress like any other. `steady` asks of fences, drawings taken and
second validates that none of that comes about.

## Results

* `counted_step`      — a drop stays counted until the next frame's drawing is submitted.
* `merge_stale_once`  — over every run whose steps are steady, no two frames
  in a row show an older group.
* `merge_stale_twice` — a run in which two do.
-/

namespace TegraHwc

open Runs PartialRedraw

/-- A frame that showed an older group than its own. -/
def Shown.stale : Shown → Bool
  | .lagged | .dropped => true
  | .same | .drawn | .bare | .refused => false

namespace System

/-- The frame before showed an older group than its own. -/
def lastStale (s : System) : Bool := (s.frames.head?.map Shown.stale).getD false

/-- The drawing of the frame before was dropped, or that of the frame judged. -/
def droppedLast (s : System) : Bool :=
  match s.frame with
  | .judging _ _ _ dropped _ => dropped
  | .drawing .. => false
  | .idle | .queueing _ | .resolving _ | .flipping _ =>
    decide (s.frames.head? = some .dropped)

/-- The worker has taken the drawing queued for the pending merge. -/
def drawingTaken (s : System) : Bool :=
  match s.manager.pendingMerge with
  | none => false
  | some p => ((s.jobs.find p.id).map fun e => decide (e.state ≠ .kQueued)).getD false

/-- The frame thread does not wait for the drawing queued for the pending merge. -/
def drawingDroppable (s : System) : Bool :=
  (s.manager.pendingMerge.map (·.droppable)).getD false

/-- The worker is done with a drawing given up while it had it. -/
def doneGivenUp (s : System) : Bool :=
  match s.worker with
  | .drawn id _ => ((s.jobs.find id).map (·.cancelled)).getD false
  | .idle | .drawing .. => false

/-- The client of a member is still drawing. -/
def clientLate (merge : Merge) (isPending : Nat → Bool) : Bool :=
  merge.layers.any fun l => (l.acquireFence.map isPending).getD false

/-- The condition on a step. After a frame that lagged, the worker has taken the next
one's drawing before it is collected, where it may be dropped at all. After one whose
drawing was dropped, no client of the next one's is late; and until that is judged no
second validate gives a drawing up that the worker has taken, and the worker is not
done with one given up before. -/
def steady (s : System) : Action → Bool
  | .resolve => !(decide (s.frames.head? = some .lagged) && s.drawingDroppable) || s.drawingTaken
  | .judge isPending _ =>
    match s.frame with
    | .judging merge false _ _ _ =>
      !(decide (s.frames.head? = some .dropped) && clientLate merge isPending)
    | _ => true
  | .validate _ => !(s.droppedLast && s.drawingTaken)
  | .workerDone => !(s.droppedLast && s.doneGivenUp)
  | _ => true

/-- No two frames in a row showed an older group than their own. -/
def StaleOnce (frames : List Shown) : Prop :=
  frames.IsChain fun later earlier => ¬(later.stale = true ∧ earlier.stale = true)

/-- A frame that showed its own group, or none, breaks every row. -/
theorem staleOnce_fresh {frames : List Shown} (h : StaleOnce frames) {shown : Shown}
    (hFresh : shown.stale = false) : StaleOnce (shown :: frames) := by
  unfold StaleOnce at *
  cases frames with
  | nil => exact .singleton _
  | cons earlier frames =>
    refine List.isChain_cons_cons.mpr ⟨?_, h⟩
    rintro ⟨hStale, -⟩
    rw [hFresh] at hStale
    cases hStale

/-- So does any frame after one that did. -/
theorem staleOnce_after {frames : List Shown} (h : StaleOnce frames) {shown : Shown}
    (hLast : (frames.head?.map Shown.stale).getD false = false) : StaleOnce (shown :: frames) := by
  unfold StaleOnce at *
  cases frames with
  | nil => exact .singleton _
  | cons earlier frames =>
    refine List.isChain_cons_cons.mpr ⟨?_, h⟩
    rintro ⟨-, hStale⟩
    rw [show earlier.stale = false from hLast] at hStale
    cases hStale

-- ---------------------------------------------------------------------------
-- The drop that is counted
-- ---------------------------------------------------------------------------

/-- No entry of a line was dropped by a drawing queued after it. -/
theorem line_not_dropped {engine : List Submission} {worker : Worker}
    {awaited : Option PendingMerge} {entries : List (JobQueue.Entry VicJob VicDrawn)}
    (h : Line engine worker awaited entries) : ∀ e ∈ entries, e.state ≠ .kDropped := by
  have hNone : ∀ {entries : List (JobQueue.Entry VicJob VicDrawn)},
      Line engine worker none entries → ∀ e ∈ entries, e.state ≠ .kDropped := by
    intro entries hLine
    cases hLine with
    | empty => simp
    | stale _ hState _ => simp [hState]
  cases h with
  | empty => simp
  | stale _ hState _ => simp [hState]
  | queued hBefore _ _ hState _ _ _ =>
    intro e he
    rcases List.mem_append.mp he with he | he
    · exact hNone hBefore e he
    · rw [List.mem_singleton.mp he, hState]
      decide
  | taken _ _ hState _ _ => simp [hState]
  | settled _ hState _ _ =>
    intro e he
    rw [List.mem_singleton.mp he]
    rcases hState with h | h <;> rw [h] <;> decide

/-- A drawing submitted is the pending merge's, and the worker done with it. -/
theorem line_submitted {engine : List Submission} {worker : Worker}
    {awaited : Option PendingMerge} {e : JobQueue.Entry VicJob VicDrawn}
    (h : Line engine worker awaited [e]) (hState : e.state = .kSubmitted) :
    worker = .idle ∧ ∃ p, awaited = some p ∧ e.id = p.id := by
  generalize hEntries : [e] = entries at h
  cases h with
  | empty => cases hEntries
  | stale _ hOther _ =>
    obtain rfl := List.singleton_inj.mp hEntries
    rw [hState] at hOther
    cases hOther
  | queued _ _ _ hOther _ _ _ =>
    rename_i before other pending job hFresh hId hJob hCancelled hOf hBefore
    have hLast : some e = some other := by
      rw [← List.getLast?_singleton, hEntries, List.getLast?_concat]
    obtain rfl := Option.some.inj hLast
    rw [hState] at hOther
    cases hOther
  | taken _ _ hOther _ _ =>
    obtain rfl := List.singleton_inj.mp hEntries
    rw [hState] at hOther
    cases hOther
  | settled hId _ _ _ =>
    obtain rfl := List.singleton_inj.mp hEntries
    exact ⟨rfl, _, rfl, hId⟩

/-- What the queue answers as dropped stood in it still queued, with no drop counted, or
had been dropped before. -/
theorem resolve_dropped {jobs jobs' : VicJobs} {id : JobQueue.Id} {wait : Bool}
    {outcome : JobQueue.Outcome VicDrawn} (h : jobs.resolve id wait = (some outcome, jobs'))
    (hDropped : outcome.state = .kDropped) :
    ∃ e, jobs.find id = some e ∧
      (e.state = .kDropped ∨
        e.state = .kQueued ∧ wait = false ∧ jobs.droppedInARow = 0 ∧
          jobs'.droppedInARow = 1) := by
  unfold JobQueue.resolve at h
  split at h
  · obtain rfl := Option.some.inj (Prod.mk.inj h).1
    cases hDropped
  rename_i e hFind
  refine ⟨e, hFind, ?_⟩
  split at h
  · rename_i hMay
    obtain ⟨-, rfl⟩ := Prod.mk.inj h
    unfold JobQueue.mayDropNow JobQueue.kMostDroppedInARow at hMay
    simp only [Bool.and_eq_true, Bool.not_eq_true', decide_eq_true_eq, Nat.lt_one_iff] at hMay
    obtain ⟨⟨⟨hQueued, hNoWait⟩, -⟩, hRow⟩ := hMay
    refine .inr ⟨hQueued, hNoWait, hRow, ?_⟩
    show jobs.droppedInARow + 1 = 1
    rw [hRow]
  split at h
  · obtain rfl := Option.some.inj (Prod.mk.inj h).1
    exact .inl hDropped
  split at h
  · obtain rfl := Option.some.inj (Prod.mk.inj h).1
    cases hDropped
  · cases h

/-- An entry found is in the queue. -/
theorem mem_of_find {jobs : VicJobs} {id : JobQueue.Id} {e : JobQueue.Entry VicJob VicDrawn}
    (h : jobs.find id = some e) : e ∈ jobs.entries :=
  List.mem_of_find?_eq_some h

/-- Once a drawing was dropped, the drop is counted, or the next one's is submitted. -/
def Counted (s : System) : Prop :=
  s.droppedLast = true →
    0 < s.jobs.droppedInARow ∨ ∃ e, s.jobs.entries = [e] ∧ e.state = .kSubmitted

/-- A frame that showed something else needs no count. -/
theorem counted_of_not {s : System} (h : s.droppedLast = false) : Counted s := by
  intro hLast
  rw [h] at hLast
  cases hLast

/-- A step that leaves the queue alone, and the frames. -/
theorem counted_same {s s' : System} (hCounted : Counted s) (hJobs : s'.jobs = s.jobs)
    (hLast : s'.droppedLast = true → s.droppedLast = true) : Counted s' := by
  intro h
  rw [hJobs]
  exact hCounted (hLast h)

/-- A group put on its window is no dropped one. -/
theorem finish_droppedLast (c : Config) (s : System) (target : Target) (untouched : Bool)
    (heldFence : Option Nat) (drawn : VicDrawn) :
    (s.finish c target untouched heldFence drawn).droppedLast = false := by
  unfold finish
  simp only
  split
  · rfl
  · split <;> rfl

/-- Nor is one drawn on the spot. -/
theorem drawHere_droppedLast (c : Config) (s : System) (m : Manager) (merge : Merge)
    (forced : Int) : (s.drawHere c m merge forced).droppedLast = false := by
  unfold drawHere
  split
  · rfl
  split
  · rfl
  simp only
  split
  · exact finish_droppedLast _ _ _ _ _ _
  · rfl

/-- `DropPendingMerge` counts no drop. -/
theorem drop_droppedInARow (m : Manager) (jobs : VicJobs) :
    (m.dropPendingMerge jobs).2.droppedInARow = jobs.droppedInARow := by
  unfold Manager.dropPendingMerge
  split
  · rfl
  · unfold JobQueue.cancel
    split
    · rfl
    · split <;> rfl

/-- The frame judged: dropped, its drop is still counted. -/
theorem counted_judge {c : Config} {s : System} {merge : Merge} {same queued dropped : Bool}
    {resolved : Option VicDrawn} {isPending : Nat → Bool} {forced : Int} (hCounted : Counted s)
    (hAt : s.frame = .judging merge same queued dropped resolved) :
    Counted (s.judge c merge same queued dropped resolved isPending forced) := by
  unfold judge
  simp only
  split
  · exact counted_of_not rfl
  split
  · exact counted_of_not rfl
  split
  · rename_i hDropped
    refine counted_same hCounted rfl fun _ => ?_
    unfold droppedLast
    rw [hAt]
    exact hDropped
  split
  · split
    · exact counted_of_not rfl
    · unfold showQueued
      split
      · exact counted_of_not rfl
      · exact counted_of_not (finish_droppedLast _ _ _ _ _ _)
  · exact counted_of_not (drawHere_droppedLast _ _ _ _ _)

/-- The worker's answer: a drawing given up is not done now. -/
theorem counted_workerDone {c : Config} {s s' : System} (hLined : Lined s) (hCounted : Counted s)
    (hSteady : s.steady .workerDone = true) (h : step c s .workerDone = some s') : Counted s' := by
  obtain ⟨id, result, hWorker, rfl⟩ := step_workerDone h
  intro hLast
  have hLastBefore : s.droppedLast = true := hLast
  have hLine := hLined.tended.line
  rw [hWorker] at hLine
  have hRow : 0 < s.jobs.droppedInARow := by
    rcases hCounted hLastBefore with hRow | ⟨e, hOnly, hState⟩
    · exact hRow
    · rw [hOnly] at hLine
      cases (line_submitted hLine hState).1
  have hHeld : ∀ e, s.jobs.find id = some e → e.cancelled = false := by
    intro e hFind
    unfold steady doneGivenUp at hSteady
    simpa [hLastBefore, hWorker, hFind] using hSteady
  show 0 < (s.jobs.done id result.fence.isSome (some result)).droppedInARow ∨
    ∃ e, (s.jobs.done id result.fence.isSome (some result)).entries = [e] ∧ e.state = .kSubmitted
  generalize hEntries : s.jobs.entries = entries at hLine
  generalize s.awaited = mine at hLine
  unfold JobQueue.done
  cases hLine with
  | stale hId hState hCancelled =>
    rename_i e
    have hKept := hHeld e (find_only hEntries (Option.some.inj hId).symm)
    rw [hCancelled] at hKept
    cases hKept
  | queued hBefore hFresh hQueuedId hQueued hJob hLet hOf =>
    cases hBefore with
    | stale hId hState hCancelled =>
      rename_i e pending job x
      have hFind : s.jobs.find id = some x := by
        unfold JobQueue.find
        rw [hEntries, Option.some.inj hId]
        simp
      have hKept := hHeld x hFind
      rw [hCancelled] at hKept
      cases hKept
  | taken hHas hId hState hCancelled hOf =>
    rename_i e pending job
    cases hHas with
    | drawn _ =>
      rw [find_only hEntries hId]
      simp only
      rw [if_neg (by simp [hCancelled]), hEntries]
      cases hSubmitted : result.fence.isSome with
      | false => exact .inl hRow
      | true =>
        simp only [JobQueue.modifyEntry, hId, if_true]
        exact .inr ⟨_, rfl, rfl⟩

/-- A second validate counts no drop, and gives up no drawing the worker has. -/
theorem counted_validate {c : Config} {s s' : System} {merge : Merge} (hLined : Lined s)
    (hCounted : Counted s) (hSteady : s.steady (.validate merge) = true)
    (h : step c s (.validate merge) = some s') : Counted s' := by
  obtain ⟨hAt, rfl⟩ := step_validate h
  intro hLast
  have hLastBefore : s.droppedLast = true := by
    unfold droppedLast
    rw [hAt]
    exact hLast
  refine .inl ?_
  show 0 < (s.manager.dropPendingMerge s.jobs).2.droppedInARow
  rw [drop_droppedInARow]
  rcases hCounted hLastBefore with hRow | ⟨e, hOnly, hState⟩
  · exact hRow
  · -- it would be a drawing the worker has taken that is given up
    have hLine := hLined.tended.line
    rw [hOnly] at hLine
    obtain ⟨-, p, hAwaited, hId⟩ := line_submitted hLine hState
    rw [awaited_eq (s := s) fun _ _ _ _ h => by rw [hAt] at h; cases h] at hAwaited
    have hTaken : s.drawingTaken = true := by
      unfold drawingTaken
      rw [pending_of_toCollect hAwaited]
      simp [find_only hOnly hId, hState]
    unfold steady at hSteady
    rw [hLastBefore, hTaken] at hSteady
    cases hSteady

/-- What is queued leaves the count, or adds to it. -/
theorem counted_queueMerge {c : Config} {s s' : System} {forced : Int} (hLined : Lined s)
    (hCounted : Counted s) (h : step c s (.queueMerge forced) = some s') : Counted s' := by
  obtain ⟨merge, hAt, rfl⟩ := step_queueMerge h
  intro hLast
  have hLastBefore : s.droppedLast = true := by
    unfold droppedLast
    rw [hAt]
    exact hLast
  have hStanding := hLined.standing
  unfold Standing at hStanding
  rw [hAt] at hStanding
  rcases hCounted hLastBefore with hRow | ⟨e, hOnly, hState⟩
  · refine .inl ?_
    cases hQueue : s.manager.queueMerge c s.jobs merge forced with
    | mk m jobs =>
    show 0 < jobs.droppedInARow
    obtain ⟨-, rfl⟩ | ⟨_, _, _, p, -, -, -, -, -, ⟨-, -, rfl, -⟩ | ⟨-, -, job, -, -, rfl⟩⟩ :=
      Manager.queueMerge_cases hQueue
    · exact hRow
    · exact hRow
    · exact Nat.lt_of_lt_of_le hRow (Nat.le_add_right _ _)
  · -- a drawing submitted would be awaited, and none is
    have hLine := hLined.tended.line
    rw [hOnly] at hLine
    obtain ⟨-, p, hAwaited, -⟩ := line_submitted hLine hState
    rw [awaited_none hStanding] at hAwaited
    cases hAwaited

/-- What `Execute` begins with keeps the count. -/
theorem counted_execute {c : Config} {s s' : System} {request : Request} (hCounted : Counted s)
    (h : step c s (.execute request) = some s') : Counted s' := by
  obtain ⟨hAt, rfl⟩ := step_execute h
  unfold execute
  simp only
  split
  · exact counted_of_not rfl
  split
  · exact counted_of_not (by simp [droppedLast, hAt])
  split
  · exact counted_of_not rfl
  split
  · exact counted_of_not (by simp [droppedLast, hAt])
  split
  · exact counted_of_not rfl
  split
  · exact counted_same hCounted rfl (by simp [droppedLast, hAt])
  · exact counted_of_not rfl

/-- The worker's taking leaves the count; what is submitted is not taken again. -/
theorem counted_take {c : Config} {s s' : System} (hCounted : Counted s)
    (h : step c s .take = some s') : Counted s' := by
  obtain ⟨id, job, jobs, hWorker, hTake, rfl⟩ := step_take h
  intro hLast
  have hLastBefore : s.droppedLast = true := hLast
  unfold JobQueue.take at hTake
  split at hTake
  · cases hTake
  split at hTake
  · cases hTake
  rename_i taken entries hLocked
  obtain ⟨-, rfl⟩ := Prod.mk.inj hTake
  rcases hCounted hLastBefore with hRow | ⟨e, hOnly, hState⟩
  · exact .inl hRow
  · obtain ⟨before, x, after, hSplit, -, hQueued, -⟩ := JobQueue.takeLocked_split hLocked
    have hIn : x ∈ s.jobs.entries := hSplit ▸ (by simp)
    rw [hOnly, List.mem_singleton] at hIn
    rw [hIn, hState] at hQueued
    cases hQueued

/-- **A drop stays counted** until the next frame's drawing is submitted, in steps that
are steady. -/
theorem counted_step {c : Config} {s s' : System} {a : Action} (hLined : Lined s)
    (hCounted : Counted s) (hSteady : s.steady a = true) (h : step c s a = some s') :
    Counted s' := by
  cases a with
  | validate merge => exact counted_validate hLined hCounted hSteady h
  | queueMerge forced => exact counted_queueMerge hLined hCounted h
  | noteFrameUnjudged =>
    obtain ⟨-, rfl⟩ := step_noteFrameUnjudged h
    exact counted_same hCounted rfl id
  | execute request => exact counted_execute hCounted h
  | resolve =>
    obtain ⟨merge, p, outcome, jobs, -, -, hResolve, rfl⟩ := step_resolve h
    intro hLast
    obtain ⟨e, hFind, hDropped | ⟨-, -, -, hRow⟩⟩ :=
      resolve_dropped hResolve (of_decide_eq_true hLast)
    · exact absurd hDropped (line_not_dropped hLined.tended.line e (mem_of_find hFind))
    · exact .inl (hRow ▸ Nat.one_pos)
  | judge isPending forced =>
    obtain ⟨merge, same, queued, dropped, resolved, hAt, rfl⟩ := step_judge h
    exact counted_judge hCounted hAt
  | compose answer =>
    obtain ⟨target, d, -, ⟨drawn, -, rfl⟩ | ⟨d', -, rfl⟩⟩ := step_compose h
    · exact counted_of_not (finish_droppedLast _ _ _ _ _ _)
    · exact counted_of_not rfl
  | flip answer =>
    obtain ⟨put, hAt, rfl⟩ := step_flip h
    have hSame : s.droppedLast = decide (s.frames.head? = some .dropped) := by
      unfold droppedLast
      rw [hAt]
    unfold flipped
    split
    all_goals exact counted_same hCounted rfl fun h => hSame.trans h
  | take => exact counted_take hCounted h
  | workerCompose answer =>
    obtain ⟨id, d, -, ⟨drawn, -, rfl⟩ | ⟨d', -, rfl⟩⟩ := step_workerCompose h
    · exact counted_same hCounted rfl fun hLast => hLast
    · exact counted_same hCounted rfl fun hLast => hLast
  | workerDone => exact counted_workerDone hLined hCounted hSteady h

/-- **The queue drops no drawing after a stale frame**, where the step is steady. -/
theorem resolve_after {s : System} {merge : Merge} {p : PendingMerge} {jobs : VicJobs}
    {outcome : JobQueue.Outcome VicDrawn} (hLined : Lined s) (hCounted : Counted s)
    (hSteady : s.steady .resolve = true) (hAt : s.frame = .resolving merge)
    (hp : s.manager.pendingMerge = some p)
    (hResolve : s.jobs.resolve p.id (!p.droppable) = (some outcome, jobs))
    (hDropped : outcome.state = .kDropped) : s.lastStale = false := by
  obtain ⟨e, hFind, hBefore | ⟨hQueued, hNoWait, hRow, -⟩⟩ := resolve_dropped hResolve hDropped
  · exact absurd hBefore (line_not_dropped hLined.tended.line e (mem_of_find hFind))
  unfold lastStale
  cases hHead : s.frames.head? with
  | none => rfl
  | some shown =>
    cases shown with
    | lagged =>
      -- the worker has the drawing, by the condition
      rw [Bool.not_eq_false'] at hNoWait
      unfold steady drawingTaken drawingDroppable at hSteady
      simp [hHead, hp, hFind, hQueued, hNoWait] at hSteady
    | dropped =>
      -- the drop is counted, or the drawing submitted
      have hLast : s.droppedLast = true := by
        unfold droppedLast
        rw [hAt]
        exact decide_eq_true hHead
      rcases hCounted hLast with hCount | ⟨x, hOnly, hState⟩
      · rw [hRow] at hCount
        cases hCount
      · have hIn := mem_of_find hFind
        rw [hOnly, List.mem_singleton] at hIn
        rw [← hIn, hQueued] at hState
        cases hState
    | same | drawn | bare | refused => rfl

-- ---------------------------------------------------------------------------
-- The frames so far
-- ---------------------------------------------------------------------------

/-- What holds of the frames so far, and of the manager that remembers whether
the last one lagged. -/
structure StaleOk (s : System) : Prop where
  once : StaleOnce s.frames
  /-- A frame that lagged is remembered until the next is judged. -/
  lagged : (∀ target d, s.frame ≠ .drawing target d) → s.frames.head? = some .lagged →
    s.manager.laggedLast = true
  /-- A drawing is dropped only after a frame that was not stale. -/
  dropped : ∀ merge same queued resolved, s.frame = .judging merge same queued true resolved →
    s.lastStale = false

/-- A step that leaves frames and lag alone keeps what holds of them, where no
drawing is judged. -/
theorem staleOk_same {s s' : System} (hOk : StaleOk s) (hFrames : s'.frames = s.frames)
    (hLag : s'.manager.laggedLast = s.manager.laggedLast)
    (hBefore : ∀ target d, s.frame ≠ .drawing target d)
    (hJudging : ∀ merge same queued resolved,
      s'.frame = .judging merge same queued true resolved → s.lastStale = false) : StaleOk s' where
  once := hFrames ▸ hOk.once
  lagged := by
    intro _ hHead
    rw [hFrames] at hHead
    rw [hLag]
    exact hOk.lagged hBefore hHead
  dropped := by
    intro merge same queued resolved hAt
    unfold lastStale
    rw [hFrames]
    exact hJudging merge same queued resolved hAt

/-- A step that adds a frame which showed its own group, or none. -/
theorem staleOk_fresh {s s' : System} (hOnce : StaleOnce s.frames) {shown : Shown}
    (hFrames : s'.frames = shown :: s.frames) (hFresh : shown.stale = false) : StaleOk s' where
  once := by
    rw [hFrames]
    exact staleOnce_fresh hOnce hFresh
  lagged := by
    intro _ hHead
    rw [hFrames] at hHead
    obtain rfl : shown = .lagged := Option.some.inj hHead
    cases hFresh
  dropped := by
    intro merge same queued resolved _
    unfold lastStale
    rw [hFrames]
    exact hFresh

/-- The frame `finish` adds showed its own group, or none. -/
theorem finish_frames (c : Config) (s : System) (target : Target) (untouched : Bool)
    (heldFence : Option Nat) (drawn : VicDrawn) :
    ∃ shown : Shown, shown.stale = false ∧
      (s.finish c target untouched heldFence drawn).frames = shown :: s.frames := by
  unfold finish
  simp only
  split
  · exact ⟨.refused, rfl, rfl⟩
  · split
    · exact ⟨.refused, rfl, rfl⟩
    · exact ⟨.drawn, rfl, rfl⟩

/-- `DropPendingMerge` does not touch the lag. -/
theorem drop_laggedLast (m : Manager) (jobs : VicJobs) :
    (m.dropPendingMerge jobs).1.laggedLast = m.laggedLast := by
  unfold Manager.dropPendingMerge
  split <;> rfl

/-- A group drawn on the spot: its frame is added, or is being drawn. -/
theorem staleOk_drawHere {c : Config} {s : System} {m : Manager} {merge : Merge} {forced : Int}
    (hOnce : StaleOnce s.frames) : StaleOk (s.drawHere c m merge forced) := by
  unfold drawHere
  split
  · exact staleOk_fresh hOnce rfl (by decide : Shown.refused.stale = false)
  split
  · exact staleOk_fresh hOnce rfl (by decide : Shown.refused.stale = false)
  simp only
  split
  · obtain ⟨shown, hFresh, hFrames⟩ := finish_frames c _ _ _ _ _
    exact staleOk_fresh hOnce hFrames hFresh
  · refine ⟨hOnce, fun hNot => absurd rfl (hNot _ _), ?_⟩
    intro merge same queued resolved hAt
    cases hAt

/-- The frame judged: it lags once at most, and never after one that was
dropped; it is dropped only after one that was not stale. -/
theorem staleOk_judge {c : Config} {s : System} {merge : Merge} {same queued dropped : Bool}
    {resolved : Option VicDrawn} {isPending : Nat → Bool} {forced : Int} (hOk : StaleOk s)
    (hAt : s.frame = .judging merge same queued dropped resolved)
    (hSteady : s.steady (.judge isPending forced) = true) :
    StaleOk (s.judge c merge same queued dropped resolved isPending forced) := by
  have hOnce := hOk.once
  have hFrame : ∀ target d, s.frame ≠ .drawing target d := by
    intro target d hDrawing
    rw [hAt] at hDrawing
    cases hDrawing
  unfold judge
  simp only
  split
  · exact staleOk_fresh hOnce rfl (by decide : Shown.same.stale = false)
  rename_i hSame
  split
  · rename_i hLag
    simp only [hSame, Bool.not_false, Bool.true_and] at hLag ⊢
    -- the last frame did not lag, by the manager, nor was dropped, by the condition
    have hLast : (s.frames.head?.map Shown.stale).getD false = false := by
      cases hHead : s.frames.head? with
      | none => rfl
      | some shown =>
        unfold Manager.lags at hLag
        simp only [Bool.and_eq_true, Bool.not_eq_true'] at hLag
        obtain ⟨⟨⟨⟨-, hNotLagged⟩, -⟩, -⟩, hLate⟩ := hLag
        cases shown with
        | lagged =>
          rw [hOk.lagged hFrame hHead] at hNotLagged
          cases hNotLagged
        | dropped =>
          exfalso
          rw [Bool.not_eq_true] at hSame
          unfold steady at hSteady
          rw [hAt, hSame] at hSteady
          simp [hHead, clientLate, hLate] at hSteady
        | same | drawn | bare | refused => rfl
    refine ⟨staleOnce_after hOnce hLast, fun _ _ => ?_, ?_⟩
    · show (Manager.dropPendingMerge _ s.jobs).1.laggedLast = true
      rw [drop_laggedLast]
      split
      · exact hLag
      · exact hLag
    · intro merge' same' queued' resolved' hJudging
      cases hJudging
  split
  · rename_i hDropped
    rw [hDropped] at hAt
    refine ⟨staleOnce_after hOnce (hOk.dropped _ _ _ _ hAt), fun _ hHead => ?_, ?_⟩
    · cases hHead
    · intro merge' same' queued' resolved' hJudging
      cases hJudging
  split
  · split
    · exact staleOk_fresh hOnce rfl (by decide : Shown.refused.stale = false)
    · unfold showQueued
      split
      · exact staleOk_fresh hOnce rfl (by decide : Shown.refused.stale = false)
      · obtain ⟨shown, hFresh, hFrames⟩ := finish_frames c _ _ _ _ _
        exact staleOk_fresh hOnce hFrames hFresh
  · exact staleOk_drawHere hOnce

/-- Every step keeps what holds of the frames, where it is steady. -/
theorem staleOk_step {c : Config} {s s' : System} {a : Action} (hLined : Lined s)
    (hCounted : Counted s) (hOk : StaleOk s) (hSteady : s.steady a = true)
    (h : step c s a = some s') : StaleOk s' := by
  cases a with
  | validate merge =>
    obtain ⟨hAt, rfl⟩ := step_validate h
    refine staleOk_same hOk rfl (drop_laggedLast _ _) (fun _ _ h => ?_) fun _ _ _ _ h => by cases h
    rw [hAt] at h
    cases h
  | queueMerge forced =>
    obtain ⟨merge, hAt, rfl⟩ := step_queueMerge h
    have hLag : (s.manager.queueMerge c s.jobs merge forced).1.laggedLast
        = s.manager.laggedLast := by
      cases hQueue : s.manager.queueMerge c s.jobs merge forced with
      | mk m jobs =>
      obtain ⟨rfl, -⟩ | ⟨slot, ready, history, p, -, rfl, -⟩ := Manager.queueMerge_cases hQueue
      · rfl
      · rfl
    refine staleOk_same hOk rfl hLag (fun _ _ h => ?_) fun _ _ _ _ h => by cases h
    rw [hAt] at h
    cases h
  | noteFrameUnjudged =>
    obtain ⟨hAt, rfl⟩ := step_noteFrameUnjudged h
    refine staleOk_same hOk rfl rfl (fun _ _ h => ?_) fun _ _ _ _ h => ?_
    · rw [hAt] at h
      cases h
    · rw [show s.frame = .judging .. from h] at hAt
      cases hAt
  | execute request =>
    obtain ⟨hAt, rfl⟩ := step_execute h
    have hJudging : ∀ frame : Frame,
        (∀ merge same queued resolved, frame ≠ .judging merge same queued true resolved) →
        StaleOk { s with frame := frame } := by
      intro frame hNot
      refine staleOk_same hOk rfl rfl (fun _ _ h => ?_) fun merge same queued resolved h => ?_
      · rw [hAt] at h
        cases h
      · exact absurd h (hNot merge same queued resolved)
    unfold execute
    simp only
    split
    · exact staleOk_fresh hOk.once rfl (by decide : Shown.refused.stale = false)
    split
    · exact staleOk_fresh hOk.once rfl (by decide : Shown.bare.stale = false)
    split
    · exact staleOk_fresh hOk.once rfl (by decide : Shown.bare.stale = false)
    split
    · exact staleOk_fresh hOk.once rfl (by decide : Shown.refused.stale = false)
    split
    · exact hJudging _ fun _ _ _ _ h => by cases h
    · split
      · exact hJudging _ fun _ _ _ _ h => by cases h
      · exact hJudging _ fun _ _ _ _ h => by cases h
  | resolve =>
    obtain ⟨merge, p, outcome, jobs, hAt, hp, hResolve, rfl⟩ := step_resolve h
    refine staleOk_same hOk rfl rfl (fun _ _ h => ?_) fun merge' same queued resolved h => ?_
    · rw [hAt] at h
      cases h
    · obtain ⟨-, -, -, hDropped, -⟩ := Frame.judging.inj h
      exact resolve_after hLined hCounted hSteady hAt hp hResolve (of_decide_eq_true hDropped)
  | judge isPending forced =>
    obtain ⟨merge, same, queued, dropped, resolved, hAt, rfl⟩ := step_judge h
    exact staleOk_judge hOk hAt hSteady
  | compose answer =>
    obtain ⟨target, d, hAt, ⟨drawn, -, rfl⟩ | ⟨d', -, rfl⟩⟩ := step_compose h
    · obtain ⟨shown, hFresh, hFrames⟩ := finish_frames c _ _ _ _ _
      exact staleOk_fresh hOk.once hFrames hFresh
    · refine ⟨hOk.once, fun hNot => absurd rfl (hNot _ _), fun _ _ _ _ h => by cases h⟩
  | flip answer =>
    obtain ⟨put, hAt, rfl⟩ := step_flip h
    have hBefore : ∀ target d, s.frame ≠ .drawing target d := by
      intro _ _ h
      rw [hAt] at h
      cases h
    unfold flipped
    split
    all_goals exact staleOk_same hOk rfl rfl hBefore fun _ _ _ _ h => by cases h
  | take =>
    obtain ⟨id, job, jobs, -, -, rfl⟩ := step_take h
    exact ⟨hOk.once, hOk.lagged, hOk.dropped⟩
  | workerCompose answer =>
    obtain ⟨id, d, -, ⟨drawn, -, rfl⟩ | ⟨d', -, rfl⟩⟩ := step_workerCompose h
    · exact ⟨hOk.once, hOk.lagged, hOk.dropped⟩
    · exact ⟨hOk.once, hOk.lagged, hOk.dropped⟩
  | workerDone =>
    obtain ⟨id, result, -, rfl⟩ := step_workerDone h
    exact ⟨hOk.once, hOk.lagged, hOk.dropped⟩

-- ---------------------------------------------------------------------------
-- Over every run
-- ---------------------------------------------------------------------------

theorem staleOk_init (slots : Nat) : StaleOk (init slots) where
  once := .nil
  lagged := by
    intro _ hHead
    cases hHead
  dropped := by
    intro merge same queued resolved hAt
    cases hAt

/-- **An old group stands for one frame.** In every interleaving of the two
threads whose steps are steady, no two frames in a row whose groups changed show
the group remembered. -/
theorem merge_stale_once {c : Config} {slots : Nat} {actions : List Action} {s : System}
    (hSteady : (machine c).Meets (fun s a => s.steady a = true) (init slots) actions)
    (hRun : (machine c).run (init slots) actions = some s) : StaleOnce s.frames := by
  have hKept := Machine.run_of_meets (m := machine c)
    (I := fun s => Lined s ∧ Counted s ∧ StaleOk s)
    (fun _ _ _ ⟨hLined, hCounted, hOk⟩ hC hStep =>
      ⟨lined_step hLined hStep, counted_step hLined hCounted hC hStep,
        staleOk_step hLined hCounted hOk hC hStep⟩)
    ⟨lined_init slots, counted_of_not rfl, staleOk_init slots⟩ hSteady hRun
  exact hKept.2.2.once

/-- A frame drawn by the worker. -/
def frameDrawn : List Action :=
  [.validate (oneLayer 1), .queueMerge (-1), .take, .workerCompose (some 6), .workerDone,
    .execute { merge := oneLayer 1 }, .resolve, .judge (fun _ => false) (-1),
    .flip (some (some 9))]

/-- The next, drawn by the worker while the client is still at it. -/
def frameLagged : List Action :=
  [.validate (oneLayer 2 (some 5)), .queueMerge (-1), .take, .workerCompose (some 7), .workerDone,
    .execute { merge := oneLayer 2 (some 5) }, .resolve, .judge (fun _ => true) (-1),
    .flip (some (some 10))]

/-- The frame after, whose drawing the worker does not come to: it waits for
the engine, and the engine for the client. -/
def frameDropped : List Action :=
  [.validate (oneLayer 3), .queueMerge (-1), .execute { merge := oneLayer 3 }, .resolve,
    .judge (fun _ => false) (-1), .flip (some (some 11))]

/-- A frame that lags after one that was drawn shows an old group once. -/
theorem merge_stale_once_lagged :
    ∃ s, (machine {}).run (init 3) (frameDrawn ++ frameLagged) = some s ∧
      s.frames = [.lagged, .drawn] ∧ StaleOnce s.frames := by
  refine ⟨_, rfl, rfl, @merge_stale_once {} 3 (frameDrawn ++ frameLagged) _ ?_ rfl⟩
  exact ⟨rfl, rfl, rfl, rfl, rfl, rfl, rfl, rfl, rfl, rfl, rfl, rfl, rfl, rfl, rfl, rfl, rfl, rfl,
    trivial⟩

/-- **Two in a row.** A frame lags, and the next is dropped. -/
theorem merge_stale_twice :
    ¬∀ (actions : List Action) (s : System),
      (machine {}).run (init 3) actions = some s → StaleOnce s.frames := by
  intro hAll
  have hTwice := hAll (frameDrawn ++ frameLagged ++ frameDropped) _ rfl
  have hFrames : StaleOnce [.dropped, .lagged, .drawn] := hTwice
  unfold StaleOnce at hFrames
  rw [List.isChain_cons_cons] at hFrames
  exact hFrames.1 ⟨rfl, rfl⟩

end System

end TegraHwc
