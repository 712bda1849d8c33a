import TegraHwc.Tegra.TegraAtomicStateManager

/-!
# TegraHwc — every turn of the scratch pool is ended

A slot is taken by `QueueMerge` or by `Execute`, and every way out of either
ends its turn exactly once: by `Presented` where the frame went up, else by
`Rewind`. Between the two the turn is the pending merge's, the drawing's, or
the frame's about to be flipped.

The controller answers a frame it takes with a fence (`tegra/DcHead.h`); where
it took a frame and gave none, the turn would stay open, and that is the one
thing assumed here.

## Results

* `turns_run`           — over every run, turns alternate, and the one still
  open is where `outstanding` says.
* `scratchPool_rotates` — with it, what the pool promises of the slots it hands
  out.
-/

namespace TegraHwc

open Runs Rotation ScratchPool

namespace System

/-- Whether a slot's turn is still to be ended. -/
def outstanding (s : System) : Bool :=
  match s.frame with
  | .drawing _ _ => true
  | .flipping put => put.drawnSlot.isSome
  | _ => s.manager.pendingMerge.isSome

/-- The pool of a manager is one whose turns were taken and ended in turn. -/
structure Turned (slots : Nat) (m : Manager) (isOpen : Bool) : Prop where
  turns : Turns m.turns isOpen
  scratch : m.scratch = (create slots).afterAll m.turns

/-- Past the pending merge there is none, and a drawing dropped was its. -/
def PendingOk (s : System) : Prop :=
  match s.frame with
  | .drawing _ _ | .flipping _ | .queueing _ => s.manager.pendingMerge = none
  | .judging _ _ _ dropped _ => dropped = true → s.manager.pendingMerge.isSome = true
  | .idle | .resolving _ => True

/-- What holds of the turns wherever the frame thread stands. -/
structure TurnsOk (slots : Nat) (s : System) : Prop where
  turned : Turned slots s.manager s.outstanding
  pending : s.PendingOk

section Calls

variable {slots : Nat} {m : Manager}

theorem turned_next (h : Turned slots m false) : Turned slots (m.ask .next) true where
  turns := .next h.turns
  scratch := by
    show m.scratch.after .next = (create slots).afterAll (m.turns ++ [.next])
    rw [afterAll_snoc, h.scratch]

theorem turned_rewind (h : Turned slots m true) : Turned slots (m.ask .rewind) false where
  turns := .rewind h.turns
  scratch := by
    show m.scratch.after .rewind = (create slots).afterAll (m.turns ++ [.rewind])
    rw [afterAll_snoc, h.scratch]

theorem turned_presented (h : Turned slots m true) (fence : Nat) :
    Turned slots (m.ask (.presented fence)) false where
  turns := .presented h.turns fence
  scratch := by
    show m.scratch.after (.presented fence) = (create slots).afterAll (m.turns ++ [.presented fence])
    rw [afterAll_snoc, h.scratch]

/-- `DropPendingMerge` gives the pending merge's slot back. -/
theorem turned_drop (h : Turned slots m m.pendingMerge.isSome) (jobs : VicJobs) :
    Turned slots (m.dropPendingMerge jobs).1 false ∧
      (m.dropPendingMerge jobs).1.pendingMerge = none := by
  unfold Manager.dropPendingMerge
  split
  · rename_i hNone
    rw [hNone] at h
    exact ⟨h, hNone⟩
  · rename_i p hp
    rw [hp] at h
    have hLost : Turned slots (m.lose p.target) true := ⟨h.turns, h.scratch⟩
    have hBack := turned_rewind hLost
    exact ⟨⟨hBack.turns, hBack.scratch⟩, rfl⟩

/-- A slot is handed out, or the pool has none. -/
theorem turned_nextSlot {m' : Manager} {answer : Option (Nat × Option Nat)}
    (h : Turned slots m false) (hNext : m.nextSlot = (answer, m')) :
    Turned slots m' answer.isSome ∧ m'.pendingMerge = m.pendingMerge := by
  obtain ⟨rfl, rfl⟩ | ⟨-, hSome, rfl⟩ := Manager.nextSlot_cases hNext
  · exact ⟨h, rfl⟩
  · rw [Option.isSome_iff_ne_none.mpr hSome]
    exact ⟨turned_next h, rfl⟩

end Calls

section Parts

variable {slots : Nat} {c : Config}

/-- A frame given up. -/
theorem turns_refuse {s : System} {m : Manager} (h : Turned slots m m.pendingMerge.isSome) :
    TurnsOk slots (s.refuse m) :=
  ⟨⟨h.turns, h.scratch⟩, trivial⟩

/-- The remembered group shown again. -/
theorem turns_showAgain {s : System} {m : Manager} (h : Turned slots m m.pendingMerge.isSome)
    (merge : Merge) (shown : Shown) : TurnsOk slots (s.showAgain m merge shown) := by
  obtain ⟨hTurned, hNone⟩ := turned_drop h s.jobs
  exact ⟨hTurned, hNone⟩

/-- A group put on its window keeps its slot's turn open until the flip; one
that is not gives it back. -/
theorem turns_finish {s : System} (h : Turned slots s.manager true) (target : Target)
    (untouched : Bool) (heldFence : Option Nat) (drawn : VicDrawn) :
    TurnsOk slots (s.finish c target untouched heldFence drawn) := by
  have hBack : ∀ m : Manager, m.turns = s.manager.turns → m.scratch = s.manager.scratch →
      m.pendingMerge = none → TurnsOk slots (s.refuse (m.ask .rewind)) := by
    intro m hTurns hScratch hNone
    have hm : Turned slots m true := ⟨hTurns ▸ h.turns, by rw [hScratch, hTurns]; exact h.scratch⟩
    refine turns_refuse ?_
    show Turned slots (m.ask .rewind) m.pendingMerge.isSome
    rw [hNone]
    exact turned_rewind hm
  unfold finish
  simp only
  split
  · exact hBack _ rfl rfl rfl
  · split
    · exact hBack _ rfl rfl rfl
    · exact ⟨⟨h.turns, h.scratch⟩, rfl⟩

/-- A slot taken on the spot. -/
theorem turns_drawHere {s : System} {m : Manager} {merge : Merge} {forced : Int}
    (h : Turned slots m false) (hNone : m.pendingMerge = none) :
    TurnsOk slots (s.drawHere c m merge forced) := by
  unfold drawHere
  split
  · rename_i m' hNext
    obtain ⟨hTurned, hPending⟩ := turned_nextSlot h hNext
    refine turns_refuse ?_
    rw [hPending, hNone]
    exact hTurned
  rename_i slot ready m' hNext
  obtain ⟨hTurned, hPending⟩ := turned_nextSlot h hNext
  obtain ⟨history, hRecord⟩ := m'.record_eq (mergeMembers merge) merge.damages
  split
  · exact turns_refuse (turned_rewind ⟨hTurned.turns, hTurned.scratch⟩)
  simp only
  rw [hRecord]
  split
  · exact turns_finish ⟨hTurned.turns, hTurned.scratch⟩ _ _ _ _
  · exact ⟨⟨hTurned.turns, hTurned.scratch⟩, hPending.trans hNone⟩

/-- From the question of the lag to the next access to the engine. -/
theorem turns_judge {s : System} {merge : Merge} {same queued dropped : Bool}
    {resolved : Option VicDrawn} {isPending : Nat → Bool} {forced : Int}
    (h : Turned slots s.manager s.manager.pendingMerge.isSome)
    (hDropped : dropped = true → s.manager.pendingMerge.isSome = true) :
    TurnsOk slots (s.judge c merge same queued dropped resolved isPending forced) := by
  -- the manager the frame goes on with, its job given up or not
  have hOn : ∀ m : Manager, m.turns = s.manager.turns → m.scratch = s.manager.scratch →
      m.pendingMerge = s.manager.pendingMerge →
      let on := if dropped = true then { m with pendingMerge := none }.ask .rewind else m
      Turned slots on on.pendingMerge.isSome := by
    intro m hTurns hScratch hPending
    have hm : Turned slots m s.manager.pendingMerge.isSome :=
      ⟨hTurns ▸ h.turns, by rw [hScratch, hTurns]; exact h.scratch⟩
    simp only
    split
    · rename_i hIs
      rw [hDropped hIs] at hm
      exact turned_rewind (m := { m with pendingMerge := none }) ⟨hm.turns, hm.scratch⟩
    · rw [hPending]
      exact hm
  unfold judge
  simp only
  have hM := hOn { s.manager with laggedLast := !same && s.manager.lags c merge isPending } rfl rfl
    rfl
  simp only at hM
  generalize (if dropped = true then _ else _ : Manager) = m at hM ⊢
  split
  · exact turns_showAgain hM merge _
  split
  · exact turns_showAgain hM merge _
  split
  · exact turns_showAgain hM merge _
  split
  · split
    · exact turns_refuse hM
    · rename_i p hp
      rw [hp] at hM
      unfold showQueued
      split
      · exact turns_refuse (turned_rewind ⟨hM.turns, hM.scratch⟩)
      · exact turns_finish ⟨hM.turns, hM.scratch⟩ _ _ _ _
  · obtain ⟨hTurned, hNone⟩ := turned_drop hM s.jobs
    exact turns_drawHere hTurned hNone

end Parts

/-- A frame starts: the pending merge keeps its turn, or gives it back. -/
theorem turns_execute {slots : Nat} {c : Config} {s : System} (hAt : s.frame = .idle)
    (h : Turned slots s.manager s.manager.pendingMerge.isSome) (request : Request) :
    TurnsOk slots (s.execute c request) := by
  -- a frame that ends here leaves the pending merge its turn
  have hEnd : ∀ (m : Manager) (shown : Shown), m.turns = s.manager.turns →
      m.scratch = s.manager.scratch → m.pendingMerge = s.manager.pendingMerge →
      TurnsOk slots { s with manager := m, frames := shown :: s.frames } := by
    intro m shown hTurns hScratch hSame
    refine ⟨?_, ?_⟩
    · unfold outstanding
      simp only [hAt]
      rw [hSame]
      exact ⟨hTurns ▸ h.turns, by rw [hScratch, hTurns]; exact h.scratch⟩
    · unfold PendingOk
      simp only [hAt]
  unfold execute
  simp only
  split
  · exact turns_refuse h
  split
  · exact hEnd s.manager.forgetMerge .bare rfl rfl rfl
  split
  · obtain ⟨hDropped, hNone⟩ := turned_drop h s.jobs
    exact ⟨⟨hDropped.turns, hDropped.scratch⟩, hNone⟩
  split
  · exact hEnd s.manager .refused rfl rfl rfl
  split
  · exact ⟨h, fun hNot => by cases hNot⟩
  · split
    · exact ⟨h, trivial⟩
    · exact ⟨h, fun hNot => by cases hNot⟩

/-- The flip ends the turn of the frame's slot, where the controller gives a
fence with a frame it takes. -/
theorem turns_flipped {slots : Nat} {s : System} {put : Put} {answer : Option (Option Nat)}
    (h : Turned slots s.manager put.drawnSlot.isSome) (hNone : s.manager.pendingMerge = none)
    (hFenced : answer ≠ some none) : TurnsOk slots (s.flipped put answer) := by
  have hIdle : ∀ m : Manager, m.pendingMerge = none → Turned slots m false →
      TurnsOk slots { s with manager := m, frame := .idle } := by
    intro m hm hEnded
    refine ⟨?_, trivial⟩
    show Turned slots m m.pendingMerge.isSome
    rw [hm]
    exact hEnded
  unfold flipped
  split
  · rename_i hSlot
    rw [hSlot] at h
    exact hIdle s.manager hNone h
  · rename_i slot hSlot
    rw [hSlot] at h
    have hBack := turned_rewind h
    exact hIdle _ hNone ⟨hBack.turns, hBack.scratch⟩
  · rename_i hSlot
    rw [hSlot] at h
    exact hIdle s.manager hNone h
  · exact absurd rfl hFenced
  · rename_i fence slot hSlot
    rw [hSlot] at h
    exact hIdle _ hNone (turned_presented h fence)

/-- What the worker does has nothing to do with the pool. -/
theorem turns_worker {slots : Nat} {s s' : System} (hOk : TurnsOk slots s)
    (hManager : s'.manager = s.manager) (hFrame : s'.frame = s.frame) : TurnsOk slots s' := by
  obtain ⟨hTurned, hPending⟩ := hOk
  unfold outstanding at hTurned
  unfold PendingOk at hPending
  refine ⟨?_, ?_⟩
  · unfold outstanding
    rw [hManager, hFrame]
    exact hTurned
  · unfold PendingOk
    rw [hManager, hFrame]
    exact hPending

/-- The controller gives a fence with each frame it takes. -/
def Fenced : Action → Prop
  | .flip answer => answer ≠ some none
  | _ => True

/-- Every step keeps the turns. -/
theorem turns_step {slots : Nat} {c : Config} {s s' : System} {a : Action} (hOk : TurnsOk slots s)
    (hFenced : Fenced a) (h : step c s a = some s') : TurnsOk slots s' := by
  obtain ⟨hTurned, hPending⟩ := hOk
  unfold outstanding at hTurned
  unfold PendingOk at hPending
  cases a with
  | validate merge =>
    obtain ⟨hAt, rfl⟩ := step_validate h
    rw [hAt] at hTurned
    obtain ⟨hDropped, hNone⟩ := turned_drop hTurned s.jobs
    refine ⟨?_, hNone⟩
    show Turned slots _ (s.manager.dropPendingMerge s.jobs).1.pendingMerge.isSome
    rw [hNone]
    exact hDropped
  | queueMerge forced =>
    obtain ⟨merge, hAt, rfl⟩ := step_queueMerge h
    rw [hAt] at hTurned hPending
    rw [show s.manager.pendingMerge = none from hPending] at hTurned
    cases hQueue : s.manager.queueMerge c s.jobs merge forced with
    | mk m jobs =>
    refine ⟨?_, trivial⟩
    show Turned slots m m.pendingMerge.isSome
    obtain ⟨rfl, -⟩ | ⟨slot, ready, history, p, -, rfl, -⟩ := Manager.queueMerge_cases hQueue
    · rw [show s.manager.pendingMerge = none from hPending]
      exact hTurned
    · have hNext := turned_next hTurned
      exact ⟨hNext.turns, hNext.scratch⟩
  | noteFrameUnjudged =>
    obtain ⟨hAt, rfl⟩ := step_noteFrameUnjudged h
    rw [hAt] at hTurned
    refine ⟨?_, ?_⟩
    · unfold outstanding
      simp only [hAt]
      exact ⟨hTurned.turns, hTurned.scratch⟩
    · unfold PendingOk
      simp only [hAt]
  | execute request =>
    obtain ⟨hAt, rfl⟩ := step_execute h
    rw [hAt] at hTurned
    exact turns_execute hAt hTurned request
  | resolve =>
    obtain ⟨merge, p, outcome, jobs, hAt, hp, -, rfl⟩ := step_resolve h
    rw [hAt] at hTurned
    exact ⟨hTurned, fun _ => by rw [hp]; rfl⟩
  | judge isPending forced =>
    obtain ⟨merge, same, queued, dropped, resolved, hAt, rfl⟩ := step_judge h
    rw [hAt] at hTurned hPending
    exact turns_judge hTurned hPending
  | compose answer =>
    obtain ⟨target, d, hAt, ⟨drawn, -, rfl⟩ | ⟨d', -, rfl⟩⟩ := step_compose h
    · rw [hAt] at hTurned
      exact turns_finish (s := { s with engine := d.submit answer s.engine })
        ⟨hTurned.turns, hTurned.scratch⟩ _ _ _ _
    · rw [hAt] at hTurned hPending
      exact ⟨hTurned, hPending⟩
  | flip answer =>
    obtain ⟨put, hAt, rfl⟩ := step_flip h
    rw [hAt] at hTurned hPending
    exact turns_flipped hTurned hPending hFenced
  | take =>
    obtain ⟨id, job, jobs, -, -, rfl⟩ := step_take h
    exact turns_worker ⟨hTurned, hPending⟩ rfl rfl
  | workerCompose answer =>
    obtain ⟨id, d, -, ⟨drawn, -, rfl⟩ | ⟨d', -, rfl⟩⟩ := step_workerCompose h
    · exact turns_worker ⟨hTurned, hPending⟩ rfl rfl
    · exact turns_worker ⟨hTurned, hPending⟩ rfl rfl
  | workerDone =>
    obtain ⟨id, result, -, rfl⟩ := step_workerDone h
    exact turns_worker ⟨hTurned, hPending⟩ rfl rfl

theorem turns_init (slots : Nat) : TurnsOk slots (init slots) :=
  ⟨⟨.nil, rfl⟩, trivial⟩

-- ---------------------------------------------------------------------------
-- Over every run
-- ---------------------------------------------------------------------------

/-- Over every run the turns alternate, and the one still open is the pending
merge's, the drawing's or the frame's. -/
theorem turns_run {slots : Nat} {c : Config} {actions : List Action} {s : System}
    (hFenced : ∀ a ∈ actions, Fenced a) (hRun : (machine c).run (init slots) actions = some s) :
    TurnsOk slots s := by
  refine Machine.run_of_meets (m := machine c) (C := fun _ a => Fenced a)
    (fun _ _ _ hOk hC hStep => turns_step hOk hC hStep) (turns_init slots) ?_ hRun
  exact Machine.meets_of_forall hFenced _

/-- **The rotation is safe.** A pool of at least two slots whose turns are each
ended once hands out a slot that is not on the panel, with the fence of the
frame that replaced its last showing, and hands it out again after a `Rewind`.
And over every run of the two threads every way out of `QueueMerge`,
`DropPendingMerge` and `Execute` has ended the turn it took exactly once, or
left it to the pending merge. -/
theorem scratchPool_rotates (F : Type) (c : Config) {slots : Nat} (hSlots : 2 ≤ slots) :
    (∀ ops : List (Op F), Turns ops false →
      ∃ slot ready, ((create slots).afterAll ops).next.1 = some (slot, ready) ∧
        Safe ((create slots).shows ops) slot ready ∧
        (((create slots).afterAll (ops ++ [.next] ++ [.rewind])).next.1 = some (slot, ready))) ∧
    (∀ (actions : List Action) (s : System), (∀ a ∈ actions, Fenced a) →
      (machine c).run (init slots) actions = some s → s.frame = .idle →
        Turns s.manager.turns s.manager.pendingMerge.isSome ∧
          s.manager.scratch = (create slots).afterAll s.manager.turns) := by
  refine ⟨fun ops hTurns => ?_, fun actions s hFenced hRun hAt => ?_⟩
  · obtain ⟨slot, ready, hNext, hSafe⟩ := next_safe hSlots hTurns
    refine ⟨slot, ready, hNext, hSafe, ?_⟩
    have hKept := turns_keeps (by omega : 0 < slots) hTurns
    rw [afterAll_snoc, afterAll_snoc]
    show ((ScratchPool.next ((create slots).afterAll ops)).2.rewind).next.1 = _
    rw [next_rewind hKept.keeps.at_lt, hNext]
  · obtain ⟨hTurned, -⟩ := turns_run hFenced hRun
    unfold outstanding at hTurned
    rw [hAt] at hTurned
    exact ⟨hTurned.turns, hTurned.scratch⟩

/-- A group drawn by the worker, collected and shown. -/
def drawnByWorker : List Action :=
  [.validate (oneLayer 1), .queueMerge (-1), .take, .workerCompose (some 6), .workerDone,
    .execute { merge := oneLayer 1 }, .resolve, .judge (fun _ => false) (-1),
    .flip (some (some 9))]

/-- Two frames of a pool of three, the second refused by the controller; and a
frame of the two threads. -/
theorem scratchPool_rotates_three :
    (∃ slot ready,
      ((create 3 : ScratchPool Nat).afterAll [.next, .presented 9, .next, .rewind]).next.1
        = some (slot, ready) ∧
      Safe ((create 3 : ScratchPool Nat).shows [.next, .presented 9, .next, .rewind]) slot ready) ∧
    ∃ s, (machine {}).run (init 3) drawnByWorker = some s ∧ Turns s.manager.turns false := by
  obtain ⟨hPool, hFrames⟩ := scratchPool_rotates Nat {} (by decide : 2 ≤ 3)
  refine ⟨?_, _, rfl, (hFrames drawnByWorker _ ?_ rfl rfl).1⟩
  · obtain ⟨slot, ready, hNext, hSafe, -⟩ :=
      hPool _ (.rewind (.next (.presented (.next .nil) 9)))
    exact ⟨slot, ready, hNext, hSafe⟩
  · intro a ha
    simp only [drawnByWorker, List.mem_cons, List.not_mem_nil, or_false] at ha
    rcases ha with rfl | rfl | rfl | rfl | rfl | rfl | rfl | rfl | rfl
    all_goals first | trivial | exact fun h => by cases h

end System

end TegraHwc
