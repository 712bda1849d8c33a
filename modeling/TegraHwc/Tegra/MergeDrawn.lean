import TegraHwc.Tegra.VicLine
import Mathlib.Logic.Relation

/-!
# TegraHwc — whose drawing a slot holds

What `slot_pictures_` says a slot holds is what the engine was last given for
it, and a slot shown as freshly drawn holds the frame's own group. The worker
and the frame thread both draw, and a drawing given up while the worker holds
it still reaches the engine: `Rewind` hands its slot out again at once. So all
this rests on one condition, `Alone`: where the frame thread draws a group
itself, the worker holds no drawing for the same slot that it has not yet
submitted.

A slot shown undrawn is recorded with the members shown. Between them and
those drawn stand the answers of `Decide` that nothing changed, each given in
a step of the run, of that slot's own record and of the damage told by then.

## Results

* `merge_drawn`      — over every run whose steps are `Alone`, records and
  windows are true of the engine's channel.
* `merge_overtaken`  — a run in which they are not.
-/

namespace TegraHwc

open Runs PartialRedraw

-- ---------------------------------------------------------------------------
-- What is recorded of a slot
-- ---------------------------------------------------------------------------

/-- The group planned in a step from here: queued at validate, or judged. -/
def Frame.planned : Frame → Option Merge
  | .queueing merge | .judging merge .. => some merge
  | .idle | .resolving _ | .drawing .. | .flipping _ => none

/-- In one of these steps `Decide` found nothing to redraw of a group with the members
`after`: asked of the slot's record, which told of the members `before`, and of the
damage told by the end of the step, the engine having drawn `sub` there last. -/
def FoundUnchanged (steps : List (System × System)) (slot : Nat) (sub : Submission)
    (before after : List Member) : Prop :=
  ∃ s s' merge held, (s, s') ∈ steps ∧ s.frame.planned = some merge ∧
    mergeMembers merge = after ∧ lastOn s.engine slot = some sub ∧
    s.manager.slotPictures.slots slot = some held ∧ held.snapshot.members = before ∧
    (PartialRedraw.decide_ held.snapshot merge.width merge.height (mergeMembers merge)
      s'.manager.slotPictures.history s'.manager.slotPictures.engine).kind = .kUnchanged

/-- The picture a slot is said to hold is of the group last drawn into it, or
one found unchanged from there in these steps. -/
def Recorded (steps : List (System × System)) (engine : List Submission) (slot : Nat)
    (width height : UInt32) (members : List Member) : Prop :=
  ∃ sub, lastOn engine slot = some sub ∧ sub.merge.width = width ∧ sub.merge.height = height ∧
    Relation.ReflTransGen (FoundUnchanged steps slot sub) (mergeMembers sub.merge) members

/-- Nothing is known of what a slot holds. -/
def Unknown (slots : Nat → Option Held) (slot : Nat) : Prop :=
  ∀ held, slots slot = some held → held.snapshot.valid = false

/-- A slot lost is known no more. -/
theorem lost_unknown (pictures : SlotPictures) (slot : Nat) :
    Unknown (pictures.lost slot).slots slot := by
  intro held hHeld
  unfold SlotPictures.lost at hHeld
  simp only [Function.update_self, Option.map_eq_some_iff] at hHeld
  obtain ⟨_, _, rfl⟩ := hHeld
  rfl

/-- What is known after a slot is lost was known before, of another slot. -/
theorem known_of_lost {pictures : SlotPictures} {slot k : Nat} {held : Held}
    (hHeld : (pictures.lost slot).slots k = some held) (hValid : held.snapshot.valid = true) :
    k ≠ slot ∧ pictures.slots k = some held := by
  by_cases h : k = slot
  · rw [h] at hHeld
    rw [lost_unknown pictures slot held hHeld] at hValid
    cases hValid
  · refine ⟨h, ?_⟩
    unfold SlotPictures.lost at hHeld
    simpa only [Function.update_of_ne h] using hHeld

/-- Remembering damage changes nothing of what slots hold. -/
theorem record_slots (m : Manager) (members : List Member) (damages : List (List IRect)) :
    (m.record members damages).slotPictures.slots = m.slotPictures.slots := by
  obtain ⟨history, hRecord⟩ := m.record_eq members damages
  rw [hRecord]

/-- A slot shown undrawn is held, and by its record nothing has changed. -/
theorem decide_unchanged {pictures : SlotPictures} {slot : Nat} {width height : UInt32}
    {members : List Member}
    (h : (pictures.decide_ slot width height members).kind = .kUnchanged) :
    ∃ held, pictures.slots slot = some held ∧ held.snapshot.valid = true ∧
      held.snapshot.width = width ∧ held.snapshot.height = height ∧
      (PartialRedraw.decide_ held.snapshot width height members pictures.history
        pictures.engine).kind = .kUnchanged := by
  unfold SlotPictures.decide_ at h
  split at h
  · cases h
  rename_i held hSlot
  simp only at h
  split at h
  · cases h
  have hKnown : held.snapshot.valid = true ∧ held.snapshot.width = width ∧
      held.snapshot.height = height := by
    unfold PartialRedraw.decide_ at h
    split at h
    · cases h
    · rename_i hNot
      simpa only [not_or, Bool.not_eq_false, ne_eq, not_not] using hNot
  exact ⟨held, hSlot, hKnown.1, hKnown.2.1, hKnown.2.2, h⟩

-- ---------------------------------------------------------------------------
-- The invariant
-- ---------------------------------------------------------------------------

/-- What holds of slots, engine and worker whatever the frame thread is about. -/
structure Core (steps : List (System × System)) (engine : List Submission) (worker : Worker)
    (slots : Nat → Option Held) (pending : Option PendingMerge) : Prop where
  /-- What is known of a slot is true, and the worker draws elsewhere. -/
  recorded : ∀ slot held, slots slot = some held → held.snapshot.valid = true →
    Recorded steps engine slot held.snapshot.width held.snapshot.height held.snapshot.members ∧
      Away worker slot
  /-- The slot of the pending merge was let go of when it was queued. -/
  unknown : ∀ p, pending = some p → Unknown slots p.target
  /-- A pending merge that is not drawn stands in its slot already. -/
  held : ∀ p, pending = some p → p.untouched = true →
    Recorded steps engine p.target p.key.width p.key.height p.members ∧ Away worker p.target

/-- A group is the one drawn, or is recognised as it. -/
def OwnGroup (drawn now : Merge) : Prop :=
  drawn = now ∨
    (PictureMemory.remember drawn.width drawn.height (mergeMembers drawn)).judge now.width
      now.height (mergeMembers now) = .kSame

/-- The last drawing for a slot is of this group. -/
def Holds (engine : List Submission) (slot : Nat) (merge : Merge) : Prop :=
  ∃ sub, lastOn engine slot = some sub ∧ OwnGroup sub.merge merge

/-- The pending merge recognises this group. -/
def Recognises (pending : PendingMerge) (merge : Merge) : Prop :=
  pending.key.judge merge.width merge.height (mergeMembers merge) = .kSame

/-- The drawing collected for a pending merge is the last for its slot. -/
def Collected (engine : List Submission) (worker : Worker) (pending : PendingMerge)
    (resolved : Option VicDrawn) : Prop :=
  Away worker pending.target ∧
    ∀ result, resolved = some result → result.fence.isSome = true →
      ∃ job, JobOf pending job ∧ Reached engine job

namespace System

/-- What holds where the frame thread stands. -/
def FrameOk (s : System) : Prop :=
  match s.frame with
  | .idle | .queueing _ => True
  | .resolving merge => ∃ p, s.manager.pendingMerge = some p ∧ Recognises p merge
  | .judging merge _ queued dropped resolved =>
      queued = true → ∃ p, s.manager.pendingMerge = some p ∧ Recognises p merge ∧
        (p.untouched = false → dropped = false → Collected s.engine s.worker p resolved)
  | .drawing target d => d.job.target = target.slot ∧ d.job.merge = target.merge ∧
      target.members = mergeMembers target.merge ∧
      Unknown s.manager.slotPictures.slots target.slot ∧
      (d = .start d.job ∨ Away s.worker target.slot)
  | .flipping put => ∀ slot, put.fresh = true → put.drawnSlot = some slot →
      Holds s.engine slot put.merge ∧ Away s.worker slot

/-- The invariant, the run's steps being among these. -/
structure Tracked (steps : List (System × System)) (s : System) : Prop where
  core : Core steps s.engine s.worker s.manager.slotPictures.slots s.manager.pendingMerge
  frame : s.FrameOk

/-- The condition: where the frame thread draws a group itself, the worker
holds no drawing for the same slot that it has not yet submitted. -/
def Alone (s : System) : Action → Prop
  | .compose _ => ∀ target d, s.frame = .drawing target d → Away s.worker target.slot
  | _ => True

variable {c : Config} {steps : List (System × System)} {s s' : System}

-- ---------------------------------------------------------------------------
-- Steps of the worker
-- ---------------------------------------------------------------------------

/-- A drawing awaited is the pending merge's, and not there yet. -/
theorem pending_of_awaited {p : PendingMerge} (h : s.awaited = some p) :
    s.manager.pendingMerge = some p ∧ p.untouched = false := by
  unfold awaited at h
  split at h
  · cases h
  · simpa [Option.filter_eq_some_iff] using h

/-- What the worker does elsewhere leaves everything about a slot as it was. -/
def Quiet (s s' : System) (slot : Nat) : Prop :=
  Away s.worker slot → Away s'.worker slot ∧ lastOn s'.engine slot = lastOn s.engine slot

/-- A step of the worker that is quiet about every slot but the one of the drawing
still to be collected keeps what holds of the slots. -/
theorem core_of_quiet (hTracked : Tracked steps s) (hManager : s'.manager = s.manager)
    (hQuiet : ∀ slot, (∀ p, s.awaited = some p → p.target ≠ slot) → Quiet s s' slot) :
    Core steps s'.engine s'.worker s'.manager.slotPictures.slots s'.manager.pendingMerge := by
  obtain ⟨hCore, -⟩ := hTracked
  -- records of other slots stand as they were
  have hRecorded : ∀ slot width height members, (∀ p, s.awaited = some p → p.target ≠ slot) →
      Recorded steps s.engine slot width height members → Away s.worker slot →
      Recorded steps s'.engine slot width height members ∧ Away s'.worker slot := by
    intro slot width height members hOther hRec hAway
    obtain ⟨hAway', hLast⟩ := hQuiet slot hOther hAway
    unfold Recorded
    rw [hLast]
    exact ⟨hRec, hAway'⟩
  rw [hManager]
  refine ⟨?_, hCore.unknown, ?_⟩
  · intro slot held hHeld hValid
    obtain ⟨hRec, hAway⟩ := hCore.recorded slot held hHeld hValid
    refine hRecorded _ _ _ _ (fun p hp hTarget => ?_) hRec hAway
    have hUnknown := hCore.unknown p (pending_of_awaited hp).1 held (hTarget ▸ hHeld)
    rw [hUnknown] at hValid
    cases hValid
  · intro p hp hUntouched
    obtain ⟨hRec, hAway⟩ := hCore.held p hp hUntouched
    refine hRecorded _ _ _ _ (fun q hq _ => ?_) hRec hAway
    obtain ⟨hSame, hTouched⟩ := pending_of_awaited hq
    obtain rfl := Option.some.inj (hSame.symm.trans hp)
    rw [hUntouched] at hTouched
    cases hTouched

/-- It keeps the invariant. -/
theorem tracked_of_quiet (hLined : Lined s) (hTracked : Tracked steps s)
    (hManager : s'.manager = s.manager) (hFrame : s'.frame = s.frame)
    (hQuiet : ∀ slot, (∀ p, s.awaited = some p → p.target ≠ slot) → Quiet s s' slot) :
    Tracked steps s' := by
  refine ⟨core_of_quiet hTracked hManager hQuiet, ?_⟩
  have hOk := hTracked.frame
  have hNoPending : s.manager.pendingMerge = none → ∀ slot, Quiet s s' slot := by
    intro hNone slot
    refine hQuiet slot fun p hp => ?_
    rw [(pending_of_awaited hp).1] at hNone
    cases hNone
  have hStanding := hLined.standing
  unfold Standing at hStanding
  unfold FrameOk at hOk ⊢
  rw [hFrame, hManager]
  cases hAt : s.frame with
  | idle => trivial
  | queueing merge => trivial
  | resolving merge =>
    rw [hAt] at hOk
    exact hOk
  | judging merge same queued dropped resolved =>
    rw [hAt] at hOk
    intro hQueued
    obtain ⟨p, hp, hKey, hCollected⟩ := hOk hQueued
    have hNone : s.awaited = none := by
      unfold awaited
      rw [hAt, hQueued]
    refine ⟨p, hp, hKey, fun hTouched hDropped => ?_⟩
    obtain ⟨hAway, hReached⟩ := hCollected hTouched hDropped
    obtain ⟨hAway', hLast⟩ := hQuiet p.target (fun q hq => by rw [hNone] at hq; cases hq) hAway
    refine ⟨hAway', fun result hResult hFence => ?_⟩
    obtain ⟨job, hOf, hLastJob⟩ := hReached result hResult hFence
    refine ⟨job, hOf, ?_⟩
    unfold Reached
    rw [hOf.target, hLast, ← hOf.target]
    exact hLastJob
  | drawing target d =>
    rw [hAt] at hOk
    obtain ⟨hTarget, hMerge, hMembers, hUnknown, hAway⟩ := hOk
    exact ⟨hTarget, hMerge, hMembers, hUnknown,
      hAway.imp_right fun h => (hNoPending (by rw [hAt] at hStanding; exact hStanding) _ h).1⟩
  | flipping put =>
    rw [hAt] at hOk
    intro slot hFresh hSlot
    obtain ⟨hHolds, hAway⟩ := hOk slot hFresh hSlot
    obtain ⟨hAway', hLast⟩ := hNoPending (by rw [hAt] at hStanding; exact hStanding) slot hAway
    unfold Holds
    rw [hLast]
    exact ⟨hHolds, hAway'⟩

/-- Taking the queued drawing. -/
theorem tracked_take (hLined : Lined s) (hTracked : Tracked steps s)
    (h : step c s .take = some s') : Tracked steps s' := by
  obtain ⟨id, job, jobs, hWorker, hTake, rfl⟩ := step_take h
  have hLine := hLined.tended.line
  rw [hWorker] at hLine
  obtain ⟨p, hAwaited, hOf, -⟩ := hLine.take hTake
  refine tracked_of_quiet hLined hTracked rfl rfl fun slot hOther hAway => ⟨?_, rfl⟩
  intro id' d hDrawing
  obtain ⟨-, rfl⟩ := Worker.drawing.inj hDrawing
  show job.target ≠ slot
  rw [hOf.target]
  exact hOther p hAwaited

/-- A `Compose` of the worker. -/
theorem tracked_workerCompose {answer : Option Nat} (hLined : Lined s)
    (hTracked : Tracked steps s) (h : step c s (.workerCompose answer) = some s') :
    Tracked steps s' := by
  obtain ⟨id, d, hWorker, hOutcome⟩ := step_workerCompose h
  have hAwayFrom : ∀ slot, Away s.worker slot → d.job.target ≠ slot := fun slot hAway =>
    hAway id d hWorker
  rcases hOutcome with ⟨drawn, -, rfl⟩ | ⟨d', hDrawing, rfl⟩
  · refine tracked_of_quiet hLined hTracked rfl rfl
      fun slot _ hAway => ⟨?_, lastOn_submit_other (hAwayFrom slot hAway) ..⟩
    intro id' d' hDrawing
    cases hDrawing
  · refine tracked_of_quiet hLined hTracked rfl rfl
      fun slot _ hAway => ⟨?_, lastOn_submit_other (hAwayFrom slot hAway) ..⟩
    intro id' d'' hSame
    obtain ⟨-, rfl⟩ := Worker.drawing.inj hSame
    rw [compose_inr hDrawing]
    exact hAwayFrom slot hAway

/-- The worker's `Done`. -/
theorem tracked_workerDone (hLined : Lined s) (hTracked : Tracked steps s)
    (h : step c s .workerDone = some s') : Tracked steps s' := by
  obtain ⟨id, result, -, rfl⟩ := step_workerDone h
  refine tracked_of_quiet hLined hTracked rfl rfl fun slot _ _ => ⟨?_, rfl⟩
  intro id' d hDrawing
  cases hDrawing

-- ---------------------------------------------------------------------------
-- Steps of the frame thread
-- ---------------------------------------------------------------------------

section Parts

variable {engine : List Submission} {worker : Worker} {pictures : SlotPictures}
  {pending : Option PendingMerge}

/-- A pending merge drawn, or given up, is pending no more. -/
theorem core_clear {slots : Nat → Option Held} (hCore : Core steps engine worker slots pending) :
    Core steps engine worker slots none :=
  { hCore with
    unknown := nofun
    held := nofun }

/-- A slot lost is one record less. -/
theorem core_lose (pictures : SlotPictures) (slot : Nat)
    (hCore : Core steps engine worker pictures.slots pending) :
    Core steps engine worker (pictures.lost slot).slots none where
  recorded := by
    intro k held hHeld hValid
    exact hCore.recorded k held (known_of_lost hHeld hValid).2 hValid
  unknown := nofun
  held := nofun

/-- `DropPendingMerge`: its slot is not known. -/
theorem core_drop {m : Manager} {jobs : VicJobs}
    (hCore : Core steps engine worker m.slotPictures.slots m.pendingMerge) :
    Core steps engine worker (m.dropPendingMerge jobs).1.slotPictures.slots none := by
  unfold Manager.dropPendingMerge
  split
  · exact core_clear hCore
  · exact core_lose _ _ hCore

/-- `Drawn`: the slot is known to hold what was last drawn into it. -/
theorem core_drawn {slot : Nat} {width height : UInt32} {members : List Member}
    (hCore : Core steps engine worker pictures.slots none)
    (hRecorded : Recorded steps engine slot width height members) (hAway : Away worker slot)
    (plan : Plan) (fence : Option Nat) :
    Core steps engine worker (pictures.drawn slot width height members plan fence).slots none where
  recorded := by
    intro k held hHeld hValid
    unfold SlotPictures.drawn at hHeld
    by_cases h : k = slot
    · subst h
      simp only [Function.update_self, Option.some.injEq] at hHeld
      rw [← hHeld]
      exact ⟨hRecorded, hAway⟩
    · simp only [Function.update_of_ne h] at hHeld
      exact hCore.recorded k held hHeld hValid
  unknown := nofun
  held := nofun

end Parts

/-- What is known after `DropPendingMerge` was known before, and the damage told is the
same. -/
theorem known_of_drop {m : Manager} {jobs : VicJobs} {k : Nat} {held : Held}
    (hHeld : (m.dropPendingMerge jobs).1.slotPictures.slots k = some held)
    (hValid : held.snapshot.valid = true) : m.slotPictures.slots k = some held := by
  unfold Manager.dropPendingMerge at hHeld
  split at hHeld
  · exact hHeld
  · exact (known_of_lost hHeld hValid).2

/-- With nothing pending, nothing more need be known than the slots' records. -/
theorem Tracked.core_none (hTracked : Tracked steps s) (hNone : s.manager.pendingMerge = none) :
    Core steps s.engine s.worker s.manager.slotPictures.slots none := by
  have hCore := hTracked.core
  rwa [hNone] at hCore

/-- A frame given up. -/
theorem tracked_refuse {m : Manager}
    (hCore : Core steps s.engine s.worker m.slotPictures.slots m.pendingMerge) :
    Tracked steps (s.refuse m) :=
  ⟨hCore, trivial⟩

/-- `DropPendingMerge` leaves nothing pending. -/
theorem drop_pending (m : Manager) (jobs : VicJobs) :
    (m.dropPendingMerge jobs).1.pendingMerge = none := by
  unfold Manager.dropPendingMerge
  split
  · assumption
  · rfl

/-- The remembered group shown again. -/
theorem tracked_showAgain {m : Manager}
    (hCore : Core steps s.engine s.worker m.slotPictures.slots m.pendingMerge)
    (merge : Merge) (shown : Shown) : Tracked steps (s.showAgain m merge shown) where
  core := by
    show Core steps s.engine s.worker _ (m.dropPendingMerge s.jobs).1.pendingMerge
    rw [drop_pending]
    exact core_drop hCore
  frame := nofun

/-- A group drawn, or held in its slot, put on its window. -/
theorem tracked_finish {target : Target} {untouched : Bool} {heldFence : Option Nat}
    {drawn : VicDrawn}
    (hCore : Core steps s.engine s.worker s.manager.slotPictures.slots s.manager.pendingMerge)
    (hHeld : (if untouched then heldFence else drawn.fence).isSome = true →
      Recorded steps s.engine target.slot target.merge.width target.merge.height target.members ∧
        Away s.worker target.slot ∧
        (untouched = false → Holds s.engine target.slot target.merge)) :
    Tracked steps (s.finish c target untouched heldFence drawn) := by
  have hClear := core_clear hCore
  unfold finish
  simp only
  split
  · exact tracked_refuse hClear
  · rename_i fence hMerged
    obtain ⟨hRecorded, hAway, hHolds⟩ := hHeld (by rw [hMerged]; rfl)
    split
    · exact tracked_refuse (core_drawn hClear hRecorded hAway _ _)
    · refine ⟨core_drawn hClear hRecorded hAway _ _, fun slot hFresh hSlot => ?_⟩
      obtain rfl := Option.some.inj hSlot
      exact ⟨hHolds (by simpa using hFresh), hAway⟩

/-- A pending merge whose drawing was collected, put on its window. -/
theorem tracked_showQueued {m : Manager} {p : PendingMerge} {merge : Merge}
    {resolved : Option VicDrawn}
    (hCore : Core steps s.engine s.worker m.slotPictures.slots (some p))
    (hPending : m.pendingMerge = some p) (hKey : Recognises p merge)
    (hCollected : p.untouched = false → Collected s.engine s.worker p resolved) :
    Tracked steps (s.showQueued c m p merge resolved) := by
  obtain ⟨-, hWidth, hHeight, -⟩ := PictureMemory.judge_kSame_iff.mp hKey
  unfold showQueued
  split
  · exact tracked_refuse (core_clear hCore)
  · refine tracked_finish (hPending ▸ hCore) fun hMerged => ?_
    cases hUntouched : p.untouched with
    | true =>
      obtain ⟨hRecorded, hAway⟩ := hCore.held p rfl hUntouched
      rw [← hWidth, ← hHeight] at hRecorded
      exact ⟨hRecorded, hAway, nofun⟩
    | false =>
      obtain ⟨hAway, hReached⟩ := hCollected hUntouched
      rw [hUntouched] at hMerged
      obtain ⟨result, hResolved⟩ : ∃ result, resolved = some result := by
        cases resolved with
        | none => cases hMerged
        | some result => exact ⟨result, rfl⟩
      rw [hResolved] at hMerged
      obtain ⟨job, ⟨hTarget, hMembers, hJobKey⟩, sub, hLast, hSub⟩ :=
        hReached result hResolved hMerged
      rw [hTarget] at hLast
      refine ⟨⟨sub, hLast, ?_, ?_, ?_⟩, hAway, fun _ => ⟨sub, hLast, .inr ?_⟩⟩
      · rw [hSub, hWidth, hJobKey]
        rfl
      · rw [hSub, hHeight, hJobKey]
        rfl
      · rw [hSub, hMembers]
      · rw [hSub, ← hJobKey]
        exact hKey

/-- Taking a slot's turn changes nothing of what slots hold. -/
theorem nextSlot_pictures {m m' : Manager} {answer : Option (Nat × Option Nat)}
    (h : m.nextSlot = (answer, m')) : m'.slotPictures = m.slotPictures := by
  obtain ⟨-, rfl⟩ | ⟨-, -, rfl⟩ := Manager.nextSlot_cases h
  · rfl
  · rfl

/-- **A slot to be shown undrawn** holds the group's picture, where the answer is given
in a step told of, of what the slots were known to hold before it and the damage told by
its end. -/
theorem recorded_of_unchanged (pictures : SlotPictures) {merge : Merge} {slot : Nat}
    (hCore : Core steps s.engine s.worker pictures.slots none) (hTold : (s, s') ∈ steps)
    (hPlanned : s.frame.planned = some merge)
    (hKnown : ∀ held, pictures.slots slot = some held → held.snapshot.valid = true →
      s.manager.slotPictures.slots slot = some held)
    (hHistory : s'.manager.slotPictures.history = pictures.history)
    (hEngine : s'.manager.slotPictures.engine = pictures.engine)
    (h : (pictures.decide_ slot merge.width merge.height (mergeMembers merge)).kind
      = .kUnchanged) :
    Recorded steps s.engine slot merge.width merge.height (mergeMembers merge) ∧
      Away s.worker slot := by
  obtain ⟨held, hSlot, hValid, hWidth, hHeight, hUnchanged⟩ := decide_unchanged h
  obtain ⟨⟨sub, hLast, hSubWidth, hSubHeight, hStands⟩, hAway⟩ :=
    hCore.recorded slot held hSlot hValid
  have hFound : FoundUnchanged steps slot sub held.snapshot.members (mergeMembers merge) := by
    refine ⟨s, s', merge, held, hTold, hPlanned, rfl, hLast, hKnown held hSlot hValid, rfl, ?_⟩
    rw [hHistory, hEngine]
    exact hUnchanged
  exact ⟨⟨sub, hLast, hSubWidth.trans hWidth, hSubHeight.trans hHeight, hStands.tail hFound⟩,
    hAway⟩

/-- A group put on its window changes nothing of the damage told. -/
theorem finish_told (c : Config) (s : System) (target : Target) (untouched : Bool)
    (heldFence : Option Nat) (drawn : VicDrawn) :
    (s.finish c target untouched heldFence drawn).manager.slotPictures.history
        = s.manager.slotPictures.history ∧
      (s.finish c target untouched heldFence drawn).manager.slotPictures.engine
        = s.manager.slotPictures.engine := by
  unfold finish
  simp only
  split
  · exact ⟨rfl, rfl⟩
  split
  · exact ⟨rfl, rfl⟩
  · exact ⟨rfl, rfl⟩

/-- A group drawn by the frame thread: a slot is taken, and its drawing begun
or found done. -/
theorem tracked_drawHere {t : System} {m : Manager} {merge : Merge} {forced : Int}
    (hCore : Core steps t.engine t.worker m.slotPictures.slots none)
    (hNone : m.pendingMerge = none) (hTold : (s, t.drawHere c m merge forced) ∈ steps)
    (hEngine : s.engine = t.engine) (hWorker : s.worker = t.worker)
    (hPlanned : s.frame.planned = some merge)
    (hKnown : ∀ slot held, m.slotPictures.slots slot = some held → held.snapshot.valid = true →
      s.manager.slotPictures.slots slot = some held) :
    Tracked steps (t.drawHere c m merge forced) := by
  unfold drawHere at hTold ⊢
  split at hTold
  · rename_i m' hNext
    refine tracked_refuse ?_
    rw [nextSlot_pictures hNext, nextSlot_pending hNext, hNone]
    exact hCore
  rename_i slot ready m' hNext
  rw [← nextSlot_pictures hNext] at hCore hKnown
  split at hTold
  · exact tracked_refuse hCore
  simp only at hTold ⊢
  obtain ⟨history, hRecord⟩ := m'.record_eq (mergeMembers merge) merge.damages
  rw [hRecord] at hTold ⊢
  have hStillNone : m'.pendingMerge = none := (nextSlot_pending hNext).trans hNone
  have hLose : Core steps t.engine t.worker
      ({ m'.slotPictures with history := history }.lost slot).slots none :=
    core_lose { m'.slotPictures with history := history } slot hCore
  split at hTold
  · rename_i hPlan
    rw [if_pos hPlan]
    refine tracked_finish (s := { t with manager := _ }) (hStillNone ▸ hLose) fun _ => ?_
    obtain ⟨hHistory, hParts⟩ := finish_told c _ _ _ _ _
    rw [← hEngine, ← hWorker] at hCore ⊢
    obtain ⟨hRecorded, hAway⟩ := recorded_of_unchanged
      { m'.slotPictures with history := history } hCore hTold hPlanned
      (hKnown slot) hHistory hParts (Manager.planFor_unchanged (by decide) hPlan)
    exact ⟨hRecorded, hAway, nofun⟩
  · rename_i hPlan
    rw [if_neg hPlan]
    refine ⟨?_, rfl, rfl, rfl, lost_unknown _ slot, .inl rfl⟩
    exact hStillNone ▸ hLose

/-- From the question of the lag to the next access to the engine. -/
theorem tracked_judge {isPending : Nat → Bool} {forced : Int} (hLined : Lined s)
    (hTracked : Tracked steps s) (hTold : (s, s') ∈ steps)
    (h : step c s (.judge isPending forced) = some s') : Tracked steps s' := by
  obtain ⟨merge, same, queued, dropped, resolved, hAt, rfl⟩ := step_judge h
  obtain ⟨hCore, hOk⟩ := hTracked
  have hStanding := hLined.standing
  unfold FrameOk at hOk
  unfold Standing at hStanding
  rw [hAt] at hOk hStanding
  unfold judge at hTold ⊢
  simp only at hTold ⊢
  cases dropped with
  | true =>
    obtain ⟨p, hp, -⟩ := hStanding.1 (hStanding.2 rfl)
    simp only [if_true] at hTold ⊢
    have hGone : ∀ (m : Manager) (shown : Shown), m.slotPictures = s.manager.slotPictures →
        m.pendingMerge = none → Tracked steps (s.showAgain m merge shown) := by
      intro m shown hPictures hNone
      refine tracked_showAgain ?_ merge shown
      rw [hPictures, hNone]
      exact core_clear hCore
    split
    · exact hGone _ _ rfl rfl
    split
    · exact hGone _ _ rfl rfl
    · exact hGone _ _ rfl rfl
  | false =>
    simp only [Bool.false_eq_true, if_false] at hTold ⊢
    generalize (!same && s.manager.lags c merge isPending) = lag at hTold ⊢
    have hAgain : ∀ shown : Shown,
        Tracked steps (s.showAgain { s.manager with laggedLast := lag } merge shown) :=
      tracked_showAgain (m := { s.manager with laggedLast := lag }) hCore merge
    split
    · exact hAgain _
    split
    · exact hAgain _
    cases queued with
    | true =>
      obtain ⟨p, hp, hKey, hCollected⟩ := hOk rfl
      simp only [if_true]
      split
      · exact tracked_refuse hCore
      · rename_i q hq
        obtain rfl := Option.some.inj (hp.symm.trans hq)
        exact tracked_showQueued (hp ▸ hCore) hp hKey fun hTouched => hCollected hTouched rfl
    | false =>
      rename_i hSame hLag
      rw [if_neg hSame, if_neg hLag] at hTold
      simp only [Bool.false_eq_true, if_false] at hTold ⊢
      refine tracked_drawHere (s := s) (core_drop (m := { s.manager with laggedLast := lag }) hCore)
        (drop_pending _ _) hTold rfl rfl (by rw [hAt]; rfl) fun slot held hHeld hValid => ?_
      exact known_of_drop (m := { s.manager with laggedLast := lag }) hHeld hValid

/-- Collecting the drawing queued at validate. -/
theorem tracked_resolve (hLined : Lined s) (hTracked : Tracked steps s)
    (h : step c s .resolve = some s') : Tracked steps s' := by
  obtain ⟨merge, p, outcome, jobs, hAt, hp, hResolve, rfl⟩ := step_resolve h
  obtain ⟨hCore, hOk⟩ := hTracked
  have hStanding := hLined.standing
  unfold FrameOk at hOk
  unfold Standing at hStanding
  rw [hAt] at hOk hStanding
  obtain ⟨q, hq, hKey⟩ := hOk
  obtain rfl := Option.some.inj (hp.symm.trans hq)
  obtain ⟨q, hq, hTouched⟩ := hStanding
  obtain rfl := Option.some.inj (hp.symm.trans hq)
  have hAwaited : s.awaited = some p := by
    unfold awaited
    rw [hAt]
    simp [hp, Option.filter, hTouched]
  have hLine := hLined.tended.line
  rw [hAwaited] at hLine
  obtain ⟨-, -, hOutcome⟩ := hLine.resolve hLined.tended.running hResolve
  refine ⟨hCore, fun _ => ⟨p, hp, hKey, fun _ hDropped => ?_⟩⟩
  have hNot : outcome.state ≠ .kDropped := of_decide_eq_false hDropped
  obtain ⟨hIdle, hReached⟩ := hOutcome.resolve_left hNot
  refine ⟨fun id d hDrawing => ?_, fun result hResult hFence => ?_⟩
  · rw [show s.worker = .idle from hIdle] at hDrawing
    cases hDrawing
  · rw [if_neg (by simpa using hNot)] at hResult
    obtain rfl := Option.some.inj hResult
    cases hAnswer : outcome.result with
    | none =>
      rw [hAnswer] at hFence
      cases hFence
    | some answer =>
      rw [hAnswer] at hFence
      exact hReached answer hAnswer hFence

/-- A group queued at validate. -/
theorem tracked_queueMerge {forced : Int} (hLined : Lined s) (hTracked : Tracked steps s)
    (hTold : (s, s') ∈ steps) (h : step c s (.queueMerge forced) = some s') :
    Tracked steps s' := by
  obtain ⟨merge, hAt, rfl⟩ := step_queueMerge h
  have hNone : s.manager.pendingMerge = none := by
    have hStanding := hLined.standing
    unfold Standing at hStanding
    rw [hAt] at hStanding
    exact hStanding
  have hCore := hTracked.core_none hNone
  cases hQueue : s.manager.queueMerge c s.jobs merge forced with
  | mk m jobs =>
  rw [hQueue] at hTold
  show Tracked steps { s with manager := m, jobs := jobs, frame := .idle }
  obtain ⟨rfl, rfl⟩ | ⟨slot, ready, history, p, -, rfl, hTarget, hMembers, hKey, hHow⟩ :=
    Manager.queueMerge_cases hQueue
  · exact ⟨hTracked.core, trivial⟩
  have hLose := core_lose { s.manager.slotPictures with history := history } slot hCore
  refine ⟨⟨hLose.recorded, fun q hq => ?_, fun q hq hUntouched => ?_⟩, trivial⟩
  · obtain rfl := Option.some.inj hq
    rw [hTarget]
    exact lost_unknown _ slot
  · obtain rfl := Option.some.inj hq
    obtain ⟨-, -, -, hPlan⟩ | ⟨hTouched, -⟩ := hHow
    · rw [hTarget, hMembers, hKey]
      exact recorded_of_unchanged (s := s)
        { s.manager.slotPictures with history := history } hCore hTold
        (by rw [hAt]; rfl) (fun held hHeld _ => hHeld) rfl rfl hPlan
    · rw [hUntouched] at hTouched
      cases hTouched

/-- A frame starts: what it is to be judged by is looked up, or it ends at
once. -/
theorem tracked_execute {request : Request} (hTracked : Tracked steps s)
    (h : step c s (.execute request) = some s') : Tracked steps s' := by
  obtain ⟨hAt, rfl⟩ := step_execute h
  obtain ⟨hCore, -⟩ := hTracked
  unfold execute
  simp only
  split
  · exact tracked_refuse hCore
  split
  · refine ⟨hCore, ?_⟩
    unfold FrameOk
    simp only [hAt]
  split
  · refine ⟨?_, nofun⟩
    show Core steps s.engine s.worker _ (s.manager.dropPendingMerge s.jobs).1.pendingMerge
    rw [drop_pending]
    exact core_drop hCore
  split
  · refine ⟨hCore, ?_⟩
    unfold FrameOk
    simp only [hAt]
  split
  · exact ⟨hCore, nofun⟩
  rename_i p hp
  split
  · rename_i hQueued
    simp only [Bool.and_eq_true, decide_eq_true_eq] at hQueued
    exact ⟨hCore, p, hp, hQueued.1.2⟩
  · rename_i hQueued
    refine ⟨hCore, fun hIs => ?_⟩
    -- queued, and found to stand in its slot already
    have hUntouched : p.untouched = true := by
      rw [hIs] at hQueued
      simpa using hQueued
    simp only [Bool.and_eq_true, decide_eq_true_eq] at hIs
    refine ⟨p, hp, hIs.2, fun hTouched => ?_⟩
    rw [hUntouched] at hTouched
    cases hTouched

/-- A `Compose` of the frame thread, the worker being elsewhere. -/
theorem tracked_compose {answer : Option Nat} (hLined : Lined s) (hTracked : Tracked steps s)
    (hAlone : Alone s (.compose answer)) (h : step c s (.compose answer) = some s') :
    Tracked steps s' := by
  obtain ⟨target, d, hAt, hOutcome⟩ := step_compose h
  have hAway : Away s.worker target.slot := hAlone target d hAt
  have hOk := hTracked.frame
  have hNone := hLined.standing
  unfold FrameOk at hOk
  unfold Standing at hNone
  rw [hAt] at hOk hNone
  obtain ⟨hTarget, hMerge, hMembers, hUnknown, -⟩ := hOk
  have hBefore := hTracked.core_none hNone
  -- the drawing touches a slot nothing is known of
  have hCore : Core steps (d.submit answer s.engine) s.worker s.manager.slotPictures.slots
      s.manager.pendingMerge := by
    rw [show s.manager.pendingMerge = none from hNone]
    refine ⟨fun slot held hHeld hValid => ?_, nofun, nofun⟩
    obtain ⟨hRecorded, hElsewhere⟩ := hBefore.recorded slot held hHeld hValid
    have hOther : d.job.target ≠ slot := by
      rintro rfl
      rw [hUnknown held (hTarget ▸ hHeld)] at hValid
      cases hValid
    unfold Recorded
    rw [lastOn_submit_other hOther]
    exact ⟨hRecorded, hElsewhere⟩
  rcases hOutcome with ⟨drawn, hDrawn, rfl⟩ | ⟨d', hDrawing, rfl⟩
  · refine tracked_finish (s := { s with engine := d.submit answer s.engine }) hCore
      fun hFence => ?_
    have hSome : drawn.fence.isSome = true := hFence
    rw [compose_inl hDrawn] at hSome
    obtain ⟨fence, rfl⟩ := Option.isSome_iff_exists.mp hSome
    obtain ⟨sub, hLast, hSub⟩ := lastOn_submit_self d fence s.engine
    rw [hTarget] at hLast
    rw [hMerge] at hSub
    refine ⟨⟨sub, hLast, by rw [hSub], by rw [hSub], ?_⟩, hAway, fun _ => ⟨sub, hLast, .inl hSub⟩⟩
    rw [hSub, hMembers]
  · have hJob := compose_inr hDrawing
    refine ⟨hCore, ?_, ?_, hMembers, hUnknown, .inr hAway⟩
    · rw [hJob]
      exact hTarget
    · rw [hJob]
      exact hMerge

/-- The flip, accepted or refused. -/
theorem tracked_flip {answer : Option (Option Nat)} (hLined : Lined s)
    (hTracked : Tracked steps s) (h : step c s (.flip answer) = some s') : Tracked steps s' := by
  obtain ⟨put, hAt, rfl⟩ := step_flip h
  have hNone := hLined.standing
  unfold Standing at hNone
  rw [hAt] at hNone
  have hCore := hTracked.core
  unfold flipped
  split
  · exact ⟨hCore, trivial⟩
  · rename_i slot _ _
    refine ⟨?_, trivial⟩
    show Core steps s.engine s.worker _ s.manager.pendingMerge
    rw [show s.manager.pendingMerge = none from hNone]
    exact core_lose _ _ hCore
  · exact ⟨hCore, trivial⟩
  · exact ⟨hCore, trivial⟩
  · exact ⟨hCore, trivial⟩

-- ---------------------------------------------------------------------------
-- Over every run
-- ---------------------------------------------------------------------------

theorem tracked_init (slots : Nat) : Tracked steps (init slots) where
  core := ⟨nofun, nofun, nofun⟩
  frame := trivial

/-- Every step keeps the invariant, a `Compose` of the frame thread where it is
alone. -/
theorem tracked_step {a : Action} (hLined : Lined s) (hTracked : Tracked steps s)
    (hAlone : Alone s a) (hTold : (s, s') ∈ steps) (h : step c s a = some s') :
    Tracked steps s' := by
  cases a with
  | validate merge =>
    obtain ⟨-, rfl⟩ := step_validate h
    refine ⟨?_, trivial⟩
    show Core steps s.engine s.worker _ (s.manager.dropPendingMerge s.jobs).1.pendingMerge
    rw [drop_pending]
    exact core_drop hTracked.core
  | queueMerge forced => exact tracked_queueMerge hLined hTracked hTold h
  | noteFrameUnjudged =>
    obtain ⟨hAt, rfl⟩ := step_noteFrameUnjudged h
    refine ⟨hTracked.core, ?_⟩
    unfold FrameOk
    simp only [hAt]
  | execute request => exact tracked_execute hTracked h
  | resolve => exact tracked_resolve hLined hTracked h
  | judge isPending forced => exact tracked_judge hLined hTracked hTold h
  | compose answer => exact tracked_compose hLined hTracked hAlone h
  | flip answer => exact tracked_flip hLined hTracked h
  | take => exact tracked_take hLined hTracked h
  | workerCompose answer => exact tracked_workerCompose hLined hTracked h
  | workerDone => exact tracked_workerDone hLined hTracked h

/-- Windows and records are true of what reached the engine, in a run of these steps. -/
structure Faithful (steps : List (System × System)) (s : System) : Prop where
  /-- A slot put on the window as freshly drawn holds the frame's own group. -/
  shown : ∀ put slot, s.frame = .flipping put → put.fresh = true → put.drawnSlot = some slot →
    Holds s.engine slot put.merge
  /-- What is recorded of a slot is the group last drawn into it, or one found
  unchanged from there. -/
  recorded : ∀ slot held, s.manager.slotPictures.slots slot = some held →
    held.snapshot.valid = true →
    Recorded steps s.engine slot held.snapshot.width held.snapshot.height held.snapshot.members

/-- **Whose drawing a slot holds.** In every interleaving of the worker and the
frame thread in which the frame thread draws only alone, the slot put on the
window holds the frame's own group, and every record is true. -/
theorem merge_drawn {c : Config} {slots : Nat} {actions : List Action} {s : System}
    (hAlone : (machine c).Meets Alone (init slots) actions)
    (hRun : (machine c).run (init slots) actions = some s) :
    Faithful ((machine c).steps (init slots) actions) s := by
  have hTold := @Machine.meets_steps _ _ _ (machine c) ((machine c).steps (init slots) actions)
    (init slots) actions fun _ h => h
  have hTracked := (Machine.run_of_meets (m := machine c)
    (I := fun s => Lined s ∧ Tracked ((machine c).steps (init slots) actions) s)
    (fun _ _ _ ⟨hLined, hTracked⟩ ⟨hC, hIn⟩ hStep =>
      ⟨lined_step hLined hStep, tracked_step hLined hTracked hC (hIn _ hStep) hStep⟩)
    ⟨lined_init slots, tracked_init slots⟩ (hAlone.and hTold) hRun).2
  refine ⟨fun put slot hAt hFresh hSlot => ?_, fun slot held hHeld hValid => ?_⟩
  · have hOk := hTracked.frame
    unfold FrameOk at hOk
    rw [hAt] at hOk
    exact (hOk slot hFresh hSlot).1
  · exact (hTracked.core.recorded slot held hHeld hValid).1

/-- The first frame's drawing is queued at validate and taken by the worker; the
client's next frame comes before the present. -/
def nextFrameAtPresent : List Action :=
  [.validate (oneLayer 1), .queueMerge (-1), .take, .execute { merge := oneLayer 2 },
    .judge (fun _ => false) (-1), .compose (some 7)]

/-- The same with the worker done by then. -/
def workerFirst : List Action :=
  [.validate (oneLayer 1), .queueMerge (-1), .take, .workerCompose (some 6), .workerDone,
    .execute { merge := oneLayer 2 }, .judge (fun _ => false) (-1), .compose (some 7)]

/-- Where the worker is done first, the slot shown holds the frame shown. -/
theorem merge_drawn_worker_first :
    ∃ s, (machine {}).run (init 3) workerFirst = some s ∧
      Faithful ((machine {}).steps (init 3) workerFirst) s := by
  refine ⟨_, rfl, @merge_drawn {} 3 workerFirst _ ?_ rfl⟩
  refine ⟨trivial, trivial, trivial, trivial, trivial, trivial, trivial, ?_, trivial⟩
  intro target d _ id held hDrawing
  cases hDrawing

/-- **A drawing given up overtakes.** The frame thread gives the worker's
drawing up, takes its slot again and draws the newer frame there; then the
worker submits the older one. -/
theorem merge_overtaken :
    ¬∀ (actions : List Action) (s : System),
      (machine {}).run (init 3) actions = some s →
        Faithful ((machine {}).steps (init 3) actions) s := by
  intro hAll
  have hFaithful := hAll (nextFrameAtPresent ++ [.workerCompose (some 8)]) _ rfl
  obtain ⟨sub, hLast, hOwn⟩ := hFaithful.shown _ 1 rfl rfl rfl
  obtain rfl : (⟨1, oneLayer 1, none⟩ : Submission) = sub := Option.some.inj hLast
  rcases hOwn with hSame | hKey
  · exact absurd hSame (by decide)
  · exact absurd hKey (by decide)

end System

end TegraHwc
