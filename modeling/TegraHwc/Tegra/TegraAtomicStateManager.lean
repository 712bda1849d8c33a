import TegraHwc.Compositor.JobQueue
import TegraHwc.Compositor.PartialRedraw
import TegraHwc.Tegra.ScratchPool

/-!
# TegraHwc — the merge, from validate to flip

`tegra/TegraAtomicStateManager.cpp`: a group of layers is drawn by the merge
engine into a slot of the scratch pool, and the slot shown in one window. The
drawing is queued at validate for the `hwc-vic` worker and collected by
`Execute`; a group the window shows already is shown again undrawn, one whose
client is late is shown a frame behind, and anything else is drawn on the spot.

Two threads share the job queue and the engine, and nothing else. A step of
`machine` is at most one access to either: a critical section of the queue, or
one `Compose` of the engine, with what its thread does around it on its own.
So the runs of the machine are the interleavings of the two threads. What the
kernel and the engine answer, which fences are pending when the frame asks, and
the property that forces an engine code come with the actions.

Left out is what nothing here reads: the governor, the counters, the cursor,
the picture captures and the frame's windows other than the group's.
-/

namespace TegraHwc

open Runs PartialRedraw

-- ---------------------------------------------------------------------------
-- A group
-- ---------------------------------------------------------------------------

/-- `VicSession::Layer`, of which the path reads this much. -/
structure VicLayer where
  source : FRect
  display : IRect
  alpha : Rat := 1
  premultiplied : Bool := true
  acquireFence : Option Nat := none
  deriving DecidableEq, Repr

/-- `TegraAtomicRequest::Merge`; the lists beside `layers` are in step with it. -/
structure Merge where
  layers : List VicLayer := []
  sourceIds : List Nat := []
  generations : List Nat := []
  damages : List (List IRect) := []
  serials : List Nat := []
  transforms : List Nat := []
  originX : Int := 0
  originY : Int := 0
  width : UInt32 := 0
  height : UInt32 := 0
  depth : Nat := 0
  window : Int := 0
  deriving DecidableEq, Repr

/-- `MergeMembers`. -/
def mergeMembers (merge : Merge) : List Member :=
  merge.layers.mapIdx fun i l =>
    { source := merge.sourceIds.getD i 0
      generation := merge.generations.getD i 0
      serial := merge.serials.getD i 0
      src := l.source
      dst := l.display
      alpha := l.alpha
      premultiplied := l.premultiplied
      transform := merge.transforms.getD i 0 }

/-- `UniformTurn`: the group's one transform, or none. -/
def uniformTurn : List Nat → Option Nat
  | [] => some 0
  | first :: rest => if rest.all (· == first) then some first else none

/-- `VicTransformFor`. -/
def vicTransformFor (bits : Nat) : Nat := [0, 1, 2, 3, 6, 7, 4, 5].getD (bits % 8) 0

/-- The engine's code for a turn, unless one is forced. -/
def groupCode (turn : Nat) (forced : Int) : Nat :=
  if turn ≠ 0 ∧ 0 ≤ forced ∧ forced ≤ 7 then forced.toNat else vicTransformFor turn

-- ---------------------------------------------------------------------------
-- Drawing a group
-- ---------------------------------------------------------------------------

/-- `VicJob`; its layers and size are the group's. -/
structure VicJob where
  target : Nat
  merge : Merge
  targetReady : Option Nat := none
  groupCode : Nat := 0
  parts : List IRect := []
  deriving DecidableEq, Repr

/-- `VicDrawn`. -/
structure VicDrawn where
  fence : Option Nat := none
  passes : Nat := 0
  drewWhole : Bool := false
  deriving DecidableEq, Repr

/-- What the engine took: which slot, of which group, which part of it. -/
structure Submission where
  slot : Nat
  merge : Merge
  part : Option IRect := none
  deriving DecidableEq, Repr

/-- `DrawMergeJob` between two calls of `Compose`: the parts still to draw, none
where the buffer is drawn whole. -/
structure Drawing where
  job : VicJob
  left : Option (List IRect)
  drawn : VicDrawn := {}
  deriving DecidableEq, Repr

namespace Drawing

/-- `DrawMergeJob` before its first `Compose`. -/
def start (job : VicJob) : Drawing :=
  { job := job, left := if job.parts = [] then none else some job.parts }

/-- The part the next `Compose` is given. -/
def part (d : Drawing) : Option IRect := d.left.bind List.head?

/-- One `Compose` and the engine's answer: what is drawn then, or the rest of
the drawing. A part the engine would not take is no reason to drop the frame:
the buffer is drawn whole instead. -/
def compose (d : Drawing) (answer : Option Nat) : VicDrawn ⊕ Drawing :=
  match d.left with
  | none | some [] => .inl { d.drawn with fence := answer }
  | some (_ :: rest) =>
    match answer with
    | none => .inr { d with left := none, drawn := { d.drawn with drewWhole := true } }
    | some fence =>
      let drawn := { d.drawn with fence := some fence, passes := d.drawn.passes + 1 }
      if rest = [] then .inl drawn else .inr { d with left := some rest, drawn := drawn }

/-- What the call adds to the engine's channel, newest first. -/
def submit (d : Drawing) (answer : Option Nat) (engine : List Submission) : List Submission :=
  match answer with
  | none => engine
  | some _ => ⟨d.job.target, d.job.merge, d.part⟩ :: engine

end Drawing

/-- The last drawing the engine took for a slot. -/
def lastOn (engine : List Submission) (slot : Nat) : Option Submission :=
  engine.find? fun sub => sub.slot == slot

-- ---------------------------------------------------------------------------
-- The manager
-- ---------------------------------------------------------------------------

/-- What is fixed when the manager is built: `vic_worker_wanted_`,
`merge_cache_`, `partial_`, whether there is an engine with its pool, and
which slots' buffers have a descriptor. -/
structure Config where
  vicWorkerWanted : Bool := true
  mergeCache : Bool := true
  partial_ : Bool := true
  hasEngine : Bool := true
  hasFd : Nat → Bool := fun _ => true

/-- `PendingMerge`. -/
structure PendingMerge where
  id : JobQueue.Id := 0
  target : Nat
  plan : Plan := {}
  members : List Member
  key : PictureMemory
  groupCode : Nat
  untouched : Bool := false
  heldFence : Option Nat := none
  droppable : Bool := false
  deriving DecidableEq, Repr

/-- `DcHead::Window`, the merged one; its buffer is a slot. -/
structure Window where
  index : Int := 0
  buffer : Option Nat := none
  sourceWidth : UInt32 := 0
  sourceHeight : UInt32 := 0
  outX : Int := 0
  outY : Int := 0
  outWidth : UInt32 := 0
  outHeight : UInt32 := 0
  z : Nat := 0
  preFence : Option Nat := none
  deriving DecidableEq, Repr

/-- What `Execute` keeps from frame to frame; `turns` is what was asked of the
pool, the oldest first. -/
structure Manager where
  scratch : ScratchPool Nat
  turns : List (ScratchPool.Op Nat) := []
  slotPictures : SlotPictures := { engine := ⟨true, true, false⟩ }
  mergeMemory : PictureMemory := {}
  lastMergeDescribed : Window := {}
  lastMergeFence : Option Nat := none
  laggedLast : Bool := false
  pendingMerge : Option PendingMerge := none

/-- The queue of the engine's worker. -/
abbrev VicJobs := JobQueue VicJob VicDrawn

namespace Manager

/-- A call of the pool. -/
def ask (m : Manager) (op : ScratchPool.Op Nat) : Manager :=
  { m with scratch := m.scratch.after op, turns := m.turns ++ [op] }

/-- `scratch_->Next`. -/
def nextSlot (m : Manager) : Option (Nat × Option Nat) × Manager :=
  match m.scratch.next.1 with
  | none => (none, m)
  | some answer => (some answer, m.ask .next)

/-- `ForgetMerge`. -/
def forgetMerge (m : Manager) : Manager := { m with mergeMemory := m.mergeMemory.forget }

/-- `JudgeMerge`. -/
def judgeMerge (m : Manager) (merge : Merge) : Verdict :=
  m.mergeMemory.judge merge.width merge.height (mergeMembers merge)

/-- `slot_pictures_.Lost`. -/
def lose (m : Manager) (slot : Nat) : Manager :=
  { m with slotPictures := m.slotPictures.lost slot }

/-- `slot_pictures_.Record` for each member whose damage is known. -/
def record (m : Manager) (members : List Member) (damages : List (List IRect)) : Manager :=
  { m with
    slotPictures := (members.zip damages).foldl (fun pictures md => pictures.record md.1 md.2)
      m.slotPictures }

/-- `DropPendingMerge`: the queued drawing is let go and its slot given back. -/
def dropPendingMerge (m : Manager) (jobs : VicJobs) : Manager × VicJobs :=
  match m.pendingMerge with
  | none => (m, jobs)
  | some pending =>
    ({ (m.lose pending.target).ask .rewind with pendingMerge := none }, jobs.cancel pending.id)

/-- Whether the window may show the last group in place of this one. -/
def mayStandIn (m : Manager) (c : Config) (merge : Merge) : Bool :=
  c.mergeCache && m.lastMergeFence.isSome &&
    match m.judgeMerge merge with
    | .kChangedFrame | .kChangedGeometry | .kChangedBlend => true
    | _ => false

/-- What of a slot to draw again for a group: all of it where nothing is drawn
in part. -/
def planFor (m : Manager) (c : Config) (slot : Nat) (merge : Merge) (code : Nat)
    (otherwise_ : Plan) : Plan :=
  if c.partial_ = true ∧ code = 0 then
    m.slotPictures.decide_ slot merge.width merge.height (mergeMembers merge)
  else otherwise_

/-- `QueueMerge` once it has dropped the merge queued before: the group is
planned and its drawing queued. -/
def queueMerge (m : Manager) (c : Config) (jobs : VicJobs) (merge : Merge) (forced : Int) :
    Manager × VicJobs :=
  if c.vicWorkerWanted = false ∨ c.hasEngine = false ∨ merge.layers = [] then (m, jobs)
  else if c.mergeCache = true ∧ m.judgeMerge merge = .kSame then (m, jobs)
  else
    match uniformTurn merge.transforms with
    | none => (m, jobs)
    | some turn =>
      match m.nextSlot with
      | (none, m) => (m, jobs)
      | (some (target, ready), m) =>
        let code := groupCode turn forced
        let members := mergeMembers merge
        let m := m.record members merge.damages
        let plan := m.planFor c target merge code {}
        let untouched := decide (plan.kind = .kUnchanged)
        let pending : PendingMerge :=
          { target := target, plan := plan, members := members
            key := PictureMemory.remember merge.width merge.height members
            groupCode := code, untouched := untouched
            heldFence := if untouched then m.slotPictures.fence target else none
            droppable := m.mayStandIn c merge }
        let m := m.lose target
        if untouched then ({ m with pendingMerge := some pending }, jobs)
        else
          let job : VicJob := ⟨target, merge, ready, code, plan.parts⟩
          let jobs := jobs.queue job pending.droppable
          ({ m with pendingMerge := some { pending with id := jobs.lastId } }, jobs)

/-- `RememberMerge`. -/
def rememberMerge (m : Manager) (merge : Merge) (described : Window) (drawn : Option Nat) :
    Manager :=
  { m with
    mergeMemory := PictureMemory.remember merge.width merge.height (mergeMembers merge)
    lastMergeDescribed := described
    lastMergeFence := drawn }

/-- Whether a member's client is still drawing the frame shown of it, and
nothing else has changed since the group remembered. -/
def lags (m : Manager) (c : Config) (merge : Merge) (isPending : Nat → Bool) : Bool :=
  c.mergeCache && !m.laggedLast && m.lastMergeFence.isSome &&
    m.mergeMemory.sameButFrames merge.width merge.height (mergeMembers merge) &&
    merge.layers.any fun l => (l.acquireFence.map isPending).getD false

/-- The window of a group drawn into a slot. -/
def windowOf (merge : Merge) (target : Nat) (fence : Nat) : Window :=
  { index := merge.window, buffer := some target
    sourceWidth := merge.width, sourceHeight := merge.height
    outX := merge.originX, outY := merge.originY
    outWidth := merge.width, outHeight := merge.height
    z := merge.depth, preFence := some fence }

/-- The window the remembered group is shown in again, for this frame. -/
def windowAgain (m : Manager) (merge : Merge) : Window :=
  { m.lastMergeDescribed with
    index := merge.window, preFence := m.lastMergeFence, outX := merge.originX
    outY := merge.originY, z := merge.depth }

end Manager

-- ---------------------------------------------------------------------------
-- What the parts of the manager do
-- ---------------------------------------------------------------------------

namespace Manager

/-- A slot's turn is taken, or there is none to take. -/
theorem nextSlot_cases {m m' : Manager} {answer : Option (Nat × Option Nat)}
    (h : m.nextSlot = (answer, m')) :
    (answer = none ∧ m' = m) ∨ (m.scratch.next.1 = answer ∧ answer ≠ none ∧ m' = m.ask .next) := by
  unfold nextSlot at h
  split at h
  · obtain ⟨rfl, rfl⟩ := Prod.mk.inj h
    exact .inl ⟨rfl, rfl⟩
  · rename_i found hNext
    obtain ⟨rfl, rfl⟩ := Prod.mk.inj h
    exact .inr ⟨hNext, Option.some_ne_none _, rfl⟩

/-- Remembering damage changes the history alone. -/
theorem record_eq (m : Manager) (members : List Member) (damages : List (List IRect)) :
    ∃ history, m.record members damages
      = { m with slotPictures := { m.slotPictures with history := history } } := by
  unfold record
  generalize members.zip damages = mds
  suffices h : ∀ pictures : SlotPictures, ∃ history,
      mds.foldl (fun pictures md => pictures.record md.1 md.2) pictures
        = { pictures with history := history } by
    obtain ⟨history, h⟩ := h m.slotPictures
    exact ⟨history, by rw [h]⟩
  induction mds with
  | nil => exact fun pictures => ⟨pictures.history, rfl⟩
  | cons md mds ih => exact fun pictures => ih (pictures.record md.1 md.2)

/-- A plan to show a slot undrawn is the answer of its pictures. -/
theorem planFor_unchanged {m : Manager} {c : Config} {slot : Nat} {merge : Merge} {code : Nat}
    {otherwise_ : Plan} (hOther : otherwise_.kind ≠ .kUnchanged)
    (h : (m.planFor c slot merge code otherwise_).kind = .kUnchanged) :
    (m.slotPictures.decide_ slot merge.width merge.height (mergeMembers merge)).kind
      = .kUnchanged := by
  unfold planFor at h
  split at h
  · exact h
  · exact absurd h hOther

/-- What `QueueMerge` may come to: nothing; a slot found to hold the group, and
nothing queued; or a slot and a job for it. -/
theorem queueMerge_cases {m m' : Manager} {c : Config} {jobs jobs' : VicJobs} {merge : Merge}
    {forced : Int} (h : m.queueMerge c jobs merge forced = (m', jobs')) :
    (m' = m ∧ jobs' = jobs) ∨
      ∃ (slot : Nat) (ready : Option Nat) (history : DamageHistory) (p : PendingMerge),
        m.scratch.next.1 = some (slot, ready) ∧
        m' = { m.ask .next with
          slotPictures := { m.slotPictures with history := history }.lost slot
          pendingMerge := some p } ∧
        p.target = slot ∧ p.members = mergeMembers merge ∧
        p.key = PictureMemory.remember merge.width merge.height (mergeMembers merge) ∧
        ((p.untouched = true ∧ p.id = 0 ∧ jobs' = jobs ∧
            ({ m.slotPictures with history := history }.decide_ slot merge.width merge.height
              (mergeMembers merge)).kind = .kUnchanged) ∨
          (p.untouched = false ∧ p.id = jobs.lastId + 1 ∧
            ∃ job : VicJob, job.target = slot ∧ job.merge = merge ∧
              jobs' = jobs.queue job p.droppable)) := by
  unfold queueMerge at h
  split at h
  · obtain ⟨rfl, rfl⟩ := Prod.mk.inj h
    exact .inl ⟨rfl, rfl⟩
  split at h
  · obtain ⟨rfl, rfl⟩ := Prod.mk.inj h
    exact .inl ⟨rfl, rfl⟩
  split at h
  · obtain ⟨rfl, rfl⟩ := Prod.mk.inj h
    exact .inl ⟨rfl, rfl⟩
  split at h
  · rename_i m₁ hNext
    obtain ⟨rfl, rfl⟩ := Prod.mk.inj h
    obtain ⟨-, rfl⟩ | ⟨-, hNot, -⟩ := nextSlot_cases hNext
    · exact .inl ⟨rfl, rfl⟩
    · exact absurd rfl hNot
  rename_i turn _ slot ready m₁ hNext
  obtain ⟨hNone, -⟩ | ⟨hSlot, -, rfl⟩ := nextSlot_cases hNext
  · cases hNone
  obtain ⟨history, hRecord⟩ := record_eq (m.ask .next) (mergeMembers merge) merge.damages
  simp only [hRecord] at h
  split at h
  · rename_i hPlan
    obtain ⟨rfl, rfl⟩ := Prod.mk.inj h
    refine .inr ⟨slot, ready, history, _, hSlot, rfl, rfl, rfl, rfl, .inl ⟨hPlan, rfl, rfl, ?_⟩⟩
    exact planFor_unchanged (by decide) (of_decide_eq_true hPlan)
  · rename_i hPlan
    obtain ⟨rfl, rfl⟩ := Prod.mk.inj h
    refine .inr ⟨slot, ready, history, _, hSlot, rfl, rfl, rfl, rfl,
      .inr ⟨Bool.eq_false_iff.mpr hPlan, rfl, ?_⟩⟩
    exact ⟨_, rfl, rfl, rfl⟩

end Manager

-- ---------------------------------------------------------------------------
-- The two threads
-- ---------------------------------------------------------------------------

/-- A frame given to `Execute`: whether lighting the panel failed, whether there
is a composition, and its group. -/
structure Request where
  powerFails : Bool := false
  hasComposition : Bool := true
  merge : Merge := {}
  deriving DecidableEq, Repr

/-- A group about to be shown: drawn into a slot, or held there from before. -/
structure Target where
  merge : Merge
  slot : Nat
  members : List Member
  plan : Plan
  deriving DecidableEq, Repr

/-- A frame about to be flipped: the group's window, where there is a group,
the slot this frame's group went into, and whether it was drawn for it. -/
structure Put where
  merge : Merge
  window : Option Window := none
  drawnSlot : Option Nat := none
  fresh : Bool := false
  deriving DecidableEq, Repr

/-- Where the frame thread stands. -/
inductive Frame where
  | idle
  /-- In `QueueMerge`, the merge queued before let go. -/
  | queueing (merge : Merge)
  /-- In `Resolve`, for the queued drawing of this group. -/
  | resolving (merge : Merge)
  /-- In `Execute`, before the lag is asked about. -/
  | judging (merge : Merge) (same queued dropped : Bool) (resolved : Option VicDrawn)
  /-- In the `DrawMergeJob` of the frame thread. -/
  | drawing (target : Target) (drawing : Drawing)
  /-- Before the flip. -/
  | flipping (put : Put)
  deriving DecidableEq, Repr

/-- Where the worker stands, with the job it holds. -/
inductive Worker where
  | idle
  | drawing (id : JobQueue.Id) (drawing : Drawing)
  | drawn (id : JobQueue.Id) (result : VicDrawn)
  deriving DecidableEq, Repr

/-- What a frame came to. -/
inductive Shown where
  /-- A group the window shows already. -/
  | same
  /-- The remembered group, for one whose member is not ready. -/
  | lagged
  /-- The remembered group, for one the engine did not come to. -/
  | dropped
  /-- The frame's own group. -/
  | drawn
  /-- A frame without a group. -/
  | bare
  /-- A frame given up. -/
  | refused
  deriving DecidableEq, Repr

/-- The manager, its queue, its two threads and the engine's channel; `frames`
are the frames so far, newest first. -/
structure System where
  manager : Manager
  jobs : VicJobs := {}
  frame : Frame := .idle
  worker : Worker := .idle
  engine : List Submission := []
  frames : List Shown := []

namespace System

/-- A frame given up with nothing drawn of it to be known. -/
def refuse (s : System) (m : Manager) : System :=
  { s with manager := m.forgetMerge, frame := .idle, frames := .refused :: s.frames }

/-- `Execute` up to its first access to the queue. -/
def execute (s : System) (c : Config) (request : Request) : System :=
  let merge := request.merge
  if request.powerFails then s.refuse s.manager
  else if request.hasComposition = false then
    { s with manager := s.manager.forgetMerge, frames := .bare :: s.frames }
  else if merge.layers = [] then
    let dropped := s.manager.dropPendingMerge s.jobs
    { s with
      manager := dropped.1.forgetMerge, jobs := dropped.2
      frame := .flipping { merge := merge }, frames := .bare :: s.frames }
  else if c.hasEngine = false then { s with frames := .refused :: s.frames }
  else
    let same := c.mergeCache && decide (s.manager.judgeMerge merge = .kSame)
    match s.manager.pendingMerge with
    | none => { s with frame := .judging merge same false false none }
    | some pending =>
      let queued := !same &&
        decide (pending.key.judge merge.width merge.height (mergeMembers merge) = .kSame)
      if queued = true ∧ pending.untouched = false then { s with frame := .resolving merge }
      else { s with frame := .judging merge same queued false none }

/-- The group is known to be drawn, or held, or refused: it is put on its
window, and remembered. -/
def finish (s : System) (c : Config) (target : Target) (untouched : Bool)
    (heldFence : Option Nat) (drawn : VicDrawn) : System :=
  let m := { s.manager with pendingMerge := none }
  let merged := if untouched then heldFence else drawn.fence
  let plan := if untouched = false ∧ drawn.drewWhole = true then { why := 'x' } else target.plan
  match merged with
  | none => s.refuse (m.ask .rewind)
  | some fence =>
    let m := { m with
      slotPictures := m.slotPictures.drawn target.slot target.merge.width target.merge.height
        target.members plan (some fence) }
    if c.hasFd target.slot = false then s.refuse (m.ask .rewind)
    else
      let window := Manager.windowOf target.merge target.slot fence
      { s with
        manager := m.rememberMerge target.merge window (some fence)
        frame := .flipping
          { merge := target.merge, window := some window, drawnSlot := some target.slot
            fresh := !untouched }
        frames := .drawn :: s.frames }

/-- The remembered group is put on the window of this frame's. -/
def showAgain (s : System) (m : Manager) (merge : Merge) (shown : Shown) : System :=
  let dropped := m.dropPendingMerge s.jobs
  { s with
    manager := dropped.1, jobs := dropped.2
    frame := .flipping { merge := merge, window := some (m.windowAgain merge) }
    frames := shown :: s.frames }

/-- `Execute` for a group that was queued, once it is known how its drawing
went. -/
def showQueued (s : System) (c : Config) (m : Manager) (pending : PendingMerge) (merge : Merge)
    (resolved : Option VicDrawn) : System :=
  match uniformTurn merge.transforms with
  | none => s.refuse ({ m with pendingMerge := none }.ask .rewind)
  | some _ =>
    let target : Target := ⟨merge, pending.target, pending.members, pending.plan⟩
    { s with manager := m }.finish c target pending.untouched pending.heldFence
      (resolved.getD {})

/-- `Execute` for a group that was not: a slot is taken and, unless it holds
the picture already, drawn into. -/
def drawHere (s : System) (c : Config) (m : Manager) (merge : Merge) (forced : Int) : System :=
  match m.nextSlot with
  | (none, m) => s.refuse m
  | (some (slot, ready), m) =>
    match uniformTurn merge.transforms with
    | none => s.refuse ({ m with pendingMerge := none }.ask .rewind)
    | some turn =>
      let code := groupCode turn forced
      let members := mergeMembers merge
      let m := m.record members merge.damages
      let plan := m.planFor c slot merge code { why := 'o' }
      let heldFence := m.slotPictures.fence slot
      let s := { s with manager := m.lose slot }
      let target : Target := ⟨merge, slot, members, plan⟩
      if plan.kind = .kUnchanged then s.finish c target true heldFence {}
      else { s with frame := .drawing target (.start ⟨slot, merge, ready, code, plan.parts⟩) }

/-- `Execute` from the question of the lag to the next access to the engine. -/
def judge (s : System) (c : Config) (merge : Merge) (same queued dropped : Bool)
    (resolved : Option VicDrawn) (isPending : Nat → Bool) (forced : Int) : System :=
  let lag := !same && s.manager.lags c merge isPending
  let m := { s.manager with laggedLast := lag }
  let m := if dropped then { m with pendingMerge := none }.ask .rewind else m
  if same then s.showAgain m merge .same
  else if lag then s.showAgain m merge .lagged
  else if dropped then s.showAgain m merge .dropped
  else if queued then
    match m.pendingMerge with
    -- a group is only ever queued under a pending merge
    | none => s.refuse m
    | some pending => s.showQueued c m pending merge resolved
  else
    let dropped := m.dropPendingMerge s.jobs
    { s with jobs := dropped.2 }.drawHere c dropped.1 merge forced

/-- `Execute` once the kernel has answered the flip: none where it refused the
frame, else the fence of it, if it gave one. -/
def flipped (s : System) (put : Put) (answer : Option (Option Nat)) : System :=
  match answer, put.drawnSlot with
  | none, none => { s with frame := .idle }
  | none, some slot =>
    { s with manager := ((s.manager.ask .rewind).forgetMerge).lose slot, frame := .idle }
  | some _, none | some none, some _ => { s with frame := .idle }
  | some (some fence), some _ =>
    { s with manager := s.manager.ask (.presented fence), frame := .idle }

/-- One step of one of the threads. -/
inductive Action where
  /-- `QueueMerge`, of a plan the controller would show. -/
  | validate (merge : Merge)
  | queueMerge (forced : Int)
  | noteFrameUnjudged
  | execute (request : Request)
  | resolve
  | judge (isPending : Nat → Bool) (forced : Int)
  /-- A `Compose` of the frame thread, and the engine's answer. -/
  | compose (answer : Option Nat)
  | flip (answer : Option (Option Nat))
  | take
  /-- A `Compose` of the worker. -/
  | workerCompose (answer : Option Nat)
  | workerDone

/-- The system after a step; none where the thread is not there, or waits. -/
def step (c : Config) (s : System) : Action → Option System
  | .validate merge =>
    match s.frame with
    | .idle =>
      let dropped := s.manager.dropPendingMerge s.jobs
      some { s with manager := dropped.1, jobs := dropped.2, frame := .queueing merge }
    | _ => none
  | .queueMerge forced =>
    match s.frame with
    | .queueing merge =>
      let queued := s.manager.queueMerge c s.jobs merge forced
      some { s with manager := queued.1, jobs := queued.2, frame := .idle }
    | _ => none
  | .noteFrameUnjudged =>
    match s.frame with
    | .idle => some { s with manager := s.manager.forgetMerge }
    | _ => none
  | .execute request =>
    match s.frame with
    | .idle => some (s.execute c request)
    | _ => none
  | .resolve =>
    match s.frame, s.manager.pendingMerge with
    | .resolving merge, some pending =>
      match s.jobs.resolve pending.id (!pending.droppable) with
      | (none, _) => none
      | (some outcome, jobs) =>
        let dropped := decide (outcome.state = .kDropped)
        let resolved := if dropped then none else some (outcome.result.getD {})
        some { s with jobs := jobs, frame := .judging merge false true dropped resolved }
    | _, _ => none
  | .judge isPending forced =>
    match s.frame with
    | .judging merge same queued dropped resolved =>
      some (s.judge c merge same queued dropped resolved isPending forced)
    | _ => none
  | .compose answer =>
    match s.frame with
    | .drawing target d =>
      let s := { s with engine := d.submit answer s.engine }
      match d.compose answer with
      | .inl drawn => some (s.finish c target false none drawn)
      | .inr d => some { s with frame := .drawing target d }
    | _ => none
  | .flip answer =>
    match s.frame with
    | .flipping put => some (s.flipped put answer)
    | _ => none
  | .take =>
    match s.worker, s.jobs.take with
    | .idle, (some (id, job), jobs) =>
      some { s with jobs := jobs, worker := .drawing id (.start job) }
    | _, _ => none
  | .workerCompose answer =>
    match s.worker with
    | .drawing id d =>
      let s := { s with engine := d.submit answer s.engine }
      match d.compose answer with
      | .inl drawn => some { s with worker := .drawn id drawn }
      | .inr d => some { s with worker := .drawing id d }
    | _ => none
  | .workerDone =>
    match s.worker with
    | .drawn id result =>
      some { s with
        jobs := s.jobs.done id result.fence.isSome (some result), worker := .idle }
    | _ => none

-- What each action asks of the two threads, and what it leaves.

section Steps

variable {c : Config} {s s' : System}

theorem step_validate {merge : Merge} (h : step c s (.validate merge) = some s') :
    s.frame = .idle ∧
      s' = { s with
        manager := (s.manager.dropPendingMerge s.jobs).1
        jobs := (s.manager.dropPendingMerge s.jobs).2
        frame := .queueing merge } := by
  unfold step at h
  simp only at h
  split at h
  · rename_i hAt
    exact ⟨hAt, (Option.some.inj h).symm⟩
  · cases h

theorem step_queueMerge {forced : Int} (h : step c s (.queueMerge forced) = some s') :
    ∃ merge, s.frame = .queueing merge ∧
      s' = { s with
        manager := (s.manager.queueMerge c s.jobs merge forced).1
        jobs := (s.manager.queueMerge c s.jobs merge forced).2
        frame := .idle } := by
  unfold step at h
  simp only at h
  split at h
  · rename_i merge hAt
    exact ⟨merge, hAt, (Option.some.inj h).symm⟩
  · cases h

theorem step_noteFrameUnjudged (h : step c s .noteFrameUnjudged = some s') :
    s.frame = .idle ∧ s' = { s with manager := s.manager.forgetMerge } := by
  unfold step at h
  simp only at h
  split at h
  · rename_i hAt
    exact ⟨hAt, (Option.some.inj h).symm⟩
  · cases h

theorem step_execute {request : Request} (h : step c s (.execute request) = some s') :
    s.frame = .idle ∧ s' = s.execute c request := by
  unfold step at h
  simp only at h
  split at h
  · rename_i hAt
    exact ⟨hAt, (Option.some.inj h).symm⟩
  · cases h

/-- The drawing queued is collected where the queue answers for it. -/
theorem step_resolve (h : step c s .resolve = some s') :
    ∃ merge p outcome jobs, s.frame = .resolving merge ∧ s.manager.pendingMerge = some p ∧
      s.jobs.resolve p.id (!p.droppable) = (some outcome, jobs) ∧
      s' = { s with
        jobs := jobs
        frame := .judging merge false true (decide (outcome.state = .kDropped))
          (if decide (outcome.state = .kDropped) then none
            else some (outcome.result.getD {})) } := by
  unfold step at h
  simp only at h
  split at h
  · rename_i merge p hAt hp
    split at h
    · cases h
    · rename_i outcome jobs hResolve
      exact ⟨merge, p, outcome, jobs, hAt, hp, hResolve, (Option.some.inj h).symm⟩
  · cases h

theorem step_judge {isPending : Nat → Bool} {forced : Int}
    (h : step c s (.judge isPending forced) = some s') :
    ∃ merge same queued dropped resolved,
      s.frame = .judging merge same queued dropped resolved ∧
      s' = s.judge c merge same queued dropped resolved isPending forced := by
  unfold step at h
  simp only at h
  split at h
  · rename_i merge same queued dropped resolved hAt
    exact ⟨merge, same, queued, dropped, resolved, hAt, (Option.some.inj h).symm⟩
  · cases h

/-- The frame thread's drawing ends, or goes on. -/
theorem step_compose {answer : Option Nat} (h : step c s (.compose answer) = some s') :
    ∃ target d, s.frame = .drawing target d ∧
      ((∃ drawn, d.compose answer = .inl drawn ∧
          s' = { s with engine := d.submit answer s.engine }.finish c target false none drawn) ∨
        ∃ d', d.compose answer = .inr d' ∧
          s' = { s with engine := d.submit answer s.engine, frame := .drawing target d' }) := by
  unfold step at h
  simp only at h
  split at h
  · rename_i target d hAt
    refine ⟨target, d, hAt, ?_⟩
    split at h
    · rename_i drawn hDrawn
      exact .inl ⟨drawn, hDrawn, (Option.some.inj h).symm⟩
    · rename_i d' hDrawing
      exact .inr ⟨d', hDrawing, (Option.some.inj h).symm⟩
  · cases h

theorem step_flip {answer : Option (Option Nat)} (h : step c s (.flip answer) = some s') :
    ∃ put, s.frame = .flipping put ∧ s' = s.flipped put answer := by
  unfold step at h
  simp only at h
  split at h
  · rename_i put hAt
    exact ⟨put, hAt, (Option.some.inj h).symm⟩
  · cases h

theorem step_take (h : step c s .take = some s') :
    ∃ id job jobs, s.worker = .idle ∧ s.jobs.take = (some (id, job), jobs) ∧
      s' = { s with jobs := jobs, worker := .drawing id (.start job) } := by
  unfold step at h
  simp only at h
  split at h
  · rename_i id job jobs hWorker hTake
    exact ⟨id, job, jobs, hWorker, hTake, (Option.some.inj h).symm⟩
  · cases h

/-- The worker's drawing ends, or goes on. -/
theorem step_workerCompose {answer : Option Nat}
    (h : step c s (.workerCompose answer) = some s') :
    ∃ id d, s.worker = .drawing id d ∧
      ((∃ drawn, d.compose answer = .inl drawn ∧
          s' = { s with engine := d.submit answer s.engine, worker := .drawn id drawn }) ∨
        ∃ d', d.compose answer = .inr d' ∧
          s' = { s with engine := d.submit answer s.engine, worker := .drawing id d' }) := by
  unfold step at h
  simp only at h
  split at h
  · rename_i id d hWorker
    refine ⟨id, d, hWorker, ?_⟩
    split at h
    · rename_i drawn hDrawn
      exact .inl ⟨drawn, hDrawn, (Option.some.inj h).symm⟩
    · rename_i d' hDrawing
      exact .inr ⟨d', hDrawing, (Option.some.inj h).symm⟩
  · cases h

theorem step_workerDone (h : step c s .workerDone = some s') :
    ∃ id result, s.worker = .drawn id result ∧
      s' = { s with
        jobs := s.jobs.done id result.fence.isSome (some result), worker := .idle } := by
  unfold step at h
  simp only at h
  split at h
  · rename_i id result hWorker
    exact ⟨id, result, hWorker, (Option.some.inj h).symm⟩
  · cases h

end Steps

/-- The system as it is built, with a pool of so many slots. -/
def init (slots : Nat) : System := { manager := { scratch := ScratchPool.create slots } }

/-- The two threads, interleaved. -/
def machine (c : Config) : Machine System Action Unit where
  step := step c
  events _ _ := []

/-- A group of one layer, showing this frame of it. -/
def oneLayer (generation : Nat) (acquireFence : Option Nat := none) : Merge :=
  { layers :=
      [{ source := ⟨0, 0, 32, 32⟩, display := ⟨0, 0, 32, 32⟩, acquireFence := acquireFence }]
    sourceIds := [1], generations := [generation], serials := [1], transforms := [0]
    width := 32, height := 32 }

end System

end TegraHwc
