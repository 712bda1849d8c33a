import TegraHwc.Hwc.HwcDisplay
import TegraHwc.Lib.Scanout
import TegraHwc.Tegra.TegraAtomicStateManager

/-!
# TegraHwc — the fences buffers are handed back with

A layer given a new buffer owes the client word of the one it replaces: the
present that goes up next answers with a fence, the engine's where the frame
before had an engine read the buffer, and else its own flip's
(`hwc/HwcLayer.cpp`, and the end of `PresentStagedComposition` in
`hwc/HwcDisplay.cpp`).

Here the display that answers stands over what reads: the merge of
`tegra/TegraAtomicStateManager.cpp` with its worker, step by step as it is
modelled there; the executor of `tegra/GpuExecutor.cpp` with the library's
thread; the channels of the two engines; and the panel. A frame's request comes
from outside with the handles it names, as its plan copied them from the layers,
and so do the types a validation settles and what the memories of pictures, the
pools and the kernel answer. The client is kept out while a frame is carried out;
the worker, the library's thread, the engines and the panel are not.
`WaitLastFrame` waits half a second at most, and may be switched off: it is left
out, and the flip before may still wait to go up.

What the executor's buffers and the slots of the pool hold is left out: no
client's buffer is among them. So are the fences of the client's own drawing,
which only hold a flip back.
-/

namespace TegraHwc

open Runs Scanout

-- ---------------------------------------------------------------------------
-- The layer's side
-- ---------------------------------------------------------------------------

namespace HwcLayer

/-- The handle of a layer's buffer. -/
def handle (l : HwcLayer) : Option Nat := l.layerData.bi.bind (·.handle)

/-- `ClearPriorBufferScanOutFlag`. -/
def clearPriorBufferScanOutFlag (l : HwcLayer) : HwcLayer :=
  { l with priorBufferScanoutFlag := false, priorBuffer := none }

end HwcLayer

-- ---------------------------------------------------------------------------
-- The display
-- ---------------------------------------------------------------------------

/-- Who draws. -/
inductive DrawingEngine where
  | vic
  | gpu
  deriving DecidableEq, Repr

/-- `SharedFd`, of a drawing or a flip. -/
abbrev SyncFence := Scanout.Fence DrawingEngine

/-- `EngineReads`. -/
structure EngineReads where
  fence : Option SyncFence := none
  buffers : List Nat := []
  deriving DecidableEq, Repr

/-- Where a plan has the client's target. -/
inductive ClientPlace where
  | window
  | member
  deriving DecidableEq, Repr

/-- A request, and the handles it names: of the group's members, in step with
its layers, and of the layers on windows of their own. -/
structure NamedRequest where
  merge : Merge := {}
  members : List (Option Nat) := []
  windows : List Nat := []
  client : Option ClientPlace := none
  deriving DecidableEq, Repr

/-- The handles the engine is given to read, and told the display of. -/
def NamedRequest.reads (r : NamedRequest) : List Nat := r.members.filterMap id

/-- How a frame comes by the client's picture: the one shown before, one a buffer
holds already, or the drawing begun. -/
inductive ClientPicture where
  | again
  | keep (held : Option Nat)
  | collect
  deriving DecidableEq, Repr

/-- What is fixed while the display lives. -/
structure ReleaseConfig where
  manager : Config := {}
  reportEngineReads : Bool := true

/-- `HwcDisplay`, as it answers for its layers' buffers, and what reads them.
`described` is the request the frame thread is at, `jobReads` what each job
queued for the merge's worker reads, `lastDrawn` and `gpuLastDrawn` what the two
threads wait for before they take another, and `clientFence` the drawing the
client's target is shown after. -/
structure ReleasingDisplay where
  layers : List (ILayerId × HwcLayer) := []
  engineThisFrame : EngineReads := {}
  engineLastFrame : EngineReads := {}
  releaseFence : Option SyncFence := none
  manager : System
  described : NamedRequest := {}
  jobReads : JobQueue.Id → List Nat := fun _ => []
  lastDrawn : Option Nat := none
  gpuJobs : JobQueue (List Nat) (Option Nat) := {}
  gpuBegun : Option (JobQueue.Id × Bool) := none
  gpuLastDrawn : Option Nat := none
  gpuDrawnFence : Option Nat := none
  clientFence : Option Nat := none
  hardware : Hardware DrawingEngine Nat := {}

/-- `ReleaseFence`, and the buffer it is said of. -/
structure Answer where
  layer : ILayerId
  buffer : Option Nat
  fence : Option SyncFence
  deriving DecidableEq, Repr

namespace ReleasingDisplay

variable (c : ReleaseConfig) (s : ReleasingDisplay)

/-- A layer of that id, changed. -/
def withLayer (id : ILayerId) (f : HwcLayer → HwcLayer) : ReleasingDisplay :=
  { s with layers := s.layers.map fun e => if e.1 = id then (e.1, f e.2) else e }

/-- `CreateLayer`. -/
def createLayer (id : ILayerId) : ReleasingDisplay :=
  if s.layers.any (fun e => decide (e.1 = id)) then s
  else { s with layers := s.layers ++ [(id, {})] }

/-- `DestroyLayer`. -/
def destroyLayer (id : ILayerId) : ReleasingDisplay :=
  { s with layers := s.layers.filter fun e => e.1 ≠ id }

/-- The types a validation settles. -/
def settle (types : ILayerId → CompositionType) : ReleasingDisplay :=
  { s with layers := s.layers.map fun e => (e.1, { e.2 with validatedType := types e.1 }) }

-- ---------------------------------------------------------------------------
-- The answers of a present
-- ---------------------------------------------------------------------------

/-- `EngineFenceFor`. -/
def engineFenceFor (prior : Option Nat) : Option SyncFence :=
  match prior, s.engineLastFrame.fence with
  | some b, some fence => if b ∈ s.engineLastFrame.buffers then some fence else none
  | _, _ => none

/-- The release fences of a present, in the order of the layers. -/
def answers : List Answer :=
  s.layers.filterMap fun e =>
    if e.2.priorBufferScanoutFlag then
      some ⟨e.1, e.2.priorBuffer, (s.engineFenceFor e.2.priorBuffer).or s.releaseFence⟩
    else none

/-- The display once it has answered. -/
def answered : ReleasingDisplay :=
  { s with
    layers := s.layers.map fun e =>
      if e.2.priorBufferScanoutFlag then (e.1, e.2.clearPriorBufferScanOutFlag) else e
    engineLastFrame := s.engineThisFrame
    engineThisFrame := {} }

/-- `merged`: the drawing of this frame's group, where it has one of its own. -/
def merged (put : Put) : Option Nat :=
  if put.drawnSlot.isSome then put.window.bind (·.preFence) else none

/-- What the flip waits for: the group's drawing, and that of the client's
picture, where the frame shows it anew. -/
def waits (put : Put) : List SyncFence :=
  let client : Bool :=
    match s.described.client with
    | none => false
    | some .window => true
    | some .member => put.fresh
  ((put.window.bind (·.preFence)).map (.drawn .vic)).toList ++
    if client then (s.clientFence.map (.drawn .gpu)).toList else []

/-- The flip of a frame. -/
def flipOf (put : Put) : Flip DrawingEngine Nat :=
  { windows := s.described.windows, waits := s.waits put }

/-- The display once the flip is taken, told what the engine read. -/
def committed (put : Put) (fenced : Bool) (manager : System) : ReleasingDisplay :=
  { s with
    manager := manager
    hardware := s.hardware.flip (s.flipOf put)
    releaseFence := if fenced then some (.shown s.hardware.flips.length) else none
    engineThisFrame :=
      match merged put with
      | some m =>
        if c.reportEngineReads then ⟨some (.drawn .vic m), s.described.reads⟩ else {}
      | none => {} }

-- ---------------------------------------------------------------------------
-- The executor
-- ---------------------------------------------------------------------------

/-- `DropBegun`. -/
def dropBegun : ReleasingDisplay :=
  match s.gpuBegun with
  | none => s
  | some (id, _) => { s with gpuJobs := s.gpuJobs.cancel id, gpuBegun := none }

/-- `BeginClientOnGpu` where it comes to a drawing. -/
def beginClientOnGpu (range : List (Option Nat)) : ReleasingDisplay :=
  let s := s.dropBegun
  let droppable := s.gpuDrawnFence.isSome
  let jobs := s.gpuJobs.queue (range.filterMap id) droppable
  { s with gpuJobs := jobs, gpuBegun := some (jobs.lastId, droppable) }

/-- `DrawClientOnGpu`; none where it waits for the library's thread. -/
def drawClientOnGpu : ClientPicture → Option ReleasingDisplay
  | .again => some { s with clientFence := s.gpuDrawnFence }
  | .keep held => some { s.dropBegun with gpuDrawnFence := held, clientFence := held }
  | .collect =>
    match s.gpuBegun with
    | none => some s
    | some (id, droppable) =>
      match s.gpuJobs.resolve id (!droppable) with
      | (none, _) => none
      | (some outcome, jobs) =>
        let s := { s with gpuJobs := jobs, gpuBegun := none }
        if outcome.state = .kDropped then some { s with clientFence := s.gpuDrawnFence }
        else
          match outcome.result.join with
          | none => some s
          | some n => some { s with gpuDrawnFence := some n, clientFence := some n }

/-- A run of `RunJob`, and whether the drawing is taken; none where the GPU is
still busy, or there is none to draw. -/
def runJob (taken : Bool) : Option ReleasingDisplay :=
  if s.hardware.Due (s.gpuLastDrawn.map (.drawn .gpu)) then
    match s.gpuJobs.take with
    | (none, _) => none
    | (some (id, reads), jobs) =>
      let fence := if taken then some (s.hardware.channels .gpu).drawings.length else none
      some { s with
        gpuJobs := jobs.done id taken (some fence)
        gpuLastDrawn := fence
        hardware := if taken then s.hardware.submit .gpu ⟨some id, reads⟩ else s.hardware }
  else none

-- ---------------------------------------------------------------------------
-- The steps
-- ---------------------------------------------------------------------------

/-- One step of the client, of a thread or of the hardware. A drawing given to
the merge engine beside a frame's lays a cursor's sprite flat, or takes a picture
of the panel; no frame waits for it. -/
inductive Action where
  | createLayer (id : ILayerId)
  | destroyLayer (id : ILayerId)
  | setLayerBuffer (id : ILayerId) (now : Nat) (buffer : Buffer)
  | setClientTarget
  /-- A plan the controller would show, told the merge. -/
  | validate (r : NamedRequest)
  | queueMerge (forced : Int)
  | beginClientOnGpu (range : List (Option Nat))
  | settle (types : ILayerId → CompositionType)
  | drawClientOnGpu (how : ClientPicture)
  | noteFrameUnjudged
  | execute (r : NamedRequest) (powerFails : Bool)
  | resolve
  | judge (isPending : Nat → Bool) (forced : Int)
  | compose (taken : Bool)
  /-- The kernel's answer to the flip: whether it comes with a fence, none where
  it is refused. -/
  | flip (answer : Option Bool)
  | take
  | workerCompose (taken : Bool)
  | workerDone
  | runJob (taken : Bool)
  | drawBeside (reads : List Nat)
  | finish (engine : DrawingEngine)
  | latch

/-- What is seen: a buffer replaced in a layer that was the display's to show,
and an answer, with the display that gives it. -/
inductive Event where
  | replaced (layer : ILayerId) (buffer : Option Nat)
  | answered (answer : Answer) (display : ReleasingDisplay)

/-- The merge's own step. -/
def manage (a : System.Action) : Option ReleasingDisplay :=
  (s.manager.step c.manager a).map fun manager => { s with manager := manager }

/-- The fence of the drawing the merge engine takes next, if it does. -/
def nextFence (taken : Bool) : Option Nat :=
  if taken then some (s.hardware.channels .vic).drawings.length else none

/-- A drawing for the merge, if the engine takes it. -/
def drew (taken : Bool) (d : Scanout.Drawing Nat) : ReleasingDisplay :=
  if taken then { s with hardware := s.hardware.submit .vic d } else s

/-- The next state; none where the thread is not there, or waits. -/
def step : Action → Option ReleasingDisplay
  | .createLayer id => if s.manager.frame = .idle then some (s.createLayer id) else none
  | .destroyLayer id => if s.manager.frame = .idle then some (s.destroyLayer id) else none
  | .setLayerBuffer id now buffer =>
    if s.manager.frame = .idle then some (s.withLayer id fun l => l.setBuffer now buffer) else none
  | .setClientTarget =>
    if s.manager.frame = .idle then some { s with clientFence := none } else none
  | .validate r => { s with described := r }.manage c (.validate r.merge)
  | .queueMerge forced =>
    { s with
      jobReads := Function.update s.jobReads (s.manager.jobs.lastId + 1) s.described.reads
      }.manage c (.queueMerge forced)
  | .beginClientOnGpu range =>
    if s.manager.frame = .idle then some (s.beginClientOnGpu range) else none
  | .settle types => if s.manager.frame = .idle then some (s.settle types) else none
  | .drawClientOnGpu how => if s.manager.frame = .idle then s.drawClientOnGpu how else none
  | .noteFrameUnjudged => s.manage c .noteFrameUnjudged
  | .execute r powerFails =>
    { s with described := r }.manage c (.execute { powerFails := powerFails, merge := r.merge })
  | .resolve => s.manage c .resolve
  | .judge isPending forced => s.manage c (.judge isPending forced)
  | .compose taken =>
    (s.drew taken ⟨none, s.described.reads⟩).manage c (.compose (s.nextFence taken))
  | .flip answer =>
    match s.manager.frame with
    | .flipping put =>
      match answer with
      | none => s.manage c (.flip none)
      | some fenced =>
        (s.manager.step c.manager
            (.flip (some (if fenced then some s.hardware.flips.length else none)))).map
          fun manager => (s.committed c put fenced manager).answered
    | _ => none
  | .take =>
    if s.hardware.Due (s.lastDrawn.map (.drawn .vic)) then s.manage c .take else none
  | .workerCompose taken =>
    match s.manager.worker with
    | .drawing id _ =>
      (s.drew taken ⟨some id, s.jobReads id⟩).manage c (.workerCompose (s.nextFence taken))
    | _ => none
  | .workerDone =>
    match s.manager.worker with
    | .drawn _ result => { s with lastDrawn := result.fence }.manage c .workerDone
    | _ => none
  | .runJob taken => s.runJob taken
  | .drawBeside reads => some { s with hardware := s.hardware.submit .vic ⟨none, reads⟩ }
  | .finish engine =>
    (s.hardware.finish engine).map fun hardware => { s with hardware := hardware }
  | .latch => s.hardware.latch.map fun hardware => { s with hardware := hardware }

/-- What is seen of a step. -/
def events : Action → List Event
  | .setLayerBuffer id _ _ =>
    s.layers.filterMap fun e =>
      if e.1 = id ∧ e.2.validatedType ≠ .kClient then some (.replaced id e.2.handle) else none
  | .flip (some fenced) =>
    match s.manager.frame with
    | .flipping put =>
      let committed := s.committed c put fenced s.manager
      committed.answers.map fun a => .answered a committed
    | _ => []
  | _ => []

/-- The display, its threads and the hardware, interleaved. -/
def machine : Machine ReleasingDisplay Action Event where
  step := step c
  events := events c

/-- A display without layers, with a pool of so many slots. -/
def init (slots : Nat) : ReleasingDisplay := { manager := .init slots }

end ReleasingDisplay

end TegraHwc
