import Mathlib.Data.List.Sort
import TegraHwc.Hwc.HwcLayer
import TegraHwc.Lib.Runs

/-!
# TegraHwc — a display, its layers and its plan

`hwc/HwcDisplay.cpp`, `compositor/GenericCompositionPlanner.cpp` and the calls
of `hwc2_device/hwc2_device.cpp` that reach them: how a composition is
validated, handed back from the frame before where nothing was raised against
it, presented, kept and dropped.

The planner's search is an answer given from outside, and so is what the
kernel, the allocator and the executor say of it: nothing here depends on what
they answer.

Three things are kept beside the code's own, for what is said of it.
`changes` counts the changes of what the planner reads of the layers,
`madeAt` is that count when a composition was planned, and `bitsSpent` says
that a validation has taken raised bits since the kept plan was kept. What the
composer settles itself, a layer taking the type its validation gave it, is
the plan and no change to it.
-/

namespace TegraHwc

open PlanInvalidator Runs

/-- `ILayerId`. -/
abbrev ILayerId := Int

/-- `FlattenReason`. -/
inductive FlattenReason where
  | kNone
  | kValidateFailed
  | kCtmWithOffset
  | kNoPerPlaneColorspaceSupport
  deriving DecidableEq, Repr

/-- `ValidatedComposition`, less the plane reservations it holds. -/
structure ValidatedComposition where
  compositionTypes : List (ILayerId × CompositionType) := []
  punchOutLayers : List ILayerId := []
  flattenReason : FlattenReason := .kNone
  cursorPlaneValidated : Option Bool := none
  errorCode : Int := 0
  gpuDrawsClient : Bool := false
  madeAt : Nat := 0
  deriving DecidableEq, Repr

/-- A layer of `layers_`, and what was seen of it when the occlusion last
said. -/
structure Entry where
  id : ILayerId
  layer : HwcLayer := {}
  lastSeen : Option (Option IRect × Option FRect) := none
  deriving DecidableEq, Repr

/-- What is fixed while a display lives: its size, the smallest corner radius
drawn, whether occlusion is on and what it answers, and whether there is an
executor. -/
structure DisplayConfig where
  size : Nat × Nat := (1, 1)
  minCornerRadius : Rat := 0
  occlusion : Bool := true
  resolve : List Occlusion.Layer → List Occlusion.Shown :=
    List.map fun l => { bounds := l.frame }
  hasGpu : Bool := true

/-- What the planner reads of a layer: its shape, and what was last seen of
it. -/
structure LayerInput where
  id : ILayerId
  shape : PlanShape
  lastSeen : Option (Option IRect × Option FRect)
  deriving DecidableEq

/-- What it reads of the display: its layers, and the client's target. -/
structure PlanInput where
  layers : List LayerInput
  client : PlanShape
  deriving DecidableEq

/-- `HwcDisplay`; it starts without a panel. -/
structure HwcDisplay where
  headless : Bool := true
  layers : List Entry := []
  clientLayer : HwcLayer := {}
  planInvalidators : UInt32 := 0xFFFFFFFF
  reusablePlan : Option ValidatedComposition := none
  validatedComposition : Option ValidatedComposition := none
  stagedCompositionReused : Bool := false
  nextSerial : Nat := 1
  changes : Nat := 0
  bitsSpent : Bool := false
  deriving DecidableEq, Repr

/-- What comes with a validation from outside: the time, whether the display's
profile changed, the buffer that stands in for the client's, what makes the
planner flatten, what it plans anew, and whether the executor can draw the
client's layers of it. -/
structure Validation where
  now : Nat := 0
  profileChanged : Bool := false
  seat : LayerProperties := {}
  ctmByGpu : Bool := false
  useColorPipeline : Bool := false
  plan : ValidatedComposition := {}
  gpuCanDraw : Bool := false
  deriving DecidableEq, Repr

/-- What comes with a present: the time its layers are looked at and the
validation it may ask for, the buffer the executor drew, whether the commit can
be described, and whether the kernel takes it. -/
structure Presentation where
  peekedAt : Nat := 0
  validation : Validation := {}
  now : Nat := 0
  seat : LayerProperties := {}
  described : Bool := true
  committed : Bool := true
  deriving DecidableEq, Repr

namespace HwcDisplay

variable (c : DisplayConfig)

/-- What the planner reads of the layers. -/
def planInput (s : HwcDisplay) : PlanInput :=
  { layers := s.layers.map fun e => ⟨e.id, e.layer.planShape c.minCornerRadius, e.lastSeen⟩
    client := s.clientLayer.planShape c.minCornerRadius }

/-- A change counted, where there is one. -/
def observe (s s' : HwcDisplay) : HwcDisplay :=
  if s'.planInput c = s.planInput c then s' else { s' with changes := s'.changes + 1 }

/-- `MarkPlanInvalid`. -/
def markPlanInvalid (s : HwcDisplay) (bits : UInt32) : HwcDisplay :=
  { s with planInvalidators := s.planInvalidators ||| bits }

/-- One layer changed. -/
def modifyLayer (s : HwcDisplay) (id : ILayerId) (f : HwcLayer → HwcLayer) : HwcDisplay :=
  { s with layers := s.layers.map fun e => if e.id = id then { e with layer := f e.layer } else e }

-- ---------------------------------------------------------------------------
-- The layers
-- ---------------------------------------------------------------------------

/-- `CreateLayer`. -/
def createLayer (s : HwcDisplay) (id : ILayerId) : HwcDisplay :=
  if s.layers.any fun e => e.id == id then s
  else
    { s.markPlanInvalid kLayerAdded with
      layers := s.layers ++ [{ id := id, layer := { layerData := { serial := s.nextSerial } } }]
      nextSerial := s.nextSerial + 1 }

/-- `DestroyLayer`; the kept plan names the layer, and goes with it. -/
def destroyLayer (s : HwcDisplay) (id : ILayerId) : HwcDisplay :=
  if s.layers.any fun e => e.id == id then
    { s.markPlanInvalid kLayerRemoved with
      layers := s.layers.filter fun e => e.id ≠ id
      reusablePlan := none }
  else s

/-- What the occlusion finds of a layer, given all of them bottom first. -/
def occlusionAnswer (s : HwcDisplay) (id : ILayerId) : Occlusion.Shown :=
  let order := s.layers.insertionSort fun a b => a.layer.zOrder ≤ b.layer.zOrder
  let screen : IRect := ⟨0, 0, c.size.1, c.size.2⟩
  let input := order.map fun e => e.layer.occlusionInput c.minCornerRadius screen
  let shown :=
    if c.occlusion then c.resolve input else input.map fun l => { bounds := l.frame }
  ((((order.map Entry.id).zip shown).find? fun a => a.1 == id).map (·.2)).getD {}

/-- `ResolveOcclusion`: each layer is shown as far as it can be seen. -/
def resolveOcclusion (s : HwcDisplay) : HwcDisplay :=
  { s with
    layers := s.layers.map fun e =>
      let layer := e.layer.applyOcclusion (s.occlusionAnswer c e.id)
      { e with layer := layer, lastSeen := some layer.seen } }

/-- `GetOrderLayersByZPos`: what is hidden is nothing to place, and the cursor
is on top. -/
def getOrderLayersByZPos (s : HwcDisplay) : List Entry :=
  let onTop (e : Entry) : Nat := if e.layer.sfType = .kCursor then 1 else 0
  (s.layers.filter fun e => !e.layer.hidden).insertionSort fun a b =>
    onTop a < onTop b ∨ onTop a = onTop b ∧ a.layer.zOrder ≤ b.layer.zOrder

/-- `SeatGpuBuffer`: a buffer of the executor's, as the client's. -/
def seatGpuBuffer (s : HwcDisplay) (now : Nat) (seat : LayerProperties) : HwcDisplay :=
  { s with clientLayer := s.clientLayer.setLayerProperties now seat }

/-- `AcceptValidatedComposition`. -/
def acceptValidatedComposition (s : HwcDisplay) : HwcDisplay :=
  { s with layers := s.layers.map fun e => { e with layer := e.layer.acceptTypeChange } }

-- ---------------------------------------------------------------------------
-- The planner
-- ---------------------------------------------------------------------------

/-- `TakePlanInvalidators`: the bits of the display and of every layer, and one
for a layer that has begun drawing, or stopped. -/
def takePlanInvalidators (s : HwcDisplay) (now : Nat) : UInt32 × HwcDisplay :=
  let taken (l : HwcLayer) : UInt32 :=
    l.planInvalidators ||| (if (l.refreshLiveness c.size now).1 then kLayerActivity else 0)
  let left (l : HwcLayer) : HwcLayer := (l.refreshLiveness c.size now).2.clearPlanInvalidators
  (s.layers.foldl (fun bits e => bits ||| taken e.layer)
      (s.planInvalidators ||| taken s.clientLayer),
    { s with
      planInvalidators := 0
      clientLayer := left s.clientLayer
      layers := s.layers.map fun e => { e with layer := left e.layer } })

/-- `LayersUseDifferentColorspaces`. -/
def layersUseDifferentColorspaces : List Entry → Bool
  | [] => false
  | first :: rest =>
    rest.any fun e => e.layer.layerData.colorspace ≠ first.layer.layerData.colorspace

/-- Why a scene is the client's whole, before its bits are asked for. -/
def flattens (s : HwcDisplay) (v : Validation) : Option FlattenReason :=
  if v.ctmByGpu then some .kCtmWithOffset
  else if layersUseDifferentColorspaces s.getOrderLayersByZPos && !v.useColorPipeline then
    some .kNoPerPlaneColorspaceSupport
  else none

/-- `GetFlattenedComposition`. -/
def getFlattenedComposition (s : HwcDisplay) (reason : FlattenReason) : ValidatedComposition :=
  { compositionTypes := s.getOrderLayersByZPos.map fun e => (e.id, .kClient)
    flattenReason := reason
    madeAt := s.changes }

/-- The kept plan, where it is one to hand back: one that was flattened is
not. -/
def havePlan (s : HwcDisplay) : Option ValidatedComposition :=
  s.reusablePlan.filter fun k => k.flattenReason = .kNone

/-- `GenericCompositionPlanner::ValidateDisplay`: the composition, whether it
is the kept one, and the display its bits were taken from. -/
def validateDisplay (s : HwcDisplay) (v : Validation) :
    ValidatedComposition × Bool × HwcDisplay :=
  match s.flattens v with
  | some reason => (s.getFlattenedComposition reason, false, s)
  | none =>
    let (invalidators, taken) := s.takePlanInvalidators c v.now
    let taken := observe c s taken
    match s.havePlan with
    | some kept =>
      if invalidators = 0 then (kept, true, taken)
      else ({ v.plan with madeAt := taken.changes }, false, { taken with bitsSpent := true })
    | none =>
      ({ v.plan with madeAt := taken.changes }, false,
        { taken with bitsSpent := taken.bitsSpent || decide (invalidators ≠ 0) })

-- ---------------------------------------------------------------------------
-- Validate and present
-- ---------------------------------------------------------------------------

/-- The executor's buffer stands in for the client's, where that cannot be
shown. -/
def standIn (s : HwcDisplay) (v : Validation) : HwcDisplay :=
  if c.hasGpu && !s.clientLayer.isLayerUsableAsDevice then s.seatGpuBuffer v.now v.seat else s

/-- `RefreshDisplayProfile`. -/
def refreshDisplayProfile (s : HwcDisplay) (v : Validation) : HwcDisplay :=
  if v.profileChanged then s.markPlanInvalid kColorTransform else s

/-- What a validation does before the planner is asked. -/
def prepared (s : HwcDisplay) (v : Validation) : HwcDisplay :=
  let s := { s with validatedComposition := none }
  ((s.refreshDisplayProfile v).resolveOcclusion c).standIn c v

/-- The display as the planner is given it. -/
def beforePlan (s : HwcDisplay) (v : Validation) : HwcDisplay := observe c s (s.prepared c v)

/-- The composition as the display stages it: the hidden layers in it as layers
nothing shows, and drawn by the executor where that can. -/
def staged (s : HwcDisplay) (v : Validation) (composition : ValidatedComposition) :
    ValidatedComposition :=
  let hidden := s.layers.filter fun e => e.layer.hidden
  { composition with
    compositionTypes :=
      hidden.map (fun e => (e.id, CompositionType.kDeviceOccluded)) ++
        composition.compositionTypes.filter fun t => hidden.all fun e => e.id ≠ t.1
    gpuDrawsClient := composition.gpuDrawsClient || (c.hasGpu && v.gpuCanDraw) }

/-- The type the client is told of a layer. -/
def toldType (composition : ValidatedComposition) (l : HwcLayer) (type : CompositionType) :
    CompositionType :=
  if (composition.gpuDrawsClient = true ∧ type = .kClient) ∨ type = .kDeviceOccluded then
    if l.sfType = .kSolidColor then .kSolidColor else .kDevice
  else type

/-- Each layer given its type. -/
def setTypes (s : HwcDisplay) (composition : ValidatedComposition) : HwcDisplay :=
  { s with
    layers := s.layers.map fun e =>
      match composition.compositionTypes.find? fun t => t.1 == e.id with
      | none => e
      | some t => { e with layer := e.layer.setValidatedType (toldType composition e.layer t.2) } }

/-- `ValidateStagedComposition`. -/
def validateStagedComposition (s : HwcDisplay) (v : Validation) : HwcDisplay :=
  if s.headless = true ∨ s.layers = [] then { s with validatedComposition := none }
  else
    let (composition, reused, s') := (s.beforePlan c v).validateDisplay c v
    let composition := s'.staged c v composition
    { s'.setTypes composition with
      validatedComposition := some composition
      stagedCompositionReused := reused }

/-- The layers whose type the client must take. -/
def changedLayers (s : HwcDisplay) : List (ILayerId × CompositionType) :=
  (s.layers.filter fun e => e.layer.isTypeChanged).map fun e => (e.id, e.layer.validatedType)

/-- Whether nothing the plan depends on moved, looked at and left in place. -/
def nothingMoved (s : HwcDisplay) (now : Nat) : Bool :=
  let still (l : HwcLayer) : Bool :=
    decide (l.planInvalidators = 0) && !l.livenessWouldChange c.size now
  decide (s.planInvalidators = 0) && still s.clientLayer && s.layers.all fun e => still e.layer

/-- Whether a present without a validation may be validated here. -/
def mayValidate (s : HwcDisplay) (now : Nat) : Bool :=
  s.validatedComposition.isNone && !s.headless && !s.layers.isEmpty && s.havePlan.isSome &&
    s.nothingMoved c now

/-- `ValidateForPresentWithoutValidation`. -/
def validateForPresentWithoutValidation (s : HwcDisplay) (p : Presentation) :
    Bool × HwcDisplay :=
  if s.mayValidate c p.peekedAt then
    let s' := s.validateStagedComposition c p.validation
    if s'.stagedCompositionReused = false ∨ s'.changedLayers ≠ [] then
      (false, { s' with validatedComposition := none }.markPlanInvalid kAllDirty)
    else (true, s'.acceptValidatedComposition)
  else (false, s)

/-- What is staged where nothing was validated: the types as they stand. -/
def compositionOfTypes (s : HwcDisplay) : ValidatedComposition :=
  { compositionTypes := s.layers.map fun e =>
      (e.id, if e.layer.hidden then .kDeviceOccluded else e.layer.validatedType) }

/-- `CommitStagedComposition`: the executor's buffer is seated, the plan kept
where it is not the kept one already, and dropped where the frame fails. -/
def commitStagedComposition (s : HwcDisplay) (p : Presentation)
    (composition : ValidatedComposition) : HwcDisplay :=
  let s' :=
    if composition.gpuDrawsClient then observe c s (s.seatGpuBuffer p.now p.seat) else s
  let s' :=
    if p.described && !s'.stagedCompositionReused then
      { s' with reusablePlan := some composition, bitsSpent := false }
    else s'
  let s' := { s' with validatedComposition := none }
  if p.described && p.committed then s'
  else { s' with reusablePlan := none }.markPlanInvalid kAllDirty

/-- `PresentStagedComposition`. -/
def presentStagedComposition (s : HwcDisplay) (p : Presentation) : HwcDisplay :=
  if s.headless = true ∨ s.layers = [] then s
  else
    s.commitStagedComposition c p
      (match s.validatedComposition with
        | some composition => composition
        | none => s.compositionOfTypes)

/-- `PresentDisplay`. -/
def presentDisplay (s : HwcDisplay) (p : Presentation) : HwcDisplay :=
  if s.validatedComposition.isSome then s.presentStagedComposition c p
  else
    match s.validateForPresentWithoutValidation c p with
    | (true, s') => s'.presentStagedComposition c p
    | (false, s') => s'

/-- `Deinit`, and what `SetPipeline` leaves. -/
def setPipeline (s : HwcDisplay) (headless : Bool) : HwcDisplay :=
  let s' :=
    if s.headless then s
    else
      { s with validatedComposition := none, reusablePlan := none }.markPlanInvalid kAllDirty
  { s' with headless := headless }

/-- What is asked of a display. Of an effect the value read comes, of a change
of the display's own (its colours, mode or power) the bit. -/
inductive Action where
  | createLayer (id : ILayerId)
  | destroyLayer (id : ILayerId)
  | setLayerProperties (id : ILayerId) (now : Nat) (lp : LayerProperties)
  | setClientTarget (now : Nat) (lp : LayerProperties)
  | applyEffectMetadata (id : ILayerId) (applied : Option LayerEffects)
  | setSolidColor (id : ILayerId) (r g b a : UInt8)
  | setVisibleRegion (id : ILayerId) (region : List IRect)
  | markPlanInvalid (bits : UInt32)
  | acceptDisplayChanges
  | validateDisplay (v : Validation)
  | presentDisplay (p : Presentation)
  | setPipeline (headless : Bool)

/-- What an action leaves. -/
def act (s : HwcDisplay) : Action → HwcDisplay
  | .createLayer id => observe c s (s.createLayer id)
  | .destroyLayer id => observe c s (s.destroyLayer id)
  | .setLayerProperties id now lp =>
    observe c s (s.modifyLayer id fun l => l.setLayerProperties now lp)
  | .setClientTarget now lp => observe c s (s.seatGpuBuffer now lp)
  | .applyEffectMetadata id applied =>
    observe c s (s.modifyLayer id (HwcLayer.applyEffectMetadata c.minCornerRadius applied))
  | .setSolidColor id r g b a => observe c s (s.modifyLayer id (HwcLayer.setSolidColor r g b a))
  | .setVisibleRegion id region =>
    observe c s (s.modifyLayer id (HwcLayer.setVisibleRegion region))
  | .markPlanInvalid bits => s.markPlanInvalid bits
  | .acceptDisplayChanges => s.acceptValidatedComposition
  | .validateDisplay v => s.validateStagedComposition c v
  | .presentDisplay p => s.presentDisplay c p
  | .setPipeline headless => s.setPipeline headless

/-- A display. -/
def machine : Machine HwcDisplay Action Unit where
  step s a := some (s.act c a)
  events _ _ := []

end HwcDisplay

end TegraHwc
