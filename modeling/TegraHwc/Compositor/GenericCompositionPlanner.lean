import Mathlib.Algebra.Order.Floor.Ring
import Mathlib.Data.Rat.Floor
import TegraHwc.Hwc.HwcDisplay

/-!
# TegraHwc — the planner's search

`compositor/GenericCompositionPlanner.cpp`: which layers of a scene are the
client's, and the attempts at a composition, each put to the kernel before it
is taken -- the first, one rung of the ladder below it, the cursor's fallback,
and the whole scene to the client.

The display is what the planner asks of it; what the kernel answers to a
composition may be otherwise each time it is asked. The questions it was asked
are kept beside the composition, for what is said of it.
-/

namespace TegraHwc

/-- `CommitStatus`. -/
structure CommitStatus where
  success : Bool := true
  errorCode : Int := 0
  deriving DecidableEq, Repr

/-- `ICompositorDisplay`: the display as the planner asks it. The cursor's
plane is the layers it is valid for, and `testComposition` is given the number
of its question. -/
structure ICompositorDisplay where
  size : Nat × Nat := (1, 1)
  minCornerRadius : Rat := 0
  ctmByGpu : Bool := false
  useColorPipeline : Bool := false
  forcedScalingWithGpu : Bool := false
  numAvailablePlanes : Nat := 0
  numDirectPlanes : Nat := 0
  cursorPlane : Option (LayerData → Bool) := none
  cursorPlaneNeedsColorPipeline : HwcLayer → Bool := fun _ => false
  testComposition : Nat → ValidatedComposition → CommitStatus := fun _ _ => {}

/-- `Resizes`. -/
def PresentInfo.resizes (pi : PresentInfo) : Bool :=
  let e := pi.extentsInDestAxes 0 0
  pi.sourceCrop.isSome && pi.displayFrame.isSome && (e.srcW ≠ e.dstW || e.srcH ≠ e.dstH)

/-- `RequireScalingOrPhasing`. -/
def PresentInfo.requireScalingOrPhasing (pi : PresentInfo) : Bool :=
  match pi.sourceCrop, pi.displayFrame with
  | some src, some _ => pi.resizes || src.left ≠ ⌊src.left⌋ || src.top ≠ ⌊src.top⌋
  | _, _ => false

namespace GenericCompositionPlanner

variable (d : ICompositorDisplay) (layers : List Entry)

-- ---------------------------------------------------------------------------
-- The client's range
-- ---------------------------------------------------------------------------

/-- `HardwareSupportsLayerType`. -/
def hardwareSupportsLayerType (type : CompositionType) : Bool :=
  type = .kDevice || type = .kCursor

/-- `IsClientLayer`. -/
def isClientLayer (l : HwcLayer) : Bool :=
  l.layerData.effects.any d.minCornerRadius || !hardwareSupportsLayerType l.sfType ||
    !l.isLayerUsableAsDevice || d.ctmByGpu ||
    (l.layerData.pi.requireScalingOrPhasing && d.forcedScalingWithGpu)

/-- The loop of `GetClientLayers`, from the layer at a height on: the range
that spans the client's layers, as its start and its size. -/
def spanFrom : List Entry → Nat → Nat × Nat → Nat × Nat
  | [], _, range => range
  | e :: rest, zOrder, range =>
    if isClientLayer d e.layer then
      let clientStart := if range.2 = 0 then zOrder else range.1
      spanFrom rest (zOrder + 1) (clientStart, zOrder - clientStart + 1)
    else spanFrom rest (zOrder + 1) range

/-- `CalcPixOps`. -/
def calcPixOps (firstZ size : Nat) : UInt32 :=
  ((layers.drop firstZ).take size).foldl
    (fun pixops e => pixops + UInt32.ofNat (e.layer.getPixOps d.size)) 0

/-- Whether the topmost layer is a cursor. -/
def topIsCursor : Bool := (layers.getLast?.map fun e => e.layer.sfType) = some .kCursor

/-- The greatest `size_t` of the target. -/
def sizeMax : Nat := 2 ^ 32 - 1

/-- A `size_t` less one; nought turns to the greatest. -/
def lessOne (n : Nat) : Nat := if n = 0 then sizeMax else n - 1

/-- The planes and the layers `GetExtraClientRange` counts. -/
def counted (clientStart clientSize : Nat) (useCursorPlane : Bool) : Nat × Nat :=
  -- the cursor's plane is not among those available
  let layersSize := if useCursorPlane then layers.length - 1 else layers.length
  -- with too few planes one is the client target's
  let availPlanes :=
    if d.numAvailablePlanes < layersSize then lessOne d.numAvailablePlanes
    else d.numAvailablePlanes
  -- a cursor without its plane is kept one of the others
  if useCursorPlane = false ∧ 0 < availPlanes ∧ 0 < layersSize ∧
      clientStart + clientSize < layersSize ∧ topIsCursor layers then
    (availPlanes - 1, layersSize - 1)
  else (availPlanes, layersSize)

/-- The window's search: of its places, the first that costs the least. -/
def slide (clientStart clientSize start steps : Nat) : Nat :=
  ((List.range steps).foldl
    (fun best i =>
      let po := calcPixOps d layers (start + i) clientSize
      if po < best.1 then (po, start + i) else best)
    ((0xFFFFFFFF : UInt32), clientStart)).2

/-- `GetExtraClientRange`. -/
def getExtraClientRange (clientStart clientSize : Nat) (useCursorPlane : Bool)
    (forcedExtraClient : Nat) : Nat × Nat :=
  let (availPlanes, layersSize) := counted d layers clientStart clientSize useCursorPlane
  if (availPlanes < layersSize - clientSize ∨ 0 < forcedExtraClient) ∧ clientSize < layersSize then
    let extraClient :=
      if availPlanes < layersSize - clientSize then (layersSize - clientSize) - availPlanes else 0
    let extraClient :=
      min ((extraClient + forcedExtraClient) % (sizeMax + 1)) (layersSize - clientSize)
    if clientSize ≠ 0 then
      let before := min clientStart extraClient
      let after := min (layersSize - (clientStart + clientSize)) extraClient
      let start := clientStart - before
      let grown := clientSize + extraClient
      let steps := 1 + min (min after before) (layersSize - (start + grown))
      (slide d layers clientStart grown start steps, grown)
    else
      let steps := 1 + layersSize - extraClient
      (slide d layers clientStart extraClient 0 steps, extraClient)
  else (clientStart, clientSize)

/-- `GetClientLayers`. -/
def getClientLayers (useCursorPlane : Bool) (forcedExtraClient : Nat) : Nat × Nat :=
  let span := spanFrom d layers 0 (0, 0)
  getExtraClientRange d layers span.1 span.2 useCursorPlane forcedExtraClient

-- ---------------------------------------------------------------------------
-- The composition
-- ---------------------------------------------------------------------------

/-- `GetCompositionTypes`. -/
def getCompositionTypes (clientFirstZ clientSize : Nat) (useCursorPlane : Bool) :
    List (ILayerId × CompositionType) :=
  layers.mapIdx fun zOrder e =>
    (e.id,
      if clientFirstZ ≤ zOrder ∧ zOrder < clientFirstZ + clientSize then .kClient
      else if useCursorPlane = true ∧ e.layer.sfType = .kCursor then .kCursor
      else .kDevice)

/-- `GetPunchOutLayers`: what lies below the client's target. -/
def getPunchOutLayers (clientFirstZ clientSize : Nat) : List ILayerId :=
  if clientSize = 0 then [] else (layers.take clientFirstZ).map Entry.id

/-- `GetFlattenedComposition`. -/
def getFlattenedComposition (reason : FlattenReason) : ValidatedComposition :=
  { compositionTypes := layers.map fun e => (e.id, .kClient)
    flattenReason := reason }

/-- The composition of a range, as an attempt puts it to the kernel. -/
def composed (range : Nat × Nat) (useCursorPlane : Bool) : ValidatedComposition :=
  { compositionTypes := getCompositionTypes layers range.1 range.2 useCursorPlane
    punchOutLayers := getPunchOutLayers layers range.1 range.2 }

/-- `GetCursorLayer`: the first of the cursors, by its height. -/
def getCursorLayer : Option Nat := layers.findIdx? fun e => e.layer.sfType = .kCursor

/-- Whether the cursor's plane is worth asking about: the first cursor is the
topmost layer, none of the client's, and one the plane can show. -/
def cursorMayShow : Bool :=
  match getCursorLayer layers, d.cursorPlane, layers.getLast? with
  | some zOrder, some isValidForLayer, some top =>
    zOrder + 1 = layers.length && !isClientLayer d top.layer &&
      isValidForLayer top.layer.layerData && !d.cursorPlaneNeedsColorPipeline top.layer
  | _, _, _ => false

-- ---------------------------------------------------------------------------
-- The attempts
-- ---------------------------------------------------------------------------

/-- A question put to the kernel, and its answer. -/
abbrev Question := ValidatedComposition × CommitStatus

/-- What the attempts share: the range, the composition of the last attempt
and whether it succeeded, the last answer, and the questions asked. -/
structure Search where
  range : Nat × Nat := (0, 0)
  composition : ValidatedComposition := {}
  commitStatus : CommitStatus := {}
  asked : List Question := []
  success : Bool := false

/-- `TestComposition`. -/
def testComposition (asked : List Question) (composition : ValidatedComposition) : CommitStatus :=
  d.testComposition asked.length composition

/-- Whether the cursor's plane is used: where it may show, the kernel is asked
with every other layer the client's. -/
def tryCursorPlane : Bool × List Question :=
  if cursorMayShow d layers then
    let composition : ValidatedComposition :=
      { compositionTypes := getCompositionTypes layers 0 (layers.length - 1) true }
    let status := testComposition d [] composition
    (status.success, [(composition, status)])
  else (false, [])

/-- `validate_and_test`: all to the client needs no asking. -/
def validateAndTest (useCursorPlane : Bool) (s : Search) : Search :=
  let composition := composed layers s.range useCursorPlane
  if s.range.1 ≠ 0 ∨ s.range.2 ≠ layers.length then
    let status := testComposition d s.asked composition
    { s with
      composition := composition
      commitStatus := status
      asked := s.asked ++ [(composition, status)]
      success := status.success }
  else { s with composition := composition, success := true }

/-- The first attempt. -/
def initial (useCursorPlane : Bool) (asked : List Question) : Search :=
  validateAndTest d layers useCursorPlane
    { range := getClientLayers d layers useCursorPlane 0, asked := asked }

/-- How many layers the ladder's rung hands over: down to what the real
surfaces hold. -/
def rung (refusedSize : Nat) : Nat :=
  let deviceLayers := layers.length - refusedSize
  if 0 < d.numDirectPlanes ∧ d.numDirectPlanes < deviceLayers + 1 then
    deviceLayers + 1 - d.numDirectPlanes
  else 1

/-- One rung of the ladder. -/
def ladder (useCursorPlane : Bool) (s : Search) : Search :=
  if s.success = false ∧ 1 < layers.length then
    let range := getClientLayers d layers useCursorPlane (rung d layers s.range.2)
    let moved := { s with range := range }
    if range ≠ s.range then validateAndTest d layers useCursorPlane moved else moved
  else s

/-- The cursor's fallback: all below it to the client. -/
def cursorFallback (useCursorPlane : Bool) (s : Search) : Search :=
  if s.success = false ∧ (getCursorLayer layers).isSome ∧ topIsCursor layers then
    validateAndTest d layers useCursorPlane { s with range := (0, layers.length - 1) }
  else s

/-- The composition in the end: all to the client where no attempt
succeeded. -/
def settle (useCursorPlane : Bool) (s : Search) : ValidatedComposition :=
  let composition :=
    if s.success then s.composition
    else
      { getFlattenedComposition layers .kValidateFailed with
        errorCode := s.commitStatus.errorCode }
  if useCursorPlane then { composition with cursorPlaneValidated := some s.success }
  else composition

/-- The attempts, one after the other. -/
def attempts : Search :=
  let (useCursorPlane, asked) := tryCursorPlane d layers
  cursorFallback d layers useCursorPlane
    (ladder d layers useCursorPlane (initial d layers useCursorPlane asked))

/-- `ValidationResult`, and the questions it took. -/
structure ValidationResult where
  composition : ValidatedComposition := {}
  shortCircuited : Bool := false
  asked : List Question := []

/-- Why a scene is the client's whole, whatever the kernel would say. -/
def flattens : Option FlattenReason :=
  if d.ctmByGpu then some .kCtmWithOffset
  else if HwcDisplay.layersUseDifferentColorspaces layers && !d.useColorPipeline then
    some .kNoPerPlaneColorspaceSupport
  else none

/-- `ValidateDisplay`, with the bits taken and the plan kept. -/
def validateDisplay (invalidators : UInt32) (reusable : Option ValidatedComposition) :
    ValidationResult :=
  match flattens d layers with
  | some reason => { composition := getFlattenedComposition layers reason }
  | none =>
    match reusable.filter fun kept => invalidators = 0 ∧ kept.flattenReason = .kNone with
    | some kept => { composition := kept, shortCircuited := true }
    | none =>
      { composition := settle layers (tryCursorPlane d layers).1 (attempts d layers)
        asked := (attempts d layers).asked }

-- ---------------------------------------------------------------------------
-- The range holds the client's layers
-- ---------------------------------------------------------------------------

/-- A height within a range. -/
def InRange (range : Nat × Nat) (zOrder : Nat) : Prop :=
  range.1 ≤ zOrder ∧ zOrder < range.1 + range.2

instance (range : Nat × Nat) (zOrder : Nat) : Decidable (InRange range zOrder) :=
  inferInstanceAs (Decidable (_ ∧ _))

/-- A range holds every layer that is the client's. -/
def HoldsClients (range : Nat × Nat) : Prop :=
  ∀ zOrder e, layers[zOrder]? = some e → isClientLayer d e.layer = true → InRange range zOrder

variable {d : ICompositorDisplay} {layers : List Entry} {useCursorPlane : Bool}

/-- The loop keeps what it spans, spans each client layer it meets, and ends
with the last of them. -/
theorem spanFrom_spans {rest : List Entry} {z : Nat} {range : Nat × Nat}
    (hBelow : range.1 + range.2 ≤ z) :
    (∀ y, InRange range y → InRange (spanFrom d rest z range) y) ∧
      (∀ i e, rest[i]? = some e → isClientLayer d e.layer = true →
        InRange (spanFrom d rest z range) (z + i)) ∧
      ((spanFrom d rest z range).1 + (spanFrom d rest z range).2 = range.1 + range.2 ∨
        ∃ i e, rest[i]? = some e ∧ isClientLayer d e.layer = true ∧
          (spanFrom d rest z range).1 + (spanFrom d rest z range).2 = z + i + 1) := by
  induction rest generalizing z range with
  | nil => exact ⟨fun _ h => h, fun i e h => (nomatch h), .inl rfl⟩
  | cons e rest ih =>
    unfold spanFrom
    by_cases hClient : isClientLayer d e.layer = true
    · rw [if_pos hClient]
      simp only
      generalize hStart : (if range.2 = 0 then z else range.1) = start
      have hStartLe : start ≤ z := by
        rw [← hStart]
        split <;> omega
      obtain ⟨hKept, hMet, hEnd⟩ := @ih (z + 1) (start, z - start + 1) (by simp only; omega)
      refine ⟨fun y hy => hKept y ?_, fun i e' he' hClient' => ?_, ?_⟩
      · unfold InRange at hy ⊢
        split at hStart <;> simp only <;> omega
      · cases i with
        | zero =>
          refine hKept z ?_
          unfold InRange
          simp only
          omega
        | succ i =>
          rw [show z + (i + 1) = z + 1 + i by omega]
          exact hMet i e' he' hClient'
      · obtain hEnd | ⟨i, e', he', hClient', hEnd⟩ := hEnd
        · exact .inr ⟨0, e, rfl, hClient, by rw [hEnd]; simp only; omega⟩
        · exact .inr ⟨i + 1, e', he', hClient', by omega⟩
    · rw [if_neg hClient]
      obtain ⟨hKept, hMet, hEnd⟩ := @ih (z + 1) range (by omega)
      refine ⟨hKept, fun i e' he' hClient' => ?_, ?_⟩
      · cases i with
        | zero =>
          obtain rfl := Option.some.inj he'
          exact absurd hClient' hClient
        | succ i =>
          rw [show z + (i + 1) = z + 1 + i by omega]
          exact hMet i e' he' hClient'
      · obtain hEnd | ⟨i, e', he', hClient', hEnd⟩ := hEnd
        · exact .inl hEnd
        · exact .inr ⟨i + 1, e', he', hClient', by omega⟩

/-- The search ends where it began or at a place it tried. -/
theorem slide_cases (clientStart clientSize start steps : Nat) :
    slide d layers clientStart clientSize start steps = clientStart ∨
      ∃ i < steps, slide d layers clientStart clientSize start steps = start + i := by
  have hFold : ∀ (tried : List Nat) (best : UInt32 × Nat),
      (∀ i ∈ tried, i < steps) →
      (best.2 = clientStart ∨ ∃ i < steps, best.2 = start + i) →
      let last := tried.foldl (fun best i =>
        if calcPixOps d layers (start + i) clientSize < best.1 then
          (calcPixOps d layers (start + i) clientSize, start + i)
        else best) best
      last.2 = clientStart ∨ ∃ i < steps, last.2 = start + i := by
    intro tried
    induction tried with
    | nil => exact fun _ _ h => h
    | cons i rest ih =>
      intro best hTried hBest
      refine ih _ (fun j hj => hTried j (List.mem_cons_of_mem _ hj)) ?_
      beta_reduce
      split
      · exact .inr ⟨i, hTried i List.mem_cons_self, rfl⟩
      · exact hBest
  exact hFold (List.range steps) _ (fun i hi => List.mem_range.mp hi) (.inl rfl)

/-- What is counted leaves room for the range asked about. -/
theorem counted_room {clientStart clientSize : Nat}
    (hRoom : clientStart + clientSize ≤ if useCursorPlane then layers.length - 1 else layers.length) :
    clientStart + clientSize ≤ (counted d layers clientStart clientSize useCursorPlane).2 := by
  unfold counted
  simp only
  generalize (if useCursorPlane = true then layers.length - 1 else layers.length) = layersSize
    at hRoom ⊢
  generalize (if d.numAvailablePlanes < layersSize then lessOne d.numAvailablePlanes
    else d.numAvailablePlanes) = availPlanes
  split
  · rename_i hReserved
    simp only
    omega
  · exact hRoom

/-- A range only grows. -/
theorem getExtraClientRange_grows {clientStart clientSize forcedExtraClient : Nat}
    (hRoom : clientStart + clientSize ≤ if useCursorPlane then layers.length - 1 else layers.length)
    {z : Nat} (hIn : InRange (clientStart, clientSize) z) :
    InRange (getExtraClientRange d layers clientStart clientSize useCursorPlane forcedExtraClient)
      z := by
  have hCounted := @counted_room d layers useCursorPlane _ _ hRoom
  unfold getExtraClientRange
  generalize counted d layers clientStart clientSize useCursorPlane = room at hCounted
  obtain ⟨availPlanes, layersSize⟩ := room
  simp only at hCounted ⊢
  by_cases hMore : (availPlanes < layersSize - clientSize ∨ 0 < forcedExtraClient) ∧
      clientSize < layersSize
  · rw [if_pos hMore]
    generalize min (((if availPlanes < layersSize - clientSize then
      layersSize - clientSize - availPlanes else 0) + forcedExtraClient) % (sizeMax + 1))
      (layersSize - clientSize) = extraClient
    unfold InRange at hIn ⊢
    simp only at hIn
    have hSize : clientSize ≠ 0 := by omega
    rw [if_pos hSize]
    simp only
    obtain hSame | ⟨i, hi, hAt⟩ := @slide_cases d layers clientStart (clientSize + extraClient)
      (clientStart - min clientStart extraClient)
      (1 + min (min (min (layersSize - (clientStart + clientSize)) extraClient)
        (min clientStart extraClient))
        (layersSize - (clientStart - min clientStart extraClient + (clientSize + extraClient))))
    · rw [hSame]
      omega
    · rw [hAt]
      omega
  · rw [if_neg hMore]
    exact hIn

/-- The span lies within the layers, below a cursor on its own plane. -/
theorem spanFrom_inside (hTop : useCursorPlane = true → ∀ top, layers.getLast? = some top →
      isClientLayer d top.layer = false) :
    (spanFrom d layers 0 (0, 0)).1 + (spanFrom d layers 0 (0, 0)).2 ≤
      if useCursorPlane then layers.length - 1 else layers.length := by
  obtain ⟨-, -, hEnd⟩ := @spanFrom_spans d layers 0 (0, 0) (Nat.le_refl 0)
  obtain hEnd | ⟨i, e', he', hClient', hEnd⟩ := hEnd
  · rw [hEnd]
    exact Nat.zero_le _
  · rw [hEnd]
    have hi := (List.getElem?_eq_some_iff.mp he').1
    by_cases hUse : useCursorPlane = true
    · rw [if_pos hUse]
      -- the last client layer is not the topmost
      have hNotTop : i ≠ layers.length - 1 := by
        intro hTopmost
        have := hTop hUse e' (by rw [List.getLast?_eq_getElem?, ← hTopmost, he'])
        rw [hClient'] at this
        cases this
      omega
    · rw [if_neg hUse]
      omega

/-- **The client's range holds the client's layers**, however far it is
grown. -/
theorem getClientLayers_holds {forcedExtraClient : Nat}
    (hTop : useCursorPlane = true → ∀ top, layers.getLast? = some top →
      isClientLayer d top.layer = false) :
    HoldsClients d layers (getClientLayers d layers useCursorPlane forcedExtraClient) := by
  intro zOrder e he hClient
  obtain ⟨-, hMet, -⟩ := @spanFrom_spans d layers 0 (0, 0) (Nat.le_refl 0)
  have hIn := hMet zOrder e he hClient
  rw [Nat.zero_add] at hIn
  exact getExtraClientRange_grows (spanFrom_inside hTop) hIn

-- ---------------------------------------------------------------------------
-- What a composition is to be
-- ---------------------------------------------------------------------------

/-- The type of the layer at a height. -/
def typeAt (c : ValidatedComposition) (zOrder : Nat) : Option CompositionType :=
  (c.compositionTypes[zOrder]?).map Prod.snd

/-- **A composition well planned.** Each layer has its one type; the client's
layers are the client's, in one range of heights; a cursor is the topmost; the
client is asked for holes under what lies below its range; and what is left to
the hardware, the kernel has accepted. -/
structure Sound (d : ICompositorDisplay) (layers : List Entry) (r : ValidationResult) : Prop where
  each : r.composition.compositionTypes.map Prod.fst = layers.map Entry.id
  client : ∀ zOrder e, layers[zOrder]? = some e → isClientLayer d e.layer = true →
    typeAt r.composition zOrder = some .kClient
  contiguous : ∀ y z w, y ≤ z → z ≤ w → typeAt r.composition y = some .kClient →
    typeAt r.composition w = some .kClient → typeAt r.composition z = some .kClient
  cursor : ∀ zOrder, typeAt r.composition zOrder = some .kCursor → zOrder + 1 = layers.length
  punchOut : ∀ zOrder, typeAt r.composition zOrder = some .kClient →
    (∀ y < zOrder, typeAt r.composition y ≠ some .kClient) →
    r.composition.punchOutLayers = (layers.take zOrder).map Entry.id
  accepted : (∃ zOrder type, typeAt r.composition zOrder = some type ∧ type ≠ .kClient) →
    ∃ q ∈ r.asked, q.2.success = true ∧
      q.1.compositionTypes = r.composition.compositionTypes ∧
      q.1.punchOutLayers = r.composition.punchOutLayers

theorem typeAt_composed (range : Nat × Nat) (zOrder : Nat) :
    typeAt (composed layers range useCursorPlane) zOrder =
      (layers[zOrder]?).map fun e =>
        if InRange range zOrder then .kClient
        else if useCursorPlane = true ∧ e.layer.sfType = .kCursor then .kCursor
        else .kDevice := by
  unfold typeAt composed getCompositionTypes
  rw [List.getElem?_mapIdx, Option.map_map]
  rfl

theorem typeAt_composed_client {range : Nat × Nat} {zOrder : Nat} :
    typeAt (composed layers range useCursorPlane) zOrder = some .kClient ↔
      zOrder < layers.length ∧ InRange range zOrder := by
  rw [typeAt_composed, Option.map_eq_some_iff]
  constructor
  · rintro ⟨e, he, hType⟩
    refine ⟨(List.getElem?_eq_some_iff.mp he).1, ?_⟩
    by_contra hOut
    rw [if_neg hOut] at hType
    split at hType <;> cases hType
  · rintro ⟨hLt, hIn⟩
    exact ⟨layers[zOrder], List.getElem?_eq_getElem hLt, if_pos hIn⟩

theorem typeAt_flattened {reason : FlattenReason} {zOrder : Nat} {type : CompositionType}
    (h : typeAt (getFlattenedComposition layers reason) zOrder = some type) : type = .kClient := by
  unfold typeAt getFlattenedComposition at h
  simp only [List.getElem?_map, Option.map_map, Option.map_eq_some_iff, Function.comp_def] at h
  obtain ⟨-, -, rfl⟩ := h
  rfl

/-- What is wholly the client's is well planned. -/
theorem sound_flattened {r : ValidationResult} {reason : FlattenReason}
    (hTypes : r.composition.compositionTypes = (getFlattenedComposition layers reason).compositionTypes)
    (hPunchOut : r.composition.punchOutLayers = []) : Sound d layers r := by
  have hType : ∀ zOrder, typeAt r.composition zOrder =
      typeAt (getFlattenedComposition layers reason) zOrder := by
    intro zOrder
    unfold typeAt
    rw [hTypes]
  have hClient : ∀ zOrder e, layers[zOrder]? = some e →
      typeAt r.composition zOrder = some .kClient := by
    intro zOrder e he
    rw [hType]
    simp [typeAt, getFlattenedComposition, he]
  refine ⟨?_, fun zOrder e he _ => hClient zOrder e he, fun y z w _ hzw _ hw => ?_,
    fun zOrder h => ?_, fun zOrder h hLowest => ?_, ?_⟩
  · rw [hTypes]
    simp [getFlattenedComposition]
  · have hLt : w < layers.length := by
      by_contra hOut
      rw [hType] at hw
      simp [typeAt, getFlattenedComposition, List.getElem?_eq_none (Nat.not_lt.mp hOut)] at hw
    exact hClient z _ (List.getElem?_eq_getElem (by omega))
  · rw [hType] at h
    cases typeAt_flattened h
  · have hLt : zOrder < layers.length := by
      by_contra hOut
      rw [hType] at h
      simp [typeAt, getFlattenedComposition, List.getElem?_eq_none (Nat.not_lt.mp hOut)] at h
    -- the lowest layer is the client's too
    obtain rfl : zOrder = 0 := by
      by_contra hPos
      exact hLowest 0 (by omega) (hClient 0 _ (List.getElem?_eq_getElem (by omega)))
    rw [hPunchOut]
    rfl
  · rintro ⟨zOrder, type, h, hOther⟩
    rw [hType] at h
    exact absurd (typeAt_flattened h) hOther

/-- The cursor's plane is used only for the topmost layer, the first of the
cursors and none of the client's. -/
theorem tryCursorPlane_top (h : (tryCursorPlane d layers).1 = true) :
    (∃ zOrder, getCursorLayer layers = some zOrder ∧ zOrder + 1 = layers.length) ∧
      ∀ top, layers.getLast? = some top → isClientLayer d top.layer = false := by
  have hMay : cursorMayShow d layers = true := by
    by_contra hNot
    unfold tryCursorPlane at h
    rw [if_neg hNot] at h
    cases h
  unfold cursorMayShow at hMay
  split at hMay
  · rename_i zOrder isValidForLayer top hCursor hPlane hTop
    simp only [Bool.and_eq_true, decide_eq_true_eq, Bool.not_eq_true'] at hMay
    refine ⟨⟨zOrder, hCursor, hMay.1.1.1⟩, fun top' hTop' => ?_⟩
    rw [hTop] at hTop'
    obtain rfl := Option.some.inj hTop'
    exact hMay.1.1.2
  · cases hMay

/-- The first cursor is no higher than any. -/
theorem getCursorLayer_le {first zOrder : Nat} {e : Entry} (hFirst : getCursorLayer layers = some first)
    (he : layers[zOrder]? = some e) (hCursor : e.layer.sfType = .kCursor) : first ≤ zOrder := by
  unfold getCursorLayer at hFirst
  obtain ⟨hLt, -, hBefore⟩ := List.findIdx?_eq_some_iff_getElem.mp hFirst
  by_contra hBelow
  have hNot := hBefore zOrder (by omega)
  rw [(List.getElem?_eq_some_iff.mp he).2] at hNot
  exact hNot (decide_eq_true hCursor)

/-- A range's composition is well planned where the range holds the client's
layers, and is the whole scene or accepted. -/
theorem sound_composed {r : ValidationResult} {range : Nat × Nat}
    (hTypes : r.composition.compositionTypes = (composed layers range useCursorPlane).compositionTypes)
    (hPunchOut : r.composition.punchOutLayers = (composed layers range useCursorPlane).punchOutLayers)
    (hHolds : HoldsClients d layers range)
    (hCursor : useCursorPlane = true →
      ∃ zOrder, getCursorLayer layers = some zOrder ∧ zOrder + 1 = layers.length)
    (hAccepted : range = (0, layers.length) ∨
      ∃ status, (composed layers range useCursorPlane, status) ∈ r.asked ∧ status.success = true) :
    Sound d layers r := by
  have hType : ∀ zOrder, typeAt r.composition zOrder =
      typeAt (composed layers range useCursorPlane) zOrder := by
    intro zOrder
    unfold typeAt
    rw [hTypes]
  refine ⟨?_, fun zOrder e he hClient => ?_, fun y z w hyz hzw hy hw => ?_, fun zOrder h => ?_,
    fun zOrder h hLowest => ?_, ?_⟩
  · rw [hTypes]
    unfold composed getCompositionTypes
    apply List.ext_getElem?
    intro i
    simp [List.getElem?_mapIdx]
    rfl
  · rw [hType]
    exact typeAt_composed_client.mpr
      ⟨(List.getElem?_eq_some_iff.mp he).1, hHolds zOrder e he hClient⟩
  · rw [hType] at hy hw ⊢
    obtain ⟨-, hy⟩ := typeAt_composed_client.mp hy
    obtain ⟨hLt, hw⟩ := typeAt_composed_client.mp hw
    refine typeAt_composed_client.mpr ⟨by omega, ?_⟩
    unfold InRange at hy hw ⊢
    omega
  · rw [hType, typeAt_composed, Option.map_eq_some_iff] at h
    obtain ⟨e, he, hIsCursor⟩ := h
    split at hIsCursor
    · cases hIsCursor
    split at hIsCursor
    · rename_i hUse
      obtain ⟨first, hFirst, hTop⟩ := hCursor hUse.1
      have hLe := getCursorLayer_le hFirst he hUse.2
      have hLt := (List.getElem?_eq_some_iff.mp he).1
      omega
    · cases hIsCursor
  · rw [hType] at h
    obtain ⟨hLt, hIn⟩ := typeAt_composed_client.mp h
    -- the lowest of the client's layers is where the range starts
    obtain rfl : zOrder = range.1 := by
      by_contra hAbove
      unfold InRange at hIn
      refine hLowest range.1 (by omega) ?_
      rw [hType]
      refine typeAt_composed_client.mpr ⟨by omega, ?_⟩
      unfold InRange
      omega
    rw [hPunchOut]
    unfold composed getPunchOutLayers
    unfold InRange at hIn
    exact if_neg (by omega)
  · rintro ⟨zOrder, type, h, hOther⟩
    obtain rfl | ⟨status, hAsked, hSuccess⟩ := hAccepted
    · -- with the whole scene the client's nothing is left
      rw [hType] at h
      have hLt : zOrder < layers.length := by
        rw [typeAt_composed, Option.map_eq_some_iff] at h
        obtain ⟨e, he, -⟩ := h
        exact (List.getElem?_eq_some_iff.mp he).1
      rw [typeAt_composed_client.mpr ⟨hLt, Nat.zero_le _, by simpa using hLt⟩] at h
      exact absurd (Option.some.inj h).symm hOther
    · exact ⟨_, hAsked, hSuccess, hTypes.symm, hPunchOut.symm⟩

-- ---------------------------------------------------------------------------
-- The attempts
-- ---------------------------------------------------------------------------

/-- What the attempts keep: a search that has succeeded holds its range's
composition, wholly the client's or accepted. -/
def Fits (layers : List Entry) (useCursorPlane : Bool) (s : Search) : Prop :=
  s.success = true → s.composition = composed layers s.range useCursorPlane ∧
    (s.range = (0, layers.length) ∨
      ∃ status, (composed layers s.range useCursorPlane, status) ∈ s.asked ∧ status.success = true)

variable {s : Search}

@[simp] theorem validateAndTest_range :
    (validateAndTest d layers useCursorPlane s).range = s.range := by
  unfold validateAndTest
  simp only
  split <;> rfl

theorem validateAndTest_fits :
    Fits layers useCursorPlane (validateAndTest d layers useCursorPlane s) := by
  intro hSuccess
  rw [validateAndTest_range]
  unfold validateAndTest at hSuccess ⊢
  simp only at hSuccess ⊢
  by_cases hAsk : s.range.1 ≠ 0 ∨ s.range.2 ≠ layers.length
  · rw [if_pos hAsk] at hSuccess ⊢
    exact ⟨rfl, .inr ⟨_, List.mem_append_right _ (List.mem_singleton.mpr rfl), hSuccess⟩⟩
  · rw [if_neg hAsk]
    rw [not_or, not_not, not_not] at hAsk
    exact ⟨rfl, .inl (Prod.ext hAsk.1 hAsk.2)⟩

/-- The first attempt and the ladder's rung stay with ranges that hold the
client's layers. -/
theorem ladder_fits {asked : List Question} (hTop : useCursorPlane = true → ∀ top,
      layers.getLast? = some top → isClientLayer d top.layer = false) :
    Fits layers useCursorPlane
        (ladder d layers useCursorPlane (initial d layers useCursorPlane asked)) ∧
      HoldsClients d layers
        (ladder d layers useCursorPlane (initial d layers useCursorPlane asked)).range := by
  have hInitial : HoldsClients d layers (initial d layers useCursorPlane asked).range := by
    unfold initial
    rw [validateAndTest_range]
    exact getClientLayers_holds hTop
  unfold ladder
  simp only
  split
  · split
    · refine ⟨validateAndTest_fits, ?_⟩
      rw [validateAndTest_range]
      exact getClientLayers_holds hTop
    · rename_i hFailed hSame
      rw [ne_eq, not_not] at hSame
      rw [hSame]
      exact ⟨validateAndTest_fits, hInitial⟩
  · exact ⟨validateAndTest_fits, hInitial⟩

theorem settle_of_success (hSuccess : s.success = true) :
    (settle layers useCursorPlane s).compositionTypes = s.composition.compositionTypes ∧
      (settle layers useCursorPlane s).punchOutLayers = s.composition.punchOutLayers := by
  unfold settle
  rw [if_pos hSuccess]
  simp only
  split <;> exact ⟨rfl, rfl⟩

theorem settle_of_failure (hFailed : s.success = false) :
    (settle layers useCursorPlane s).compositionTypes =
        (getFlattenedComposition layers .kValidateFailed).compositionTypes ∧
      (settle layers useCursorPlane s).punchOutLayers = [] := by
  unfold settle
  simp only [hFailed, Bool.false_eq_true, if_false]
  split <;> exact ⟨rfl, rfl⟩

variable (d layers) in
/-- The kernel refuses a range, asked about it as a question of this
number. -/
def Refused (number : Nat) (range : Nat × Nat) : Prop :=
  range ≠ (0, layers.length) ∧
    (d.testComposition number (composed layers range false)).success = false

variable (d layers) in
/-- The range all attempts begin with, where the cursor has no plane. -/
def firstRange : Nat × Nat := getClientLayers d layers false 0

variable (d layers) in
/-- The range of the rung below it. -/
def rungRange : Nat × Nat :=
  getClientLayers d layers false (rung d layers (firstRange d layers).2)

/-- **The cursor overlooked.** The topmost layer is a cursor and is the
client's; the kernel refuses what the planner asks first, and the rung below
where that differs; and it accepts the fallback, which leaves the topmost layer
to the hardware. -/
structure CursorOverlooked (d : ICompositorDisplay) (layers : List Entry) : Prop where
  planned : flattens d layers = none
  top : ∃ e, layers.getLast? = some e ∧ e.layer.sfType = .kCursor ∧
    isClientLayer d e.layer = true
  refused : Refused d layers 0 (firstRange d layers)
  accepted :
    (rungRange d layers = firstRange d layers ∧
      (d.testComposition 1 (composed layers (0, layers.length - 1) false)).success = true) ∨
    (rungRange d layers ≠ firstRange d layers ∧ Refused d layers 1 (rungRange d layers) ∧
      (d.testComposition 2 (composed layers (0, layers.length - 1) false)).success = true)

/-- Without a plane for the cursor nothing was asked before the first
attempt. -/
theorem tryCursorPlane_none (h : cursorMayShow d layers = false) :
    tryCursorPlane d layers = (false, []) := by
  unfold tryCursorPlane
  rw [if_neg (by rw [h]; decide)]

theorem cursorMayShow_of_client {top : Entry} (hTop : layers.getLast? = some top)
    (hClient : isClientLayer d top.layer = true) : cursorMayShow d layers = false := by
  unfold cursorMayShow
  rw [hTop]
  split
  · rename_i hLast
    obtain rfl := Option.some.inj hLast
    simp [hClient]
  · rfl

theorem topIsCursor_iff : topIsCursor layers = true ↔
    ∃ top, layers.getLast? = some top ∧ top.layer.sfType = .kCursor := by
  unfold topIsCursor
  rw [decide_eq_true_eq, Option.map_eq_some_iff]

/-- A cursor at the top is found. -/
theorem getCursorLayer_isSome (h : topIsCursor layers = true) :
    (getCursorLayer layers).isSome = true := by
  obtain ⟨top, hTop, hCursor⟩ := topIsCursor_iff.mp h
  unfold getCursorLayer
  rw [List.findIdx?_isSome, List.any_eq_true]
  exact ⟨top, List.mem_of_getLast? hTop, decide_eq_true hCursor⟩

/-- An attempt fails just when the kernel refuses its range. -/
theorem validateAndTest_fails_iff : (validateAndTest d layers false s).success = false ↔
    Refused d layers s.asked.length s.range := by
  unfold validateAndTest Refused
  simp only
  by_cases hWhole : s.range = (0, layers.length)
  · simp [hWhole]
  · have hAsk : s.range.1 ≠ 0 ∨ s.range.2 ≠ layers.length := by
      by_contra hNot
      rw [not_or, not_not, not_not] at hNot
      exact hWhole (Prod.ext hNot.1 hNot.2)
    rw [if_pos hAsk]
    exact ⟨fun h => ⟨hWhole, h⟩, fun h => h.2⟩

theorem validateAndTest_asked (hPart : s.range ≠ (0, layers.length)) :
    (validateAndTest d layers useCursorPlane s).asked.length = s.asked.length + 1 := by
  have hAsk : s.range.1 ≠ 0 ∨ s.range.2 ≠ layers.length := by
    by_contra hNot
    rw [not_or, not_not, not_not] at hNot
    exact hPart (Prod.ext hNot.1 hNot.2)
  unfold validateAndTest
  simp only
  rw [if_pos hAsk]
  simp

theorem initial_fails_iff : (initial d layers false []).success = false ↔
    Refused d layers 0 (firstRange d layers) := validateAndTest_fails_iff

/-- With the first range refused, the ladder goes down to the rung's. -/
theorem ladder_of_refused (hMany : 1 < layers.length)
    (hRefused : Refused d layers 0 (firstRange d layers)) :
    ladder d layers false (initial d layers false []) =
      if rungRange d layers ≠ firstRange d layers then
        validateAndTest d layers false
          { initial d layers false [] with range := rungRange d layers }
      else initial d layers false [] := by
  have hRange : (initial d layers false []).range = firstRange d layers := validateAndTest_range
  have hRung : getClientLayers d layers false (rung d layers (firstRange d layers).2) =
    rungRange d layers := rfl
  unfold ladder
  simp only
  rw [if_pos ⟨initial_fails_iff.mpr hRefused, hMany⟩, hRange, hRung]
  by_cases hSame : rungRange d layers = firstRange d layers
  · rw [if_neg fun h => h hSame, if_neg fun h => h hSame, hSame, ← hRange]
  · rw [if_pos hSame, if_pos hSame]

theorem initial_asked (hRefused : Refused d layers 0 (firstRange d layers)) :
    (initial d layers false []).asked.length = 1 := validateAndTest_asked hRefused.1

/-- Before the fallback the attempts fail just when the kernel refuses the
first range, and the rung's where that is another. -/
theorem ladder_fails_iff (hMany : 1 < layers.length) :
    (ladder d layers false (initial d layers false [])).success = false ↔
      Refused d layers 0 (firstRange d layers) ∧
        (rungRange d layers ≠ firstRange d layers → Refused d layers 1 (rungRange d layers)) := by
  by_cases hRefused : Refused d layers 0 (firstRange d layers)
  · rw [ladder_of_refused hMany hRefused]
    by_cases hMoved : rungRange d layers ≠ firstRange d layers
    · rw [if_pos hMoved, validateAndTest_fails_iff]
      simp only
      rw [initial_asked hRefused]
      exact ⟨fun h => ⟨hRefused, fun _ => h⟩, fun h => h.2 hMoved⟩
    · rw [if_neg hMoved]
      exact ⟨fun _ => ⟨hRefused, fun h => absurd h hMoved⟩,
        fun _ => initial_fails_iff.mpr hRefused⟩
  · unfold ladder
    simp only
    rw [if_neg fun h => hRefused (initial_fails_iff.mp h.1)]
    exact ⟨fun h => absurd (initial_fails_iff.mp h) hRefused, fun h => absurd h.1 hRefused⟩

/-- The questions asked by then. -/
theorem ladder_asked (hMany : 1 < layers.length)
    (hFailed : (ladder d layers false (initial d layers false [])).success = false) :
    (ladder d layers false (initial d layers false [])).asked.length =
      if rungRange d layers = firstRange d layers then 1 else 2 := by
  obtain ⟨hRefused, hRung⟩ := (ladder_fails_iff hMany).mp hFailed
  rw [ladder_of_refused hMany hRefused]
  by_cases hSame : rungRange d layers = firstRange d layers
  · rw [if_pos hSame, if_neg fun h => h hSame]
    exact initial_asked hRefused
  · rw [if_neg hSame, if_pos hSame, validateAndTest_asked (hRung hSame).1]
    simp only
    rw [initial_asked hRefused]

/-- A lone layer of the client's is the whole of its range: what is refused is
more. -/
theorem many_of_refused {top : Entry} (hTop : layers.getLast? = some top)
    (hClient : isClientLayer d top.layer = true)
    (hRefused : Refused d layers 0 (firstRange d layers)) : 1 < layers.length := by
  by_contra hFew
  match layers with
  | [] => cases hTop
  | [e] =>
    have hOnly : some e = some top := hTop
    obtain rfl := Option.some.inj hOnly
    refine hRefused.1 ?_
    simp [firstRange, getClientLayers, spanFrom, hClient, getExtraClientRange, counted]
  | _ :: _ :: _ => simp at hFew

/-- What the fallback asks, where the client's own cursor is topmost. -/
theorem fallback_accepted_iff (hTopmost : topIsCursor layers = true) (hMany : 1 < layers.length)
    (hFailed : s.success = false) :
    (cursorFallback d layers false s).success = true ↔
      (d.testComposition s.asked.length (composed layers (0, layers.length - 1) false)).success =
        true := by
  have hPart : (0, layers.length - 1) ≠ (0, layers.length) := by
    intro h
    have := congrArg Prod.snd h
    simp only at this
    omega
  unfold cursorFallback
  rw [if_pos ⟨hFailed, getCursorLayer_isSome hTopmost, hTopmost⟩, ← not_iff_not,
    Bool.not_eq_true, Bool.not_eq_true, validateAndTest_fails_iff]
  exact ⟨fun h => h.2, fun h => ⟨hPart, h⟩⟩

/-- Where the client's own cursor is topmost, it is overlooked just when the
attempts before the fallback fail and the fallback succeeds. -/
theorem cursorOverlooked_iff (hPlanned : flattens d layers = none) {top : Entry}
    (hTop : layers.getLast? = some top) (hCursor : top.layer.sfType = .kCursor)
    (hClient : isClientLayer d top.layer = true) :
    CursorOverlooked d layers ↔
      (ladder d layers false (initial d layers false [])).success = false ∧
        (attempts d layers).success = true := by
  have hTopmost := topIsCursor_iff.mpr ⟨top, hTop, hCursor⟩
  have hAttempts : attempts d layers =
      cursorFallback d layers false (ladder d layers false (initial d layers false [])) := by
    unfold attempts
    rw [tryCursorPlane_none (cursorMayShow_of_client hTop hClient)]
  rw [hAttempts]
  constructor
  · rintro ⟨-, -, hRefused, hAccepted⟩
    have hMany := many_of_refused hTop hClient hRefused
    obtain ⟨hSame, hAccepted⟩ | ⟨hMoved, hRung, hAccepted⟩ := hAccepted
    · have hFailed := (ladder_fails_iff hMany).mpr ⟨hRefused, fun h => absurd hSame h⟩
      refine ⟨hFailed, (fallback_accepted_iff hTopmost hMany hFailed).mpr ?_⟩
      rw [ladder_asked hMany hFailed, if_pos hSame]
      exact hAccepted
    · have hFailed := (ladder_fails_iff hMany).mpr ⟨hRefused, fun _ => hRung⟩
      refine ⟨hFailed, (fallback_accepted_iff hTopmost hMany hFailed).mpr ?_⟩
      rw [ladder_asked hMany hFailed, if_neg hMoved]
      exact hAccepted
  · rintro ⟨hFailed, hSuccess⟩
    have hMany : 1 < layers.length := by
      by_contra hFew
      -- the ladder leaves a lone layer to the first attempt
      unfold ladder at hFailed
      simp only at hFailed
      rw [if_neg fun h => hFew h.2] at hFailed
      exact hFew (many_of_refused hTop hClient (initial_fails_iff.mp hFailed))
    obtain ⟨hRefused, hRung⟩ := (ladder_fails_iff hMany).mp hFailed
    have hAccepted := (fallback_accepted_iff hTopmost hMany hFailed).mp hSuccess
    rw [ladder_asked hMany hFailed] at hAccepted
    refine ⟨hPlanned, ⟨top, hTop, hCursor, hClient⟩, hRefused, ?_⟩
    by_cases hSame : rungRange d layers = firstRange d layers
    · rw [if_pos hSame] at hAccepted
      exact .inl ⟨hSame, hAccepted⟩
    · rw [if_neg hSame] at hAccepted
      exact .inr ⟨hSame, hRung hSame, hAccepted⟩

/-- All but the topmost layer to the client: the range holds the client's
layers where the topmost is none. -/
theorem fallback_holds (hTop : ∀ top, layers.getLast? = some top →
    isClientLayer d top.layer = false) : HoldsClients d layers (0, layers.length - 1) := by
  intro zOrder e he hClient
  have hLt := (List.getElem?_eq_some_iff.mp he).1
  unfold InRange
  simp only
  refine ⟨Nat.zero_le _, ?_⟩
  have hNotTop : zOrder ≠ layers.length - 1 := by
    rintro rfl
    have := hTop e (by rw [List.getLast?_eq_getElem?, he])
    rw [hClient] at this
    cases this
  omega

/-- A search that succeeded is well planned, its range holding the client's
layers. -/
theorem sound_of_fits {invalidators : UInt32} {reusable : Option ValidatedComposition}
    (hFlattens : flattens d layers = none)
    (hFresh : reusable.filter (fun kept => invalidators = 0 ∧ kept.flattenReason = .kNone) = none)
    (hFits : Fits layers (tryCursorPlane d layers).1 (attempts d layers))
    (hHolds : (attempts d layers).success = true →
      HoldsClients d layers (attempts d layers).range) :
    Sound d layers (validateDisplay d layers invalidators reusable) := by
  unfold validateDisplay
  rw [hFlattens]
  simp only
  rw [hFresh]
  simp only
  by_cases hSuccess : (attempts d layers).success = true
  · obtain ⟨hTypes, hPunchOut⟩ := @settle_of_success layers (tryCursorPlane d layers).1 _ hSuccess
    obtain ⟨hComposition, hAccepted⟩ := hFits hSuccess
    rw [hComposition] at hTypes hPunchOut
    exact sound_composed hTypes hPunchOut (hHolds hSuccess)
      (fun hUse => (tryCursorPlane_top hUse).1) hAccepted
  · obtain ⟨hTypes, hPunchOut⟩ := settle_of_failure (Bool.eq_false_iff.mpr hSuccess)
    exact sound_flattened hTypes hPunchOut

variable (d layers) in
/-- The attempts before the fallback. -/
def beforeFallback : Search :=
  ladder d layers (tryCursorPlane d layers).1
    (initial d layers (tryCursorPlane d layers).1 (tryCursorPlane d layers).2)

theorem beforeFallback_fits : Fits layers (tryCursorPlane d layers).1 (beforeFallback d layers) ∧
    HoldsClients d layers (beforeFallback d layers).range :=
  ladder_fits fun hUse => (tryCursorPlane_top hUse).2

theorem attempts_fits : Fits layers (tryCursorPlane d layers).1 (attempts d layers) := by
  change Fits layers _ (cursorFallback d layers _ (beforeFallback d layers))
  unfold cursorFallback
  split
  · exact validateAndTest_fits
  · exact beforeFallback_fits.1

/-- The range the attempts end with holds the client's layers, unless a cursor
is overlooked. -/
theorem attempts_holds (hPlanned : flattens d layers = none) (hNot : ¬CursorOverlooked d layers)
    (hSuccess : (attempts d layers).success = true) :
    HoldsClients d layers (attempts d layers).range := by
  have hAttempts : attempts d layers =
    cursorFallback d layers (tryCursorPlane d layers).1 (beforeFallback d layers) := rfl
  by_cases hTaken : (beforeFallback d layers).success = false ∧
      (getCursorLayer layers).isSome = true ∧ topIsCursor layers = true
  · have hRange : (attempts d layers).range = (0, layers.length - 1) := by
      rw [hAttempts]
      unfold cursorFallback
      rw [if_pos hTaken, validateAndTest_range]
    rw [hRange]
    refine fallback_holds fun top hTop => ?_
    by_contra hClient
    rw [Bool.not_eq_false] at hClient
    obtain ⟨top', hTop', hCursor⟩ := topIsCursor_iff.mp hTaken.2.2
    obtain rfl := Option.some.inj (hTop'.symm.trans hTop)
    refine hNot ((cursorOverlooked_iff hPlanned hTop hCursor hClient).mpr ⟨?_, hSuccess⟩)
    have hFailed := hTaken.1
    unfold beforeFallback at hFailed
    rw [tryCursorPlane_none (cursorMayShow_of_client hTop hClient)] at hFailed
    exact hFailed
  · have hSame : attempts d layers = beforeFallback d layers := by
      rw [hAttempts]
      unfold cursorFallback
      exact if_neg hTaken
    rw [hSame]
    exact beforeFallback_fits.2

/-- A cursor overlooked is the client's, and is left to the hardware. -/
theorem not_sound_of_overlooked (h : CursorOverlooked d layers) (asked : List Question) :
    ¬Sound d layers
      { composition := settle layers (tryCursorPlane d layers).1 (attempts d layers)
        asked := asked } := by
  intro hSound
  obtain ⟨top, hTop, hCursor, hClient⟩ := h.top
  have hNone := tryCursorPlane_none (cursorMayShow_of_client hTop hClient)
  obtain ⟨hFailed, hSuccess⟩ := (cursorOverlooked_iff h.planned hTop hCursor hClient).mp h
  have hTopmost := topIsCursor_iff.mpr ⟨top, hTop, hCursor⟩
  have hRange : (attempts d layers).range = (0, layers.length - 1) := by
    unfold attempts
    rw [hNone]
    simp only
    unfold cursorFallback
    rw [if_pos ⟨hFailed, getCursorLayer_isSome hTopmost, hTopmost⟩, validateAndTest_range]
  have hComposition := (attempts_fits hSuccess).1
  rw [hRange] at hComposition
  have hTypes := (@settle_of_success layers (tryCursorPlane d layers).1 _ hSuccess).1
  rw [hComposition] at hTypes
  rw [List.getLast?_eq_getElem?] at hTop
  have hTyped := hSound.client _ top hTop hClient
  unfold typeAt at hTyped
  simp only [hTypes] at hTyped
  obtain ⟨hLt, hIn⟩ := typeAt_composed_client.mp hTyped
  unfold InRange at hIn
  simp only at hIn
  omega

variable (d layers) in
/-- **What the planner answers anew is well planned, unless it overlooks a
cursor.** -/
theorem validateDisplay_sound_iff (invalidators : UInt32) (reusable : Option ValidatedComposition)
    (hFresh : (validateDisplay d layers invalidators reusable).shortCircuited = false) :
    Sound d layers (validateDisplay d layers invalidators reusable) ↔
      ¬CursorOverlooked d layers := by
  cases hFlattens : flattens d layers with
  | some reason =>
    have hSound : Sound d layers (validateDisplay d layers invalidators reusable) := by
      unfold validateDisplay
      rw [hFlattens]
      exact @sound_flattened d layers _ reason rfl rfl
    refine ⟨fun _ h => ?_, fun _ => hSound⟩
    have := h.planned
    rw [hFlattens] at this
    cases this
  | none =>
    have hNew : reusable.filter (fun kept => invalidators = 0 ∧ kept.flattenReason = .kNone) =
        none := by
      cases hKept : reusable.filter
          (fun kept => decide (invalidators = 0 ∧ kept.flattenReason = .kNone)) with
      | none => rfl
      | some kept =>
        unfold validateDisplay at hFresh
        rw [hFlattens] at hFresh
        simp only at hFresh
        rw [hKept] at hFresh
        cases hFresh
    refine ⟨fun hSound h => ?_, fun hNot =>
      sound_of_fits hFlattens hNew attempts_fits (attempts_holds hFlattens hNot)⟩
    refine not_sound_of_overlooked h (attempts d layers).asked ?_
    unfold validateDisplay at hSound
    rw [hFlattens] at hSound
    simp only at hSound
    rw [hNew] at hSound
    exact hSound

/-- A layer of the client's with rounded corners, typed as given. -/
def rounded (id : ILayerId) (type : CompositionType) : Entry :=
  { id := id
    layer := {
      sfType := type
      hasBufferSet := true
      layerData := { fb := some 1, effects := { corners := [0, 0, 100, 100, 20] } } } }

/-- A layer a window can show. -/
def plain (id : ILayerId) : Entry :=
  { id := id, layer := { sfType := .kDevice, hasBufferSet := true, layerData := { fb := some 1 } } }

/-- A scene of three layers, the middle one the client's: what is planned anew
is well planned. -/
theorem validateDisplay_sound_three :
    (validateDisplay { numAvailablePlanes := 3 } [plain 1, rounded 2 .kDevice, plain 3] 1 none).shortCircuited
        = false ∧
      Sound { numAvailablePlanes := 3 } [plain 1, rounded 2 .kDevice, plain 3]
        (validateDisplay { numAvailablePlanes := 3 } [plain 1, rounded 2 .kDevice, plain 3] 1 none) := by
  refine ⟨by decide +kernel, (validateDisplay_sound_iff _ _ _ _ (by decide +kernel)).mpr fun h => ?_⟩
  obtain ⟨top, hTop, hCursor, -⟩ := h.top
  obtain rfl := Option.some.inj hTop
  cases hCursor

/-- A display whose kernel refuses a window to the first layer. -/
def refusesFirst : ICompositorDisplay where
  numAvailablePlanes := 3
  numDirectPlanes := 3
  testComposition := fun _ c => { success := !c.compositionTypes.contains (1, .kDevice) }

/-- **A cursor left to the hardware.** A cursor with rounded corners is the
client's; the fallback leaves it a window. -/
theorem validateDisplay_unsound :
    ¬∀ (d : ICompositorDisplay) (layers : List Entry) (invalidators : UInt32)
      (reusable : Option ValidatedComposition),
      (validateDisplay d layers invalidators reusable).shortCircuited = false →
      Sound d layers (validateDisplay d layers invalidators reusable) := by
  intro h
  have hSound := h refusesFirst [plain 1, plain 2, rounded 3 .kCursor] 1 none (by decide +kernel)
  have hTyped := hSound.client 2 (rounded 3 .kCursor) rfl (by decide +kernel)
  revert hTyped
  decide +kernel

/-- The display's validation hands out what the planner answers it, where its
plan is the planner's search. -/
theorem validateDisplay_refines (c : DisplayConfig) {display : HwcDisplay} {v : Validation}
    (hCtm : d.ctmByGpu = v.ctmByGpu) (hPipeline : d.useColorPipeline = v.useColorPipeline)
    (hPlan : v.plan = settle display.getOrderLayersByZPos
      (tryCursorPlane d display.getOrderLayersByZPos).1
      (attempts d display.getOrderLayersByZPos)) :
    let r := validateDisplay d display.getOrderLayersByZPos
      (display.takePlanInvalidators c v.now).1 display.reusablePlan
    (display.validateDisplay c v).2.1 = r.shortCircuited ∧
      { (display.validateDisplay c v).1 with madeAt := 0 } = { r.composition with madeAt := 0 } := by
  have hFlattens : display.flattens v = flattens d display.getOrderLayersByZPos := by
    unfold HwcDisplay.flattens flattens
    rw [hCtm, hPipeline]
  unfold HwcDisplay.validateDisplay validateDisplay
  rw [hFlattens]
  cases flattens d display.getOrderLayersByZPos with
  | some reason => exact ⟨rfl, rfl⟩
  | none =>
    simp only
    unfold HwcDisplay.havePlan
    cases display.reusablePlan with
    | none => exact ⟨rfl, by rw [hPlan]; rfl⟩
    | some kept =>
      simp only [Option.filter_some, decide_eq_true_eq]
      by_cases hLive : kept.flattenReason = .kNone
      · by_cases hQuiet : (display.takePlanInvalidators c v.now).1 = 0
        · simp [hLive, hQuiet]
        · simp [hLive, hQuiet, hPlan]
      · simp [hLive, hPlan]

end GenericCompositionPlanner

end TegraHwc
