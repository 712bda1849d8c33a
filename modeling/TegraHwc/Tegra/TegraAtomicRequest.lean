import TegraHwc.Compositor.LayerToPlaneJoiningPlan
import TegraHwc.Hwc.PictureReuse
import TegraHwc.Lib.MachineNumbers
import TegraHwc.Tegra.CursorUnit

/-!
# TegraHwc — the request a plan becomes

`GetAtomicModeReqForArgs` of `tegra/TegraAtomicStateManager.cpp`, with what it
calls, and `GetUsablePlanes` of `tegra/TegraDisplayPipeline.cpp`, which says
what planes a plan can name: every window of the head is described, the layers
bound for the merging planes are set aside as one group, and the group is given
a window and a place of its own.

The tables that turn a buffer's format and arrangement into the controller's
codes, and the property that forces a turn come from outside. The frame's record for
the log, the panel's mirror for a capture and the colour matrix are left out.
-/

namespace TegraHwc

open MachineNumbers (lroundf uint32)

-- ---------------------------------------------------------------------------
-- The pipeline
-- ---------------------------------------------------------------------------

/-- `WindowCapabilities`, of which the seating of planes reads this much. -/
structure WindowCapabilities where
  pitchLayout : Bool := false
  blocklinearLayout : Bool := false
  scaling : Bool := false
  deriving DecidableEq, Repr

/-- `DrmMode`: its extents, and the rest of its timing. -/
structure DrmMode where
  hdisplay : Nat
  vdisplay : Nat
  timing : Nat := 0
  deriving DecidableEq, Repr

/-- `TegraPlane`, and which of the offers of its window it is. The cursor
unit's plane has a number no window has. -/
structure TegraPlane where
  index : Nat
  offer : Nat := 0
  merging : Bool := false
  deriving DecidableEq, Repr

/-- `TegraDisplayPipeline`: which windows the head can claim, what the
controller says of them, the panel's modes, whether there is an engine with its
pool, whether the merge is switched on, and whether the cursor unit is ours.
Its making asks for the first of the modes. -/
structure TegraDisplayPipeline where
  tryClaimWindow : Nat → Bool
  capabilities : Nat → Option WindowCapabilities
  modes : List DrmMode
  hasMode : modes ≠ []
  engine : Bool := true
  mergeOffered : Bool := true
  cursorUnit : Bool := true

namespace TegraDisplayPipeline

/-- `kWindowSearchLimit`. -/
def kWindowSearchLimit : Nat := 6

/-- `VicSession::kMaxLayers`. -/
def kMaxLayers : Nat := 5

/-- `TegraCursorPlane::kPlaneId`. -/
def kPlaneId : Nat := 0xFFFFFFFF

variable (p : TegraDisplayPipeline)

/-- `DcHead::windows`. -/
def windows : List Nat := (List.range kWindowSearchLimit).filter p.tryClaimWindow

/-- `IsCursorCandidate`. -/
def isCursorCandidate (index : Nat) : Bool :=
  match p.capabilities index with
  | none => false
  | some caps => !caps.blocklinearLayout && !caps.scaling

/-- How many times a window is offered: the one the merge is meant for as often
as the engine draws layers in a pass. -/
def offers (index : Nat) : Nat :=
  match p.capabilities index with
  | none => 0
  | some caps => if p.engine && caps.pitchLayout && !caps.scaling then kMaxLayers else 1

/-- Whether the planes of a window merge. -/
def merges (index : Nat) : Bool := p.mergeOffered && p.isCursorCandidate index && p.engine

/-- `mPlanes`, each told whether it merges. -/
def planes : List TegraPlane :=
  p.windows.flatMap fun index =>
    (List.range (p.offers index)).map fun offer =>
      { index := index, offer := offer, merging := p.merges index }

/-- `GetUsablePlanes`: the ordinary planes and the merging ones, and the plane
for a cursor. -/
def getUsablePlanes : List TegraPlane × Option TegraPlane :=
  let ordinary (plane : TegraPlane) : Bool :=
    !p.isCursorCandidate plane.index || plane.merging || p.cursorUnit
  let second := p.planes.find? fun plane => !ordinary plane
  (p.planes.filter ordinary,
    if p.cursorUnit && second.isNone then some { index := kPlaneId } else second)

end TegraDisplayPipeline

-- ---------------------------------------------------------------------------
-- A window described
-- ---------------------------------------------------------------------------

/-- What the controller's tables say of buffers: the code of a format, the code of
the engine's own, the flags of an arrangement, and whether a format is YUV. -/
structure BufferTables where
  tegraFormatFromDrm : Nat → Nat := fun _ => 1
  fmtR8G8B8A8 : Nat := 1
  tegraLayoutFromModifier : Nat → Option Nat := fun _ => some 0
  drmFormatIsYuv : Nat → Bool := fun _ => false

/-- A window's turn, as the controller's flags say it. -/
structure WindowTurn where
  invertH : Bool := false
  invertV : Bool := false
  scanColumn : Bool := false
  deriving DecidableEq, Repr

/-- `WindowTransformFor`. -/
def windowTransformFor (bits : Nat) : WindowTurn :=
  [{}, { invertH := true }, { invertV := true }, { invertH := true, invertV := true },
    { scanColumn := true, invertV := true },
    { invertH := true, scanColumn := true, invertV := true },
    { scanColumn := true }, { scanColumn := true, invertH := true }].getD (bits % 8) {}

/-- `BlendFor`. -/
def blendFor : BufferBlendMode → BufferBlendMode
  | .kPreMult => .kPreMult
  | .kCoverage => .kCoverage
  | _ => .kNone

/-- `CscFor`: the row of the matrix, high definition or not, full range or
not. -/
def cscFor (encoding : BufferColorEncoding) (range : BufferSampleRange) (height : Nat) :
    Bool × Bool :=
  (encoding = .kItuRec709 || encoding = .kItuRec2020 ||
      (encoding = .kUndefined && decide (720 ≤ height)),
    range = .kFullRange)

/-- `DcHead::Window`. A window with no buffer is switched off. -/
structure DcWindow where
  index : Int := 0
  bufferFd : Nat := 0
  offset : Nat := 0
  stride : Nat := 0
  offsetU : Nat := 0
  strideUV : Nat := 0
  pixelFormat : Nat := 0
  layout : Nat := 0
  csc : Option (Bool × Bool) := none
  globalAlpha : Option Nat := none
  turn : WindowTurn := {}
  sourceX : Rat := 0
  sourceY : Rat := 0
  sourceWidth : Rat := 0
  sourceHeight : Rat := 0
  outX : Int := 0
  outY : Int := 0
  outWidth : Int := 0
  outHeight : Int := 0
  z : Nat := 0
  blend : BufferBlendMode := .kNone
  preFence : Option Nat := none
  deriving DecidableEq, Repr

/-- `DepthForZPos`: the plan counts upwards, the controller backwards. -/
def depthForZPos (zPos : Nat) : Nat := if 0xff ≤ zPos then 0 else 0xff - zPos

/-- `DescribeWindow`; `forced` is the turn a property forces on turned
windows. -/
def describeWindow (t : BufferTables) (forced : Int) (layer : LayerData) (planeId depth : Nat) :
    Option DcWindow :=
  match layer.bi, layer.fb with
  | some bi, some fb =>
    let format := t.tegraFormatFromDrm bi.format
    match t.tegraLayoutFromModifier bi.modifier with
    | none => none
    | some layout =>
      if format = 0 ∨ (t.drmFormatIsYuv bi.format ∧ bi.pitchUV = 0) then none
      else
        -- only a format with a chroma plane is told where one is
        let yuv := t.drmFormatIsYuv bi.format
        let own := transformBits layer.pi.transform
        let bits := if own ≠ 0 ∧ 0 ≤ forced ∧ forced ≤ 7 then forced.toNat else own
        let alpha := layer.pi.alpha
        some
          { index := planeId
            bufferFd := fb
            offset := bi.offset
            stride := bi.pitch
            offsetU := if yuv then bi.offsetUV else 0
            strideUV := if yuv then bi.pitchUV else 0
            pixelFormat := format
            layout := layout
            csc :=
              if yuv then some (cscFor bi.colorEncoding bi.sampleRange bi.height) else none
            globalAlpha :=
              if alpha < 1 then some (lroundf (min (max alpha 0) 1 * 255)).toNat else none
            turn := windowTransformFor bits
            sourceX := (layer.pi.sourceCrop.map Rect.left).getD 0
            sourceY := (layer.pi.sourceCrop.map Rect.top).getD 0
            sourceWidth := (layer.pi.sourceCrop.map Rect.width).getD bi.width
            sourceHeight := (layer.pi.sourceCrop.map Rect.height).getD bi.height
            outX := (layer.pi.displayFrame.map Rect.left).getD 0
            outY := (layer.pi.displayFrame.map Rect.top).getD 0
            outWidth := (layer.pi.displayFrame.map Rect.width).getD bi.width
            outHeight := (layer.pi.displayFrame.map Rect.height).getD bi.height
            z := depth
            blend := blendFor bi.blendMode
            preFence := layer.acquireFence }
  | _, _ => none

/-- `MergeLayerFrom`: a member as the engine is told of it. No layer without a
buffer is bound for a merging plane. -/
def mergeLayerFrom (layer : LayerData) : VicLayer :=
  let bi := layer.bi.getD { width := 0, height := 0 }
  { source := layer.pi.sourceCrop.getD ⟨0, 0, bi.width, bi.height⟩
    display := layer.pi.displayFrame.getD ⟨0, 0, bi.width, bi.height⟩
    alpha := layer.pi.alpha
    premultiplied := bi.blendMode ≠ .kCoverage
    acquireFence := layer.acquireFence }

-- ---------------------------------------------------------------------------
-- The request
-- ---------------------------------------------------------------------------

/-- `TegraAtomicRequest`; `slot` is the place of the group's window among the
head's. -/
structure TegraAtomicRequest where
  windows : List DcWindow
  merge : Merge := {}
  slot : Nat := 0
  cursor : Cursor := {}
  hasComposition : Bool := false
  rate : Option DrmMode := none

/-- What a request is made of beside the plan: the controller's tables, the
turn forced on windows, the pointer's moves so far, and the mode asked for. -/
structure RequestArgs where
  tables : BufferTables := {}
  forcedTurn : Int := -1
  cursorMoveSeq : Nat := 0
  displayMode : Option DrmMode := none

namespace TegraAtomicRequest

variable (p : TegraDisplayPipeline) (args : RequestArgs)

/-- A binding of a plan. -/
abbrev Joining := LayerToPlaneJoining TegraPlane

/-- The cursor's binding, set aside for the unit. -/
def cursorFrom (layer : LayerData) : Cursor :=
  match layer.bi, layer.pi.displayFrame with
  | some bi, some frame =>
    { present := true
      handle := bi.handle.getD 0
      id := bi.uniqueId
      width := uint32 (lroundf ((layer.pi.sourceCrop.map Rect.width).getD bi.width))
      height := uint32 (lroundf ((layer.pi.sourceCrop.map Rect.height).getD bi.height))
      stridePx := bi.pitch / 4
      premultiplied := bi.blendMode = .kPreMult
      x := frame.left
      y := frame.top
      seq := args.cursorMoveSeq }
  | _, _ => {}

/-- A member joins the group; the first, the lowest, gives it its window and
its depth. -/
def joinMerge (r : TegraAtomicRequest) (slot : Nat) (j : Joining) : TegraAtomicRequest :=
  let merge := r.merge
  let first := merge.layers.isEmpty
  { r with
    slot := if first then slot else r.slot
    merge := { merge with
      window := if first then j.plane.index else merge.window
      depth := if first then depthForZPos j.zPos else merge.depth
      layers := merge.layers ++ [mergeLayerFrom j.layer]
      sourceIds := merge.sourceIds ++ [(j.layer.bi.map (·.uniqueId)).getD 0]
      generations := merge.generations ++ [j.layer.generation]
      damages := merge.damages ++ [j.layer.pi.damage]
      serials := merge.serials ++ [j.layer.serial]
      transforms := merge.transforms ++ [transformBits j.layer.pi.transform] } }

/-- One binding of the plan. -/
def describe (r : TegraAtomicRequest) (j : Joining) : Option TegraAtomicRequest :=
  if j.plane.index = TegraDisplayPipeline.kPlaneId then
    some { r with
      cursor :=
        if (cursorFrom args j.layer).present then cursorFrom args j.layer else r.cursor }
  else if j.plane.index ∈ p.windows then
    let slot := p.windows.idxOf j.plane.index
    if j.plane.merging then some (r.joinMerge slot j)
    else
      (describeWindow args.tables args.forcedTurn j.layer j.plane.index
        (depthForZPos j.zPos)).map fun window => { r with windows := r.windows.set slot window }
  else none

/-- The bindings of the plan, in its order. -/
def describeAll : TegraAtomicRequest → List Joining → Option TegraAtomicRequest
  | r, [] => some r
  | r, j :: rest =>
    match r.describe p args j with
    | none => none
    | some r' => describeAll r' rest

/-- Whether a member sits off the panel. -/
def offPanel (mode : DrmMode) (l : VicLayer) : Bool :=
  l.display.left < 0 || l.display.top < 0 || (mode.hdisplay : Int) < l.display.right ||
    (mode.vdisplay : Int) < l.display.bottom

/-- A rectangle moved. -/
def moved (r : IRect) (dx dy : Int) : IRect :=
  ⟨r.left + dx, r.top + dy, r.right + dx, r.bottom + dy⟩

/-- The group's own frame of reference: its members from its corner, and where
that is. -/
def rebase (merge : Merge) : Merge :=
  let left := merge.layers.foldl (fun v l => min v l.display.left) (2 ^ 31 - 1)
  let top := merge.layers.foldl (fun v l => min v l.display.top) (2 ^ 31 - 1)
  let right := merge.layers.foldl (fun v l => max v l.display.right) (-2 ^ 31)
  let bottom := merge.layers.foldl (fun v l => max v l.display.bottom) (-2 ^ 31)
  { merge with
    originX := left
    originY := top
    width := if left < right then UInt32.ofNat (right - left).toNat else 1
    height := if top < bottom then UInt32.ofNat (bottom - top).toNat else 1
    layers := merge.layers.map fun l => { l with display := moved l.display (-left) (-top) } }

/-- `SeatMergeInEmptyWindow`. -/
def seatMergeInEmptyWindow (r : TegraAtomicRequest) : TegraAtomicRequest :=
  match r.windows.zipIdx.find? fun wi => wi.2 ≠ r.slot && wi.1.bufferFd = 0 with
  | none => r
  | some (window, i) => { r with slot := i, merge := { r.merge with window := window.index } }

/-- The window the engine will fill, as the proposal weighs it. -/
def mergeWindow (merge : Merge) : DcWindow :=
  { index := merge.window
    bufferFd := 1
    pixelFormat := args.tables.fmtR8G8B8A8
    sourceWidth := merge.width.toNat
    sourceHeight := merge.height.toNat
    outX := merge.originX
    outY := merge.originY
    outWidth := merge.width.toNat
    outHeight := merge.height.toNat
    z := merge.depth
    blend := .kPreMult }

/-- What follows the walk where a group was set aside. -/
def placeMerge (r : TegraAtomicRequest) : Option TegraAtomicRequest :=
  if r.merge.layers.isEmpty then some r
  else if p.modes.head?.any fun mode =>
      decide (0 < mode.hdisplay) && decide (0 < mode.vdisplay) &&
        r.merge.layers.any (offPanel mode) then none
  else
    let r := { r with merge := rebase r.merge }
    if (uniformTurn r.merge.transforms).isNone then none
    else
      let r := r.seatMergeInEmptyWindow
      if p.modes.isEmpty then some r
      else some { r with windows := r.windows.set r.slot (mergeWindow args r.merge) }

/-- `GetAtomicModeReqForArgs`. -/
def getAtomicModeReqForArgs (composition : Option (List Joining)) : Option TegraAtomicRequest :=
  if p.windows.isEmpty then none
  else if args.displayMode.any fun wanted => !p.modes.contains wanted then none
  else
    let r : TegraAtomicRequest :=
      { windows := p.windows.map fun index : Nat => { index := index }
        hasComposition := composition.isSome
        rate := args.displayMode }
    (describeAll p args r (composition.getD [])).bind (placeMerge p args)

-- ---------------------------------------------------------------------------
-- What is asked of a request
-- ---------------------------------------------------------------------------

/-- A binding to a window of its own. -/
def Ordinary (j : Joining) : Prop :=
  j.plane.merging = false ∧ j.plane.index ≠ TegraDisplayPipeline.kPlaneId

/-- A binding to a window, its own or the group's. -/
def OnWindow (j : Joining) : Prop := j.plane.merging = true ∨ Ordinary j

/-- **A plan of this pipeline's planes**: no plane twice, each one offered, the
places counted upwards, and no buffer's descriptor that of the standard input. -/
structure Planned (p : TegraDisplayPipeline) (plan : List Joining) : Prop where
  planesOnce : (plan.map (·.plane)).Nodup
  planesUsable : ∀ j ∈ plan,
    j.plane ∈ p.getUsablePlanes.1 ++ p.getUsablePlanes.2.toList
  zInOrder : LayerToPlaneJoiningPlan.ZInOrder plan
  describable : ∀ j ∈ plan, j.layer.fb ≠ some 0

/-- The merged layers are neighbours. -/
def Contiguous (plan : List Joining) : Prop :=
  ∀ (x y z : Nat) (a b c : Joining), x < y → y < z → plan[x]? = some a → plan[y]? = some b → plan[z]? = some c →
    a.plane.merging = true → c.plane.merging = true → b.plane.merging = true

/-- No two bindings share an ordinary window. -/
def OneEach (plan : List Joining) : Prop :=
  ∀ (i k : Nat) (a b : Joining), i < k → plan[i]? = some a → plan[k]? = some b → Ordinary a →
    Ordinary b → a.plane.index ≠ b.plane.index

/-- The place, among the head's windows, of the window a binding is shown
in. -/
def seatOf (p : TegraDisplayPipeline) (r : TegraAtomicRequest) (j : Joining) : Nat :=
  if j.plane.merging then r.slot else p.windows.idxOf j.plane.index

/-- **A request in the plan's order.** Every window of the head is named once;
of two bindings the higher is shown in a window nearer the viewer, but for two
of the group, which share theirs; the group's window has the depth of its lowest
member; and each member stands, from the group's corner, where its layer does
on the panel. -/
structure InOrder (p : TegraDisplayPipeline) (plan : List Joining) (r : TegraAtomicRequest) :
    Prop where
  named : r.windows.map (·.index) = p.windows.map Int.ofNat
  once : (r.windows.map (·.index)).Nodup
  ordered : ∀ (i k : Nat) (a b : Joining), i < k → plan[i]? = some a → plan[k]? = some b → OnWindow a →
    OnWindow b → (a.plane.merging = false ∨ b.plane.merging = false) →
    ∃ wa wb, r.windows[seatOf p r a]? = some wa ∧ r.windows[seatOf p r b]? = some wb ∧
      wa.bufferFd ≠ 0 ∧ wb.bufferFd ≠ 0 ∧ wb.z < wa.z
  lowest : ∀ first, (plan.filter fun j => j.plane.merging).head? = some first →
    ∃ w, r.windows[r.slot]? = some w ∧ w.index = r.merge.window ∧
      w.z = depthForZPos first.zPos ∧ r.merge.depth = w.z ∧
      w.outX = r.merge.originX ∧ w.outY = r.merge.originY
  placed : r.merge.layers.map (fun l => moved l.display r.merge.originX r.merge.originY) =
    (plan.filter fun j => j.plane.merging).map fun j => (mergeLayerFrom j.layer).display

-- ---------------------------------------------------------------------------
-- The planes offered
-- ---------------------------------------------------------------------------

variable {p : TegraDisplayPipeline} {args : RequestArgs}

theorem windows_nodup : p.windows.Nodup := List.nodup_range.filter _

theorem lt_of_mem_windows {index : Nat} (h : index ∈ p.windows) :
    index < TegraDisplayPipeline.kWindowSearchLimit :=
  List.mem_range.mp (List.mem_of_mem_filter h)

theorem ne_kPlaneId_of_mem {index : Nat} (h : index ∈ p.windows) :
    index ≠ TegraDisplayPipeline.kPlaneId := by
  have := lt_of_mem_windows h
  unfold TegraDisplayPipeline.kWindowSearchLimit at this
  unfold TegraDisplayPipeline.kPlaneId
  omega

/-- An offered plane names a window of the head, as often as that is offered,
and merges where its window does. -/
theorem planes_spec {plane : TegraPlane} (h : plane ∈ p.planes) :
    plane.index ∈ p.windows ∧ plane.offer < TegraDisplayPipeline.kMaxLayers ∧
      plane.merging = p.merges plane.index := by
  unfold TegraDisplayPipeline.planes at h
  obtain ⟨index, hIndex, hPlane⟩ := List.mem_flatMap.mp h
  obtain ⟨offer, hOffer, rfl⟩ := List.mem_map.mp hPlane
  refine ⟨hIndex, ?_, rfl⟩
  have hLt := List.mem_range.mp hOffer
  unfold TegraDisplayPipeline.offers at hLt
  simp only
  unfold TegraDisplayPipeline.kMaxLayers at *
  split at hLt
  · omega
  · split at hLt <;> omega

/-- A usable plane is one of those offered, or the cursor unit's. -/
theorem usable_cases {plane : TegraPlane}
    (h : plane ∈ p.getUsablePlanes.1 ++ p.getUsablePlanes.2.toList) :
    plane ∈ p.planes ∨ plane = { index := TegraDisplayPipeline.kPlaneId } := by
  unfold TegraDisplayPipeline.getUsablePlanes at h
  simp only at h
  obtain h | h := List.mem_append.mp h
  · exact .inl (List.mem_of_mem_filter h)
  · rw [Option.mem_toList] at h
    split at h
    · exact .inr (Option.some.inj h).symm
    · exact .inl (List.mem_of_find?_eq_some h)

/-- All the planes a head can be offered, and the unit's. -/
def everyPlane (p : TegraDisplayPipeline) : List TegraPlane :=
  { index := TegraDisplayPipeline.kPlaneId } ::
    (List.range TegraDisplayPipeline.kWindowSearchLimit).flatMap fun index =>
      (List.range TegraDisplayPipeline.kMaxLayers).map fun offer =>
        { index := index, offer := offer, merging := p.merges index }

variable {plan : List Joining}

/-- A plan is no longer than the planes there are, which is far less than the
depths. -/
theorem Planned.length_le (h : Planned p plan) : plan.length ≤ 31 := by
  have hSubset : plan.map (·.plane) ⊆ everyPlane p := by
    intro plane hPlane
    obtain ⟨j, hj, rfl⟩ := List.mem_map.mp hPlane
    unfold everyPlane
    obtain hOffered | hUnit := usable_cases (h.planesUsable j hj)
    · obtain ⟨hIndex, hOffer, hMerging⟩ := planes_spec hOffered
      refine List.mem_cons_of_mem _ (List.mem_flatMap.mpr
        ⟨j.plane.index, List.mem_range.mpr (lt_of_mem_windows hIndex),
          List.mem_map.mpr ⟨j.plane.offer, List.mem_range.mpr hOffer, ?_⟩⟩)
      rw [← hMerging]
    · rw [hUnit]
      exact List.mem_cons_self
  have hLength := (h.planesOnce.subperm hSubset).length_le
  rw [List.length_map] at hLength
  exact hLength

theorem Planned.depth (h : Planned p plan) {i : Nat} {j : Joining} (hj : plan[i]? = some j) :
    depthForZPos j.zPos = 255 - i ∧ i < 31 := by
  have hLt := (List.getElem?_eq_some_iff.mp hj).1
  have hLength := h.length_le
  rw [h.zInOrder i j hj]
  unfold depthForZPos
  refine ⟨if_neg (by omega), by omega⟩

/-- A binding that merges is to a window of the head. -/
theorem Planned.merging_mem (h : Planned p plan) {j : Joining} (hj : j ∈ plan)
    (hMerging : j.plane.merging = true) : j.plane.index ∈ p.windows := by
  obtain hOffered | hUnit := usable_cases (h.planesUsable j hj)
  · exact (planes_spec hOffered).1
  · rw [hUnit] at hMerging
    cases hMerging

/-- A window merges for all its planes or for none. -/
theorem Planned.merging_eq (h : Planned p plan) {j k : Joining} (hj : j ∈ plan) (hk : k ∈ plan)
    (hj' : Ordinary j) (hk' : k.plane.merging = true) : j.plane.index ≠ k.plane.index := by
  intro hSame
  obtain hOffered | hUnit := usable_cases (h.planesUsable j hj)
  · obtain hOffered' | hUnit' := usable_cases (h.planesUsable k hk)
    · have hMerging := (planes_spec hOffered').2.2
      rw [← hSame, ← (planes_spec hOffered).2.2, hj'.1, hk'] at hMerging
      cases hMerging
    · rw [hUnit'] at hk'
      cases hk'
  · exact hj'.2 (by rw [hUnit])

-- ---------------------------------------------------------------------------
-- The walk over the plan
-- ---------------------------------------------------------------------------

variable {r r' : TegraAtomicRequest}

theorem describeWindow_spec {t : BufferTables} {forced : Int} {layer : LayerData}
    {planeId depth : Nat} {w : DcWindow}
    (h : describeWindow t forced layer planeId depth = some w) :
    w.index = planeId ∧ w.z = depth ∧ layer.fb = some w.bufferFd := by
  unfold describeWindow at h
  split at h
  · rename_i bi fb hBi hFb
    simp only at h
    split at h
    · cases h
    split at h
    · cases h
    · obtain rfl := Option.some.inj h
      exact ⟨rfl, rfl, hFb⟩
  · cases h

/-- What one binding does: the cursor's is set aside, a merging one joins the
group, any other describes its window. -/
theorem describe_cases {j : Joining} (h : r.describe p args j = some r') :
    (j.plane.index = TegraDisplayPipeline.kPlaneId ∧ ∃ cursor, r' = { r with cursor := cursor }) ∨
    (j.plane.index ∈ p.windows ∧ j.plane.merging = true ∧
      r' = r.joinMerge (p.windows.idxOf j.plane.index) j) ∨
    (j.plane.index ∈ p.windows ∧ Ordinary j ∧
      ∃ w : DcWindow, w.index = j.plane.index ∧ w.z = depthForZPos j.zPos ∧
        j.layer.fb = some w.bufferFd ∧
        r' = { r with windows := r.windows.set (p.windows.idxOf j.plane.index) w }) := by
  unfold describe at h
  split at h
  · rename_i hUnit
    exact .inl ⟨hUnit, _, (Option.some.inj h).symm⟩
  rename_i hUnit
  split at h
  · rename_i hIndex
    simp only at h
    split at h
    · rename_i hMerging
      exact .inr (.inl ⟨hIndex, hMerging, (Option.some.inj h).symm⟩)
    · rename_i hMerging
      obtain ⟨w, hw, rfl⟩ := Option.map_eq_some_iff.mp h
      obtain ⟨hIndexed, hDepth, hFd⟩ := describeWindow_spec hw
      exact .inr (.inr ⟨hIndex, ⟨Bool.eq_false_iff.mpr hMerging, hUnit⟩, w, hIndexed, hDepth, hFd,
        rfl⟩)
  · cases h

/-- What the walk has filled in after some of the bindings. -/
structure Filled (p : TegraDisplayPipeline) (done : List Joining) (r : TegraAtomicRequest) :
    Prop where
  named : r.windows.map (·.index) = p.windows.map Int.ofNat
  described : ∀ j ∈ done, Ordinary j →
    ∃ w, r.windows[p.windows.idxOf j.plane.index]? = some w ∧ w.bufferFd ≠ 0 ∧
      w.z = depthForZPos j.zPos
  spare : ∀ (slot : Nat) (w : DcWindow), r.windows[slot]? = some w →
    (∀ j ∈ done, Ordinary j → p.windows.idxOf j.plane.index ≠ slot) → w.bufferFd = 0
  members : r.merge.layers =
    (done.filter fun j => j.plane.merging).map fun j => mergeLayerFrom j.layer
  seated : ∀ first, (done.filter fun j => j.plane.merging).head? = some first →
    first.plane.index ∈ p.windows ∧ r.slot = p.windows.idxOf first.plane.index ∧
      r.merge.window = first.plane.index ∧ r.merge.depth = depthForZPos first.zPos

variable {done : List Joining}

theorem Filled.length_eq (h : Filled p done r) : r.windows.length = p.windows.length := by
  simpa using congrArg List.length h.named

/-- The window at the place of one of the head's is that one. -/
theorem Filled.get (h : Filled p done r) {index : Nat} (hIndex : index ∈ p.windows) :
    p.windows.idxOf index < r.windows.length ∧
      (r.windows[p.windows.idxOf index]?).map (·.index) = some (index : Int) := by
  have hLt := List.idxOf_lt_length_iff.mpr hIndex
  refine ⟨h.length_eq ▸ hLt, ?_⟩
  rw [← List.getElem?_map, h.named, List.getElem?_map, List.getElem?_eq_getElem hLt,
    List.getElem_idxOf hLt]
  rfl

/-- A window described anew at its own place leaves every place its name. -/
theorem named_set {slot : Nat} {w : DcWindow} (h : r.windows.map (·.index) = p.windows.map Int.ofNat)
    (hw : (r.windows[slot]?).map (·.index) = some w.index) :
    (r.windows.set slot w).map (·.index) = p.windows.map Int.ofNat := by
  rw [← h, List.map_set]
  apply List.ext_getElem?
  intro i
  rw [List.getElem?_set]
  split
  · rename_i hSame
    subst hSame
    split
    · rw [List.getElem?_map, hw]
    · rename_i hOut
      rw [List.getElem?_eq_none (by simpa using hOut)]
  · rfl

theorem filled_describe {j : Joining} (h : Filled p done r)
    (hOnce : ∀ k ∈ done, Ordinary k → Ordinary j → k.plane.index ≠ j.plane.index)
    (hUnit : j.plane.index = TegraDisplayPipeline.kPlaneId → j.plane.merging = false)
    (hFb : j.layer.fb ≠ some 0) (hStep : r.describe p args j = some r') :
    Filled p (done ++ [j]) r' := by
  obtain ⟨hIndex, cursor, rfl⟩ | ⟨hIndex, hMerging, rfl⟩ | ⟨hIndex, hOrdinary, w, hw, hDepth, hFd, rfl⟩ :=
    describe_cases hStep
  · -- the cursor's binding touches no window
    have hFilter : (done ++ [j]).filter (fun j => j.plane.merging) =
        done.filter fun j => j.plane.merging := by
      simp [hUnit hIndex]
    refine ⟨h.named, fun k hk hOrdinary => ?_, fun slot w hw hSpare => ?_, ?_, ?_⟩
    · obtain hk | hk := List.mem_append.mp hk
      · exact h.described k hk hOrdinary
      · rw [List.mem_singleton.mp hk] at hOrdinary
        exact absurd hIndex hOrdinary.2
    · exact h.spare slot w hw fun k hk => hSpare k (List.mem_append_left _ hk)
    · rw [hFilter]
      exact h.members
    · rw [hFilter]
      exact h.seated
  · have hFilter : (done ++ [j]).filter (fun j => j.plane.merging) =
        (done.filter fun j => j.plane.merging) ++ [j] := by
      simp [hMerging]
    have hEmpty : r.merge.layers.isEmpty = (done.filter fun j => j.plane.merging).isEmpty := by
      rw [h.members]
      simp
    refine ⟨h.named, fun k hk hOrdinary => ?_, fun slot w hw hSpare => ?_, ?_, fun first hFirst => ?_⟩
    · obtain hk | hk := List.mem_append.mp hk
      · exact h.described k hk hOrdinary
      · rw [List.mem_singleton.mp hk] at hOrdinary
        rw [hOrdinary.1] at hMerging
        cases hMerging
    · exact h.spare slot w hw fun k hk => hSpare k (List.mem_append_left _ hk)
    · rw [hFilter, List.map_append]
      unfold joinMerge
      simp only
      rw [h.members]
      rfl
    · rw [hFilter] at hFirst
      unfold joinMerge
      simp only
      rw [hEmpty]
      cases hMembers : done.filter fun j => j.plane.merging with
      | nil =>
        rw [hMembers] at hFirst
        obtain rfl := Option.some.inj hFirst
        exact ⟨hIndex, rfl, rfl, rfl⟩
      | cons lowest rest =>
        rw [hMembers] at hFirst
        exact h.seated first (by rw [hMembers]; exact hFirst)
  · have hFilter : (done ++ [j]).filter (fun j => j.plane.merging) =
        done.filter fun j => j.plane.merging := by
      simp [hOrdinary.1]
    obtain ⟨hLt, hGet⟩ := h.get hIndex
    refine ⟨named_set h.named (hw ▸ hGet), fun k hk hOrdinary' => ?_, fun slot w' hw' hSpare => ?_,
      ?_, ?_⟩
    · simp only
      obtain hk | hk := List.mem_append.mp hk
      · obtain ⟨wk, hwk, hOn, hz⟩ := h.described k hk hOrdinary'
        refine ⟨wk, ?_, hOn, hz⟩
        rw [List.getElem?_set_ne, hwk]
        intro hSame
        exact hOnce k hk hOrdinary' hOrdinary ((List.idxOf_inj hIndex).mp hSame).symm
      · obtain rfl := List.mem_singleton.mp hk
        refine ⟨w, List.getElem?_set_self hLt, fun hOff => hFb ?_, hDepth⟩
        rw [hFd, hOff]
    · simp only at hw'
      have hOther := hSpare j (List.mem_append_right _ (List.mem_singleton.mpr rfl)) hOrdinary
      rw [List.getElem?_set_ne hOther] at hw'
      exact h.spare slot w' hw' fun k hk => hSpare k (List.mem_append_left _ hk)
    · rw [hFilter]
      exact h.members
    · rw [hFilter]
      exact h.seated

/-- Each ordinary window is described by its one binding, so the walk fills in
the whole plan. -/
theorem filled_describeAll {rest : List Joining} (hPlan : Planned p plan) (hEach : OneEach plan)
    (hSplit : plan = done ++ rest) (h : Filled p done r)
    (hWalk : r.describeAll p args rest = some r') : Filled p plan r' := by
  induction rest generalizing done r with
  | nil =>
    obtain rfl := Option.some.inj hWalk
    rw [hSplit, List.append_nil]
    exact h
  | cons j rest ih =>
    unfold describeAll at hWalk
    split at hWalk
    · cases hWalk
    rename_i next hNext
    have hj : j ∈ plan := by
      rw [hSplit]
      exact List.mem_append_right _ List.mem_cons_self
    have hAt : plan[done.length]? = some j := by
      rw [hSplit, List.getElem?_append_right (Nat.le_refl _), Nat.sub_self]
      rfl
    refine ih (by rw [hSplit]; simp) (filled_describe h (fun k hk hOrdinary hOrdinary' => ?_) ?_
      (hPlan.describable j hj) hNext) hWalk
    · obtain ⟨i, hi⟩ := List.mem_iff_getElem?.mp hk
      have hLt := (List.getElem?_eq_some_iff.mp hi).1
      refine hEach i done.length k j hLt ?_ hAt hOrdinary hOrdinary'
      rw [hSplit, List.getElem?_append_left hLt, hi]
    · intro hUnit
      by_contra hMerging
      rw [Bool.not_eq_false] at hMerging
      exact ne_kPlaneId_of_mem (hPlan.merging_mem hj hMerging) hUnit

/-- Before the walk every window is off. -/
theorem filled_start {hasComposition : Bool} {rate : Option DrmMode} :
    Filled p []
      { windows := p.windows.map fun index : Nat => { index := index }
        hasComposition := hasComposition
        rate := rate } where
  named := by
    rw [List.map_map]
    rfl
  described := fun _ h => (nomatch h)
  spare := by
    intro slot w hw _
    simp only [List.getElem?_map, Option.map_eq_some_iff] at hw
    obtain ⟨index, -, rfl⟩ := hw
    rfl
  members := rfl
  seated := fun _ h => (nomatch h)

-- ---------------------------------------------------------------------------
-- The group's place
-- ---------------------------------------------------------------------------

theorem moved_back (r : IRect) (x y : Int) : moved (moved r (-x) (-y)) x y = r := by
  cases r
  simp [moved]

/-- The group is moved to its corner, and its members with it. -/
theorem rebase_placed (merge : Merge) :
    (rebase merge).layers.map (fun l => moved l.display (rebase merge).originX (rebase merge).originY) =
      merge.layers.map fun l => l.display := by
  unfold rebase
  simp only [List.map_map]
  exact List.map_congr_left fun l _ => moved_back _ _ _

/-- The group keeps its window, or takes one that stands empty. -/
theorem seatMerge_cases : (r.seatMergeInEmptyWindow = r) ∨
    ∃ slot w, r.windows[slot]? = some w ∧ slot ≠ r.slot ∧ w.bufferFd = 0 ∧
      r.seatMergeInEmptyWindow =
        { r with slot := slot, merge := { r.merge with window := w.index } } := by
  unfold seatMergeInEmptyWindow
  split
  · exact .inl rfl
  · rename_i w slot hFound
    have hMem := List.mem_of_find?_eq_some hFound
    have hEmpty := List.find?_some hFound
    simp only [ne_eq, decide_not, Bool.and_eq_true, Bool.not_eq_true', decide_eq_false_iff_not,
      decide_eq_true_eq] at hEmpty
    exact .inr ⟨slot, w, List.mk_mem_zipIdx_iff_getElem?.mp hMem, hEmpty.1, hEmpty.2, rfl⟩

/-- What a group's request comes to: the group is rebased, seated in its window
or an empty one, and that window is described. -/
theorem placeMerge_cases (h : r.placeMerge p args = some r') :
    (r.merge.layers = [] ∧ r' = r) ∨
    (r.merge.layers ≠ [] ∧ ∃ s : TegraAtomicRequest,
      ({ r with merge := rebase r.merge } : TegraAtomicRequest).seatMergeInEmptyWindow = s ∧
      r' = { s with windows := s.windows.set s.slot (mergeWindow args s.merge) }) := by
  unfold placeMerge at h
  by_cases hNone : r.merge.layers.isEmpty = true
  · rw [if_pos hNone] at h
    exact .inl ⟨List.isEmpty_iff.mp hNone, (Option.some.inj h).symm⟩
  · rw [if_neg hNone] at h
    split at h
    · cases h
    simp only at h
    split at h
    · cases h
    split at h
    · rename_i hModes
      exact absurd (List.isEmpty_iff.mp hModes) p.hasMode
    · exact .inr ⟨fun hNil => hNone (List.isEmpty_iff.mpr hNil), _, rfl, (Option.some.inj h).symm⟩

/-- The lowest of the group, and its place in the plan. -/
theorem lowest_at {first : Joining}
    (h : (plan.filter fun j => j.plane.merging).head? = some first) :
    ∃ m : Nat, plan[m]? = some first ∧ first.plane.merging = true ∧
      ∀ (x : Nat) (j : Joining), x < m → plan[x]? = some j → j.plane.merging = false := by
  rw [List.head?_filter, List.find?_eq_some_iff_getElem] at h
  obtain ⟨hMerging, m, hm, hAt, hBelow⟩ := h
  refine ⟨m, by rw [List.getElem?_eq_getElem hm, hAt], hMerging, fun x j hx hj => ?_⟩
  obtain ⟨hLt, rfl⟩ := List.getElem?_eq_some_iff.mp hj
  simpa using hBelow x hx

/-- No window is named twice. -/
theorem once_of_named (h : r.windows.map (·.index) = p.windows.map Int.ofNat) :
    (r.windows.map (·.index)).Nodup := by
  rw [h]
  exact windows_nodup.map fun a b hSame => Int.ofNat.inj hSame

/-- What the walk has filled in, with the group in its place: the group's
window is no ordinary binding's, and has the group's name. -/
structure Grouped (p : TegraDisplayPipeline) (plan : List Joining) (r s : TegraAtomicRequest) :
    Prop where
  windows : s.windows = r.windows
  apart : ∀ j ∈ plan, Ordinary j → p.windows.idxOf j.plane.index ≠ s.slot
  named : (r.windows[s.slot]?).map (·.index) = some s.merge.window
  placed : s.merge.layers = (rebase r.merge).layers ∧ s.merge.originX = (rebase r.merge).originX ∧
    s.merge.originY = (rebase r.merge).originY
  depth : s.merge.depth = r.merge.depth

theorem grouped_of_filled {first : Joining} (hPlan : Planned p plan) (h : Filled p plan r)
    (hFirst : (plan.filter fun j => j.plane.merging).head? = some first) :
    Grouped p plan r
      ({ r with merge := rebase r.merge } : TegraAtomicRequest).seatMergeInEmptyWindow := by
  obtain ⟨hIndex, hSlot, hWindow, -⟩ := h.seated first hFirst
  obtain ⟨m, hm, hMerging, -⟩ := lowest_at hFirst
  obtain hSame | ⟨slot, w, hw, -, hEmpty, hMoved⟩ :=
    @seatMerge_cases { r with merge := rebase r.merge }
  · rw [hSame]
    refine ⟨rfl, fun j hj hOrdinary hHere => ?_, ?_, ⟨rfl, rfl, rfl⟩, rfl⟩
    · simp only at hHere
      rw [hSlot] at hHere
      refine hPlan.merging_eq hj (List.mem_of_getElem? hm) hOrdinary hMerging ?_
      exact ((List.idxOf_inj hIndex).mp hHere.symm).symm
    · have hName : (rebase r.merge).window = r.merge.window := rfl
      simp only
      rw [hSlot, hName, hWindow]
      exact (h.get hIndex).2
  · rw [hMoved]
    simp only at hw
    refine ⟨rfl, fun j hj hOrdinary hHere => ?_, by simp only; rw [hw]; rfl, ⟨rfl, rfl, rfl⟩, rfl⟩
    obtain ⟨wj, hwj, hOn, -⟩ := h.described j hj hOrdinary
    simp only at hHere
    rw [hHere, hw] at hwj
    obtain rfl := Option.some.inj hwj
    exact hOn hEmpty

/-- A request with no group follows its plan. -/
theorem inOrder_alone (hPlan : Planned p plan) (h : Filled p plan r) (hNone : r.merge.layers = []) :
    InOrder p plan r := by
  have hEmpty : plan.filter (fun j => j.plane.merging) = [] := by
    have := h.members
    rw [hNone] at this
    exact List.map_eq_nil_iff.mp this.symm
  have hOrdinary : ∀ j ∈ plan, OnWindow j → Ordinary j := by
    intro j hj hOn
    refine hOn.resolve_left fun hMerging => ?_
    exact List.filter_eq_nil_iff.mp hEmpty j hj hMerging
  refine ⟨h.named, once_of_named h.named, fun i k a b hik ha hb hOnA hOnB _ => ?_,
    fun first hFirst => ?_, ?_⟩
  · have hA := hOrdinary a (List.mem_of_getElem? ha) hOnA
    have hB := hOrdinary b (List.mem_of_getElem? hb) hOnB
    obtain ⟨wa, hwa, hOnA, hza⟩ := h.described a (List.mem_of_getElem? ha) hA
    obtain ⟨wb, hwb, hOnB, hzb⟩ := h.described b (List.mem_of_getElem? hb) hB
    refine ⟨wa, wb, ?_, ?_, hOnA, hOnB, ?_⟩
    · rw [seatOf, hA.1, if_neg (by decide), hwa]
    · rw [seatOf, hB.1, if_neg (by decide), hwb]
    · rw [hza, hzb, (hPlan.depth ha).1, (hPlan.depth hb).1]
      have := (hPlan.depth hb).2
      omega
  · rw [hEmpty] at hFirst
    cases hFirst
  · rw [hNone, hEmpty]
    rfl

/-- A group that stands together may be shown at its lowest member's place: what
is below a member is below that, and what is above a member is above it. -/
theorem place_lt (hNear : Contiguous plan) {i k m : Nat} {a b first : Joining}
    (hm : plan[m]? = some first) (hMerging : first.plane.merging = true)
    (hBelow : ∀ (x : Nat) (j : Joining), x < m → plan[x]? = some j → j.plane.merging = false)
    (hik : i < k) (ha : plan[i]? = some a) (hb : plan[k]? = some b)
    (hApart : a.plane.merging = false ∨ b.plane.merging = false) :
    (if a.plane.merging then m else i) < if b.plane.merging then m else k := by
  by_cases hA : a.plane.merging = true
  · -- the group's lowest is no higher than this member
    have hB : b.plane.merging = false := hApart.resolve_left (by rw [hA]; decide)
    rw [hA, hB, if_pos rfl, if_neg (by decide)]
    have hmi : m ≤ i := by
      by_contra hAbove
      rw [hBelow i a (by omega) ha] at hA
      cases hA
    omega
  · rw [if_neg hA]
    by_cases hB : b.plane.merging = true
    · rw [if_pos hB]
      -- the group stands together, and a member is above this binding
      by_contra hNot
      obtain hAt | hUnder := Nat.eq_or_lt_of_le (Nat.not_lt.mp hNot)
      · rw [← hAt, hm] at ha
        exact hA (Option.some.inj ha ▸ hMerging)
      · exact hA (hNear m i k first a b hUnder hik hm ha hb hMerging hB)
    · rw [if_neg hB]
      exact hik

theorem inOrder_of_filled (hPlan : Planned p plan) (hNear : Contiguous plan)
    (h : Filled p plan r) (hPlace : r.placeMerge p args = some r') : InOrder p plan r' := by
  obtain ⟨hNone, rfl⟩ | ⟨hSome, s, hSeated, rfl⟩ := placeMerge_cases hPlace
  · exact inOrder_alone hPlan h hNone
  obtain ⟨first, hFirst⟩ : ∃ first, (plan.filter fun j => j.plane.merging).head? = some first := by
    cases hMembers : plan.filter fun j => j.plane.merging with
    | nil =>
      have := h.members
      rw [hMembers] at this
      exact absurd this hSome
    | cons first rest => exact ⟨first, rfl⟩
  obtain ⟨m, hm, hMerging, hBelow⟩ := lowest_at hFirst
  have hGroup := grouped_of_filled hPlan h hFirst
  rw [hSeated] at hGroup
  have hDepth : s.merge.depth = 255 - m := by
    rw [hGroup.depth, (h.seated first hFirst).2.2.2, (hPlan.depth hm).1]
  have hLt : s.slot < r.windows.length := by
    by_contra hOut
    have := hGroup.named
    rw [List.getElem?_eq_none (Nat.not_lt.mp hOut)] at this
    cases this
  have hNamed : (r.windows.set s.slot (mergeWindow args s.merge)).map (·.index) =
      p.windows.map Int.ofNat := named_set h.named hGroup.named
  -- where each binding is shown, and how deep
  have hShown : ∀ (i : Nat) (j : Joining), plan[i]? = some j → OnWindow j → ∃ w,
      (r.windows.set s.slot (mergeWindow args s.merge))[seatOf p s j]? = some w ∧
        w.bufferFd ≠ 0 ∧ w.z = 255 - if j.plane.merging then m else i := by
    intro i j hj hOn
    unfold seatOf
    by_cases hJoins : j.plane.merging = true
    · rw [if_pos hJoins, if_pos hJoins]
      exact ⟨_, List.getElem?_set_self hLt, one_ne_zero, hDepth⟩
    · rw [if_neg hJoins, if_neg hJoins]
      have hOrdinary := hOn.resolve_left hJoins
      obtain ⟨w, hw, hLit, hz⟩ := h.described j (List.mem_of_getElem? hj) hOrdinary
      refine ⟨w, ?_, hLit, by rw [hz, (hPlan.depth hj).1]⟩
      rw [List.getElem?_set_ne, hw]
      exact (hGroup.apart j (List.mem_of_getElem? hj) hOrdinary).symm
  rw [hGroup.windows]
  refine ⟨hNamed, once_of_named (r := { s with windows := _ }) hNamed,
    fun i k a b hik ha hb hOnA hOnB hApart => ?_, fun first' hFirst' => ?_, ?_⟩
  · obtain ⟨wa, hwa, hLitA, hza⟩ := hShown i a ha hOnA
    obtain ⟨wb, hwb, hLitB, hzb⟩ := hShown k b hb hOnB
    refine ⟨wa, wb, hwa, hwb, hLitA, hLitB, ?_⟩
    have hPlaced := place_lt hNear hm hMerging hBelow hik ha hb hApart
    have hShallow : (if b.plane.merging then m else k) < 31 := by
      split
      · exact (hPlan.depth hm).2
      · exact (hPlan.depth hb).2
    rw [hza, hzb]
    omega
  · obtain rfl := Option.some.inj (hFirst.symm.trans hFirst')
    refine ⟨_, List.getElem?_set_self hLt, rfl, ?_, rfl, rfl, rfl⟩
    rw [(hPlan.depth hm).1]
    exact hDepth
  · obtain ⟨hLayers, hX, hY⟩ := hGroup.placed
    simp only
    rw [hLayers, hX, hY, rebase_placed, h.members, List.map_map]
    rfl

/-- **A request follows its plan** just where no two of its bindings share an
ordinary window. -/
theorem getAtomicModeReqForArgs_inOrder_iff (p : TegraDisplayPipeline) (args : RequestArgs)
    (plan : List Joining) (hPlan : Planned p plan) (hNear : Contiguous plan)
    (r : TegraAtomicRequest) (h : getAtomicModeReqForArgs p args (some plan) = some r) :
    InOrder p plan r ↔ OneEach plan := by
  constructor
  · intro hOrder i k a b hik ha hb hA hB hSame
    obtain ⟨wa, wb, hwa, hwb, -, -, hLt⟩ :=
      hOrder.ordered i k a b hik ha hb (.inr hA) (.inr hB) (.inl hA.1)
    rw [seatOf, hA.1, if_neg (by decide), hSame] at hwa
    rw [seatOf, hB.1, if_neg (by decide), hwa] at hwb
    obtain rfl := Option.some.inj hwb
    exact Nat.lt_irrefl _ hLt
  · intro hEach
    unfold getAtomicModeReqForArgs at h
    split at h
    · cases h
    split at h
    · cases h
    obtain ⟨walked, hWalk, hPlace⟩ := Option.bind_eq_some_iff.mp h
    have hFilled := filled_describeAll hPlan hEach (List.nil_append _).symm filled_start hWalk
    exact inOrder_of_filled hPlan hNear hFilled hPlace

/-- Where every window that does not merge is offered once, no two bindings
share one. -/
theorem oneEach_of_offers (hPlan : Planned p plan)
    (hOffers : ∀ index ∈ p.windows, p.merges index = false → p.offers index ≤ 1) :
    OneEach plan := by
  intro i k a b hik ha hb hA hB hSame
  have hOffer : ∀ j ∈ plan, Ordinary j → j.plane = ⟨j.plane.index, 0, false⟩ := by
    intro j hj hOrdinary
    obtain hOffered | hUnit := usable_cases (hPlan.planesUsable j hj)
    · unfold TegraDisplayPipeline.planes at hOffered
      obtain ⟨index, hIndex, hPlane⟩ := List.mem_flatMap.mp hOffered
      obtain ⟨offer, hLt, hEq⟩ := List.mem_map.mp hPlane
      have hMerges : p.merges index = false := by
        rw [← hOrdinary.1, ← hEq]
      have hOnce := hOffers index hIndex hMerges
      have hFirst : offer = 0 := by
        have := List.mem_range.mp hLt
        omega
      rw [← hEq, hFirst, hMerges]
    · exact absurd (by rw [hUnit]) hOrdinary.2
  have hPlanes : a.plane = b.plane := by
    rw [hOffer a (List.mem_of_getElem? ha) hA, hOffer b (List.mem_of_getElem? hb) hB, hSame]
  have hkLt := (List.getElem?_eq_some_iff.mp hb).1
  refine List.nodup_iff_getElem?_ne_getElem?.mp hPlan.planesOnce i k hik (by simpa using hkLt) ?_
  rw [List.getElem?_map, List.getElem?_map, ha, hb, Option.map_some, Option.map_some, hPlanes]

/-- A plan joined from this pipeline's planes is one of its plans, and its
merged layers are neighbours. -/
theorem planned_of_joined {u : UsablePlanes TegraPlane} {composition : List LayerData}
    {cursorLayer : Option LayerData} {joined : LayerToPlaneJoiningPlan TegraPlane}
    (hJoined : LayerToPlaneJoiningPlan.Joined u composition cursorLayer joined)
    (hPlanes : (u.avail, u.cursor) = p.getUsablePlanes)
    (hMerging : ∀ plane, u.isMerging plane = plane.merging)
    (hFds : ∀ j ∈ joined.plan, j.layer.fb ≠ some 0) :
    Planned p joined.plan ∧ Contiguous joined.plan := by
  refine ⟨⟨hJoined.planesOnce, ?_, hJoined.zInOrder, hFds⟩, ?_⟩
  · rw [← hPlanes]
    exact hJoined.planesUsable
  · obtain ⟨before, block, after, hSplit, hBefore, hBlock, hAfter⟩ := hJoined.oneBlock
    simp only [hMerging] at hBefore hBlock hAfter
    intro x y z a b c hxy hyz ha hb hc hMergesA hMergesC
    rw [hSplit] at ha hb hc
    have hx : before.length ≤ x := by
      by_contra hIn
      rw [List.append_assoc, List.getElem?_append_left (Nat.not_le.mp hIn)] at ha
      exact hBefore a (List.mem_of_getElem? ha) hMergesA
    have hz : z < (before ++ block).length := by
      by_contra hOut
      rw [List.getElem?_append_right (Nat.not_lt.mp hOut)] at hc
      exact hAfter c (List.mem_of_getElem? hc) hMergesC
    rw [List.getElem?_append_left (by omega), List.getElem?_append_right (by omega)] at hb
    exact hBlock b (List.mem_of_getElem? hb)

/-- A head of two windows, one that scales and one of rows only. -/
def twoWindows (mergeOffered : Bool) : TegraDisplayPipeline where
  tryClaimWindow := fun index => index < 2
  capabilities := fun index =>
    if index = 0 then some { pitchLayout := true, blocklinearLayout := true, scaling := true }
    else if index = 1 then some { pitchLayout := true }
    else none
  modes := [{ hdisplay := 800, vdisplay := 1280 }]
  hasMode := by decide
  mergeOffered := mergeOffered

/-- A layer of rows, in its place. -/
def rowsAt (top : Int) : LayerData :=
  { bi := some { width := 800, height := 64 }
    fb := some 7
    pi := { displayFrame := some ⟨0, top, 800, top + 64⟩ } }

/-- A picture under two strips, which the merge takes. -/
def merged : List Joining :=
  [⟨rowsAt 0, ⟨0, 0, false⟩, 0⟩, ⟨rowsAt 100, ⟨1, 0, true⟩, 1⟩, ⟨rowsAt 200, ⟨1, 1, true⟩, 2⟩]

theorem planned_merged : Planned (twoWindows true) merged where
  planesOnce := by decide
  planesUsable := by decide
  zInOrder := by
    intro k j h
    match k with
    | 0 => exact (Option.some.inj h) ▸ rfl
    | 1 => exact (Option.some.inj h) ▸ rfl
    | 2 => exact (Option.some.inj h) ▸ rfl
    | _ + 3 => cases h
  describable := by decide

/-- The two strips share a window, above the picture's. -/
theorem getAtomicModeReqForArgs_inOrder_merged :
    ∃ r, getAtomicModeReqForArgs (twoWindows true) {} (some merged) = some r ∧
      InOrder (twoWindows true) merged r := by
  have hSome : (getAtomicModeReqForArgs (twoWindows true) {} (some merged)).isSome = true := by
    decide +kernel
  obtain ⟨r, hr⟩ := Option.isSome_iff_exists.mp hSome
  refine ⟨r, hr, (getAtomicModeReqForArgs_inOrder_iff _ _ _ planned_merged ?_ r hr).mpr
    (oneEach_of_offers planned_merged (by decide))⟩
  intro x y z a b c hxy hyz ha hb hc hA hC
  have hz := (List.getElem?_eq_some_iff.mp hc).1
  obtain rfl : x = 0 := by
    have : merged.length = 3 := rfl
    omega
  obtain rfl := Option.some.inj ha
  cases hA

/-- Two strips, with the merge switched off. -/
def unmerged : List Joining :=
  [⟨rowsAt 100, ⟨1, 0, false⟩, 0⟩, ⟨rowsAt 200, ⟨1, 1, false⟩, 1⟩]

/-- **Two layers in one window.** With the merge switched off its window is
offered as often as before; a plan that takes two of the offers has its second
layer described over its first. -/
theorem getAtomicModeReqForArgs_disordered :
    ¬∀ (p : TegraDisplayPipeline) (args : RequestArgs) (plan : List Joining),
      Planned p plan → Contiguous plan → ∀ r, getAtomicModeReqForArgs p args (some plan) = some r →
        InOrder p plan r := by
  intro h
  have hSome : (getAtomicModeReqForArgs (twoWindows false) {} (some unmerged)).isSome = true := by
    decide +kernel
  obtain ⟨r, hr⟩ := Option.isSome_iff_exists.mp hSome
  have hPlanned : Planned (twoWindows false) unmerged := by
    refine ⟨by decide, by decide, fun k j hj => ?_, by decide⟩
    match k with
    | 0 => exact (Option.some.inj hj) ▸ rfl
    | 1 => exact (Option.some.inj hj) ▸ rfl
    | _ + 2 => cases hj
  have hOrdinary : ∀ j ∈ unmerged, j.plane.merging = false := by decide
  have hOrder := h _ _ _ hPlanned (fun x y z a b c _ _ ha _ _ hA => by
    rw [hOrdinary a (List.mem_of_getElem? ha)] at hA
    cases hA) r hr
  obtain ⟨wa, wb, hwa, hwb, -, -, hLt⟩ := hOrder.ordered 0 1 _ _ Nat.zero_lt_one rfl rfl
    (.inr ⟨rfl, by decide⟩) (.inr ⟨rfl, by decide⟩) (.inl rfl)
  -- both are shown in the one window
  have hSame : wa = wb := Option.some.inj (hwa.symm.trans hwb)
  rw [hSame] at hLt
  exact Nat.lt_irrefl _ hLt

end TegraAtomicRequest

end TegraHwc
