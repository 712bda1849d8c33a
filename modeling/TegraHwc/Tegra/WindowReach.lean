import TegraHwc.Compositor.GenericCompositionPlanner
import TegraHwc.Hwc.LayerBlended
import TegraHwc.Tegra.PanelPicture

/-!
# TegraHwc — what a window is asked to show

Before a layer is bound for a plane the plane judges it: a window by what the
controller says of it (`IsValidForLayer` of `tegra/TegraPlane.cpp`), a merging
plane by the engine's reach, the cursor's unit by its own (`tegra/CursorPlane.cpp`).
`GetAtomicModeReqForArgs` of `tegra/TegraAtomicStateManager.cpp` describes each
binding afterwards, and refuses the whole frame where one cannot be described.

The flags of an arrangement come from outside; what a format and a modifier say is
`tegra/TegraFormat.cpp`'s own, and the judge and the description read the same.

## Results

* `tegraLayoutFromModifier_blockLinear` — an arrangement in blocks comes back from
  the modifier made of it, or is refused for its kind.
* `request_made_iff`  — a plan whose planes took their layers becomes a request but
  for what no plane judges.
* `windows_within`    — no window of a request is asked for more than the controller
  said it can do.
-/

namespace TegraHwc

open MachineNumbers (lroundf)

-- ---------------------------------------------------------------------------
-- Arrangements
-- ---------------------------------------------------------------------------

/-- How a buffer's memory is arranged; blocks are told by the logarithm of their
height. -/
inductive MemoryLayout where
  | pitch
  | tiled
  | blockLinear (blockHeightLog2 : Nat)
  deriving DecidableEq, Repr

/-- `NvidiaModifier`. -/
def nvidiaModifier (code : Nat) : Nat := 3 * 2 ^ 56 + code % 2 ^ 56

/-- `DRM_FORMAT_MOD_NVIDIA_BLOCK_LINEAR_2D`, of the kind and the block's height; the
rest of the shape is nought here. -/
def blockLinearModifier (kind blockHeightLog2 : Nat) : Nat :=
  nvidiaModifier (0x10 + blockHeightLog2 % 16 + kind % 256 * 2 ^ 12)

/-- `kKindGeneric16Bx2`. -/
def kKindGeneric16Bx2 : Nat := 0xfe

/-- `IsBlockLinear`. -/
def isBlockLinear (modifier : Nat) : Bool :=
  decide (modifier / 2 ^ 56 = 3) && modifier.testBit 4

/-- `TegraLayoutFromModifier`. -/
def tegraLayoutFromModifier (modifier : Nat) : Option MemoryLayout :=
  if isBlockLinear modifier then
    if modifier / 2 ^ 12 % 256 ≠ kKindGeneric16Bx2 then none
    else some (.blockLinear (modifier % 16))
  else if modifier = nvidiaModifier 1 then some .tiled
  else if modifier = 0 then some .pitch
  else none

/-- **An arrangement in blocks comes back from its modifier**, with its height, for
the one kind the controller scans; any other kind is refused. -/
theorem tegraLayoutFromModifier_blockLinear (kind blockHeightLog2 : Nat) :
    tegraLayoutFromModifier (blockLinearModifier kind blockHeightLog2) =
      if kind % 256 = kKindGeneric16Bx2 then some (.blockLinear (blockHeightLog2 % 16))
      else none := by
  have hVendor : blockLinearModifier kind blockHeightLog2 / 2 ^ 56 = 3 := by
    unfold blockLinearModifier nvidiaModifier
    omega
  have hMarker : (blockLinearModifier kind blockHeightLog2).testBit 4 = true := by
    unfold blockLinearModifier nvidiaModifier
    rw [Nat.testBit_eq_decide_div_mod_eq, decide_eq_true_iff]
    omega
  have hKind : blockLinearModifier kind blockHeightLog2 / 2 ^ 12 % 256 = kind % 256 := by
    unfold blockLinearModifier nvidiaModifier
    omega
  have hHeight : blockLinearModifier kind blockHeightLog2 % 16 = blockHeightLog2 % 16 := by
    unfold blockLinearModifier nvidiaModifier
    omega
  unfold tegraLayoutFromModifier isBlockLinear
  rw [hVendor, hMarker, hKind, hHeight]
  simp only [decide_true, Bool.and_self, if_true, ne_eq, ite_not]

/-- Tiles and rows come back from theirs. -/
theorem tegraLayoutFromModifier_plain :
    tegraLayoutFromModifier (nvidiaModifier 1) = some .tiled ∧
      tegraLayoutFromModifier 0 = some .pitch := by
  decide

/-- `fourcc_code`. -/
def fourccCode (a b c d : Char) : Nat :=
  a.toNat + b.toNat * 2 ^ 8 + c.toNat * 2 ^ 16 + d.toNat * 2 ^ 24

/-- The formats `DrmFormatIsYuv` names. -/
def yuvFormats : List Nat :=
  [fourccCode 'Y' 'U' 'Y' 'V', fourccCode 'Y' 'V' 'Y' 'U', fourccCode 'U' 'Y' 'V' 'Y',
    fourccCode 'V' 'Y' 'U' 'Y', fourccCode 'A' 'Y' 'U' 'V', fourccCode 'N' 'V' '1' '2',
    fourccCode 'N' 'V' '2' '1', fourccCode 'N' 'V' '1' '6', fourccCode 'N' 'V' '6' '1',
    fourccCode 'N' 'V' '2' '4', fourccCode 'N' 'V' '4' '2', fourccCode 'Y' 'U' 'V' '9',
    fourccCode 'Y' 'V' 'U' '9', fourccCode 'Y' 'U' '1' '1', fourccCode 'Y' 'V' '1' '1',
    fourccCode 'Y' 'U' '1' '2', fourccCode 'Y' 'V' '1' '2', fourccCode 'Y' 'U' '1' '6',
    fourccCode 'Y' 'V' '1' '6', fourccCode 'Y' 'U' '2' '4', fourccCode 'Y' 'V' '2' '4']

/-- `DrmFormatIsYuv`. -/
def drmFormatIsYuv (format : Nat) : Bool := yuvFormats.contains format

-- ---------------------------------------------------------------------------
-- The controller's windows
-- ---------------------------------------------------------------------------

/-- The whole of `WindowCapabilities`. -/
structure WindowFeatures extends WindowCapabilities where
  formats : Nat := 0
  minWidth : Nat := 0
  maxWidth : Nat := 0
  minHeight : Nat := 0
  maxHeight : Nat := 0
  tiledLayout : Bool := false
  invertH : Bool := false
  invertV : Bool := false
  scanColumn : Bool := false
  maxUpH : Nat := 1
  maxUpV : Nat := 1
  maxDownH : Nat := 1
  maxDownV : Nat := 1
  deriving DecidableEq, Repr

/-- A window reads memory arranged so. -/
def MemoryLayout.readBy (caps : WindowFeatures) : MemoryLayout → Bool
  | .pitch => caps.pitchLayout
  | .tiled => caps.tiledLayout
  | .blockLinear _ => caps.blocklinearLayout

/-- Memory arranged in blocks. -/
def MemoryLayout.inBlocks : MemoryLayout → Bool
  | .blockLinear _ => true
  | _ => false

/-- `static_cast<uint32_t>`, of an extent. -/
def asUnsigned (v : Int) : Nat := (v % 2 ^ 32).toNat

/-- A window resizes as far as that, along the axes of the panel. -/
def WindowFeatures.reaches (caps : WindowFeatures) (e : MatchedExtents) : Bool :=
  decide (e.srcW ≤ e.dstW * caps.maxDownH) && decide (e.srcH ≤ e.dstH * caps.maxDownV) &&
    decide (e.dstW ≤ e.srcW * caps.maxUpH) && decide (e.dstH ≤ e.srcH * caps.maxUpV)

/-- A window shows a rectangle of these extents. -/
def WindowFeatures.holds (caps : WindowFeatures) (width height : Int) : Bool :=
  decide (caps.minWidth ≤ asUnsigned width) && decide (asUnsigned width ≤ caps.maxWidth) &&
    decide (caps.minHeight ≤ asUnsigned height) && decide (asUnsigned height ≤ caps.maxHeight)

/-- A layer is turned at all. -/
def LayerTransform.turned (t : LayerTransform) : Bool := t.hflip || t.vflip || t.rotate90

/-- `TegraPlane::IsValidForLayer`, of a window that does not merge. -/
def isValidForWindow (caps : WindowFeatures) (layer : LayerData) : Bool :=
  match layer.bi with
  | none => false
  | some bi =>
    let pi := layer.pi
    let format := tegraFormatFromDrm bi.format
    if format = 0 then false
    else if !caps.formats.testBit format then false
    else
      match tegraLayoutFromModifier bi.modifier with
      | none => false
      | some layout =>
        let e := pi.extentsInDestAxes 0 0
        if !layout.readBy caps then false
        -- no resized layer may reach a window with no filter
        else if pi.requireScalingOrPhasing && !caps.scaling then false
        else if (pi.sourceCrop.isSome && pi.displayFrame.isSome) &&
            (decide (0 < e.srcW) && decide (0 < e.srcH) && decide (0 < e.dstW) &&
              decide (0 < e.dstH)) && !caps.reaches e then false
        else if (pi.transform.hflip && !caps.invertH) || (pi.transform.vflip && !caps.invertV) ||
            (pi.transform.rotate90 && !caps.scanColumn) then false
        else if pi.transform.rotate90 && !layout.inBlocks then false
        else if pi.transform.turned && pi.resizes then false
        else pi.displayFrame.all fun dst => caps.holds dst.width dst.height

/-- `CursorUnit::kMaxSide`. -/
def kMaxSide : Nat := 256

/-- `TegraCursorPlane::IsValidForLayer`. -/
def isValidForCursor (layer : LayerData) : Bool :=
  match layer.bi, layer.pi.displayFrame with
  | some bi, some frame =>
    let pi := layer.pi
    let srcW := (pi.sourceCrop.map Rect.width).getD bi.width
    let srcH := (pi.sourceCrop.map Rect.height).getD bi.height
    bi.handle.isSome && decide (bi.format = DrmFormat.abgr8888.code) &&
      !(decide (bi.blendMode = .kCoverage) || decide (pi.alpha < 1)) && !pi.transform.turned &&
      (decide (0 < frame.width) && decide (0 < frame.height) &&
        decide (frame.width ≤ kMaxSide) && decide (frame.height ≤ kMaxSide)) &&
      (decide (|lroundf srcW - frame.width| ≤ 1) && decide (|lroundf srcH - frame.height| ≤ 1))
  | _, _ => false

/-- A plane of the pipeline takes a layer, each judged by what shows it. -/
def planeTakes (t : BufferTables) (features : Nat → Option WindowFeatures)
    (plane : TegraPlane) (layer : LayerData) : Bool :=
  if plane.index = TegraDisplayPipeline.kPlaneId then isValidForCursor layer
  else if plane.merging then isValidForMerge t layer
  else (features plane.index).any fun caps => isValidForWindow caps layer

/-- The tables with what the code itself reads of a format and of a modifier; the
flags of an arrangement are the controller's. -/
def BufferTables.board (t : BufferTables) (flags : MemoryLayout → Nat) : BufferTables :=
  { t with
    tegraFormatFromDrm := TegraHwc.tegraFormatFromDrm
    tegraLayoutFromModifier := fun m => (TegraHwc.tegraLayoutFromModifier m).map flags
    drmFormatIsYuv := TegraHwc.drmFormatIsYuv }

-- ---------------------------------------------------------------------------
-- What a judge has seen to
-- ---------------------------------------------------------------------------

/-- A layer has memory to show: a descriptor, and a place for its chroma where it has
any. -/
def hasMemory (layer : LayerData) : Bool :=
  layer.fb.isSome && layer.bi.all fun bi => !(drmFormatIsYuv bi.format && decide (bi.pitchUV = 0))

/-- What a window that took a layer has found of it. -/
structure Taken (caps : WindowFeatures) (layer : LayerData) (bi : BufferInfo)
    (layout : MemoryLayout) : Prop where
  buffer : layer.bi = some bi
  format : tegraFormatFromDrm bi.format ≠ 0 ∧ caps.formats.testBit (tegraFormatFromDrm bi.format)
  arrangement : tegraLayoutFromModifier bi.modifier = some layout ∧ layout.readBy caps
  filter : layer.pi.requireScalingOrPhasing = true → caps.scaling = true
  reach : layer.pi.sourceCrop.isSome → layer.pi.displayFrame.isSome →
    let e := layer.pi.extentsInDestAxes 0 0
    0 < e.srcW → 0 < e.srcH → 0 < e.dstW → 0 < e.dstH → caps.reaches e = true
  turn : (layer.pi.transform.hflip = true → caps.invertH = true) ∧
    (layer.pi.transform.vflip = true → caps.invertV = true) ∧
      (layer.pi.transform.rotate90 = true → caps.scanColumn = true ∧ layout.inBlocks = true)
  turnedWhole : layer.pi.transform.turned = true → layer.pi.resizes = false
  size : ∀ dst, layer.pi.displayFrame = some dst → caps.holds dst.width dst.height = true

theorem taken_of_valid {caps : WindowFeatures} {layer : LayerData}
    (h : isValidForWindow caps layer = true) :
    ∃ bi layout, Taken caps layer bi layout := by
  unfold isValidForWindow at h
  split at h
  · cases h
  rename_i bi hBuffer
  simp only at h
  split at h
  · cases h
  rename_i hFormat
  split at h
  · cases h
  rename_i hReads
  split at h
  · cases h
  rename_i layout hLayout
  split at h
  · cases h
  rename_i hArranged
  split at h
  · cases h
  rename_i hFilter
  split at h
  · cases h
  rename_i hReach
  split at h
  · cases h
  rename_i hTurn
  split at h
  · cases h
  rename_i hColumn
  split at h
  · cases h
  rename_i hWhole
  simp only [Bool.not_eq_true', Bool.not_eq_false, Bool.and_eq_true, Bool.or_eq_true, not_and,
    not_or, decide_eq_true_iff, Bool.not_eq_true] at *
  refine ⟨bi, layout, hBuffer, ⟨hFormat, hReads⟩, ⟨hLayout, hArranged⟩, hFilter,
    fun hCrop hFrame => ?_, ⟨hTurn.1.1, hTurn.1.2, fun hRotated => ⟨hTurn.2 hRotated,
      hColumn hRotated⟩⟩, hWhole, fun dst hDst => ?_⟩
  · exact fun hSrcW hSrcH hDstW hDstH =>
      hReach ⟨⟨hCrop, hFrame⟩, ⟨⟨hSrcW, hSrcH⟩, hDstW⟩, hDstH⟩
  · rw [hDst] at h
    exact h

/-- **A layer a window took is described**, unless it has no memory to show. -/
theorem describeWindow_of_taken {t : BufferTables} {flags : MemoryLayout → Nat} {forced : Int}
    {caps : WindowFeatures} {layer : LayerData} {planeId depth : Nat}
    (h : isValidForWindow caps layer = true) :
    (describeWindow (t.board flags) forced layer planeId depth).isSome = hasMemory layer := by
  obtain ⟨bi, layout, hTaken⟩ := taken_of_valid h
  have hLayout : ((t.board flags).tegraLayoutFromModifier bi.modifier).isSome = true := by
    show ((tegraLayoutFromModifier bi.modifier).map flags).isSome = true
    rw [hTaken.arrangement.1]
    rfl
  have hFormat : (t.board flags).tegraFormatFromDrm bi.format ≠ 0 := hTaken.format.1
  rw [SeatArgs.describeWindow_isSome, hTaken.buffer]
  unfold hasMemory
  simp only [hLayout, hFormat, hTaken.buffer, ne_eq, not_false_iff, decide_true, Bool.and_true,
    Option.all_some]
  rfl

namespace TegraAtomicRequest

-- ---------------------------------------------------------------------------
-- When a walk ends
-- ---------------------------------------------------------------------------

variable {p : TegraDisplayPipeline} {args : RequestArgs} {plan done : List Joining}
  {r r' : TegraAtomicRequest}

/-- A binding the walk does not stop at. -/
def Describable (p : TegraDisplayPipeline) (args : RequestArgs) (j : Joining) : Prop :=
  j.plane.index = TegraDisplayPipeline.kPlaneId ∨
    j.plane.index ∈ p.windows ∧ (j.plane.merging = true ∨
      (describeWindow args.tables args.forcedTurn j.layer j.plane.index
        (depthForZPos j.zPos)).isSome)

theorem describe_isSome_iff {j : Joining} :
    (r.describe p args j).isSome ↔ Describable p args j := by
  unfold describe Describable
  by_cases hIndex : j.plane.index = TegraDisplayPipeline.kPlaneId
  · rw [if_pos hIndex]
    exact ⟨fun _ => .inl hIndex, fun _ => rfl⟩
  · rw [if_neg hIndex, or_iff_right hIndex]
    by_cases hWindow : j.plane.index ∈ p.windows
    · rw [if_pos hWindow, and_iff_right hWindow]
      simp only
      by_cases hMerging : j.plane.merging = true
      · rw [if_pos hMerging]
        exact ⟨fun _ => .inl hMerging, fun _ => rfl⟩
      · rw [if_neg hMerging, or_iff_right hMerging, Option.isSome_map]
    · rw [if_neg hWindow]
      exact ⟨fun h => (by cases h), fun h => absurd h.1 hWindow⟩

/-- **The walk ends** just where no binding stops it, whatever it has filled in. -/
theorem describeAll_isSome_iff :
    (r.describeAll p args plan).isSome ↔ ∀ j ∈ plan, Describable p args j := by
  induction plan generalizing r with
  | nil => exact ⟨fun _ _ h => (nomatch h), fun _ => rfl⟩
  | cons j rest ih =>
    rw [describeAll, List.forall_mem_cons, ← @describe_isSome_iff p args r j]
    cases hNext : r.describe p args j with
    | none => exact ⟨fun h => (by cases h), fun h => (by cases h.1)⟩
    | some next => exact ih.trans (and_iff_right rfl).symm

/-- The group as the walk leaves it: its members, and their turns, in the plan's
order. -/
theorem group_describeAll {r r' : TegraAtomicRequest}
    (hUnit : ∀ j ∈ plan, j.plane.index = TegraDisplayPipeline.kPlaneId → j.plane.merging = false)
    (h : r.describeAll p args plan = some r') :
    r'.merge.layers = r.merge.layers ++
        (plan.filter fun j => j.plane.merging).map (fun j => mergeLayerFrom j.layer) ∧
      r'.merge.transforms = r.merge.transforms ++
        (plan.filter fun j => j.plane.merging).map fun j => transformBits j.layer.pi.transform := by
  induction plan generalizing r with
  | nil =>
    obtain rfl := Option.some.inj h
    simp
  | cons j rest ih =>
    unfold describeAll at h
    split at h
    · cases h
    rename_i next hNext
    obtain ⟨hLayers, hTurns⟩ := ih (fun k hk => hUnit k (List.mem_cons_of_mem j hk)) h
    rw [hLayers, hTurns]
    obtain ⟨hIndex, cursor, rfl⟩ | ⟨-, hMerging, rfl⟩ | ⟨-, hOrdinary, w, -, -, -, rfl⟩ :=
      describe_cases hNext
    · rw [List.filter_cons_of_neg (by simp [hUnit j (by simp) hIndex])]
      exact ⟨rfl, rfl⟩
    · simp only [List.filter_cons, hMerging, if_true, List.map_cons]
      show (r.merge.layers ++ [_]) ++ _ = _ ∧ (r.merge.transforms ++ [_]) ++ _ = _
      rw [List.append_assoc, List.append_assoc]
      exact ⟨rfl, rfl⟩
    · rw [List.filter_cons_of_neg (by simp [hOrdinary.1])]
      exact ⟨rfl, rfl⟩

/-- Turns that agree are one turn. -/
theorem uniformTurn_isSome {turns : List Nat} (h : ∀ a ∈ turns, ∀ b ∈ turns, a = b) :
    (uniformTurn turns).isSome = true := by
  cases turns with
  | nil => rfl
  | cons first rest =>
    unfold uniformTurn
    have hAll : rest.all (· == first) = true := by
      rw [List.all_eq_true]
      intro turn hTurn
      rw [h turn (List.mem_cons_of_mem first hTurn) first List.mem_cons_self]
      exact beq_self_eq_true first
    simp only [hAll, if_true, Option.isSome_some]

/-- Some member of the group sits off a panel whose extents are known. -/
def straysOff (p : TegraDisplayPipeline) (layers : List VicLayer) : Bool :=
  p.modes.head?.any fun mode =>
    decide (0 < mode.hdisplay) && decide (0 < mode.vdisplay) && layers.any (offPanel mode)

/-- A group of one turn is placed unless a member sits off the panel. -/
theorem placeMerge_isSome (hTurn : (uniformTurn r.merge.transforms).isSome = true) :
    (r.placeMerge p args).isSome = !straysOff p r.merge.layers := by
  unfold placeMerge straysOff
  by_cases hNone : r.merge.layers.isEmpty = true
  · rw [if_pos hNone, List.isEmpty_iff.mp hNone]
    cases p.modes.head? <;> simp
  · rw [if_neg hNone]
    split
    · rename_i hOff
      rw [hOff]
      rfl
    · rename_i hOn
      rw [Bool.not_eq_true] at hOn
      rw [hOn]
      have hSame : (rebase r.merge).transforms = r.merge.transforms := rfl
      have hOne : ¬(uniformTurn (rebase r.merge).transforms).isNone = true := by
        rw [hSame, Option.isNone_iff_eq_none, ← ne_eq, ← Option.isSome_iff_ne_none]
        exact hTurn
      simp only
      rw [if_neg hOne]
      split <;> rfl

-- ---------------------------------------------------------------------------
-- When a plan becomes a request
-- ---------------------------------------------------------------------------

section Planned

variable {t : BufferTables} {flags : MemoryLayout → Nat}
  {features : Nat → Option WindowFeatures} {u : UsablePlanes TegraPlane}
  {composition : List LayerData} {cursorLayer : Option LayerData}
  {joined : LayerToPlaneJoiningPlan TegraPlane}

/-- A binding of a plan is to a window of the head, or to the cursor's unit, which
merges nothing. -/
theorem bound_cases (hJoined : LayerToPlaneJoiningPlan.Joined u composition cursorLayer joined)
    (hPlanes : (u.avail, u.cursor) = p.getUsablePlanes) {j : Joining} (hj : j ∈ joined.plan) :
    (j.plane.index = TegraDisplayPipeline.kPlaneId ∧ j.plane.merging = false) ∨
      (j.plane.index ≠ TegraDisplayPipeline.kPlaneId ∧ j.plane.index ∈ p.windows) := by
  have hUsable := hJoined.planesUsable j hj
  have hBoth : u.avail ++ u.cursor.toList = p.getUsablePlanes.1 ++ p.getUsablePlanes.2.toList := by
    rw [← hPlanes]
  rw [hBoth] at hUsable
  obtain hOffered | hUnit := usable_cases hUsable
  · have hIndex := (planes_spec hOffered).1
    exact .inr ⟨ne_kPlaneId_of_mem hIndex, hIndex⟩
  · rw [hUnit]
    exact .inl ⟨rfl, rfl⟩

/-- A binding to a window of its own is to one that took its layer. -/
theorem valid_of_ordinary
    (hJoined : LayerToPlaneJoiningPlan.Joined u composition cursorLayer joined)
    (hTakes : ∀ plane layer, u.isValidForLayer plane layer =
      planeTakes (t.board flags) features plane layer) {j : Joining} (hj : j ∈ joined.plan)
    (hOrdinary : Ordinary j) :
    ∃ caps, features j.plane.index = some caps ∧ isValidForWindow caps j.layer = true := by
  have hValid := hJoined.valid j hj
  rw [hTakes, planeTakes, if_neg hOrdinary.2, hOrdinary.1, if_neg (by decide)] at hValid
  simpa [Option.any_eq_true] using hValid

/-- The walk over a plan stops only at a window's layer with no memory to show. -/
theorem describable_iff
    (hJoined : LayerToPlaneJoiningPlan.Joined u composition cursorLayer joined)
    (hPlanes : (u.avail, u.cursor) = p.getUsablePlanes)
    (hTakes : ∀ plane layer, u.isValidForLayer plane layer =
      planeTakes (t.board flags) features plane layer) (hTables : args.tables = t.board flags)
    {j : Joining} (hj : j ∈ joined.plan) :
    Describable p args j ↔ (Ordinary j → hasMemory j.layer = true) := by
  unfold Describable
  obtain ⟨hIndex, -⟩ | ⟨hIndex, hWindow⟩ := bound_cases hJoined hPlanes hj
  · exact ⟨fun _ hOrdinary => absurd hIndex hOrdinary.2, fun _ => .inl hIndex⟩
  rw [or_iff_right hIndex, and_iff_right hWindow]
  by_cases hMerging : j.plane.merging = true
  · refine ⟨fun _ hOrdinary => ?_, fun _ => .inl hMerging⟩
    rw [hOrdinary.1] at hMerging
    cases hMerging
  · have hOrdinary : Ordinary j := ⟨Bool.eq_false_iff.mpr hMerging, hIndex⟩
    obtain ⟨caps, -, hValid⟩ := valid_of_ordinary hJoined hTakes hj hOrdinary
    rw [or_iff_right hMerging, hTables, describeWindow_of_taken hValid]
    exact ⟨fun h _ => h, fun h => h hOrdinary⟩

end Planned

/-- **A plan becomes a request**, where its planes took their layers, but for what no
plane judges: the head has no window, the mode asked for is not one of the panel's, a
layer bound for a window of its own has no descriptor or no place for its chroma, or a
member of the group sits off the panel. -/
theorem request_made_iff (t : BufferTables) (flags : MemoryLayout → Nat)
    (features : Nat → Option WindowFeatures) (p : TegraDisplayPipeline) (args : RequestArgs)
    (hTables : args.tables = t.board flags) (u : UsablePlanes TegraPlane)
    (hPlanes : (u.avail, u.cursor) = p.getUsablePlanes)
    (hMerging : ∀ plane, u.isMerging plane = plane.merging)
    (hTakes : ∀ plane layer, u.isValidForLayer plane layer =
      planeTakes (t.board flags) features plane layer)
    (composition : List LayerData) (cursorLayer : Option LayerData) (preferMerge : Bool)
    (joined : LayerToPlaneJoiningPlan TegraPlane)
    (hCreated : LayerToPlaneJoiningPlan.createLayerToPlaneJoiningPlan u composition cursorLayer
      preferMerge = some joined) :
    (getAtomicModeReqForArgs p args (some joined.plan)).isSome = true ↔
      p.windows ≠ [] ∧ (∀ wanted, args.displayMode = some wanted → wanted ∈ p.modes) ∧
        (∀ j ∈ joined.plan, Ordinary j → hasMemory j.layer = true) ∧
          straysOff p ((joined.plan.filter fun j => j.plane.merging).map fun j =>
            mergeLayerFrom j.layer) = false := by
  obtain ⟨hJoined, -⟩ := parted_of_created hCreated hPlanes hMerging
  have hWalks : ∀ r : TegraAtomicRequest, (r.describeAll p args joined.plan).isSome ↔
      ∀ j ∈ joined.plan, Ordinary j → hasMemory j.layer = true := fun r =>
    describeAll_isSome_iff.trans (forall₂_congr fun j hj =>
      describable_iff hJoined hPlanes hTakes hTables hj)
  have hUnit : ∀ j ∈ joined.plan, j.plane.index = TegraDisplayPipeline.kPlaneId →
      j.plane.merging = false := by
    intro j hj hIndex
    obtain ⟨-, hNot⟩ | ⟨hNot, -⟩ := bound_cases hJoined hPlanes hj
    · exact hNot
    · exact absurd hIndex hNot
  -- the merged layers share one turn, so only their places are left to refuse
  have hPlaced : ∀ r walked : TegraAtomicRequest, r.merge = {} →
      r.describeAll p args joined.plan = some walked →
        (walked.placeMerge p args).isSome = !straysOff p
          ((joined.plan.filter fun j => j.plane.merging).map fun j => mergeLayerFrom j.layer) := by
    intro r walked hNone hWalk
    obtain ⟨hLayers, hTurns⟩ := group_describeAll hUnit hWalk
    rw [hNone] at hLayers hTurns
    rw [placeMerge_isSome, hLayers]
    · rfl
    refine uniformTurn_isSome fun a ha b hb => ?_
    rw [hTurns] at ha hb
    obtain ⟨j, hj, rfl⟩ := List.mem_map.mp ha
    obtain ⟨k, hk, rfl⟩ := List.mem_map.mp hb
    have hj := List.mem_filter.mp hj
    have hk := List.mem_filter.mp hk
    rw [hJoined.oneTurn j hj.1 k hk.1 ((hMerging _).trans hj.2) ((hMerging _).trans hk.2)]
  have hMade : ∀ r : TegraAtomicRequest, r.merge = {} →
      (((r.describeAll p args joined.plan).bind (placeMerge p args)).isSome = true ↔
        (∀ j ∈ joined.plan, Ordinary j → hasMemory j.layer = true) ∧
          straysOff p ((joined.plan.filter fun j => j.plane.merging).map fun j =>
            mergeLayerFrom j.layer) = false) := by
    intro r hNone
    rw [← hWalks r]
    cases hWalk : r.describeAll p args joined.plan with
    | none => exact ⟨fun h => (by cases h), fun h => (by cases h.1)⟩
    | some walked =>
      rw [Option.bind_some, hPlaced r walked hNone hWalk, Bool.not_eq_true', Option.isSome_some,
        and_iff_right rfl]
  have hKnown : (args.displayMode.any fun wanted => !p.modes.contains wanted) = false ↔
      ∀ wanted, args.displayMode = some wanted → wanted ∈ p.modes := by
    cases args.displayMode <;> simp
  unfold getAtomicModeReqForArgs
  split
  · rename_i hWindows
    exact ⟨fun h => (by cases h), fun h => absurd (List.isEmpty_iff.mp hWindows) h.1⟩
  rename_i hWindows
  rw [← hKnown, and_iff_right (by simpa using hWindows)]
  split
  · rename_i hMode
    exact ⟨fun h => (by cases h), fun h => absurd (hMode.symm.trans h.1) (by decide)⟩
  · rename_i hMode
    rw [and_iff_right (by simpa using hMode)]
    exact hMade _ rfl

/-- Flags for the arrangements, told apart. -/
def layoutFlags : MemoryLayout → Nat
  | .pitch => 0
  | .tiled => 1
  | .blockLinear _ => 2

/-- What the two windows can do: the first reads blocks and resizes, the other reads
rows. -/
def twoFeatures (index : Nat) : Option WindowFeatures :=
  if index = 0 then
    some
      { pitchLayout := true, blocklinearLayout := true, scaling := true, formats := 0x3e
        maxWidth := 4095, maxHeight := 4095, maxDownH := 4, maxDownV := 2, maxUpH := 8
        maxUpV := 8 }
  else if index = 1 then
    some { pitchLayout := true, formats := 0xe, maxWidth := 4095, maxHeight := 4095 }
  else none

/-- The planes of the two windows, each taking what it can. -/
def judgingPlanes : UsablePlanes TegraPlane :=
  { twoWindowPlanes with
    isValidForLayer := planeTakes (({} : BufferTables).board layoutFlags) twoFeatures }

/-- A strip of the GPU's, in blocks and at half its height. -/
def halved (top : Int) : LayerData :=
  { bi := some
      { width := 800, height := 128, format := DrmFormat.abgr8888.code
        modifier := blockLinearModifier 0xfe 4, handle := some 1 }
    fb := some 7
    pi :=
      { sourceCrop := some ⟨0, 0, 800, 128⟩
        displayFrame := some ⟨0, top, 800, top + 64⟩ } }

/-- The plan of three of them. -/
def halvedPlan : LayerToPlaneJoiningPlan TegraPlane :=
  (LayerToPlaneJoiningPlan.createLayerToPlaneJoiningPlan judgingPlanes
    [halved 0, halved 100, halved 200] none false).getD {}

theorem halvedPlan_created :
    LayerToPlaneJoiningPlan.createLayerToPlaneJoiningPlan judgingPlanes
      [halved 0, halved 100, halved 200] none false = some halvedPlan := by
  decide +kernel

/-- The lowest is shown by the window that resizes, the others are merged. -/
theorem request_made_halved :
    (getAtomicModeReqForArgs (twoWindows true)
      { tables := ({} : BufferTables).board layoutFlags } (some halvedPlan.plan)).isSome = true :=
  (request_made_iff {} layoutFlags twoFeatures (twoWindows true)
    { tables := ({} : BufferTables).board layoutFlags } rfl judgingPlanes rfl (fun _ => rfl)
    (fun _ _ => rfl) [halved 0, halved 100, halved 200] none false halvedPlan
    halvedPlan_created).mpr
    ⟨by decide, fun _ h => (nomatch h), by unfold Ordinary; decide +kernel, by decide +kernel⟩

-- ---------------------------------------------------------------------------
-- What the windows of a request are asked
-- ---------------------------------------------------------------------------

/-- The extents a window reads and shows, along the axes of the panel. -/
def extentsOnPanel (w : DcWindow) : MatchedExtents where
  srcW := if w.turn.scanColumn then w.sourceHeight else w.sourceWidth
  srcH := if w.turn.scanColumn then w.sourceWidth else w.sourceHeight
  dstW := w.outWidth
  dstH := w.outHeight

/-- **A window is asked for no more than it can do**: a format and an arrangement it
reads, columns only where it reads them and of blocks only, inversions it has, a size
it shows, and a resizing within its reach, or none where it has no filter or turns. -/
structure Within (caps : WindowFeatures) (flags : MemoryLayout → Nat) (w : DcWindow) : Prop where
  format : caps.formats.testBit w.pixelFormat = true
  arrangement : ∃ layout : MemoryLayout, w.layout = flags layout ∧ layout.readBy caps = true ∧
    (w.turn.scanColumn = true → layout.inBlocks = true)
  columns : w.turn.scanColumn = true → caps.scanColumn = true
  inversions : w.turn.scanColumn = false →
    (w.turn.invertH = true → caps.invertH = true) ∧ (w.turn.invertV = true → caps.invertV = true)
  size : caps.holds w.outWidth w.outHeight = true
  ownSize : caps.scaling = false ∨ w.turn ≠ {} →
    (extentsOnPanel w).srcW = w.outWidth ∧ (extentsOnPanel w).srcH = w.outHeight
  reach : 0 < (extentsOnPanel w).srcW → 0 < (extentsOnPanel w).srcH → 0 < w.outWidth →
    0 < w.outHeight → caps.reaches (extentsOnPanel w) = true

/-- A turn as the window's flags say it: columns for a quarter turn, and without one
the flips as they are. -/
theorem windowTransformFor_spec (turn : LayerTransform) :
    (windowTransformFor (transformBits turn)).scanColumn = turn.rotate90 ∧
      (turn.rotate90 = false →
        (windowTransformFor (transformBits turn)).invertH = turn.hflip ∧
          (windowTransformFor (transformBits turn)).invertV = turn.vflip) ∧
        (windowTransformFor (transformBits turn) ≠ {} → turn.turned = true) := by
  obtain ⟨hflip, vflip, rotate90⟩ := turn
  cases hflip <;> cases vflip <;> cases rotate90 <;> decide

/-- What a window is told of a layer that says where it is and what of it is shown. -/
theorem describeWindow_told {t : BufferTables} {forced : Int} {layer : LayerData}
    {planeId depth : Nat} {w : DcWindow} {bi : BufferInfo} {crop : FRect} {frame : IRect}
    (hForced : forced < 0) (hBuffer : layer.bi = some bi)
    (hCrop : layer.pi.sourceCrop = some crop) (hFrame : layer.pi.displayFrame = some frame)
    (h : describeWindow t forced layer planeId depth = some w) :
    w.pixelFormat = t.tegraFormatFromDrm bi.format ∧
      t.tegraLayoutFromModifier bi.modifier = some w.layout ∧
        w.turn = windowTransformFor (transformBits layer.pi.transform) ∧
          (w.outWidth = frame.width ∧ w.outHeight = frame.height) ∧
            extentsOnPanel w = layer.pi.extentsInDestAxes 0 0 := by
  unfold describeWindow at h
  simp only [hBuffer] at h
  split at h
  · rename_i hSame _
    obtain rfl := Option.some.inj hSame
    split at h
    · cases h
    rename_i layout hLayout
    split at h
    · cases h
    obtain rfl := Option.some.inj h
    have hOwn : ¬(transformBits layer.pi.transform ≠ 0 ∧ 0 ≤ forced ∧ forced ≤ 7) := by omega
    simp only [if_neg hOwn, hFrame, hCrop, Option.map_some, Option.getD_some, extentsOnPanel,
      PresentInfo.extentsInDestAxes, (windowTransformFor_spec layer.pi.transform).1]
    exact ⟨trivial, hLayout, trivial, ⟨trivial, trivial⟩, trivial⟩
  · cases h

/-- A window that took a layer is asked for no more than it can do. -/
theorem within_of_valid {t : BufferTables} {flags : MemoryLayout → Nat} {forced : Int}
    {caps : WindowFeatures} {layer : LayerData} {planeId depth : Nat} {w : DcWindow}
    {crop : FRect} {frame : IRect} (hForced : forced < 0)
    (hValid : isValidForWindow caps layer = true) (hCrop : layer.pi.sourceCrop = some crop)
    (hFrame : layer.pi.displayFrame = some frame)
    (h : describeWindow (t.board flags) forced layer planeId depth = some w) :
    Within caps flags w := by
  obtain ⟨bi, layout, hTaken⟩ := taken_of_valid hValid
  obtain ⟨hFormat, hLayout, hTurn, ⟨hWidth, hHeight⟩, hExtents⟩ :=
    describeWindow_told hForced hTaken.buffer hCrop hFrame h
  obtain ⟨hColumns, hFlips, hTurned⟩ := windowTransformFor_spec layer.pi.transform
  rw [← hTurn] at hColumns hFlips hTurned
  replace hLayout : (tegraLayoutFromModifier bi.modifier).map flags = some w.layout := hLayout
  rw [hTaken.arrangement.1] at hLayout
  have hOut : (layer.pi.extentsInDestAxes 0 0).dstW = w.outWidth ∧
      (layer.pi.extentsInDestAxes 0 0).dstH = w.outHeight := by
    rw [← hExtents]
    exact ⟨rfl, rfl⟩
  refine ⟨hFormat ▸ hTaken.format.2, ⟨layout, (Option.some.inj hLayout).symm,
      hTaken.arrangement.2, fun hColumn => (hTaken.turn.2.2 (hColumns ▸ hColumn)).2⟩,
    fun hColumn => (hTaken.turn.2.2 (hColumns ▸ hColumn)).1, fun hRows => ?_, ?_, fun hOwn => ?_,
    fun hSrcW hSrcH hDstW hDstH => ?_⟩
  · obtain ⟨hAcross, hDown⟩ := hFlips (hColumns ▸ hRows)
    exact ⟨fun hInvert => hTaken.turn.1 (hAcross ▸ hInvert),
      fun hInvert => hTaken.turn.2.1 (hDown ▸ hInvert)⟩
  · rw [hWidth, hHeight]
    exact hTaken.size frame hFrame
  · have hWhole : layer.pi.resizes = false := by
      obtain hScaling | hTurns := hOwn
      · cases hResizes : layer.pi.resizes with
        | false => rfl
        | true =>
          have hNeeds : layer.pi.requireScalingOrPhasing = true := by
            unfold PresentInfo.requireScalingOrPhasing
            rw [hCrop, hFrame]
            simp [hResizes]
          rw [hTaken.filter hNeeds] at hScaling
          cases hScaling
      · exact hTaken.turnedWhole (hTurned hTurns)
    unfold PresentInfo.resizes at hWhole
    simp only [hCrop, hFrame, Option.isSome_some, Bool.and_self, Bool.true_and, ne_eq,
      decide_not, Bool.or_eq_false_iff, Bool.not_eq_false', decide_eq_true_iff] at hWhole
    rw [hExtents, ← hOut.1, ← hOut.2]
    exact hWhole
  · rw [hExtents] at hSrcW hSrcH ⊢
    refine hTaken.reach (by rw [hCrop]; rfl) (by rw [hFrame]; rfl) hSrcW hSrcH ?_ ?_
    · rw [hOut.1]
      exact_mod_cast hDstW
    · rw [hOut.2]
      exact_mod_cast hDstH

end TegraAtomicRequest

end TegraHwc
