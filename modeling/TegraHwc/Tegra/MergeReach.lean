import TegraHwc.Tegra.DrawnByParts

/-!
# TegraHwc — a group accepted and the engine's reach

A merging plane judges a layer by the engine's reach on resizing when the plan is
weighed (`IsValidForLayer` of `tegra/TegraPlane.cpp`); the vendor's library judges
each member again as the group is drawn, and refuses an empty rectangle too. The
judge at the plan answers for an empty one that it is not beyond reach, and so lets
it pass. What the library refuses is assumed: an empty rectangle, and a resizing past
the reach along the axes the member is drawn in.

## Results

* `taken_cut`         — a member cut to a part is taken.
* `drawn_whole_iff`   — when a group drawn whole is taken.
* `never_refused_iff` — when a group accepted is never refused.
-/

namespace TegraHwc

open PartialRedraw

-- ---------------------------------------------------------------------------
-- The judge of the plan
-- ---------------------------------------------------------------------------

/-- `kEngineScaleReach`. -/
def kEngineScaleReach : Rat := 16

/-- Resizing one axis is past the engine's reach. -/
def pastReach (src dst : Rat) : Bool :=
  decide (kEngineScaleReach < if dst < src then src / dst else dst / src)

/-- `BeyondEngineReach`. -/
def beyondEngineReach (e : MatchedExtents) : Bool :=
  if e.srcW ≤ 0 ∨ e.srcH ≤ 0 ∨ e.dstW ≤ 0 ∨ e.dstH ≤ 0 then false
  else pastReach e.srcW e.dstW || pastReach e.srcH e.dstH

/-- The extents of a layer, a missing rectangle being the whole buffer. -/
def extentsOf (layer : LayerData) : MatchedExtents :=
  let bi := layer.bi.getD { width := 0, height := 0 }
  layer.pi.extentsInDestAxes bi.width bi.height

/-- `IsValidForLayer` of a merging plane. -/
def isValidForMerge (t : BufferTables) (layer : LayerData) : Bool :=
  match layer.bi with
  | none => false
  | some bi =>
    let e := layer.pi.extentsInDestAxes bi.width bi.height
    let transform := layer.pi.transform
    if bi.handle.isNone then false
    else if (transform.hflip || transform.vflip || transform.rotate90) &&
        (decide (e.srcW ≤ 0) || decide (e.srcH ≤ 0)) then false
    else if beyondEngineReach e then false
    else !t.drmFormatIsYuv bi.format

/-- The layer's crop and its frame cover something. -/
def hasExtents (layer : LayerData) : Bool :=
  let e := extentsOf layer
  decide (0 < e.srcW) && decide (0 < e.srcH) && decide (0 < e.dstW) && decide (0 < e.dstH)

/-- The layer is in reach with its axes crossed once more. -/
def reachesAcross (layer : LayerData) : Bool :=
  let e := extentsOf layer
  !pastReach e.srcH e.dstW && !pastReach e.srcW e.dstH

/-- A layer accepted that covers something is in reach. -/
theorem reaches_of_valid {t : BufferTables} {layer : LayerData}
    (hValid : isValidForMerge t layer = true) (hExtents : hasExtents layer = true) :
    pastReach (extentsOf layer).srcW (extentsOf layer).dstW = false ∧
      pastReach (extentsOf layer).srcH (extentsOf layer).dstH = false := by
  unfold isValidForMerge at hValid
  cases hBuffer : layer.bi with
  | none => simp [hBuffer] at hValid
  | some bi =>
    have hSame : extentsOf layer = layer.pi.extentsInDestAxes bi.width bi.height := by
      unfold extentsOf
      rw [hBuffer]
      rfl
    unfold hasExtents at hExtents
    simp only [hBuffer, ← hSame] at hValid
    simp only [Bool.and_eq_true, decide_eq_true_eq] at hExtents
    obtain ⟨⟨⟨hSrcW, hSrcH⟩, hDstW⟩, hDstH⟩ := hExtents
    split at hValid
    · cases hValid
    split at hValid
    · cases hValid
    split at hValid
    · cases hValid
    rename_i hReach
    unfold beyondEngineReach at hReach
    rw [if_neg (by simp [not_le, hSrcW, hSrcH, hDstW, hDstH]), Bool.not_eq_true,
      Bool.or_eq_false_iff] at hReach
    exact hReach

namespace VicSession

-- ---------------------------------------------------------------------------
-- The vendor's library
-- ---------------------------------------------------------------------------

/-- The library takes a source: neither rectangle is empty, and it is resized within
the reach along the axes it is drawn in, crossed where the code transposes. -/
def libraryTakes (transform : Nat) (source : FRect) (display : IRect) : Bool :=
  let srcW := if transform.testBit 2 then source.height else source.width
  let srcH := if transform.testBit 2 then source.width else source.height
  decide (0 < srcW) && decide (0 < srcH) && decide (0 < display.width) &&
    decide (0 < display.height) && !pastReach srcW display.width && !pastReach srcH display.height

/-- `ComposeInto`, with the library's answers. -/
def composed (bufferWidth bufferHeight : UInt32) (merge : Merge) (transform : Nat)
    (dirty : Option IRect) : Option Pass :=
  (composeInto bufferWidth bufferHeight merge.layers merge.width merge.height transform
    dirty).filter fun pass => pass.seats.all fun s => libraryTakes transform s.source s.display

/-- Where a member lands is of no account to the library, but for its extents. -/
theorem libraryTakes_congr {transform : Nat} {source : FRect} {a b : IRect}
    (hWidth : a.width = b.width) (hHeight : a.height = b.height) :
    libraryTakes transform source a = libraryTakes transform source b := by
  unfold libraryTakes
  rw [hWidth, hHeight]

theorem mirrorRectWithin_extents {r : IRect} {mirrorX mirrorY : Bool} {width height : Int} :
    (mirrorRectWithin r mirrorX mirrorY width height).width = r.width ∧
      (mirrorRectWithin r mirrorX mirrorY width height).height = r.height := by
  unfold mirrorRectWithin Rect.width Rect.height
  cases mirrorX <;> cases mirrorY <;> simp

theorem moved_extents {r : IRect} {dx dy : Int} :
    (TegraAtomicRequest.moved r dx dy).width = r.width ∧
      (TegraAtomicRequest.moved r dx dy).height = r.height := by
  unfold TegraAtomicRequest.moved Rect.width Rect.height
  simp

/-- An extent within a hundredth of a whole one is something, and in reach of it. -/
theorem reach_of_near {src : Rat} {dst : Int} (hDst : 0 < dst) (hNear : |src - dst| < scaleSlack) :
    0 < src ∧ pastReach src dst = false := by
  have hOne : (1 : Rat) ≤ dst := by exact_mod_cast hDst
  obtain ⟨hLow, hHigh⟩ := abs_lt.mp hNear
  have hSlack : scaleSlack < 1 / 10 := by
    unfold scaleSlack
    norm_num
  have hSrc : 0 < src := by linarith
  refine ⟨hSrc, ?_⟩
  unfold pastReach kEngineScaleReach
  rw [decide_eq_false_iff_not, not_lt]
  split
  · rw [div_le_iff₀ (by linarith)]
    linarith
  · rw [div_le_iff₀ hSrc]
    linarith

/-- **A cut is taken**: it has extents of its own, and is as near to them as the whole
member is to its own. -/
theorem taken_cut {bound dst : IRect} {src : FRect} {cut : FRect × IRect}
    (hCut : clipTo bound src dst = some cut) (hOwn : isScaled src dst = false) :
    libraryTakes 0 cut.1 cut.2 = true := by
  have hNear := clipTo_ownSize hCut hOwn
  obtain ⟨⟨-, hWidth, -⟩, -, hHeight, -⟩ := clipTo_within hCut
  unfold isScaled at hNear
  rw [Bool.or_eq_false_iff, decide_eq_false_iff_not, decide_eq_false_iff_not, not_le, not_le]
    at hNear
  have hWide : 0 < cut.2.width := by
    unfold Rect.width
    omega
  have hHigh : 0 < cut.2.height := by
    unfold Rect.height
    omega
  obtain ⟨hSrcW, hReachW⟩ := reach_of_near hWide hNear.1
  obtain ⟨hSrcH, hReachH⟩ := reach_of_near hHigh hNear.2
  unfold libraryTakes
  simp [hSrcW, hSrcH, hWide, hHigh, hReachW, hReachH]

/-- A seat in a part is taken where its member is taken whole. -/
theorem taken_seat {part : IRect} {width height : Int} {q : VicLayer} {member : Nat} {s : Seat}
    (hSeat : seatOf (some part) 0 width height q member = some s)
    (hTaken : libraryTakes 0 q.source q.display = true) :
    libraryTakes 0 s.source s.display = true := by
  rw [seatOf_part] at hSeat
  split at hSeat
  · cases hSeat
  split at hSeat
  · obtain rfl := Option.some.inj hSeat
    exact hTaken
  · rename_i hOwn
    obtain ⟨cut, hCut, rfl⟩ := Option.map_eq_some_iff.mp hSeat
    exact taken_cut hCut (Bool.not_eq_true _ ▸ hOwn)

/-- A pass over a part with a member to draw is given what it asks. -/
theorem composed_part {C : Type*} (g : Group C) {part : IRect} (hIn : LiesIn g.frame part)
    (hSome : empty part = false) (hLands : ∃ q ∈ g.merge.layers, lands part q = true)
    (hTaken : ∀ q ∈ g.merge.layers, libraryTakes 0 q.source q.display = true) :
    (composed g.target.width g.target.height g.merge 0 (some part)).isSome = true := by
  unfold composed
  rw [g.composeInto_part hIn hSome, if_neg ((g.seats_ne_nil_iff hSome).mpr hLands),
    Option.isSome_filter, Option.any_some, List.all_eq_true]
  intro s hs
  obtain ⟨layer, hLayer, hSeat⟩ := List.mem_filterMap.mp hs
  exact taken_seat hSeat (hTaken layer.1 (List.fst_mem_of_mem_zipIdx hLayer))

/-- A pass over the whole is given a seat for each member, mirrored where its code mirrors. -/
theorem composed_whole_iff {bufferWidth bufferHeight : UInt32} {merge : Merge} {transform : Nat}
    (hLayers : merge.layers ≠ [])
    (hFew : merge.layers.length ≤ TegraDisplayPipeline.kMaxLayers) :
    (composed bufferWidth bufferHeight merge transform none).isSome = true ↔
      ∀ q ∈ merge.layers, libraryTakes transform q.source q.display = true := by
  unfold composed composeInto
  rw [if_neg (not_or.mpr ⟨hLayers, Nat.not_lt.mpr hFew⟩)]
  simp only [ite_self, Option.map_none, Option.any_none, Bool.false_eq_true, if_false, seatOf,
    List.filterMap_eq_map', List.map_eq_nil_iff, List.zipIdx_eq_nil_iff, hLayers]
  rw [Option.isSome_filter, Option.any_some, List.all_map, List.all_eq_true]
  -- mirrored, a member keeps its extents
  have hKept : ∀ (q : VicLayer) (width height : Int),
      libraryTakes transform q.source
          (mirrorRectWithin q.display (transform.testBit 1) (transform.testBit 0) width height) =
        libraryTakes transform q.source q.display := fun q width height =>
    libraryTakes_congr mirrorRectWithin_extents.1 mirrorRectWithin_extents.2
  simp only [Function.comp_apply, hKept]
  constructor
  · intro hTaken q hq
    obtain ⟨i, hAt⟩ := List.mem_iff_getElem?.mp hq
    exact hTaken (q, i) (List.mk_mem_zipIdx_iff_getElem?.mpr hAt)
  · exact fun hTaken q hq => hTaken q.1 (List.fst_mem_of_mem_zipIdx hq)

end VicSession

-- ---------------------------------------------------------------------------
-- Groups the plan accepts
-- ---------------------------------------------------------------------------

/-- A group of layers that share a turn, each accepted for a merging plane and none off
the panel. -/
structure AcceptedGroup where
  tables : BufferTables
  layers : List LayerData
  turn : LayerTransform
  mode : DrmMode
  merge : Merge
  layers_ne : layers ≠ []
  layers_le : layers.length ≤ TegraDisplayPipeline.kMaxLayers
  accepted : ∀ l ∈ layers, isValidForMerge tables l = true
  turned : ∀ l ∈ layers, l.pi.transform = turn
  members : merge.layers = layers.map mergeLayerFrom
  transforms : merge.transforms = layers.map fun l => transformBits l.pi.transform
  width_fits : 0 < mode.hdisplay ∧ mode.hdisplay < 2 ^ 16
  height_fits : 0 < mode.vdisplay ∧ mode.vdisplay < 2 ^ 16
  onPanel : ∀ l ∈ merge.layers, TegraAtomicRequest.offPanel mode l = false

namespace AcceptedGroup

variable (a : AcceptedGroup) (forced : Int)

/-- The group in its own frame, as the request leaves it. -/
def group : Merge := TegraAtomicRequest.rebase a.merge

/-- The code the group is drawn under. -/
def code : Nat := groupCode ((uniformTurn a.merge.transforms).getD 0) forced

/-- The pass over the group, with the library's answers, into a slot of the panel's size. -/
def drawn (dirty : Option IRect) : Option VicSession.Pass :=
  VicSession.composed (UInt32.ofNat a.mode.hdisplay) (UInt32.ofNat a.mode.vdisplay) a.group
    (a.code forced) dirty

/-- The parts of the group to draw over a slot, whatever the slot holds. -/
def parts (held : Snapshot) (history : DamageHistory) : List IRect :=
  (decide_ held a.group.width a.group.height (mergeMembers a.group) history
    ⟨true, true, false⟩).parts

/-- **The group is never refused**, whole or in any part gathered of it. Parts are
gathered for a code that turns nothing alone. -/
def NeverRefused : Prop :=
  (a.drawn forced none).isSome = true ∧
    (a.code forced = 0 → ∀ held history, ∀ part ∈ a.parts held history,
      (a.drawn forced (some part)).isSome = true)

variable {a forced}

/-- The group's one turn is its layers'. -/
theorem uniformTurn_eq : uniformTurn a.merge.transforms = some (transformBits a.turn) := by
  have hTurned := a.turned
  have hSome := a.layers_ne
  rw [a.transforms]
  cases hLayers : a.layers with
  | nil => exact absurd hLayers hSome
  | cons first rest =>
    rw [hLayers] at hTurned
    unfold uniformTurn
    simp only [List.map_cons]
    rw [if_pos, hTurned first (by simp)]
    rw [List.all_eq_true]
    rintro bits hBits
    obtain ⟨l, hl, rfl⟩ := List.mem_map.mp hBits
    rw [beq_iff_eq, hTurned l (List.mem_cons_of_mem first hl), hTurned first (by simp)]

/-- Unless one is forced, the code crosses the axes just where the turn does. -/
theorem code_testBit (hUnforced : forced < 0) :
    (a.code forced).testBit 2 = a.turn.rotate90 := by
  unfold code groupCode
  rw [uniformTurn_eq, Option.getD_some, if_neg (by omega)]
  obtain ⟨hflip, vflip, rotate90⟩ := a.turn
  cases hflip <;> cases vflip <;> cases rotate90 <;> decide

/-- The library takes the members of the group where it takes the layers. -/
theorem group_taken {transform : Nat} :
    (∀ q ∈ a.group.layers, VicSession.libraryTakes transform q.source q.display = true) ↔
      ∀ l ∈ a.layers,
        VicSession.libraryTakes transform (mergeLayerFrom l).source (mergeLayerFrom l).display =
          true := by
  unfold group TegraAtomicRequest.rebase
  simp only [a.members, List.map_map, List.forall_mem_map, Function.comp_apply]
  refine forall₂_congr fun l _ => ?_
  rw [VicSession.libraryTakes_congr VicSession.moved_extents.1 VicSession.moved_extents.2]

theorem group_length : a.group.layers.length = a.layers.length := by
  unfold group TegraAtomicRequest.rebase
  simp [a.members]

/-- The extents of a layer are those of its member, the source's in the axes of the
frame. -/
theorem extentsOf_eq (l : LayerData) :
    extentsOf l =
      let source := (mergeLayerFrom l).source
      let display := (mergeLayerFrom l).display
      let crossed := l.pi.transform.rotate90
      { srcW := if crossed then source.height else source.width
        srcH := if crossed then source.width else source.height
        dstW := display.width
        dstH := display.height } := by
  unfold extentsOf PresentInfo.extentsInDestAxes mergeLayerFrom
  cases l.pi.displayFrame <;> cases l.pi.sourceCrop <;> simp [Rect.width, Rect.height]

/-- What the library says of a layer, as the plan measures it. -/
theorem libraryTakes_layer (l : LayerData) (transform : Nat) :
    VicSession.libraryTakes transform (mergeLayerFrom l).source (mergeLayerFrom l).display =
      (hasExtents l &&
        if transform.testBit 2 = l.pi.transform.rotate90 then
          !pastReach (extentsOf l).srcW (extentsOf l).dstW &&
            !pastReach (extentsOf l).srcH (extentsOf l).dstH
        else reachesAcross l) := by
  unfold VicSession.libraryTakes hasExtents reachesAcross
  rw [extentsOf_eq]
  simp only [Int.cast_pos]
  generalize (mergeLayerFrom l).source = source
  generalize (mergeLayerFrom l).display = display
  cases l.pi.transform.rotate90 <;> cases transform.testBit 2 <;>
    simp only [if_true, if_false, Bool.false_eq_true, reduceCtorEq] <;>
      cases decide (0 < source.width) <;> cases decide (0 < source.height) <;> simp [Bool.and_assoc]

/-- A layer of the group is taken where it has extents and, drawn with its axes crossed
once more, is in reach so. -/
theorem taken_iff {l : LayerData} (hl : l ∈ a.layers) :
    VicSession.libraryTakes (a.code forced) (mergeLayerFrom l).source (mergeLayerFrom l).display =
        true ↔
      hasExtents l = true ∧
        ((a.code forced).testBit 2 = a.turn.rotate90 ∨ reachesAcross l = true) := by
  rw [libraryTakes_layer, a.turned l hl, Bool.and_eq_true]
  refine and_congr_right fun hExtents => ?_
  obtain ⟨hWide, hHigh⟩ := reaches_of_valid (a.accepted l hl) hExtents
  by_cases hSame : (a.code forced).testBit 2 = a.turn.rotate90
  · simp [hSame, hWide, hHigh]
  · simp [hSame]

theorem drawn_whole_iff :
    (a.drawn forced none).isSome = true ↔
      (∀ l ∈ a.layers, hasExtents l = true) ∧
        ((a.code forced).testBit 2 = a.turn.rotate90 ∨
          ∀ l ∈ a.layers, reachesAcross l = true) := by
  have hLayers : a.group.layers ≠ [] := by
    rw [← List.length_pos_iff, group_length, List.length_pos_iff]
    exact a.layers_ne
  unfold drawn
  rw [VicSession.composed_whole_iff hLayers (group_length.trans_le a.layers_le), group_taken]
  refine (forall₂_congr fun l hl => @taken_iff a forced l hl).trans ?_
  constructor
  · intro hTaken
    refine ⟨fun l hl => (hTaken l hl).1, or_iff_not_imp_left.mpr fun hCrossed l hl => ?_⟩
    exact (hTaken l hl).2.resolve_left hCrossed
  · rintro ⟨hExtents, hReach⟩ l hl
    exact ⟨hExtents l hl, hReach.imp_right fun h => h l hl⟩

/-- The group as one in a slot of its own; how its members are turned is left out. -/
def inSlot (a : AcceptedGroup) : VicSession.Group Unit :=
  have hSound := VicSession.rebase_sound a.onPanel a.width_fits a.height_fits
  { merge := { a.group with transforms := [] }
    target := ⟨UInt32.ofNat a.mode.hdisplay, UInt32.ofNat a.mode.vdisplay, fun _ => ()⟩
    layers_ne := by
      show a.group.layers ≠ []
      rw [← List.length_pos_iff, group_length, List.length_pos_iff]
      exact a.layers_ne
    layers_le := group_length.trans_le a.layers_le
    unturned := rfl
    width_fits := hSound.1
    height_fits := hSound.2.1
    signed := hSound.2.2.1
    placed := hSound.2.2.2 }

/-- Taken whole, the group is taken in every part gathered of it. -/
theorem drawn_part (hCode : a.code forced = 0)
    (hTaken : ∀ q ∈ a.group.layers, VicSession.libraryTakes 0 q.source q.display = true)
    {held : Snapshot} {history : DamageHistory} {part : IRect}
    (hPart : part ∈ a.parts held history) : (a.drawn forced (some part)).isSome = true := by
  obtain ⟨hIn, hSome⟩ := decide_parts_sound hPart
  have hPlaces : ∀ q ∈ a.group.layers, empty q.display = false := by
    intro q hq
    have hOwn := hTaken q hq
    unfold VicSession.libraryTakes at hOwn
    unfold Rect.width Rect.height at hOwn
    rw [VicSession.empty_eq_false]
    simp only [Bool.and_eq_true, decide_eq_true_eq, Int.sub_pos] at hOwn
    exact ⟨hOwn.1.1.1.2, hOwn.1.1.2⟩
  have hPlaced : ∀ m ∈ mergeMembers a.group,
      LiesIn (frameOf a.group.width a.group.height) m.dst ∧ empty m.dst = false := by
    intro m hm
    obtain ⟨i, hi, rfl⟩ := List.mem_mapIdx.mp hm
    exact ⟨a.inSlot.placed _ (List.getElem_mem hi), hPlaces _ (List.getElem_mem hi)⟩
  have hMembers : mergeMembers a.group ≠ [] := fun hNone =>
    a.inSlot.layers_ne (List.mapIdx_eq_nil_iff.mp hNone)
  obtain ⟨m, hm, hMeet⟩ :=
    List.any_eq_true.mp (decide_parts_draw rfl hMembers hPlaced hPart)
  obtain ⟨i, hi, rfl⟩ := List.mem_mapIdx.mp hm
  unfold drawn
  rw [hCode]
  refine VicSession.composed_part a.inSlot hIn hSome ⟨_, List.getElem_mem hi, ?_⟩ hTaken
  unfold VicSession.lands
  rw [Bool.and_eq_true]
  exact ⟨hMeet, by rw [hPlaces _ (List.getElem_mem hi)]; simp⟩

/-- A layer whose crop has no width, over a place that has. -/
def emptyCrop : LayerData :=
  { bi := some { width := 100, height := 100, handle := some 1 }
    pi := { sourceCrop := some ⟨0, 0, 0, 10⟩, displayFrame := some ⟨0, 0, 10, 10⟩ } }

/-- It makes a group of its own. -/
def ofEmptyCrop : AcceptedGroup where
  tables := {}
  layers := [emptyCrop]
  turn := {}
  mode := ⟨1536, 2048, 0⟩
  merge := { layers := [mergeLayerFrom emptyCrop], transforms := [0] }
  layers_ne := by decide
  layers_le := by decide
  accepted := by decide +kernel
  turned := by decide
  members := rfl
  transforms := rfl
  width_fits := by decide
  height_fits := by decide
  onPanel := by decide

end AcceptedGroup

end TegraHwc
