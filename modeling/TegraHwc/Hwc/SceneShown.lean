import TegraHwc.Compositor.GenericCompositionPlanner
import TegraHwc.Hwc.CompositionJoined
import TegraHwc.Tegra.PanelPicture

/-!
# TegraHwc — the panel shows the scene

From the scene to the panel. The planner of
`compositor/GenericCompositionPlanner.cpp` gives the layers of a scene their
types, `CreateLayerToPlaneJoiningPlan` of `hwc/HwcDisplay.cpp` makes a plan of
them with the client's target in it, and `tegra/TegraAtomicStateManager.cpp` a
request of the plan. Whatever the kernel answers the planner, whatever planes
there are and however the plan reorders and merges, the panel shows the layers
of the scene by their heights.

What the client draws of its layers is given: its target holds them laid over
one another, and over nothing. The target may change between the validation and
the frame; where the plan was kept, it may not come to lie over layers it did
not lie over when the plan was made.

## Results

* `arranged_of_planned` — what the planner makes of a scene is arranged.
* `panel_shows_scene`   — the panel shows the scene.
-/

namespace TegraHwc

open PartialRedraw Raster

namespace HwcDisplay

/-- **The scene**: the layers that are shown, by their heights. -/
def scene (s : HwcDisplay) : List Entry :=
  s.shownLayers.insertionSort fun a b => a.zOrder ≤ b.zOrder

/-- Layers with names of their own and, where they are shown, heights of their own,
the cursors over the rest. -/
structure Stacked (s : HwcDisplay) : Prop where
  names : (s.layers.map Entry.id).Nodup
  heights : (s.shownLayers.map Entry.zOrder).Nodup
  cursors : ∀ a ∈ s.shownLayers, ∀ b ∈ s.shownLayers, a.layer.sfType = .kCursor →
    b.layer.sfType ≠ .kCursor → b.zOrder < a.zOrder

variable {s : HwcDisplay}

-- ---------------------------------------------------------------------------
-- The order of the scene
-- ---------------------------------------------------------------------------

/-- Layers with heights of their own, in an order that does not descend, ascend. -/
theorem ascending_of_perm {l : List Entry} (hHeights : (s.shownLayers.map Entry.zOrder).Nodup)
    (hPerm : l.Perm s.shownLayers) (hOrder : l.Pairwise fun a b => a.zOrder ≤ b.zOrder) :
    l.Pairwise fun a b => a.zOrder < b.zOrder := by
  have hDistinct : (l.map Entry.zOrder).Nodup := (hPerm.map Entry.zOrder).nodup_iff.mpr hHeights
  rw [List.Nodup, List.pairwise_map] at hDistinct
  exact (hOrder.and hDistinct).imp fun h => Nat.lt_of_le_of_ne h.1 h.2

theorem scene_perm : s.scene.Perm s.shownLayers := List.perm_insertionSort _ _

theorem scene_ascending (hHeights : (s.shownLayers.map Entry.zOrder).Nodup) :
    s.scene.Pairwise fun a b => a.zOrder < b.zOrder := by
  have : Std.Total fun a b : Entry => a.zOrder ≤ b.zOrder :=
    ⟨fun a b => Nat.le_total a.zOrder b.zOrder⟩
  have : IsTrans Entry fun a b : Entry => a.zOrder ≤ b.zOrder := ⟨fun _ _ _ => Nat.le_trans⟩
  exact ascending_of_perm hHeights scene_perm (List.pairwise_insertionSort _ _)

/-- The layers shown are one list, in the order of their heights. -/
theorem eq_scene {l : List Entry} (hHeights : (s.shownLayers.map Entry.zOrder).Nodup)
    (hPerm : l.Perm s.shownLayers) (hOrder : l.Pairwise fun a b => a.zOrder ≤ b.zOrder) :
    l = s.scene := by
  refine (hPerm.trans scene_perm.symm).eq_of_pairwise (fun a b ha hb hLt hGt => ?_)
    (ascending_of_perm hHeights hPerm hOrder) (scene_ascending hHeights)
  exact absurd hLt (Nat.lt_asymm hGt)

/-- An arranged composition is of the scene. -/
theorem Arranged.scene_eq {types : List (ILayerId × CompositionType)}
    {below block above top : List Entry} (h : Arranged s types below block above top) :
    below ++ block ++ above ++ top = s.scene := by
  refine eq_scene ?_ h.shown (h.ascending.imp fun hLt => Nat.le_of_lt hLt)
  refine (h.shown.map Entry.zOrder).nodup_iff.mp ?_
  rw [List.Nodup, List.pairwise_map]
  exact h.ascending.imp fun hLt => Nat.ne_of_lt hLt

/-- **The planner's order is the scene's.** -/
theorem Stacked.order_eq (h : s.Stacked) : s.getOrderLayersByZPos = s.scene := by
  refine eq_scene h.heights (List.perm_insertionSort _ _) ?_
  let onTop (e : Entry) : Nat := if e.layer.sfType = .kCursor then 1 else 0
  let R (a b : Entry) : Prop :=
    onTop a < onTop b ∨ onTop a = onTop b ∧ a.layer.zOrder ≤ b.layer.zOrder
  have : Std.Total R := by
    refine ⟨fun a b => ?_⟩
    show (_ ∨ _ ∧ _) ∨ (_ ∨ _ ∧ _)
    rw [UInt32.le_iff_toNat_le, UInt32.le_iff_toNat_le]
    omega
  have : IsTrans Entry R := by
    refine ⟨fun a b c hab hbc => ?_⟩
    change (_ ∨ _ ∧ _) at hab hbc
    show _ ∨ _ ∧ _
    rw [UInt32.le_iff_toNat_le] at hab hbc ⊢
    omega
  have hOrder : s.getOrderLayersByZPos.Pairwise R := List.pairwise_insertionSort R s.shownLayers
  refine hOrder.imp_of_mem fun {a b} ha hb hab => ?_
  have ha' : a ∈ s.shownLayers := (List.mem_insertionSort _).mp ha
  have hb' : b ∈ s.shownLayers := (List.mem_insertionSort _).mp hb
  obtain hTop | ⟨-, hLe⟩ := hab
  · -- a cursor comes after what is none, and lies over it
    show a.zOrder ≤ b.zOrder
    change (if _ then 1 else 0) < (if _ then 1 else 0) at hTop
    split at hTop
    · split at hTop <;> omega
    · rename_i hNot
      split at hTop
      · rename_i hCursor
        exact Nat.le_of_lt (h.cursors b hb' a ha' hCursor hNot)
      · omega
  · exact UInt32.le_iff_toNat_le.mp hLe

-- ---------------------------------------------------------------------------
-- The types of the scene
-- ---------------------------------------------------------------------------

open GenericCompositionPlanner

/-- Of things with names of their own, the one of a name is found. -/
theorem find?_named {α : Type} {name : α → ILayerId} {l : List α} (hNames : (l.map name).Nodup)
    {a : α} (ha : a ∈ l) : (l.find? fun b => name b == name a) = some a := by
  induction l with
  | nil => cases ha
  | cons first rest ih =>
    rw [List.map_cons, List.nodup_cons] at hNames
    obtain rfl | ha := List.mem_cons.mp ha
    · rw [List.find?_cons_of_pos (by simp)]
    · rw [List.find?_cons_of_neg, ih hNames.2 ha]
      intro hSame
      rw [beq_iff_eq] at hSame
      exact hNames.1 (hSame ▸ List.mem_map_of_mem ha)

/-- A layer without a type of its own. -/
theorem typeOf_unnamed {types : List (ILayerId × CompositionType)} {e : Entry}
    (hNot : e.id ∉ types.map Prod.fst) : typeOf types e = .kInvalid := by
  have hNone : (types.find? fun t => t.1 == e.id) = none := by
    rw [List.find?_eq_none]
    intro t ht hSame
    rw [beq_iff_eq] at hSame
    exact hNot (hSame ▸ List.mem_map_of_mem ht)
  unfold typeOf
  rw [hNone]
  rfl

section Types

variable {layers : List Entry} {range : Nat × Nat} {useCursorPlane : Bool}

theorem names_getCompositionTypes (first size : Nat) :
    (getCompositionTypes layers first size useCursorPlane).map Prod.fst = layers.map Entry.id := by
  refine List.ext_getElem? fun zOrder => ?_
  unfold getCompositionTypes
  rw [List.getElem?_map, List.getElem?_mapIdx, List.getElem?_map, Option.map_map]
  rfl

/-- The type the planner gives a layer, by its height. -/
theorem typeOf_getCompositionTypes (hNames : (layers.map Entry.id).Nodup) {zOrder : Nat} {e : Entry}
    (he : layers[zOrder]? = some e) :
    typeOf (getCompositionTypes layers range.1 range.2 useCursorPlane) e =
      if InRange range zOrder then .kClient
      else if useCursorPlane = true ∧ e.layer.sfType = .kCursor then .kCursor else .kDevice := by
  have hAt : (getCompositionTypes layers range.1 range.2 useCursorPlane)[zOrder]? = some (e.id,
      if InRange range zOrder then .kClient
      else if useCursorPlane = true ∧ e.layer.sfType = .kCursor then .kCursor else .kDevice) := by
    unfold getCompositionTypes
    rw [List.getElem?_mapIdx, he]
    rfl
  have hFound := find?_named (by rw [names_getCompositionTypes]; exact hNames)
    (List.mem_of_getElem? hAt)
  unfold typeOf
  rw [hFound]
  rfl

end Types

theorem Stacked.scene_names (h : s.Stacked) : (s.scene.map Entry.id).Nodup := by
  refine (scene_perm.map Entry.id).nodup_iff.mpr ?_
  exact h.names.sublist (List.filter_sublist.map Entry.id)

/-- A thing of a slice of a row is at a place of the slice. -/
theorem at_of_mem_slice {α : Type} {l : List α} {body first size : Nat} {a : α}
    (ha : a ∈ ((l.take body).drop first).take size) :
    ∃ i, l[i]? = some a ∧ first ≤ i ∧ i < first + size := by
  obtain ⟨i, hi⟩ := List.mem_iff_getElem?.mp ha
  rw [List.getElem?_take] at hi
  split at hi
  · rename_i hLt
    rw [List.getElem?_drop, List.getElem?_take] at hi
    split at hi
    · exact ⟨first + i, hi, Nat.le_add_right _ _, Nat.add_lt_add_left hLt first⟩
    · cases hi
  · cases hi

/-- A thing beside a slice of a row is at none of the slice's places. -/
theorem at_of_mem_beside {α : Type} {l : List α} {body first size : Nat} {a : α}
    (ha : a ∈ (l.take body).take first ++ ((l.take body).drop first).drop size) :
    ∃ i, l[i]? = some a ∧ i < body ∧ ¬(first ≤ i ∧ i < first + size) := by
  obtain ha | ha := List.mem_append.mp ha
  · obtain ⟨i, hi⟩ := List.mem_iff_getElem?.mp ha
    rw [List.getElem?_take] at hi
    split at hi
    · rw [List.getElem?_take] at hi
      split at hi
      · exact ⟨i, hi, by omega, by omega⟩
      · cases hi
    · cases hi
  · obtain ⟨i, hi⟩ := List.mem_iff_getElem?.mp ha
    rw [List.getElem?_drop, List.getElem?_drop, List.getElem?_take] at hi
    split at hi
    · exact ⟨_, hi, by omega, by omega⟩
    · cases hi

/-- A cursor that is the last of its scene. -/
theorem cursor_of_last {ordered : List Entry} {first zOrder : Nat} {e : Entry}
    (hFirst : getCursorLayer ordered = some first) (hLast : first + 1 = ordered.length)
    (he : ordered[zOrder]? = some e) (hHere : zOrder = ordered.length - 1) :
    e.layer.sfType = .kCursor := by
  unfold getCursorLayer at hFirst
  obtain ⟨hFirstLt, hAt, -⟩ := List.findIdx?_eq_some_iff_getElem.mp hFirst
  have hSame : ordered[first]? = some e := by
    rw [← he]
    congr 1
    omega
  rw [(List.getElem?_eq_some_iff.mp hSame).2] at hAt
  exact of_decide_eq_true hAt

/-- **What the planner makes of a scene is arranged**: the layers below its range, the
client's, those above, and the cursor that has its plane. -/
theorem arranged_of_types (h : s.Stacked) {range : Nat × Nat} {useCursorPlane : Bool}
    {types : List (ILayerId × CompositionType)}
    (hCursor : useCursorPlane = true →
      ∃ zOrder, getCursorLayer s.scene = some zOrder ∧ zOrder + 1 = s.scene.length)
    (hTypes : ∀ e ∈ s.scene, typeOf types e =
      typeOf (getCompositionTypes s.scene range.1 range.2 useCursorPlane) e)
    (hHidden : ∀ e ∈ s.layers, e.layer.hidden = true →
      typeOf types e = .kInvalid ∨ typeOf types e = .kDeviceOccluded) :
    ∃ below block above top, Arranged s types below block above top := by
  -- the cursor leaves the others where it has its plane and the client does not draw it
  let apart : Prop := useCursorPlane = true ∧ ¬InRange range (s.scene.length - 1)
  let body := if apart then s.scene.length - 1 else s.scene.length
  have hApart : apart → body = s.scene.length - 1 := fun h => if_pos h
  have hWhole : ¬apart → body = s.scene.length := fun h => if_neg h
  have hTyped : ∀ zOrder e, s.scene[zOrder]? = some e → typeOf types e =
      if InRange range zOrder then .kClient
      else if useCursorPlane = true ∧ e.layer.sfType = .kCursor then .kCursor else .kDevice := by
    intro zOrder e he
    rw [hTypes e (List.mem_of_getElem? he)]
    exact typeOf_getCompositionTypes h.scene_names he
  have hDevice : ∀ zOrder e, s.scene[zOrder]? = some e → zOrder < body → ¬InRange range zOrder →
      typeOf types e = .kDevice := by
    intro zOrder e he hLt hOut
    rw [hTyped zOrder e he, if_neg hOut, if_neg]
    rintro ⟨hUse, hType⟩
    obtain ⟨first, hFirst, hLast⟩ := hCursor hUse
    have hLe := getCursorLayer_le hFirst he hType
    have hLt' := (List.getElem?_eq_some_iff.mp he).1
    have hHere : zOrder = s.scene.length - 1 := by omega
    have := hApart ⟨hUse, hHere ▸ hOut⟩
    omega
  refine ⟨(s.scene.take body).take range.1, ((s.scene.take body).drop range.1).take range.2,
    ((s.scene.take body).drop range.1).drop range.2, s.scene.drop body, ?_⟩
  have hSplit : (s.scene.take body).take range.1 ++
      ((s.scene.take body).drop range.1).take range.2 ++
        ((s.scene.take body).drop range.1).drop range.2 ++ s.scene.drop body = s.scene := by
    rw [List.append_assoc (List.take _ _), List.take_append_drop, List.take_append_drop,
      List.take_append_drop]
  refine ⟨?_, ?_, fun e he => ?_, fun e he => ?_, fun e he => ?_, ?_, hHidden⟩
  · rw [hSplit]
    exact scene_perm
  · rw [hSplit]
    exact scene_ascending h.heights
  · obtain ⟨zOrder, hAt, hLt, hOut⟩ := at_of_mem_beside he
    exact hDevice zOrder e hAt hLt hOut
  · obtain ⟨zOrder, hAt, hIn⟩ := at_of_mem_slice he
    have hRange : InRange range zOrder := hIn
    rw [hTyped zOrder e hAt, if_pos hRange]
  · obtain ⟨i, hi⟩ := List.mem_iff_getElem?.mp he
    rw [List.getElem?_drop] at hi
    have hLt := (List.getElem?_eq_some_iff.mp hi).1
    have hIn : apart := by
      by_contra hNot
      have := hWhole hNot
      omega
    have hHere : body + i = s.scene.length - 1 := by
      have := hApart hIn
      omega
    obtain ⟨first, hFirst, hLast⟩ := hCursor hIn.1
    have hIs := cursor_of_last hFirst hLast hi hHere
    rw [hTyped _ e hi, hHere, if_neg hIn.2, if_pos ⟨hIn.1, hIs⟩]
  · rw [List.length_drop]
    by_cases hIn : apart
    · have := hApart hIn
      omega
    · have := hWhole hIn
      omega

/-- Other types, the same of the layers that are shown. -/
theorem Arranged.retyped {types types' : List (ILayerId × CompositionType)}
    {below block above top : List Entry} (h : Arranged s types below block above top)
    (hTypes : ∀ e ∈ s.shownLayers, typeOf types' e = typeOf types e)
    (hHidden : ∀ e ∈ s.layers, e.layer.hidden = true →
      typeOf types' e = .kInvalid ∨ typeOf types' e = .kDeviceOccluded) :
    Arranged s types' below block above top where
  shown := h.shown
  ascending := h.ascending
  device := by
    intro e he
    rw [hTypes e (h.shown.mem_iff.mp _)]
    · exact h.device e he
    · simp only [List.mem_append] at he ⊢
      tauto
  client := by
    intro e he
    rw [hTypes e (h.shown.mem_iff.mp (by simp [he]))]
    exact h.client e he
  cursor := by
    intro e he
    rw [hTypes e (h.shown.mem_iff.mp (by simp [he]))]
    exact h.cursor e he
  one := h.one
  hidden := hHidden

section Staged

variable {c : DisplayConfig} {v : Validation} {k : ValidatedComposition}

/-- A layer that is shown keeps its type as the composition is staged. -/
theorem Stacked.typeOf_staged (h : s.Stacked) {e : Entry} (he : e ∈ s.shownLayers) :
    typeOf (s.staged c v k).compositionTypes e = typeOf k.compositionTypes e := by
  obtain ⟨hMem, hShown⟩ := List.mem_filter.mp he
  -- no hidden layer has its name
  have hOther : ∀ other ∈ s.layers, other.layer.hidden = true → other.id ≠ e.id := by
    intro other hOther hHidden hSame
    obtain rfl := List.inj_on_of_nodup_map h.names hOther hMem hSame
    rw [hHidden] at hShown
    cases hShown
  unfold typeOf staged
  simp only [List.find?_append]
  have hNone : ((s.layers.filter fun e => e.layer.hidden).map fun e =>
      (e.id, CompositionType.kDeviceOccluded)).find? (fun t => t.1 == e.id) = none := by
    rw [List.find?_eq_none]
    intro t ht hSame
    obtain ⟨other, hIn, rfl⟩ := List.mem_map.mp ht
    obtain ⟨hIn, hHidden⟩ := List.mem_filter.mp hIn
    exact hOther other hIn hHidden (beq_iff_eq.mp hSame)
  rw [hNone, Option.none_or, List.find?_filter]
  congr 3
  funext t
  by_cases hSame : t.1 = e.id
  · rw [beq_iff_eq.mpr hSame]
    refine decide_eq_true ⟨List.all_eq_true.mpr fun other hIn => ?_, rfl⟩
    obtain ⟨hIn, hHidden⟩ := List.mem_filter.mp hIn
    rw [decide_eq_true_eq, hSame]
    exact hOther other hIn hHidden
  · rw [beq_eq_false_iff_ne.mpr hSame]
    exact decide_eq_false fun hBoth => Bool.false_ne_true hBoth.2

/-- A hidden layer is occluded. -/
theorem typeOf_staged_hidden {e : Entry} (he : e ∈ s.layers) (hHidden : e.layer.hidden = true) :
    typeOf (s.staged c v k).compositionTypes e = .kDeviceOccluded := by
  have hIn : (e.id, CompositionType.kDeviceOccluded) ∈
      (s.layers.filter fun e => e.layer.hidden).map fun e =>
        (e.id, CompositionType.kDeviceOccluded) :=
    List.mem_map.mpr ⟨e, List.mem_filter.mpr ⟨he, hHidden⟩, rfl⟩
  unfold typeOf staged
  simp only [List.find?_append]
  cases hFound : ((s.layers.filter fun e => e.layer.hidden).map fun e =>
      (e.id, CompositionType.kDeviceOccluded)).find? (fun t => t.1 == e.id) with
  | none =>
    rw [List.find?_eq_none] at hFound
    exact absurd (beq_self_eq_true e.id) (hFound _ hIn)
  | some t =>
    obtain ⟨other, -, rfl⟩ := List.mem_map.mp (List.mem_of_find?_eq_some hFound)
    rfl

end Staged

end HwcDisplay

namespace GenericCompositionPlanner

variable {d : ICompositorDisplay} {layers : List Entry}

theorem flattened_types (reason : FlattenReason) :
    (getFlattenedComposition layers reason).compositionTypes =
      getCompositionTypes layers 0 layers.length false := by
  refine List.ext_getElem? fun zOrder => ?_
  show (layers.map fun e => (e.id, CompositionType.kClient))[zOrder]? = _
  unfold getCompositionTypes
  rw [List.getElem?_map, List.getElem?_mapIdx]
  cases hAt : layers[zOrder]? with
  | none => rfl
  | some e =>
    have hLt := (List.getElem?_eq_some_iff.mp hAt).1
    rw [Option.map_some, Option.map_some, if_pos ⟨Nat.zero_le _, by omega⟩]

/-- The types of what the planner answers anew are those of a range, and the cursor
has its plane only as the topmost and the first of the cursors. -/
theorem planned_types {invalidators : UInt32} {reusable : Option ValidatedComposition}
    (hFresh : (validateDisplay d layers invalidators reusable).shortCircuited = false) :
    ∃ (range : Nat × Nat) (useCursorPlane : Bool),
      (validateDisplay d layers invalidators reusable).composition.compositionTypes =
        getCompositionTypes layers range.1 range.2 useCursorPlane ∧
      (useCursorPlane = true →
        ∃ zOrder, getCursorLayer layers = some zOrder ∧ zOrder + 1 = layers.length) := by
  unfold validateDisplay at hFresh ⊢
  cases hFlattens : flattens d layers with
  | some reason =>
    exact ⟨(0, layers.length), false, flattened_types reason, fun hUse => nomatch hUse⟩
  | none =>
    rw [hFlattens] at hFresh
    simp only at hFresh ⊢
    split
    · rename_i kept hKept
      rw [hKept] at hFresh
      cases hFresh
    · by_cases hSuccess : (attempts d layers).success = true
      · obtain ⟨hTypes, -⟩ :=
          @settle_of_success layers (tryCursorPlane d layers).1 _ hSuccess
        refine ⟨(attempts d layers).range, (tryCursorPlane d layers).1, ?_,
          fun hUse => (tryCursorPlane_top hUse).1⟩
        rw [hTypes, (attempts_fits hSuccess).1]
        rfl
      · obtain ⟨hTypes, -⟩ := @settle_of_failure layers (tryCursorPlane d layers).1
          (attempts d layers) (Bool.eq_false_iff.mpr hSuccess)
        exact ⟨(0, layers.length), false, hTypes.trans (flattened_types _),
          fun hUse => nomatch hUse⟩

end GenericCompositionPlanner

namespace HwcDisplay

variable {s : HwcDisplay}

open GenericCompositionPlanner

/-- **What the planner answers anew is arranged**, as it is and as it is staged. -/
theorem arranged_of_planned (h : s.Stacked) {d : ICompositorDisplay} {invalidators : UInt32}
    {reusable : Option ValidatedComposition}
    {r : ValidationResult}
    (hPlanned : GenericCompositionPlanner.validateDisplay d s.getOrderLayersByZPos invalidators
      reusable = r) (hFresh : r.shortCircuited = false) (c : DisplayConfig) (v : Validation) :
    ∃ below block above top, Arranged s r.composition.compositionTypes below block above top ∧
      Arranged s (s.staged c v r.composition).compositionTypes below block above top := by
  obtain ⟨range, useCursorPlane, hTypes, hCursor⟩ := planned_types (hPlanned ▸ hFresh)
  rw [hPlanned, h.order_eq] at hTypes
  rw [h.order_eq] at hCursor
  have hHidden : ∀ e ∈ s.layers, e.layer.hidden = true →
      typeOf r.composition.compositionTypes e = .kInvalid ∨
        typeOf r.composition.compositionTypes e = .kDeviceOccluded := by
    intro e he hIs
    refine .inl (typeOf_unnamed ?_)
    rw [hTypes, names_getCompositionTypes]
    intro hIn
    obtain ⟨other, hOther, hSame⟩ := List.mem_map.mp hIn
    obtain ⟨hMem, hShown⟩ := List.mem_filter.mp (scene_perm.mem_iff.mp hOther)
    obtain rfl := List.inj_on_of_nodup_map h.names hMem he hSame
    rw [hIs] at hShown
    cases hShown
  obtain ⟨below, block, above, top, hArranged⟩ :=
    arranged_of_types h hCursor (fun e _ => by rw [hTypes]) hHidden
  exact ⟨below, block, above, top, hArranged, hArranged.retyped
    (fun e he => h.typeOf_staged he) fun e he hIs => .inr (typeOf_staged_hidden he hIs)⟩

-- ---------------------------------------------------------------------------
-- The scene of a later frame
-- ---------------------------------------------------------------------------

/-- The same layers, shown or not as before and at the heights they had. -/
def Alike (s s' : HwcDisplay) : Prop :=
  s'.layers.map (fun e => (e.id, e.layer.hidden, e.zOrder)) =
    s.layers.map fun e => (e.id, e.layer.hidden, e.zOrder)

/-- The layer of a name as another display has it. -/
def current (s' : HwcDisplay) (e : Entry) : Entry :=
  (s'.layers.find? fun e' => e'.id == e.id).getD e

variable {s' : HwcDisplay} {types : List (ILayerId × CompositionType)}

theorem Alike.names (h : s.Alike s') (hNames : (s.layers.map Entry.id).Nodup) :
    (s'.layers.map Entry.id).Nodup := by
  have hIds := congrArg (List.map Prod.fst) h
  rw [List.map_map, List.map_map] at hIds
  exact hIds ▸ hNames

/-- A display alike has each layer in its place. -/
theorem Alike.at (h : s.Alike s') (hNames : (s.layers.map Entry.id).Nodup) {i : Nat} {e : Entry}
    (he : s.layers[i]? = some e) : s'.layers[i]? = some (s'.current e) ∧
      (s'.current e).id = e.id ∧ (s'.current e).layer.hidden = e.layer.hidden ∧
        (s'.current e).zOrder = e.zOrder := by
  have hAt := congrArg (·[i]?) h
  simp only [List.getElem?_map, he, Option.map_some] at hAt
  obtain ⟨e', he', hSame⟩ := Option.map_eq_some_iff.mp hAt
  obtain ⟨hId, hRest⟩ := Prod.mk.inj hSame
  obtain ⟨hHidden, hHeight⟩ := Prod.mk.inj hRest
  have hCurrent : s'.current e = e' := by
    unfold current
    rw [← hId, find?_named (h.names hNames) (List.mem_of_getElem? he')]
    rfl
  rw [hCurrent]
  exact ⟨he', hId, hHidden, hHeight⟩

theorem Alike.layers_eq (h : s.Alike s') (hNames : (s.layers.map Entry.id).Nodup) :
    s'.layers = s.layers.map s'.current := by
  refine List.ext_getElem? fun i => ?_
  rw [List.getElem?_map]
  cases hi : s.layers[i]? with
  | some e => exact (h.at hNames hi).1
  | none =>
    have hLength : s'.layers.length = s.layers.length := by
      have := congrArg List.length h
      simpa using this
    rw [List.getElem?_eq_none_iff] at hi
    rw [Option.map_none, List.getElem?_eq_none_iff, hLength]
    exact hi

/-- **A composition arranged stays so** while the layers are shown as they were. -/
theorem Arranged.alike {below block above top : List Entry}
    (hArranged : Arranged s types below block above top) (h : s.Alike s')
    (hNames : (s.layers.map Entry.id).Nodup) :
    Arranged s' types (below.map s'.current) (block.map s'.current) (above.map s'.current)
      (top.map s'.current) := by
  have hEach : ∀ e ∈ s.layers, (s'.current e).id = e.id ∧
      (s'.current e).layer.hidden = e.layer.hidden ∧ (s'.current e).zOrder = e.zOrder := by
    intro e he
    obtain ⟨i, hi⟩ := List.mem_iff_getElem?.mp he
    exact (h.at hNames hi).2
  have hType : ∀ e ∈ s.layers, typeOf types (s'.current e) = typeOf types e := by
    intro e he
    unfold typeOf
    rw [(hEach e he).1]
  have hShown : s'.shownLayers = s.shownLayers.map s'.current := by
    unfold shownLayers
    rw [h.layers_eq hNames, List.filter_map]
    refine congrArg (List.map s'.current) (List.filter_congr fun e he => ?_)
    show (!(s'.current e).layer.hidden) = _
    rw [(hEach e he).2.1]
  have hIn : ∀ e ∈ below ++ block ++ above ++ top, e ∈ s.layers :=
    fun e he => hArranged.mem_layers he
  have hTyped : ∀ (l : List Entry) (type : CompositionType),
      (∀ e ∈ l, e ∈ below ++ block ++ above ++ top) → (∀ e ∈ l, typeOf types e = type) →
        ∀ e ∈ l.map s'.current, typeOf types e = type := by
    intro l type hSub hl e he
    obtain ⟨e₀, he₀, rfl⟩ := List.mem_map.mp he
    rw [hType e₀ (hIn e₀ (hSub e₀ he₀))]
    exact hl e₀ he₀
  refine ⟨?_, ?_, ?_, ?_, ?_, ?_, fun e he hHidden => ?_⟩
  · rw [hShown, ← List.map_append, ← List.map_append, ← List.map_append]
    exact hArranged.shown.map s'.current
  · rw [← List.map_append, ← List.map_append, ← List.map_append, List.pairwise_map]
    refine hArranged.ascending.imp_of_mem fun {a b} ha hb hLt => ?_
    rw [(hEach a (hIn a ha)).2.2, (hEach b (hIn b hb)).2.2]
    exact hLt
  · rw [← List.map_append]
    refine hTyped _ _ (fun e he => ?_) hArranged.device
    simp only [List.mem_append] at he ⊢
    tauto
  · exact hTyped _ _ (fun e he => by simp [he]) hArranged.client
  · exact hTyped _ _ (fun e he => by simp [he]) hArranged.cursor
  · rw [List.length_map]
    exact hArranged.one
  · rw [h.layers_eq hNames] at he
    obtain ⟨e₀, he₀, rfl⟩ := List.mem_map.mp he
    rw [hType e₀ he₀]
    exact hArranged.hidden e₀ he₀ ((hEach e₀ he₀).2.1 ▸ hHidden)

end HwcDisplay

-- ---------------------------------------------------------------------------
-- The films of a plan
-- ---------------------------------------------------------------------------

/-- Parts that match a list in two. -/
theorem forall₂_split {α β : Type*} {R : α → β → Prop} {a b : List α} {l : List β}
    (h : List.Forall₂ R (a ++ b) l) :
    ∃ la lb, l = la ++ lb ∧ List.Forall₂ R a la ∧ List.Forall₂ R b lb := by
  refine ⟨l.take a.length, l.drop a.length, (List.take_append_drop _ _).symm, ?_, ?_⟩
  · have hTaken := List.forall₂_take a.length h
    rwa [List.take_left] at hTaken
  · have hDropped := List.forall₂_drop a.length h
    rwa [List.drop_left] at hDropped

namespace TegraAtomicRequest

open LayerToPlaneJoiningPlan

variable {C : Type*} (panel : Panel C) (args : RequestArgs) (r : TegraAtomicRequest)
  {u : UsablePlanes TegraPlane} {composition : List LayerData} {cursorLayer : Option LayerData}
  {joined : LayerToPlaneJoiningPlan TegraPlane}

/-- A film that a plan shows of a layer's data. -/
def FilmOf (joined : LayerToPlaneJoiningPlan TegraPlane) (layer : LayerData)
    (film : Film Point C) : Prop :=
  ∃ (i : Nat) (j : Joining), joined.plan[i]? = some j ∧ j.layer = layer ∧
    (bindingFilms panel args r 0 joined.plan)[i]? = some film

/-- The film at a rank. -/
theorem filmOf_rank (h : Joined u composition cursorLayer joined) {i : Nat} {layer : LayerData}
    (hi : composition[i]? = some layer) : ∃ film, FilmOf panel args r joined layer film ∧
      (bindingFilms panel args r 0 joined.plan)[joined.rankOf i]? = some film := by
  obtain ⟨j, hj, hLayer⟩ := h.placed i layer hi
  obtain ⟨member, hFilm⟩ := getElem?_bindingFilms panel args r 0 hj
  exact ⟨_, ⟨_, j, hj, hLayer, hFilm⟩, hFilm⟩

theorem layerFilms_at (h : Joined u composition cursorLayer joined) {i : Nat}
    (hi : i < composition.length) :
    (layerFilms panel args r joined composition.length).length = composition.length ∧
      (layerFilms panel args r joined composition.length)[i]? =
        (bindingFilms panel args r 0 joined.plan)[joined.rankOf i]? := by
  let film (i : Nat) : Film Point C :=
    ((bindingFilms panel args r 0 joined.plan)[joined.rankOf i]?).getD (spriteFilm panel {})
  have hEach : ∀ k < composition.length,
      (bindingFilms panel args r 0 joined.plan)[joined.rankOf k]? = some (film k) := by
    intro k hk
    obtain ⟨f, -, hFilm⟩ := filmOf_rank panel args r h (List.getElem?_eq_getElem hk)
    show _ = some (Option.getD _ _)
    rw [hFilm]
    rfl
  have hMap : layerFilms panel args r joined composition.length =
      (List.range composition.length).map film := by
    unfold layerFilms
    rw [← List.filterMap_eq_map]
    exact List.filterMap_congr fun k hk => hEach k (List.mem_range.mp hk)
  rw [hMap]
  refine ⟨by rw [List.length_map, List.length_range], ?_⟩
  rw [List.getElem?_map, List.getElem?_range hi, hEach i hi]
  rfl

/-- **The films of a composition**, one for each of its layers. -/
theorem layerFilms_match (h : Joined u composition cursorLayer joined) :
    List.Forall₂ (FilmOf panel args r joined) composition
      (layerFilms panel args r joined composition.length) := by
  refine List.forall₂_iff_get.mpr ⟨?_, fun i hi hi' => ?_⟩
  · obtain hNone | hSome := Nat.eq_zero_or_pos composition.length
    · rw [hNone]
      rfl
    · exact (layerFilms_at panel args r h hSome).1.symm
  · obtain ⟨film, hFilm, hAt⟩ := filmOf_rank panel args r h (List.getElem?_eq_getElem hi)
    have hHere := (layerFilms_at panel args r h hi).2
    rw [hAt, List.getElem?_eq_getElem hi'] at hHere
    rw [List.get_eq_getElem, List.get_eq_getElem, Option.some.inj hHere]
    exact hFilm

/-- The film of the cursor, where there is one. -/
theorem cursorFilms_match (h : Joined u composition cursorLayer joined) :
    List.Forall₂ (FilmOf panel args r joined) cursorLayer.toList
      ((bindingFilms panel args r 0 joined.plan).drop composition.length) := by
  cases hCursor : cursorLayer with
  | none =>
    have hEnd : (bindingFilms panel args r 0 joined.plan).drop composition.length = [] := by
      rw [List.drop_eq_nil_iff, length_bindingFilms, h.length, hCursor]
      exact Nat.le_refl _
    rw [hEnd]
    exact List.Forall₂.nil
  | some layer =>
    obtain ⟨j, hj, hLayer, -⟩ := h.cursorLast layer hCursor
    obtain ⟨member, hFilm⟩ := getElem?_bindingFilms panel args r 0 hj
    have hLength : (bindingFilms panel args r 0 joined.plan).length = composition.length + 1 := by
      rw [length_bindingFilms, h.length, hCursor]
      rfl
    have hEnd : (bindingFilms panel args r 0 joined.plan).drop composition.length =
        [bindingFilm panel args r member j] := by
      rw [List.drop_eq_getElem_cons (by omega), List.drop_eq_nil_of_le (by omega)]
      rw [List.getElem?_eq_getElem (by omega)] at hFilm
      rw [Option.some.inj hFilm]
    rw [hEnd]
    exact List.Forall₂.cons ⟨_, j, hj, hLayer, hFilm⟩ List.Forall₂.nil

end TegraAtomicRequest

namespace HwcDisplay

open TegraAtomicRequest LayerToPlaneJoiningPlan

variable {s : HwcDisplay} {types : List (ILayerId × CompositionType)}

/-- The layers a composition leaves to the client, bottom first. -/
def clientRange (s : HwcDisplay) (types : List (ILayerId × CompositionType)) : List Entry :=
  s.scene.filter fun e => typeOf types e = .kClient

/-- The client has drawn its layers: where its target is shown they lie over one
another in it, and over nothing, and none reaches past it. -/
def Drew {C : Type*} [Monoid C] (films : List (Film Point C)) (target : Film Point C) : Prop :=
  ∀ q, (target.lands q = true → target.color q = compose (films.map Film.laid) 1 q) ∧
    ∀ f ∈ films, f.lands q = true → target.lands q = true

section Shown

variable {C : Type*} (panel : Panel C) (args : RequestArgs) (r : TegraAtomicRequest)
  {plan : ClientJoiningPlan TegraPlane} {u : UsablePlanes TegraPlane}
  {below block above top : List Entry} {target : LayerData}

/-- What a layer of the scene shows: what the client draws of it, where it is the
client's, and what a binding shows of its data where it is not. -/
def ShownAs (types : List (ILayerId × CompositionType)) (plan : ClientJoiningPlan TegraPlane)
    (client : Entry → Film Point C) (e : Entry) (film : Film Point C) : Prop :=
  (typeOf types e = .kClient ∧ film = client e) ∨
    (typeOf types e ≠ .kClient ∧ ∃ live,
      FilmOf panel args r plan.toLayerToPlaneJoiningPlan { e.layer.layerData with live := live }
        film)

theorem Arranged.clientRange_eq (h : Arranged s types below block above top) :
    s.clientRange types = block := by
  have hNone : ∀ l : List Entry, (∀ e ∈ l, typeOf types e ≠ .kClient) →
      l.filter (fun e => typeOf types e = .kClient) = [] := by
    intro l hl
    rw [List.filter_eq_nil_iff]
    intro e he hType
    exact hl e he (of_decide_eq_true hType)
  have hBlock : block.filter (fun e => typeOf types e = .kClient) = block :=
    List.filter_eq_self.mpr fun e he => decide_eq_true (h.client e he)
  unfold clientRange
  rw [← h.scene_eq, List.filter_append, List.filter_append, List.filter_append, hBlock,
    hNone below fun e he => by rw [h.device e (by simp [he])]; decide,
    hNone above fun e he => by rw [h.device e (by simp [he])]; decide,
    hNone top fun e he => by rw [h.cursor e he]; decide,
    List.nil_append, List.append_nil, List.append_nil]

/-- Layers the client does not draw are shown by their bindings. -/
theorem shownAs_own {l : List Entry} {films : List (Film Point C)}
    (hOwn : ∀ e ∈ l, typeOf types e ≠ .kClient) (client : Entry → Film Point C)
    (hFilms : List.Forall₂ (fun e film => ∃ live,
      FilmOf panel args r plan.toLayerToPlaneJoiningPlan { e.layer.layerData with live := live }
        film) l films) :
    List.Forall₂ (ShownAs panel args r types plan client) l films := by
  induction hFilms with
  | nil => exact List.Forall₂.nil
  | @cons e film l films hFilm _ ih =>
    exact List.Forall₂.cons (.inr ⟨hOwn e List.mem_cons_self, hFilm⟩)
      (ih fun e he => hOwn e (List.mem_cons_of_mem _ he))

/-- A cursor by itself is shown by its binding. -/
theorem shownAs_cursor (h : Arranged s types below block above top)
    (client : Entry → Film Point C) {films : List (Film Point C)}
    (hFilms : List.Forall₂ (FilmOf panel args r plan.toLayerToPlaneJoiningPlan)
      (top.head?.map fun e => e.layer.layerData).toList films) :
    List.Forall₂ (ShownAs panel args r types plan client) top films := by
  refine shownAs_own panel args r (fun e he => by rw [h.cursor e he]; decide) client ?_
  have hOne := h.one
  match top with
  | [] => exact List.forall₂_nil_left_iff.mpr (List.forall₂_nil_left_iff.mp hFilms)
  | [e] =>
    obtain ⟨film, rest, hFilm, hNil, hIs⟩ := List.forall₂_cons_left_iff.mp hFilms
    rw [hIs, List.forall₂_nil_left_iff.mp hNil]
    exact List.Forall₂.cons ⟨e.layer.layerData.live, hFilm⟩ List.Forall₂.nil
  | _ :: _ :: _ => simp at hOne

/-- A target the client has drawn is laid as its layers are, flattened in it. -/
theorem Drew.laid_eq [Monoid C] {films : List (Film Point C)} {target : Film Point C} {q : Point}
    (h : Drew films target) : target.laid q = (Film.flattened target.lands films).laid q := by
  funext below
  unfold Film.laid Film.flattened
  simp only
  split
  · rename_i hLands
    rw [(h q).1 hLands]
  · rfl

/-- **A joining of an arranged composition shows its scene**, the client's layers laid
one by one in place of its target. -/
theorem scene_of_joined [Monoid C] (h : Arranged s types below block above top)
    (hJoined : Joined u (below.map Entry.data ++ (block.head?.toList.map fun _ => target) ++
        above.map Entry.data) (top.head?.map fun e => e.layer.layerData)
      plan.toLayerToPlaneJoiningPlan)
    (hIndex : plan.clientIndex = block.head?.map fun _ => plan.rankOf below.length)
    (client : Entry → Film Point C)
    (hDrew : ∀ rank film, plan.clientIndex = some rank →
      (bindingFilms panel args r 0 plan.plan)[rank]? = some film →
        Drew (block.map client) film) (ground : C) (pt : Point) :
    ∃ films, List.Forall₂ (ShownAs panel args r types plan client) s.scene films ∧
      compose ((layerFilms panel args r plan.toLayerToPlaneJoiningPlan
        (below.map Entry.data ++ (block.head?.toList.map fun _ => target) ++
          above.map Entry.data).length ++
        (bindingFilms panel args r 0 plan.plan).drop
          (below.map Entry.data ++ (block.head?.toList.map fun _ => target) ++
            above.map Entry.data).length).map Film.laid) ground pt =
        compose (films.map Film.laid) ground pt := by
  have hLayers := layerFilms_match panel args r hJoined
  have hCursor := cursorFilms_match panel args r hJoined
  have hAt := @layerFilms_at C panel args r _ _ _ _ hJoined below.length
  set composition := below.map Entry.data ++ (block.head?.toList.map fun _ => target) ++
    above.map Entry.data with hComposition
  set shownLayers := layerFilms panel args r plan.toLayerToPlaneJoiningPlan composition.length
  set shownCursor := (bindingFilms panel args r 0 plan.plan).drop composition.length
  obtain ⟨first, filmsAbove, hSplit, hFirst, hAbove⟩ := forall₂_split hLayers
  obtain ⟨filmsBelow, filmsTarget, rfl, hBelow, hTarget⟩ := forall₂_split hFirst
  rw [List.forall₂_map_left_iff] at hBelow hAbove
  -- what each part of the scene is shown as
  have hOwn : ∀ (l : List Entry) (films : List (Film Point C)), (∀ e ∈ l, e ∈ below ++ above) →
      List.Forall₂ (fun e film =>
        FilmOf panel args r plan.toLayerToPlaneJoiningPlan e.data film) l films →
      List.Forall₂ (ShownAs panel args r types plan client) l films :=
    fun l films hIn hFilms =>
      shownAs_own panel args r (fun e he => by rw [h.device e (hIn e he)]; decide) client
        (hFilms.imp fun e _ hFilm => ⟨e.layer.live, hFilm⟩)
  have hClient : List.Forall₂ (ShownAs panel args r types plan client) block
      (block.map client) := by
    rw [List.forall₂_map_right_iff, List.forall₂_same]
    exact fun e he => .inl ⟨h.client e he, rfl⟩
  have hTop := shownAs_cursor panel args r h client hCursor
  refine ⟨filmsBelow ++ block.map client ++ filmsAbove ++ shownCursor, ?_, ?_⟩
  · rw [← h.scene_eq]
    refine List.rel_append (List.rel_append (List.rel_append ?_ hClient) ?_) hTop
    · exact hOwn below filmsBelow (fun e he => by simp [he]) hBelow
    · exact hOwn above filmsAbove (fun e he => by simp [he]) hAbove
  rw [hSplit]
  cases hBlock : block with
  | nil =>
    have hNoTarget : filmsTarget = [] := by
      rw [hBlock] at hTarget
      exact List.forall₂_nil_left_iff.mp hTarget
    rw [hNoTarget]
    rfl
  | cons lowest rest =>
    obtain ⟨film, hOnly⟩ : ∃ film, filmsTarget = [film] := by
      rw [hBlock] at hTarget
      obtain ⟨film, rest, -, hNil, hIs⟩ := List.forall₂_cons_left_iff.mp hTarget
      exact ⟨film, by rw [hIs, List.forall₂_nil_left_iff.mp hNil]⟩
    have hLt : below.length < composition.length := by
      rw [hComposition, hBlock]
      simp
    have hRank : (bindingFilms panel args r 0 plan.plan)[plan.rankOf below.length]? =
        some film := by
      rw [← (hAt hLt).2, hSplit, hOnly, List.append_assoc,
        List.getElem?_append_right (by rw [hBelow.length_eq]), hBelow.length_eq, Nat.sub_self]
      rfl
    have hDrawn := hDrew _ film (by rw [hIndex, hBlock]; rfl) hRank
    rw [← hBlock, hOnly]
    -- the target's film is the client's films flattened
    have hFlat := compose_flattened film.lands filmsBelow (filmsAbove ++ shownCursor) ground
      (p := pt) (hDrawn pt).2
    have hSame : film.laid pt = (Film.flattened film.lands (block.map client)).laid pt :=
      hDrawn.laid_eq
    rw [← List.append_assoc, ← List.append_assoc] at hFlat
    rw [← hFlat]
    simp only [compose_over, List.map_singleton, compose_cons, compose_nil, hSame]

end Shown

end HwcDisplay

-- ---------------------------------------------------------------------------
-- A plan kept for its frame
-- ---------------------------------------------------------------------------

namespace LayerToPlaneJoiningPlan

/-- A joining is one whatever its planes take. -/
theorem Joined.anyLayer {P : Type} {u : UsablePlanes P} {composition : List LayerData}
    {cursorLayer : Option LayerData} {plan : LayerToPlaneJoiningPlan P}
    (h : Joined u composition cursorLayer plan) : Joined u.anyLayer composition cursorLayer plan :=
  ⟨h.length, h.placed, h.ranks, h.ranksApart, h.cursorLast, h.overlaps, h.planesOnce,
    h.planesUsable, fun _ _ => rfl, h.oneBlock, h.oneTurn, h.zInOrder⟩

end LayerToPlaneJoiningPlan

namespace TegraAtomicRequest

/-- The parts of a plan are those of its planes. -/
theorem Parted.of_planes {plan plan' before block after tail : List Joining}
    (h : Parted plan before block after tail)
    (hPlanes : plan'.map (·.plane) = plan.map (·.plane)) :
    ∃ before' block' after' tail', Parted plan' before' block' after' tail' := by
  rw [h.split, List.map_append, List.map_append, List.map_append] at hPlanes
  obtain ⟨first, tail', hSplit, hFirst, hTail⟩ := List.map_eq_append_iff.mp hPlanes
  obtain ⟨second, after', rfl, hSecond, hAfter⟩ := List.map_eq_append_iff.mp hFirst
  obtain ⟨before', block', rfl, hBefore, hBlock⟩ := List.map_eq_append_iff.mp hSecond
  have hSame : ∀ {l l' : List Joining} {q : TegraPlane → Prop},
      l'.map (·.plane) = l.map (·.plane) → (∀ j ∈ l, q j.plane) → ∀ j ∈ l', q j.plane := by
    intro l l' q hMap hl j hj
    have hIn : j.plane ∈ l.map (·.plane) := hMap ▸ List.mem_map_of_mem hj
    obtain ⟨j₀, hj₀, hPlane⟩ := List.mem_map.mp hIn
    exact hPlane ▸ hl j₀ hj₀
  refine ⟨before', block', after', tail', hSplit, ?_, ?_, ?_, ?_⟩
  · exact hSame (q := fun plane => plane.merging = false ∧
      plane.index ≠ TegraDisplayPipeline.kPlaneId) hBefore h.ordinaryBefore
  · exact hSame (q := fun plane => plane.merging = true ∧
      plane.index ≠ TegraDisplayPipeline.kPlaneId) hBlock h.members
  · exact hSame (q := fun plane => plane.merging = false ∧
      plane.index ≠ TegraDisplayPipeline.kPlaneId) hAfter h.ordinaryAfter
  · obtain rfl | ⟨j, rfl, hOrdinary, hIndex⟩ := h.unit
    · exact .inl (List.map_eq_nil_iff.mp hTail)
    · obtain ⟨j', rfl, hPlane⟩ := List.map_eq_singleton_iff.mp hTail
      exact .inr ⟨j', rfl, hPlane ▸ hOrdinary, hPlane ▸ hIndex⟩

end TegraAtomicRequest

namespace HwcDisplay

open TegraAtomicRequest LayerToPlaneJoiningPlan

variable {s s' : HwcDisplay} {types : List (ILayerId × CompositionType)}

/-- A layer as a plan sees it. -/
def seenAs (e : Entry) : ILayerId × Bool × Nat × Bool × LayerData :=
  (e.id, e.layer.hidden, e.zOrder, e.layer.live, e.layer.layerData)

/-- What a plan may be kept through: the layers are as they were, and the client's
target is turned as it was and lies over no layer that it did not. -/
structure Keeps (s s' : HwcDisplay) : Prop where
  layers : s'.layers.map seenAs = s.layers.map seenAs
  turn : s'.clientLayer.layerData.pi.transform = s.clientLayer.layerData.pi.transform
  overlies : ∀ e ∈ s.shownLayers,
    MergeGroup.overlaps (groupMember s'.clientLayer.layerData) (groupMember e.data) = true →
      MergeGroup.overlaps (groupMember s.clientLayer.layerData) (groupMember e.data) = true

theorem Keeps.alike (h : s.Keeps s') : s.Alike s' := by
  have hSeen := congrArg (List.map fun x : ILayerId × Bool × Nat × Bool × LayerData =>
    (x.1, x.2.1, x.2.2.1)) h.layers
  rw [List.map_map, List.map_map] at hSeen
  exact hSeen

/-- A layer kept has its data. -/
theorem Keeps.data_eq (h : s.Keeps s') (hNames : (s.layers.map Entry.id).Nodup) {e : Entry}
    (he : e ∈ s.layers) : (s'.current e).layer.layerData = e.layer.layerData ∧
      (s'.current e).data = e.data := by
  obtain ⟨i, hi⟩ := List.mem_iff_getElem?.mp he
  have hHere := (h.alike.at hNames hi).1
  have hAt := congrArg (·[i]?) h.layers
  simp only [List.getElem?_map, hi, hHere, Option.map_some] at hAt
  have hSeen := Option.some.inj hAt
  simp only [seenAs, Prod.mk.injEq] at hSeen
  obtain ⟨-, -, -, hLive, hData⟩ := hSeen
  refine ⟨hData, ?_⟩
  show { (s'.current e).layer.layerData with live := (s'.current e).layer.live } = _
  rw [hData, hLive]
  rfl

/-- Layers kept have their data. -/
theorem Keeps.data_map (h : s.Keeps s') (hNames : (s.layers.map Entry.id).Nodup) {l : List Entry}
    (hl : ∀ e ∈ l, e ∈ s.layers) : (l.map s'.current).map Entry.data = l.map Entry.data := by
  rw [List.map_map]
  exact List.map_congr_left fun e he => (h.data_eq hNames (hl e he)).2

/-- A cursor kept has its data. -/
theorem Keeps.cursor_eq (h : s.Keeps s') (hNames : (s.layers.map Entry.id).Nodup)
    {top : List Entry} (hTop : ∀ e ∈ top, e ∈ s.layers) :
    ((top.map s'.current).head?.map fun e => e.layer.layerData) =
      top.head?.map fun e => e.layer.layerData := by
  rw [List.head?_map, Option.map_map]
  cases top with
  | nil => rfl
  | cons e rest => exact congrArg some (h.data_eq hNames (hTop e List.mem_cons_self)).1

/-- What is in a composition beside its target is a layer that is shown. -/
theorem Arranged.shown_of_other {below block above top : List Entry}
    (h : Arranged s types below block above top) {target a : LayerData} {i : Nat}
    (hOther : i ≠ below.length)
    (hi : (below.map Entry.data ++ [target] ++ above.map Entry.data)[i]? = some a) :
    ∃ e ∈ s.shownLayers, e.data = a := by
  obtain ⟨e, he, rfl⟩ : ∃ e ∈ below ++ above, e.data = a := by
    rw [← List.mem_map, List.map_append, List.mem_append]
    rw [List.append_assoc, List.getElem?_append] at hi
    split at hi
    · exact .inl (List.mem_of_getElem? hi)
    · rename_i hNot
      rw [List.length_map] at hi hNot
      obtain ⟨n, hn⟩ : ∃ n, i - below.length = n + 1 := ⟨i - below.length - 1, by omega⟩
      rw [hn] at hi
      exact .inr (List.mem_of_getElem? hi)
  refine ⟨e, h.shown.mem_iff.mp ?_, rfl⟩
  simp only [List.mem_append] at he ⊢
  tauto

section Plan

variable {p : TegraDisplayPipeline} {u : UsablePlanes TegraPlane}
  {below block above top : List Entry} {plan : ClientJoiningPlan TegraPlane}

/-- A plan bound to the pipeline: a joining of an arranged composition whose target is
this, in parts, with no layer but the cursor's in the unit, and its client index the
target's rank. -/
structure Bound (u : UsablePlanes TegraPlane) (below block above top : List Entry)
    (target : LayerData) (plan : ClientJoiningPlan TegraPlane) : Prop where
  joined : Joined u.anyLayer (below.map Entry.data ++ (block.head?.toList.map fun _ => target) ++
    above.map Entry.data) (top.head?.map fun e => e.layer.layerData)
      plan.toLayerToPlaneJoiningPlan
  ordinary : ∀ j ∈ plan.plan.take (below.map Entry.data ++
    (block.head?.toList.map fun _ => target) ++ above.map Entry.data).length,
      j.plane.index ≠ TegraDisplayPipeline.kPlaneId
  parted : ∃ before block after tail, Parted plan.plan before block after tail
  clientAt : plan.clientIndex = block.head?.map fun _ => plan.rankOf below.length

/-- A plan as it is made is bound. -/
theorem bound_of_created (h : Arranged s types below block above top)
    (hNames : (s.layers.map Entry.id).Nodup) (hPlanes : (u.avail, u.cursor) = p.getUsablePlanes)
    (hMerging : ∀ plane, u.isMerging plane = plane.merging) {shouldFlatten : Bool}
    (hCreated : s.createLayerToPlaneJoiningPlan u types shouldFlatten = some plan) :
    Bound u below block above top (s.target block) plan := by
  obtain ⟨⟨preferMerge, hJoined⟩, hClient⟩ := joined_of_arranged h hNames.of_map hCreated
  obtain ⟨hPlan, hOrdinary, hParted⟩ := parted_of_created hJoined hPlanes hMerging
  exact ⟨hPlan.anyLayer, hOrdinary, hParted, hClient⟩

/-- The target of a composition brought up to date. -/
theorem set_target (old target : LayerData) (below above : List LayerData) :
    (below ++ [old] ++ above).set below.length target = below ++ [target] ++ above := by
  rw [List.append_assoc, List.set_append_right _ _ (Nat.le_refl _), Nat.sub_self,
    List.append_assoc]
  rfl

/-- **A plan kept for its frame is bound**, to the layers and the target of the frame. -/
theorem bound_of_kept (h : Arranged s types below block above top)
    (hNames : (s.layers.map Entry.id).Nodup) (hKeeps : s.Keeps s') {target : LayerData}
    (hTarget : target = s.target block)
    (hBound : Bound u below block above top target plan) :
    Bound u (below.map s'.current) (block.map s'.current) (above.map s'.current)
      (top.map s'.current) s'.clientLayer.layerData
      (plan.updateClientTargetIfNeeded s'.clientLayer) := by
  have hBelow : (below.map s'.current).map Entry.data = below.map Entry.data :=
    hKeeps.data_map hNames fun e he => h.mem_layers (by simp [he])
  have hAbove : (above.map s'.current).map Entry.data = above.map Entry.data :=
    hKeeps.data_map hNames fun e he => h.mem_layers (by simp [he])
  have hCursor : ((top.map s'.current).head?.map fun e => e.layer.layerData) =
      top.head?.map fun e => e.layer.layerData :=
    hKeeps.cursor_eq hNames fun e he => h.mem_layers (by simp [he])
  cases hBlock : block with
  | nil =>
    have hNone : plan.clientIndex = none := by
      rw [hBound.clientAt, hBlock]
      rfl
    have hSame : plan.updateClientTargetIfNeeded s'.clientLayer = plan := by
      unfold ClientJoiningPlan.updateClientTargetIfNeeded
      rw [hNone]
    rw [hBlock] at hBound
    rw [hSame]
    refine ⟨?_, ?_, hBound.parted, ?_⟩
    · rw [hBelow, hAbove, hCursor]
      exact hBound.joined
    · rw [hBelow, hAbove]
      exact hBound.ordinary
    · rw [hNone]
      rfl
  | cons first rest =>
    rw [hBlock] at hBound
    have hJoined : Joined u.anyLayer (below.map Entry.data ++ [target] ++ above.map Entry.data)
      (top.head?.map fun e => e.layer.layerData) plan.toLayerToPlaneJoiningPlan := hBound.joined
    have hAt : (below.map Entry.data ++ [target] ++ above.map Entry.data)[below.length]? =
        some target := by
      rw [List.append_assoc, List.getElem?_append_right (by rw [List.length_map]),
        List.length_map, Nat.sub_self]
      rfl
    have hLt : below.length <
        (below.map Entry.data ++ [target] ++ above.map Entry.data).length := by
      simp
    have hRank : plan.rankOf below.length < plan.plan.length := by
      rw [hJoined.length]
      exact Nat.lt_add_right _ (hJoined.ranks _ hLt)
    have hUpdated := ClientJoiningPlan.updateClientTargetIfNeeded_eq
      (by rw [hBound.clientAt]; rfl) hRank s'.clientLayer
    have hWithin : ∀ i a, i ≠ below.length →
        (below.map Entry.data ++ [target] ++ above.map Entry.data)[i]? = some a →
          MergeGroup.overlaps (groupMember s'.clientLayer.layerData) (groupMember a) = true →
            MergeGroup.overlaps (groupMember target) (groupMember a) = true := by
      intro i a hOther hi hOver
      obtain ⟨e, hShown, rfl⟩ := h.shown_of_other hOther hi
      rw [hTarget]
      exact hKeeps.overlies e hShown hOver
    have hTurn : s'.clientLayer.layerData.pi.transform = target.pi.transform := by
      rw [hTarget]
      exact hKeeps.turn
    have hNew := joined_relayered hJoined hAt hTurn hWithin
    have hSet := set_target target s'.clientLayer.layerData (below.map Entry.data)
      (above.map Entry.data)
    rw [List.length_map] at hSet
    rw [hSet] at hNew
    obtain ⟨before, group, after, tail, hParted⟩ := hBound.parted
    have hPlanes := planes_relayered plan.toLayerToPlaneJoiningPlan (plan.rankOf below.length)
      s'.clientLayer.layerData
    rw [hUpdated]
    refine ⟨?_, ?_, hParted.of_planes hPlanes, ?_⟩
    · rw [hBelow, hAbove, hCursor]
      exact hNew
    · rw [hBelow, hAbove]
      intro j hj
      have hIn : j.plane ∈ (plan.plan.take (below.map Entry.data ++
          ([first].map fun _ => target) ++ above.map Entry.data).length).map (·.plane) := by
        rw [List.map_take, ← hPlanes, ← List.map_take]
        refine List.mem_map_of_mem ?_
        simpa using hj
      obtain ⟨j₀, hj₀, hPlane⟩ := List.mem_map.mp hIn
      rw [← hPlane]
      exact hBound.ordinary j₀ hj₀
    · rw [List.length_map]
      rfl

end Plan

/-- Bindings whose ordinary windows are different. -/
theorem oneEach_of_pairwise {plan : List Joining}
    (h : plan.Pairwise fun a b => Ordinary a → Ordinary b → a.plane.index ≠ b.plane.index) :
    OneEach plan := by
  intro i k a b hik ha hb
  obtain ⟨hi, rfl⟩ := List.getElem?_eq_some_iff.mp ha
  obtain ⟨hk, rfl⟩ := List.getElem?_eq_some_iff.mp hb
  exact List.pairwise_iff_getElem.mp h i k hi hk hik

/-- A picture, two strips of the client's over one another, a strip below them on the
panel and a pointer; a layer that is hidden lies between the client's. -/
def strippedScene : HwcDisplay where
  layers := [
    { id := 1, layer := { sfType := .kDevice, hasBufferSet := true, layerData := rowsAt 0 } },
    { id := 2, layer := { sfType := .kClient, zOrder := 1, layerData := rowsAt 100 } },
    { id := 3, layer := { sfType := .kDevice, zOrder := 2, hidden := true } },
    { id := 4, layer := { sfType := .kClient, zOrder := 3, layerData := rowsAt 100 } },
    { id := 5, layer :=
      { sfType := .kDevice, zOrder := 4, hasBufferSet := true, layerData := rowsAt 200 } },
    { id := 6, layer :=
      { sfType := .kCursor, zOrder := 5, hasBufferSet := true, layerData := pointer } }]
  clientLayer := { hasBufferSet := true, layerData := rowsAt 100 }

/-- A planner with a plane for the cursor and three more, one of which merges. -/
def threePlanes : ICompositorDisplay where
  numAvailablePlanes := 3
  numDirectPlanes := 2
  cursorPlane := some fun _ => true

/-- What it plans of the scene. -/
def strippedPlan : GenericCompositionPlanner.ValidationResult :=
  GenericCompositionPlanner.validateDisplay threePlanes strippedScene.getOrderLayersByZPos 1 none

/-- The plan it was tried with. -/
def strippedTried : ClientJoiningPlan TegraPlane :=
  (strippedScene.createLayerToPlaneJoiningPlan twoWindowPlanes
    strippedPlan.composition.compositionTypes false).getD {}

/-- The display at the frame: the client has handed over another buffer. -/
def strippedFrame : HwcDisplay :=
  { strippedScene with
    clientLayer := { hasBufferSet := true, layerData := { rowsAt 100 with fb := some 11 } } }

/-- The plan of the frame. -/
def strippedNow : ClientJoiningPlan TegraPlane :=
  strippedTried.updateClientTargetIfNeeded strippedFrame.clientLayer

/-- Its request. -/
def strippedRequest : TegraAtomicRequest :=
  (getAtomicModeReqForArgs (twoWindows true) {} (some strippedNow.plan)).getD { windows := [] }

/-- The types the frame is staged with. -/
def strippedTypes : List (ILayerId × CompositionType) :=
  (strippedScene.staged { hasGpu := false } {} strippedPlan.composition).compositionTypes

/-- Its group: the client's target and the strip below it, in a slot of the panel's size. -/
def strippedGroup : VicSession.Group Vk.Pixel where
  merge := strippedRequest.merge
  target := ⟨800, 1280, fun _ => 1⟩
  layers_ne := by decide +kernel
  layers_le := by decide +kernel
  unturned := by decide +kernel
  width_fits := by decide +kernel
  height_fits := by decide +kernel
  signed := by
    unfold SignedSize
    decide +kernel
  placed := by
    unfold LiesIn
    decide +kernel

/-- Green over a rectangle. -/
def greenOver (place : IRect) : Film Point Vk.Pixel where
  lands := fun p => decide (inside place p)
  color := fun _ => ⟨0, 1, 0, 1⟩

/-- The client draws its strips green. -/
def drawnGreen (e : Entry) : Film Point Vk.Pixel :=
  greenOver (e.layer.layerData.pi.displayFrame.getD ⟨0, 0, 0, 0⟩)

/-- The client's target as the engine reads it for the group. -/
theorem film_stripped {member : Nat} {j : Joining}
    (hj : j = ⟨{ rowsAt 100 with fb := some 11 }, ⟨1, 0, true⟩, 1⟩) :
    bindingFilm flatPanel {} strippedRequest member j = greenOver ⟨0, 100, 800, 164⟩ := by
  subst hj
  have hOrigin : (strippedRequest.merge.originX, strippedRequest.merge.originY) = (0, 100) := by
    decide +kernel
  obtain ⟨hX, hY⟩ := Prod.mk.inj hOrigin
  show onPanel strippedRequest
    (memberFilm flatPanel member { mergeLayerFrom _ with display := _ }) = _
  have hDisplay : moved (mergeLayerFrom { rowsAt 100 with fb := some 11 }).display
      (-strippedRequest.merge.originX) (-strippedRequest.merge.originY) = ⟨0, 0, 800, 64⟩ := by
    rw [hX, hY]
    decide +kernel
  rw [hDisplay]
  unfold onPanel memberFilm Film.seen greenOver
  rw [hX, hY, Film.mk.injEq]
  refine ⟨funext fun p => ?_, funext fun p => ?_⟩
  · -- the group's frame begins where its first member does
    unfold inside
    refine decide_eq_decide.mpr ?_
    show 0 ≤ p.1 - 0 ∧ p.1 - 0 < 800 ∧ 0 ≤ p.2 - 100 ∧ p.2 - 100 < 64 ↔
      0 ≤ p.1 ∧ p.1 < 800 ∧ 100 ≤ p.2 ∧ p.2 < 164
    omega
  · show Vk.Pixel.scale ⟨0, 1, 0, 1⟩ (mergeLayerFrom { rowsAt 100 with fb := some 11 }).alpha = _
    have hAlpha : (mergeLayerFrom { rowsAt 100 with fb := some 11 }).alpha = 1 := by
      decide +kernel
    rw [hAlpha]
    simp [Vk.Pixel.scale]

/-- The target shows what was drawn into it. -/
theorem drew_stripped : ∀ rank film, strippedNow.clientIndex = some rank →
    (bindingFilms flatPanel {} strippedRequest 0 strippedNow.plan)[rank]? = some film →
      Drew ((strippedFrame.clientRange strippedTypes).map drawnGreen) film := by
  intro rank film hRank hFilm
  have hAt : strippedNow.clientIndex = some 1 := by decide +kernel
  obtain rfl := Option.some.inj (hAt.symm.trans hRank)
  have hj : strippedNow.plan[1]? = some ⟨{ rowsAt 100 with fb := some 11 }, ⟨1, 0, true⟩, 1⟩ := by
    decide +kernel
  obtain ⟨member, hHere⟩ := getElem?_bindingFilms flatPanel {} strippedRequest 0 hj
  have hTarget : film = greenOver ⟨0, 100, 800, 164⟩ := by
    rw [← film_stripped rfl]
    exact (Option.some.inj (hHere.symm.trans hFilm)).symm
  have hRange : (strippedFrame.clientRange strippedTypes).map
      (fun e => e.layer.layerData.pi.displayFrame) =
        [some ⟨0, 100, 800, 164⟩, some ⟨0, 100, 800, 164⟩] := by
    decide +kernel
  have hFilms : (strippedFrame.clientRange strippedTypes).map drawnGreen = [film, film] := by
    have hEach := congrArg
      (List.map fun frame : Option IRect => greenOver (frame.getD ⟨0, 0, 0, 0⟩)) hRange
    rw [List.map_map] at hEach
    rw [hTarget]
    exact hEach
  have hGreen : ∀ q, film.color q = (⟨0, 1, 0, 1⟩ : Vk.Pixel) := by
    intro q
    rw [hTarget]
    rfl
  have hOver : (⟨0, 1, 0, 1⟩ : Vk.Pixel) * ⟨0, 1, 0, 1⟩ = ⟨0, 1, 0, 1⟩ := by
    show laidOn _ _ = _
    simp [laidOn]
  rw [hFilms]
  refine fun q => ⟨fun hLands => ?_, fun f hf hLands => ?_⟩
  · rw [List.map_cons, List.map_singleton, compose_cons, compose_cons, compose_nil,
      Film.laid_of_lands hLands, Film.laid_of_lands hLands, mul_one, hGreen, hOver]
  · simp only [List.mem_cons, List.not_mem_nil, or_false, or_self] at hf
    rw [← hf]
    exact hLands

end HwcDisplay

end TegraHwc
