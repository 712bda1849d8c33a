import TegraHwc.Compositor.LayerToPlaneJoiningPlan
import TegraHwc.Hwc.HwcDisplay
import TegraHwc.Lib.OrderedMap

/-!
# TegraHwc — from the types of a composition to its plan

`CreateLayerToPlaneJoiningPlan`, `UpdateClientTargetIfNeeded` and their callers
in `hwc/HwcDisplay.cpp`: the layers typed for the hardware are put in the order
of their heights, the client's target among them at the height of the lowest
layer it holds, the cursor is set aside, and what is left is joined to planes.
The plan a composition was tried with is kept for its frame, and its client's
target brought up to date; where none was kept the joining is made anew.

The map the code orders the layers with drops a layer whose height is taken.
`Arranged` says what a composition is of a scene where no two heights are the
same: layers below the client's, the client's, layers above, and the cursor.

## Results

* `foldl_gather` — what is gathered of the layers, in whatever order they come.
* `joined_of_arranged` — the plan is of the layers below, the target and the
  layers above, and its client index is the target's rank.
* `joined_relayered` — a plan brought up to date is a joining of the composition
  brought up to date.
-/

namespace TegraHwc

open OrderedMap

/-- `LayerToPlaneJoiningPlan`, with its `client_index`. -/
structure ClientJoiningPlan (P : Type) extends LayerToPlaneJoiningPlan P where
  clientIndex : Option Nat := none
  deriving DecidableEq, Repr

/-- What is gathered of the layers. In the map of heights the client's target is
none of the display's layers. -/
structure Gathered where
  clientZOrder : Option Nat := none
  clientRangeLive : Bool := false
  zMap : List (Nat × Option Entry) := []
  cursorLayer : Option LayerData := none

/-- The map of heights, the client's target seated in it. -/
def Gathered.seated (g : Gathered) : List (Nat × Option Entry) :=
  match g.clientZOrder with
  | none => g.zMap
  | some z => emplace z none g.zMap

/-- `GetZOrder`. -/
def Entry.zOrder (e : Entry) : Nat := e.layer.zOrder.toNat

/-- A layer's data as a composition carries it. -/
def Entry.data (e : Entry) : LayerData := { e.layer.layerData with live := e.layer.live }

/-- The client's data, as the display hands it over where the plan changed under
it. -/
def ClientJoiningPlan.updateClientTargetIfNeeded {P : Type} (plan : ClientJoiningPlan P)
    (clientLayer : HwcLayer) : ClientJoiningPlan P :=
  match plan.clientIndex with
  | none => plan
  | some clientAt =>
    if clientAt < plan.plan.length then
      { plan with
        plan := plan.plan.modify clientAt fun j => { j with layer := clientLayer.layerData } }
    else plan

namespace HwcDisplay

variable {P : Type}

/-- The type a composition gives a layer. -/
def typeOf (types : List (ILayerId × CompositionType)) (e : Entry) : CompositionType :=
  ((types.find? fun t => t.1 == e.id).map (·.2)).getD .kInvalid

/-- The walk over the layers, at one of them. -/
def gather (types : List (ILayerId × CompositionType)) (g : Gathered) (e : Entry) : Gathered :=
  match typeOf types e with
  | .kDevice => { g with zMap := emplace e.zOrder (some e) g.zMap }
  | .kCursor =>
    match g.cursorLayer with
    | none => { g with cursorLayer := some e.layer.layerData }
    | some _ => { g with zMap := emplace e.zOrder (some e) g.zMap }
  | .kClient =>
    { g with
      clientZOrder := some (min (g.clientZOrder.getD (2 ^ 32 - 1)) e.zOrder)
      clientRangeLive := g.clientRangeLive || e.layer.live }
  -- an occluded layer is not seen, and a solid colour is no layer's
  | .kDeviceOccluded => g
  | .kSolidColor => g
  | .kInvalid => g

variable (s : HwcDisplay)

/-- A layer of the map. -/
def layerAt : Option Entry → HwcLayer
  | none => s.clientLayer
  | some e => e.layer

/-- What the composition carries of a layer of the map; the target is live where
its range is. -/
def dataAt (clientRangeLive : Bool) (seat : Option Entry) : LayerData :=
  { (s.layerAt seat).layerData with
    live := (s.layerAt seat).live || seat.isNone && clientRangeLive }

/-- `CreateLayerToPlaneJoiningPlan`. -/
def createLayerToPlaneJoiningPlan (u : UsablePlanes P)
    (types : List (ILayerId × CompositionType)) (shouldFlatten : Bool) :
    Option (ClientJoiningPlan P) :=
  let g := s.layers.foldl (gather types) {}
  let zMap := g.seated
  if g.clientZOrder.isSome && !s.clientLayer.isLayerUsableAsDevice then none
  else if zMap.any fun entry => !(s.layerAt entry.2).isLayerUsableAsDevice then none
  else
    let composition := zMap.map fun entry => s.dataAt g.clientRangeLive entry.2
    let clientPlanIndex := zMap.findIdx? fun entry => entry.2.isNone
    let preferMerge := shouldFlatten && decide (1 < composition.length)
    (LayerToPlaneJoiningPlan.createLayerToPlaneJoiningPlan u composition g.cursorLayer
      preferMerge).map fun joined =>
        { joined with clientIndex := clientPlanIndex.map joined.rankOf }

/-- The plan of a frame, of `PrepareCompositionForCommit` and
`CreateFrameUpdateCommit`: the one kept with its composition, or one made now. -/
def planOfFrame (u : UsablePlanes P) (types : List (ILayerId × CompositionType))
    (kept : Option (ClientJoiningPlan P)) (shouldFlatten : Bool) : Option (ClientJoiningPlan P) :=
  match kept with
  | some plan => some (plan.updateClientTargetIfNeeded s.clientLayer)
  | none => s.createLayerToPlaneJoiningPlan u types shouldFlatten

-- ---------------------------------------------------------------------------
-- What is gathered
-- ---------------------------------------------------------------------------

/-- What is gathered of some of the layers: those for the hardware by their
heights, the first of the cursors, and of the client's the lowest height and
whether any draws. -/
structure GatheredOf (types : List (ILayerId × CompositionType)) (done : List Entry)
    (g : Gathered) : Prop where
  ascending : Ascending g.zMap
  members : ∀ x, x ∈ g.zMap ↔ ∃ e ∈ done, typeOf types e = .kDevice ∧ x = (e.zOrder, some e)
  cursor : ∀ layer, g.cursorLayer = some layer ↔
    ∃ e ∈ done, typeOf types e = .kCursor ∧ layer = e.layer.layerData
  noClient : g.clientZOrder = none → ∀ e ∈ done, typeOf types e ≠ .kClient
  lowest : ∀ z, g.clientZOrder = some z →
    (∃ e ∈ done, typeOf types e = .kClient ∧ e.zOrder = z) ∧
      ∀ e ∈ done, typeOf types e = .kClient → z ≤ e.zOrder
  live : g.clientRangeLive = true ↔
    ∃ e ∈ done, typeOf types e = .kClient ∧ e.layer.live = true

variable {s} {types : List (ILayerId × CompositionType)} {done : List Entry} {g : Gathered}

/-- A composition that leaves no two layers one height and has one cursor at
most. -/
structure Apart (types : List (ILayerId × CompositionType)) (all : List Entry) : Prop where
  once : all.Nodup
  heights : ∀ a ∈ all, ∀ b ∈ all, typeOf types a = .kDevice → typeOf types b = .kDevice →
    a.zOrder = b.zOrder → a = b
  cursors : ∀ a ∈ all, ∀ b ∈ all, typeOf types a = .kCursor → typeOf types b = .kCursor → a = b

/-- Nothing is gathered of no layers. -/
theorem gatheredOf_nil : GatheredOf types [] {} where
  ascending := List.Pairwise.nil
  members := fun x => by simp
  cursor := fun layer => by simp
  noClient := fun _ e he => absurd he List.not_mem_nil
  lowest := fun z h => nomatch h
  live := by simp

-- what holds of the layers of a type does so with a layer of another

theorem exists_typed_concat {e : Entry} {type : CompositionType} {q : Entry → Prop}
    (hOther : typeOf types e ≠ type) :
    (∃ a ∈ done ++ [e], typeOf types a = type ∧ q a) ↔
      ∃ a ∈ done, typeOf types a = type ∧ q a := by
  constructor
  · rintro ⟨a, ha, hType, hq⟩
    obtain ha | ha := List.mem_append.mp ha
    · exact ⟨a, ha, hType, hq⟩
    · rw [List.mem_singleton.mp ha] at hType
      exact absurd hType hOther
  · rintro ⟨a, ha, hType, hq⟩
    exact ⟨a, List.mem_append_left _ ha, hType, hq⟩

theorem forall_typed_concat {e : Entry} {type : CompositionType} {q : Entry → Prop}
    (hOther : typeOf types e ≠ type) (hDone : ∀ a ∈ done, typeOf types a = type → q a) :
    ∀ a ∈ done ++ [e], typeOf types a = type → q a := by
  intro a ha hType
  obtain ha | ha := List.mem_append.mp ha
  · exact hDone a ha hType
  · rw [List.mem_singleton.mp ha] at hType
    exact absurd hType hOther

theorem Apart.new {e : Entry} (h : Apart types (done ++ [e])) : e ∉ done := by
  have hOnce := h.once
  rw [List.nodup_append] at hOnce
  exact fun he => hOnce.2.2 e he e (by simp) rfl

namespace GatheredOf

variable {e : Entry}

/-- Of the client's layers nothing is said by another. -/
theorem client_concat (h : GatheredOf types done g) (hOther : typeOf types e ≠ .kClient) :
    (g.clientZOrder = none → ∀ a ∈ done ++ [e], typeOf types a ≠ .kClient) ∧
      (∀ z, g.clientZOrder = some z →
        (∃ a ∈ done ++ [e], typeOf types a = .kClient ∧ a.zOrder = z) ∧
          ∀ a ∈ done ++ [e], typeOf types a = .kClient → z ≤ a.zOrder) ∧
        (g.clientRangeLive = true ↔
          ∃ a ∈ done ++ [e], typeOf types a = .kClient ∧ a.layer.live = true) := by
  refine ⟨fun hNone => forall_typed_concat hOther (h.noClient hNone), fun z hz => ?_, ?_⟩
  · obtain ⟨hSome, hLow⟩ := h.lowest z hz
    exact ⟨(exists_typed_concat hOther).mpr hSome, forall_typed_concat hOther hLow⟩
  · rw [exists_typed_concat hOther]
    exact h.live

/-- A layer for the hardware takes the place of its height. -/
theorem device (h : GatheredOf types done g) (hApart : Apart types (done ++ [e]))
    (hType : typeOf types e = .kDevice) :
    GatheredOf types (done ++ [e]) { g with zMap := emplace e.zOrder (some e) g.zMap } := by
  have hLast : e ∈ done ++ [e] := by simp
  have hOld : ∀ a ∈ done, a ∈ done ++ [e] := fun a ha => List.mem_append_left _ ha
  have hFree : ∀ x ∈ g.zMap, x.1 ≠ e.zOrder := by
    intro x hx hSame
    obtain ⟨a, ha, hDevice, rfl⟩ := (h.members x).mp hx
    obtain rfl := hApart.heights a (hOld a ha) e hLast hDevice hType hSame
    exact hApart.new ha
  obtain ⟨hNone, hLow, hLive⟩ := h.client_concat (e := e) (by rw [hType]; decide)
  refine ⟨ascending_emplace h.ascending _ _, fun x => ?_, fun layer => ?_, hNone, hLow, hLive⟩
  · show x ∈ emplace e.zOrder (some e) g.zMap ↔ _
    rw [mem_emplace hFree, h.members]
    constructor
    · rintro (rfl | ⟨a, ha, hDevice, rfl⟩)
      · exact ⟨e, hLast, hType, rfl⟩
      · exact ⟨a, hOld a ha, hDevice, rfl⟩
    · rintro ⟨a, ha, hDevice, rfl⟩
      obtain ha | ha := List.mem_append.mp ha
      · exact .inr ⟨a, ha, hDevice, rfl⟩
      · rw [List.mem_singleton.mp ha]
        exact .inl rfl
  · rw [exists_typed_concat (by rw [hType]; decide)]
    exact h.cursor layer

/-- The one cursor is set aside. -/
theorem setAside (h : GatheredOf types done g) (hApart : Apart types (done ++ [e]))
    (hType : typeOf types e = .kCursor) : g.cursorLayer = none ∧
      GatheredOf types (done ++ [e]) { g with cursorLayer := some e.layer.layerData } := by
  have hLast : e ∈ done ++ [e] := by simp
  obtain ⟨hNoClient, hLow, hLive⟩ := h.client_concat (e := e) (by rw [hType]; decide)
  refine ⟨?_, h.ascending, fun x => ?_, fun layer => ?_, hNoClient, hLow, hLive⟩
  · by_contra hSome
    obtain ⟨layer, hLayer⟩ := Option.ne_none_iff_exists'.mp hSome
    obtain ⟨a, ha, hCursor, -⟩ := (h.cursor layer).mp hLayer
    obtain rfl := hApart.cursors a (List.mem_append_left _ ha) e hLast hCursor hType
    exact hApart.new ha
  · rw [exists_typed_concat (by rw [hType]; decide)]
    exact h.members x
  · constructor
    · intro hLayer
      exact ⟨e, hLast, hType, (Option.some.inj hLayer).symm⟩
    · rintro ⟨a, ha, hCursor, rfl⟩
      rw [hApart.cursors a ha e hLast hCursor hType]

/-- The client's target is placed as low as the lowest of its layers. -/
theorem client (h : GatheredOf types done g) (hType : typeOf types e = .kClient) :
    GatheredOf types (done ++ [e])
      { g with
        clientZOrder := some (min (g.clientZOrder.getD (2 ^ 32 - 1)) e.zOrder)
        clientRangeLive := g.clientRangeLive || e.layer.live } := by
  have hLast : e ∈ done ++ [e] := by simp
  have hOld : ∀ a ∈ done, a ∈ done ++ [e] := fun a ha => List.mem_append_left _ ha
  refine ⟨h.ascending, fun x => ?_, fun layer => ?_, fun hNone => (nomatch hNone),
    fun z hz => ?_, ?_⟩
  · rw [exists_typed_concat (by rw [hType]; decide)]
    exact h.members x
  · rw [exists_typed_concat (by rw [hType]; decide)]
    exact h.cursor layer
  · obtain rfl := Option.some.inj hz
    cases hOldLow : g.clientZOrder with
    | none =>
      have hWord : e.zOrder ≤ 2 ^ 32 - 1 := Nat.le_pred_of_lt e.layer.zOrder.toNat_lt
      rw [Option.getD_none, Nat.min_eq_right hWord]
      refine ⟨⟨e, hLast, hType, rfl⟩, fun a ha hClient => ?_⟩
      obtain ha | ha := List.mem_append.mp ha
      · exact absurd hClient (h.noClient hOldLow a ha)
      · rw [List.mem_singleton.mp ha]
    | some low =>
      rw [Option.getD_some]
      obtain ⟨⟨b, hb, hClientB, hLowB⟩, hLow⟩ := h.lowest low hOldLow
      refine ⟨?_, fun a ha hClient => ?_⟩
      · obtain hLe | hLe := Nat.le_total low e.zOrder
        · exact ⟨b, hOld b hb, hClientB, by omega⟩
        · exact ⟨e, hLast, hType, by omega⟩
      · obtain ha | ha := List.mem_append.mp ha
        · have := hLow a ha hClient
          omega
        · rw [List.mem_singleton.mp ha]
          omega
  · show (g.clientRangeLive || e.layer.live) = true ↔ _
    rw [Bool.or_eq_true, h.live]
    constructor
    · rintro (⟨a, ha, hClient, hLive⟩ | hLive)
      · exact ⟨a, hOld a ha, hClient, hLive⟩
      · exact ⟨e, hLast, hType, hLive⟩
    · rintro ⟨a, ha, hClient, hLive⟩
      obtain ha | ha := List.mem_append.mp ha
      · exact .inl ⟨a, ha, hClient, hLive⟩
      · rw [List.mem_singleton.mp ha] at hLive
        exact .inr hLive

/-- A layer of any other type leaves nothing. -/
theorem skipped (h : GatheredOf types done g) (hDevice : typeOf types e ≠ .kDevice)
    (hCursor : typeOf types e ≠ .kCursor) (hClient : typeOf types e ≠ .kClient) :
    GatheredOf types (done ++ [e]) g := by
  obtain ⟨hNone, hLow, hLive⟩ := h.client_concat hClient
  refine ⟨h.ascending, fun x => ?_, fun layer => ?_, hNone, hLow, hLive⟩
  · rw [exists_typed_concat hDevice]
    exact h.members x
  · rw [exists_typed_concat hCursor]
    exact h.cursor layer

theorem step (h : GatheredOf types done g) (hApart : Apart types (done ++ [e])) :
    GatheredOf types (done ++ [e]) (gather types g e) := by
  unfold gather
  cases hType : typeOf types e with
  | kDevice => exact h.device hApart hType
  | kCursor =>
    obtain ⟨hNone, hAside⟩ := h.setAside hApart hType
    rw [hNone]
    exact hAside
  | kClient => exact h.client hType
  | kDeviceOccluded => exact h.skipped (by simp [hType]) (by simp [hType]) (by simp [hType])
  | kSolidColor => exact h.skipped (by simp [hType]) (by simp [hType]) (by simp [hType])
  | kInvalid => exact h.skipped (by simp [hType]) (by simp [hType]) (by simp [hType])

end GatheredOf

theorem Apart.before {rest : List Entry} (h : Apart types (done ++ rest)) : Apart types done where
  once := (List.nodup_append.mp h.once).1
  heights := fun a ha b hb =>
    h.heights a (List.mem_append_left _ ha) b (List.mem_append_left _ hb)
  cursors := fun a ha b hb =>
    h.cursors a (List.mem_append_left _ ha) b (List.mem_append_left _ hb)

/-- **What is gathered of the layers**, in whatever order they come. -/
theorem foldl_gather {rest : List Entry} (h : GatheredOf types done g)
    (hApart : Apart types (done ++ rest)) :
    GatheredOf types (done ++ rest) (rest.foldl (gather types) g) := by
  induction rest generalizing done g with
  | nil =>
    rw [List.append_nil]
    exact h
  | cons e rest ih =>
    have hSplit : done ++ e :: rest = done ++ [e] ++ rest := by simp
    rw [hSplit] at hApart ⊢
    exact ih (h.step hApart.before) hApart

-- ---------------------------------------------------------------------------
-- A composition of a scene
-- ---------------------------------------------------------------------------

/-- The layers that are shown. -/
def shownLayers (s : HwcDisplay) : List Entry := s.layers.filter fun e => !e.layer.hidden

/-- **A composition arranged**: of the layers that are shown, by their heights, some
for the hardware, some for the client, more for the hardware, and on top the cursor
where it has a plane. -/
structure Arranged (s : HwcDisplay) (types : List (ILayerId × CompositionType))
    (below block above top : List Entry) : Prop where
  shown : (below ++ block ++ above ++ top).Perm s.shownLayers
  ascending : (below ++ block ++ above ++ top).Pairwise fun a b => a.zOrder < b.zOrder
  device : ∀ e ∈ below ++ above, typeOf types e = .kDevice
  client : ∀ e ∈ block, typeOf types e = .kClient
  cursor : ∀ e ∈ top, typeOf types e = .kCursor
  one : top.length ≤ 1
  hidden : ∀ e ∈ s.layers, e.layer.hidden = true →
    typeOf types e = .kInvalid ∨ typeOf types e = .kDeviceOccluded

/-- Its layers for the hardware by their heights, the target at the height of the
lowest layer it stands for. -/
def seats (below block above : List Entry) : List (Nat × Option Entry) :=
  below.map (fun e => (e.zOrder, some e)) ++
    (block.head?.toList.map fun e => (e.zOrder, none)) ++ above.map fun e => (e.zOrder, some e)

/-- The client's target, as live as its range. -/
def target (s : HwcDisplay) (block : List Entry) : LayerData :=
  { s.clientLayer.layerData with live := s.clientLayer.live || block.any fun e => e.layer.live }

/-- What an arranged composition puts on planes. -/
def composed (s : HwcDisplay) (below block above : List Entry) : List LayerData :=
  below.map Entry.data ++ (block.head?.toList.map fun _ => s.target block) ++ above.map Entry.data

namespace Arranged

variable {below block above top : List Entry}

/-- A layer typed to be seen has its place. -/
theorem mem_of_typed (h : Arranged s types below block above top) {e : Entry}
    (he : e ∈ s.layers) (hNamed : typeOf types e ≠ .kInvalid)
    (hSeen : typeOf types e ≠ .kDeviceOccluded) : e ∈ below ++ block ++ above ++ top := by
  refine h.shown.mem_iff.mpr (List.mem_filter.mpr ⟨he, ?_⟩)
  rw [Bool.not_eq_true']
  by_contra hHidden
  obtain hType | hType := h.hidden e he (by simpa using hHidden)
  · exact hNamed hType
  · exact hSeen hType

theorem mem_layers (h : Arranged s types below block above top) {e : Entry}
    (he : e ∈ below ++ block ++ above ++ top) : e ∈ s.layers :=
  (List.mem_filter.mp (h.shown.mem_iff.mp he)).1

theorem device_iff (h : Arranged s types below block above top) {e : Entry} :
    (e ∈ s.layers ∧ typeOf types e = .kDevice) ↔ e ∈ below ++ above := by
  constructor
  · rintro ⟨he, hType⟩
    have hMem := h.mem_of_typed he (by simp [hType]) (by simp [hType])
    simp only [List.mem_append] at hMem ⊢
    obtain ((hBelow | hBlock) | hAbove) | hTop := hMem
    · exact .inl hBelow
    · exact absurd (hType.symm.trans (h.client e hBlock)) (by decide)
    · exact .inr hAbove
    · exact absurd (hType.symm.trans (h.cursor e hTop)) (by decide)
  · intro he
    refine ⟨h.mem_layers ?_, h.device e he⟩
    simp only [List.mem_append] at he ⊢
    tauto

theorem client_iff (h : Arranged s types below block above top) {e : Entry} :
    (e ∈ s.layers ∧ typeOf types e = .kClient) ↔ e ∈ block := by
  constructor
  · rintro ⟨he, hType⟩
    have hMem := h.mem_of_typed he (by simp [hType]) (by simp [hType])
    simp only [List.mem_append] at hMem
    obtain ((hBelow | hBlock) | hAbove) | hTop := hMem
    · exact absurd (hType.symm.trans (h.device e (by simp [hBelow]))) (by decide)
    · exact hBlock
    · exact absurd (hType.symm.trans (h.device e (by simp [hAbove]))) (by decide)
    · exact absurd (hType.symm.trans (h.cursor e hTop)) (by decide)
  · intro he
    exact ⟨h.mem_layers (by simp [he]), h.client e he⟩

theorem cursor_iff (h : Arranged s types below block above top) {e : Entry} :
    (e ∈ s.layers ∧ typeOf types e = .kCursor) ↔ e ∈ top := by
  constructor
  · rintro ⟨he, hType⟩
    have hMem := h.mem_of_typed he (by simp [hType]) (by simp [hType])
    simp only [List.mem_append] at hMem
    obtain ((hBelow | hBlock) | hAbove) | hTop := hMem
    · exact absurd (hType.symm.trans (h.device e (by simp [hBelow]))) (by decide)
    · exact absurd (hType.symm.trans (h.client e hBlock)) (by decide)
    · exact absurd (hType.symm.trans (h.device e (by simp [hAbove]))) (by decide)
    · exact hTop
  · intro he
    exact ⟨h.mem_layers (by simp [he]), h.cursor e he⟩

/-- No two of its layers have one height. -/
theorem heights (h : Arranged s types below block above top) {a b : Entry}
    (ha : a ∈ below ++ block ++ above ++ top) (hb : b ∈ below ++ block ++ above ++ top)
    (hSame : a.zOrder = b.zOrder) : a = b := by
  have hDistinct : ((below ++ block ++ above ++ top).map Entry.zOrder).Nodup := by
    rw [List.Nodup, List.pairwise_map]
    exact h.ascending.imp fun hLt => Nat.ne_of_lt hLt
  exact List.inj_on_of_nodup_map hDistinct ha hb hSame

theorem apart (h : Arranged s types below block above top) (hOnce : s.layers.Nodup) :
    Apart types s.layers where
  once := hOnce
  heights := by
    intro a ha b hb hDeviceA hDeviceB hSame
    have hA := h.mem_of_typed ha (by simp [hDeviceA]) (by simp [hDeviceA])
    have hB := h.mem_of_typed hb (by simp [hDeviceB]) (by simp [hDeviceB])
    exact h.heights hA hB hSame
  cursors := by
    intro a ha b hb hCursorA hCursorB
    have hA := h.cursor_iff.mp ⟨ha, hCursorA⟩
    have hB := h.cursor_iff.mp ⟨hb, hCursorB⟩
    have hOne := h.one
    match top with
    | [only] => rw [List.mem_singleton.mp hA, List.mem_singleton.mp hB]
    | _ :: _ :: _ => simp at hOne

/-- What is gathered of the display's layers. -/
theorem gathered (h : Arranged s types below block above top) (hOnce : s.layers.Nodup) :
    GatheredOf types s.layers (s.layers.foldl (gather types) {}) := by
  have hApart : Apart types ([] ++ s.layers) := h.apart hOnce
  exact foldl_gather gatheredOf_nil hApart

/-- A composition ascends. -/
theorem seats_ascending (h : Arranged s types below block above top) :
    Ascending (seats below block above) := by
  have hSub : (below ++ block.head?.toList ++ above).Sublist (below ++ block ++ above ++ top) := by
    refine List.Sublist.trans ?_ (List.sublist_append_left _ top)
    refine ((List.Sublist.refl below).append ?_).append (List.Sublist.refl above)
    cases block with
    | nil => exact List.Sublist.refl _
    | cons first rest => exact (List.nil_sublist rest).cons_cons first
  have hKeys := h.ascending.sublist hSub
  rw [← List.pairwise_map] at hKeys
  rw [Ascending, ← List.pairwise_map (f := Prod.fst) (R := (· < ·))]
  simpa [seats, Function.comp_def] using hKeys

/-- The layers gathered as themselves are those on either side of the client's. -/
theorem mem_zMap (h : Arranged s types below block above top) (hOnce : s.layers.Nodup)
    (x : Nat × Option Entry) :
    x ∈ (s.layers.foldl (gather types) {}).zMap ↔
      x ∈ below.map (fun e => (e.zOrder, some e)) ∨
        x ∈ above.map fun e => (e.zOrder, some e) := by
  rw [(h.gathered hOnce).members, ← List.mem_append, ← List.map_append, List.mem_map]
  constructor
  · rintro ⟨e, he, hType, rfl⟩
    exact ⟨e, h.device_iff.mp ⟨he, hType⟩, rfl⟩
  · rintro ⟨e, he, rfl⟩
    exact ⟨e, (h.device_iff.mpr he).1, (h.device_iff.mpr he).2, rfl⟩

/-- The target's height is that of the first of the client's layers. -/
theorem clientZOrder_eq (h : Arranged s types below block above top) (hOnce : s.layers.Nodup) :
    (s.layers.foldl (gather types) {}).clientZOrder = block.head?.map Entry.zOrder := by
  have hGathered := h.gathered hOnce
  cases hBlock : block with
  | nil =>
    by_contra hSome
    obtain ⟨z, hz⟩ := Option.ne_none_iff_exists'.mp hSome
    obtain ⟨⟨e, he, hType, -⟩, -⟩ := hGathered.lowest z hz
    have hMem := h.client_iff.mp ⟨he, hType⟩
    rw [hBlock] at hMem
    cases hMem
  | cons first rest =>
    have hFirst : first ∈ block := by simp [hBlock]
    obtain ⟨z, hz⟩ : ∃ z, (s.layers.foldl (gather types) {}).clientZOrder = some z := by
      refine Option.ne_none_iff_exists'.mp fun hNone => ?_
      obtain ⟨he, hType⟩ := h.client_iff.mpr hFirst
      exact hGathered.noClient hNone first he hType
    obtain ⟨⟨e, he, hType, hAt⟩, hLow⟩ := hGathered.lowest z hz
    have hLe := hLow first (h.client_iff.mpr hFirst).1 (h.client_iff.mpr hFirst).2
    have hMem := h.client_iff.mp ⟨he, hType⟩
    have hRange : block.Pairwise fun a b => a.zOrder < b.zOrder := by
      refine h.ascending.sublist ?_
      rw [List.append_assoc, List.append_assoc]
      exact (List.sublist_append_left _ _).trans (List.sublist_append_right _ _)
    rw [hBlock] at hMem hRange
    rw [hz]
    refine congrArg some ?_
    obtain rfl | hMem := List.mem_cons.mp hMem
    · exact hAt.symm
    · have := (List.pairwise_cons.mp hRange).1 e hMem
      omega

/-- **The map of heights** is the composition, the target standing for the client's
layers. -/
theorem seated_eq (h : Arranged s types below block above top) (hOnce : s.layers.Nodup) :
    (s.layers.foldl (gather types) {}).seated = seats below block above := by
  have hGathered := h.gathered hOnce
  have hOwn := h.mem_zMap hOnce
  have hLowest := h.clientZOrder_eq hOnce
  have hRight := h.seats_ascending
  set g := s.layers.foldl (gather types) {}
  unfold Gathered.seated
  cases hBlock : block with
  | nil =>
    have hNone : g.clientZOrder = none := by rw [hLowest, hBlock]; rfl
    rw [hBlock] at hRight
    rw [hNone]
    refine ascending_ext hGathered.ascending hRight fun x => ?_
    rw [hOwn]
    simp [seats]
  | cons first rest =>
    have hFirst : first ∈ block := by simp [hBlock]
    have hSome : g.clientZOrder = some first.zOrder := by rw [hLowest, hBlock]; rfl
    rw [hBlock] at hRight
    rw [hSome]
    -- no layer gathered as itself has the target's height
    have hFree : ∀ x ∈ g.zMap, x.1 ≠ first.zOrder := by
      intro x hx hSame
      obtain ⟨e, he, hType, rfl⟩ := (hGathered.members x).mp hx
      have hMem := h.mem_of_typed he (by simp [hType]) (by simp [hType])
      obtain rfl := h.heights hMem (by simp [hFirst]) hSame
      exact absurd (hType.symm.trans (h.client e hFirst)) (by decide)
    refine ascending_ext (ascending_emplace hGathered.ascending _ _) hRight fun x => ?_
    rw [mem_emplace hFree, hOwn]
    simp only [seats, List.head?_cons, Option.toList_some, List.map_singleton, List.mem_append,
      List.mem_singleton]
    tauto

theorem rangeLive (h : Arranged s types below block above top) (hOnce : s.layers.Nodup) :
    (s.layers.foldl (gather types) {}).clientRangeLive = block.any fun e => e.layer.live := by
  rw [Bool.eq_iff_iff, (h.gathered hOnce).live, List.any_eq_true]
  constructor
  · rintro ⟨e, he, hType, hLive⟩
    exact ⟨e, h.client_iff.mp ⟨he, hType⟩, hLive⟩
  · rintro ⟨e, he, hLive⟩
    exact ⟨e, (h.client_iff.mpr he).1, (h.client_iff.mpr he).2, hLive⟩

theorem cursorLayer (h : Arranged s types below block above top) (hOnce : s.layers.Nodup) :
    (s.layers.foldl (gather types) {}).cursorLayer =
      top.head?.map fun e => e.layer.layerData := by
  refine Option.ext fun layer => ?_
  rw [(h.gathered hOnce).cursor layer, Option.map_eq_some_iff]
  constructor
  · rintro ⟨e, he, hType, rfl⟩
    have hMem := h.cursor_iff.mp ⟨he, hType⟩
    have hOne := h.one
    match top with
    | [only] =>
      rw [List.mem_singleton.mp hMem]
      exact ⟨only, rfl, rfl⟩
    | _ :: _ :: _ => simp at hOne
  · rintro ⟨e, he, rfl⟩
    have hMem := List.mem_of_mem_head? (Option.mem_def.mpr he)
    exact ⟨e, (h.cursor_iff.mpr hMem).1, (h.cursor_iff.mpr hMem).2, rfl⟩

end Arranged

/-- **The plan of an arranged composition** is of its layers, and its client index is
the rank of the target. -/
theorem joined_of_arranged {u : UsablePlanes P} {below block above top : List Entry}
    {shouldFlatten : Bool} {plan : ClientJoiningPlan P}
    (h : Arranged s types below block above top) (hOnce : s.layers.Nodup)
    (hCreated : s.createLayerToPlaneJoiningPlan u types shouldFlatten = some plan) :
    (∃ preferMerge, LayerToPlaneJoiningPlan.createLayerToPlaneJoiningPlan u
        (s.composed below block above) (top.head?.map fun e => e.layer.layerData) preferMerge =
          some plan.toLayerToPlaneJoiningPlan) ∧
      plan.clientIndex = block.head?.map fun _ => plan.rankOf below.length := by
  unfold createLayerToPlaneJoiningPlan at hCreated
  simp only [h.seated_eq hOnce, h.rangeLive hOnce, h.cursorLayer hOnce] at hCreated
  split at hCreated
  · cases hCreated
  split at hCreated
  · cases hCreated
  obtain ⟨joined, hJoined, rfl⟩ := Option.map_eq_some_iff.mp hCreated
  refine ⟨?_, ?_⟩
  · have hComposed : (seats below block above).map
        (fun entry => s.dataAt (block.any fun e => e.layer.live) entry.2) =
          s.composed below block above := by
      have hOwn : ∀ live (e : Entry), s.dataAt live (some e) = e.data := by
        intro live e
        show { e.layer.layerData with live := e.layer.live || false && live } = e.data
        rw [Bool.false_and, Bool.or_false]
        rfl
      have hTarget : s.dataAt (block.any fun e => e.layer.live) none = s.target block := by
        show { s.clientLayer.layerData with
          live := s.clientLayer.live || true && block.any fun e => e.layer.live } = _
        rw [Bool.true_and]
        rfl
      simp only [seats, List.map_append, List.map_map, Function.comp_def, hOwn, hTarget]
      rfl
    rw [hComposed] at hJoined
    exact ⟨_, hJoined⟩
  · show Option.map _ (List.findIdx? _ _) = _
    have hBelow : (below.map fun e : Entry => (e.zOrder, some e)).findIdx?
        (fun entry => entry.2.isNone) = none := by
      simp [List.findIdx?_eq_none_iff]
    have hAbove : (above.map fun e : Entry => (e.zOrder, some e)).findIdx?
        (fun entry => entry.2.isNone) = none := by
      simp [List.findIdx?_eq_none_iff]
    rw [seats, List.findIdx?_append, List.findIdx?_append, hBelow, hAbove]
    cases block with
    | nil => rfl
    | cons first rest => simp

end HwcDisplay

-- ---------------------------------------------------------------------------
-- A plan brought up to date
-- ---------------------------------------------------------------------------

/-- The planes, whatever layers they take. -/
def UsablePlanes.anyLayer {P : Type} (u : UsablePlanes P) : UsablePlanes P :=
  { u with isValidForLayer := fun _ _ => true }

namespace LayerToPlaneJoiningPlan

variable {P : Type} {plan : LayerToPlaneJoiningPlan P} {rank k : Nat} {layer : LayerData}

/-- Another layer on the plane at a rank. -/
def relayered (plan : LayerToPlaneJoiningPlan P) (rank : Nat) (layer : LayerData) :
    LayerToPlaneJoiningPlan P :=
  { plan with plan := plan.plan.modify rank fun j => { j with layer := layer } }

theorem getElem?_relayered : (plan.relayered rank layer).plan[k]? =
    (plan.plan[k]?).map fun j => if rank = k then { j with layer := layer } else j := by
  show (plan.plan.modify rank _)[k]? = _
  rw [List.getElem?_modify]
  split <;> simp

/-- A joining of the plan brought up to date is one of the old, on the same plane. -/
theorem mem_relayered {j : LayerToPlaneJoining P} (hj : j ∈ (plan.relayered rank layer).plan) :
    ∃ i old, plan.plan[i]? = some old ∧
      j = if rank = i then { old with layer := layer } else old := by
  obtain ⟨i, hi⟩ := List.mem_iff_getElem?.mp hj
  rw [getElem?_relayered] at hi
  obtain ⟨old, hOld, rfl⟩ := Option.map_eq_some_iff.mp hi
  exact ⟨i, old, hOld, rfl⟩

theorem planes_relayered (plan : LayerToPlaneJoiningPlan P) (rank : Nat) (layer : LayerData) :
    (plan.relayered rank layer).plan.map (·.plane) = plan.plan.map (·.plane) := by
  refine List.ext_getElem? fun i => ?_
  rw [List.getElem?_map, List.getElem?_map, getElem?_relayered, Option.map_map]
  refine congrArg (Option.map · _) (funext fun j => ?_)
  show (if rank = i then _ else j).plane = j.plane
  split <;> rfl

theorem oneBlock_map {α β : Type} {p : β → Prop} {f : α → β} {l : List α}
    (h : OneBlock (fun a => p (f a)) l) : OneBlock p (l.map f) := by
  obtain ⟨before, block, after, rfl, hBefore, hBlock, hAfter⟩ := h
  refine ⟨before.map f, block.map f, after.map f, by simp, ?_, ?_, ?_⟩
  all_goals
    intro b hb
    obtain ⟨a, ha, rfl⟩ := List.mem_map.mp hb
  · exact hBefore a ha
  · exact hBlock a ha
  · exact hAfter a ha

/-- A layer turned as the one it stands for leaves every plane's turn as it was. -/
theorem turned_relayered {u : UsablePlanes P} {composition : List LayerData}
    {cursorLayer : Option LayerData} {old : LayerData} (h : Joined u composition cursorLayer plan)
    (hk : composition[k]? = some old) (hTurn : layer.pi.transform = old.pi.transform)
    {j : LayerToPlaneJoining P} (hj : j ∈ (plan.relayered (plan.rankOf k) layer).plan) :
    ∃ j₀ ∈ plan.plan, j.plane = j₀.plane ∧ j.layer.pi.transform = j₀.layer.pi.transform := by
  obtain ⟨i, j₀, hj₀, rfl⟩ := mem_relayered hj
  refine ⟨j₀, List.mem_of_getElem? hj₀, ?_⟩
  split
  · rename_i hRankEq
    obtain ⟨j₁, hj₁, hLayer⟩ := h.placed k old hk
    rw [hRankEq, hj₀] at hj₁
    obtain rfl := Option.some.inj hj₁
    exact ⟨rfl, by rw [hLayer]; exact hTurn⟩
  · exact ⟨rfl, rfl⟩

/-- Layers that overlap in a composition brought up to date are bound in its order, where
the new one overlaps no layer the old did not. -/
theorem ranked_of_set {u : UsablePlanes P} {composition : List LayerData}
    {cursorLayer : Option LayerData} {old : LayerData} (h : Joined u composition cursorLayer plan)
    (hk : composition[k]? = some old)
    (hWithin : ∀ i a, i ≠ k → composition[i]? = some a →
      MergeGroup.overlaps (groupMember layer) (groupMember a) = true →
        MergeGroup.overlaps (groupMember old) (groupMember a) = true)
    {i i' : Nat} (hii : i < i') {a b : LayerData} (ha : (composition.set k layer)[i]? = some a)
    (hb : (composition.set k layer)[i']? = some b)
    (hOver : MergeGroup.overlaps (groupMember a) (groupMember b) = true) :
    plan.rankOf i < plan.rankOf i' := by
  have hLt : k < composition.length := (List.getElem?_eq_some_iff.mp hk).1
  by_cases hHere : i = k
  · subst hHere
    rw [List.getElem?_set_self hLt] at ha
    rw [List.getElem?_set_ne (Nat.ne_of_lt hii)] at hb
    obtain rfl := Option.some.inj ha
    exact h.overlaps i i' hii old b hk hb (hWithin i' b (Nat.ne_of_gt hii) hb hOver)
  by_cases hThere : i' = k
  · subst hThere
    rw [List.getElem?_set_self hLt] at hb
    rw [List.getElem?_set_ne (Ne.symm hHere)] at ha
    obtain rfl := Option.some.inj hb
    refine h.overlaps i i' hii a old ha hk ?_
    rw [MergeGroup.overlaps_comm] at hOver ⊢
    exact hWithin i a hHere ha hOver
  · rw [List.getElem?_set_ne (Ne.symm hHere)] at ha
    rw [List.getElem?_set_ne (Ne.symm hThere)] at hb
    exact h.overlaps i i' hii a b ha hb hOver

/-- **A plan brought up to date** is a joining of the composition brought up to date,
where the new layer is turned as the old and overlaps no layer the old did not. -/
theorem joined_relayered {u : UsablePlanes P} {composition : List LayerData}
    {cursorLayer : Option LayerData} {old : LayerData} (h : Joined u composition cursorLayer plan)
    (hk : composition[k]? = some old) (hTurn : layer.pi.transform = old.pi.transform)
    (hWithin : ∀ i a, i ≠ k → composition[i]? = some a →
      MergeGroup.overlaps (groupMember layer) (groupMember a) = true →
        MergeGroup.overlaps (groupMember old) (groupMember a) = true) :
    Joined u.anyLayer (composition.set k layer) cursorLayer
      (plan.relayered (plan.rankOf k) layer) := by
  have hLt : k < composition.length := (List.getElem?_eq_some_iff.mp hk).1
  have hRank : (plan.relayered (plan.rankOf k) layer).rankOf = plan.rankOf := rfl
  have hApart : ∀ i < composition.length, i ≠ k → plan.rankOf k ≠ plan.rankOf i :=
    fun i hi hOther hSame => hOther (h.ranksApart k hLt i hi hSame).symm
  refine ⟨?_, fun i dhl hi => ?_, ?_, ?_, fun cursor hCursor => ?_,
    fun i i' hii a b ha hb hOver => ?_, ?_, fun j hj => ?_, fun _ _ => rfl, ?_,
    fun j hj j' hj' hMerging hMerging' => ?_, fun i j hj => ?_⟩
  · rw [List.length_set, ← h.length]
    exact List.length_modify _ _ _
  · rw [hRank, getElem?_relayered]
    by_cases hHere : i = k
    · subst hHere
      rw [List.getElem?_set_self hLt] at hi
      obtain rfl := Option.some.inj hi
      obtain ⟨j, hj, -⟩ := h.placed i old hk
      exact ⟨{ j with layer := layer }, by rw [hj, Option.map_some, if_pos rfl], rfl⟩
    · rw [List.getElem?_set_ne (Ne.symm hHere)] at hi
      obtain ⟨j, hj, hLayer⟩ := h.placed i dhl hi
      refine ⟨j, ?_, hLayer⟩
      rw [hj, Option.map_some, if_neg (hApart i (List.getElem?_eq_some_iff.mp hi).1 hHere)]
  · rw [List.length_set]
    exact h.ranks
  · rw [List.length_set]
    exact h.ranksApart
  · obtain ⟨j, hj, hLayer, hPlane⟩ := h.cursorLast cursor hCursor
    refine ⟨j, ?_, hLayer, hPlane⟩
    rw [List.length_set, getElem?_relayered, hj, Option.map_some,
      if_neg (Nat.ne_of_lt (h.ranks k hLt))]
  · exact ranked_of_set h hk hWithin hii ha hb hOver
  · rw [planes_relayered]
    exact h.planesOnce
  · have hPlane : j.plane ∈ plan.plan.map (·.plane) := by
      rw [← planes_relayered plan (plan.rankOf k) layer]
      exact List.mem_map_of_mem hj
    obtain ⟨j', hj', hSame⟩ := List.mem_map.mp hPlane
    rw [← hSame]
    exact h.planesUsable j' hj'
  · have hPlanes := oneBlock_map (f := fun j : LayerToPlaneJoining P => j.plane)
      (p := fun p => u.isMerging p = true) h.oneBlock
    rw [← planes_relayered plan (plan.rankOf k) layer] at hPlanes
    exact oneBlock_of_map hPlanes
  · -- the new layer is turned as the one it stands for
    obtain ⟨a, ha, hPlane, hSame⟩ := turned_relayered h hk hTurn hj
    obtain ⟨a', ha', hPlane', hSame'⟩ := turned_relayered h hk hTurn hj'
    rw [hSame, hSame']
    exact h.oneTurn a ha a' ha' (hPlane ▸ hMerging) (hPlane' ▸ hMerging')
  · rw [getElem?_relayered] at hj
    obtain ⟨j₀, hj₀, rfl⟩ := Option.map_eq_some_iff.mp hj
    have := h.zInOrder i j₀ hj₀
    split <;> exact this

end LayerToPlaneJoiningPlan

/-- The target of a plan brought up to date. -/
theorem ClientJoiningPlan.updateClientTargetIfNeeded_eq {P : Type} {plan : ClientJoiningPlan P}
    {rank : Nat} (hIndex : plan.clientIndex = some rank) (hRank : rank < plan.plan.length)
    (clientLayer : HwcLayer) :
    plan.updateClientTargetIfNeeded clientLayer =
      { plan.toLayerToPlaneJoiningPlan.relayered rank clientLayer.layerData with
        clientIndex := some rank } := by
  unfold updateClientTargetIfNeeded
  rw [hIndex]
  show (if _ then _ else _) = _
  rw [if_pos hRank]
  rfl

end TegraHwc
