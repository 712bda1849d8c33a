import TegraHwc.Compositor.MergeGroup
import Mathlib.Data.List.Nodup
import Mathlib.Data.List.Perm.Subperm
import Mathlib.Data.List.Zip
import Mathlib.Data.Rat.Floor
import Mathlib.Tactic.Common

/-!
# TegraHwc — joining layers to planes

`compositor/LayerToPlaneJoiningPlan.cpp`: two seating algorithms over one
list of layers. The steering looks for a group worth merging, may lower
layers beneath it, which it records in `rankOfInput`, and seats the group on
merging planes and the rest on ordinary ones; where it gives up, the first
fit seats whatever order of layers the steering left behind.

Planes are of any type, told apart by their place in the display's list; what
a plane takes is a relation of the display's own. `UsablePlanes` carries what
`GetUsablePlanes` promises of its answer.

## Results

* `placeFirstFit_seated`, `placeSteered_seated` — each algorithm seats the
  list it ends up with, plane by plane.
* `placeSteered_reordered` — through every exit, the list it leaves is the
  composition in an order `rankOfInput` records and overlaps allow.
* `createLayerToPlaneJoiningPlan_joined` — every plan returned is a joining
  of the composition.
-/

namespace TegraHwc

/-- Where the elements that satisfy `p` stand next to each other. -/
def OneBlock {α : Type} (p : α → Prop) (l : List α) : Prop :=
  ∃ before block after, l = before ++ block ++ after ∧ (∀ a ∈ before, ¬p a) ∧
    (∀ a ∈ block, p a) ∧ ∀ a ∈ after, ¬p a

/-- What `GetUsablePlanes` answers: the planes and the one meant for a
cursor. No plane is listed twice, the merging planes are one window's and
listed together, and the cursor's plane is never one of them. -/
structure UsablePlanes (P : Type) where
  isMerging : P → Bool
  isValidForLayer : P → LayerData → Bool
  avail : List P
  cursor : Option P
  distinct : (avail ++ cursor.toList).Nodup
  oneBlock : OneBlock (fun p => isMerging p = true) avail
  cursorOrdinary : ∀ p, cursor = some p → isMerging p = false

/-- `Steering`. -/
inductive Steering where
  | kSteered
  | kFitsOrdinary
  | kMonotone
  | kRunTooLong
  | kLivesOverflow
  | kSeatRefused
  | kMixedTurn
  deriving DecidableEq, Repr

/-- `Run`: a run the steering weighed, for the record. -/
structure Run where
  begin_ : Nat := 0
  live : Nat := 0
  pixels : Nat := 0
  scalePct : Nat := 100
  seatable : Bool := false
  lowered : Nat := 0
  deriving DecidableEq, Repr

/-- `LayerToPlaneJoining`. -/
structure LayerToPlaneJoining (P : Type) where
  layer : LayerData
  plane : P
  zPos : Nat
  deriving DecidableEq, Repr

/-- `LayerToPlaneJoiningPlan`; its `client_index` is the caller's. -/
structure LayerToPlaneJoiningPlan (P : Type) where
  plan : List (LayerToPlaneJoining P) := []
  steering : Steering := .kFitsOrdinary
  runs : List Run := []
  chosenRun : Nat := 0
  runLen : Nat := 0
  rankOfInput : List Nat := []
  deriving DecidableEq, Repr

namespace LayerToPlaneJoiningPlan

variable {P : Type}

/-- `RankOf`, of the index of a layer. -/
def rankOf (plan : LayerToPlaneJoiningPlan P) (input : Nat) : Nat :=
  (plan.rankOfInput[input]?).getD input

/-- `plan.plan.emplace_back`. -/
def emplace (plan : List (LayerToPlaneJoining P)) (layer : LayerData) (plane : P) :
    List (LayerToPlaneJoining P) :=
  plan ++ [⟨layer, plane, plan.length⟩]

/-- `SharesTurn`. -/
def sharesTurn (a b : LayerTransform) : Bool :=
  a.hflip == b.hflip && a.vflip == b.vflip && a.rotate90 == b.rotate90

theorem sharesTurn_iff {a b : LayerTransform} : sharesTurn a b = true ↔ a = b := by
  cases a
  cases b
  simp [sharesTurn, and_assoc]

-- ---------------------------------------------------------------------------
-- The first fit
-- ---------------------------------------------------------------------------

/-- `std::find_if` over the planes not yet passed: the plane found, and the
planes after it. -/
def findPlane (fits : P → Bool) : List P → Option (P × List P)
  | [] => none
  | p :: ps => if fits p then some (p, ps) else findPlane fits ps

/-- Whether the first fit may put a layer on a plane: the plane takes it and,
where it merges, so does the group there. -/
def fitsFirst (u : UsablePlanes P) (plan : List (LayerToPlaneJoining P)) (dhl : LayerData)
    (p : P) : Bool :=
  u.isValidForLayer p dhl &&
    (!u.isMerging p ||
      plan.all fun joining =>
        !u.isMerging joining.plane || sharesTurn dhl.pi.transform joining.layer.pi.transform)

/-- `PlaceFirstFit`. -/
def placeFirstFit (u : UsablePlanes P) :
    List (LayerToPlaneJoining P) → List P → List LayerData → Option (List (LayerToPlaneJoining P))
  | plan, _, [] => some plan
  | plan, avail, dhl :: rest =>
    match findPlane (fitsFirst u plan dhl) avail with
    | none => none
    | some (p, avail) => placeFirstFit u (emplace plan dhl p) avail rest

-- ---------------------------------------------------------------------------
-- The steering
-- ---------------------------------------------------------------------------

/-- What the group choice is told of a layer. -/
def groupMember (dhl : LayerData) : GroupMember where
  live := dhl.live
  frame := dhl.pi.displayFrame
  turn :=
    (if dhl.pi.transform.hflip then 1 else 0) ||| (if dhl.pi.transform.vflip then 2 else 0) |||
      (if dhl.pi.transform.rotate90 then 4 else 0)

/-- The extents of a layer, a layer without a buffer reading nothing. -/
def extentsOf (dhl : LayerData) : MatchedExtents :=
  dhl.pi.extentsInDestAxes ((dhl.bi.map fun bi => (bi.width : Rat)).getD 0)
    ((dhl.bi.map fun bi => (bi.height : Rat)).getD 0)

/-- `pixels_of`: the larger of the pixels read and the pixels written. -/
def pixelsOf (dhl : LayerData) : Nat :=
  let e := extentsOf dhl
  let src := if 0 < e.srcW ∧ 0 < e.srcH then e.srcW * e.srcH else 0
  let dst := if 0 < e.dstW ∧ 0 < e.dstH then e.dstW * e.dstH else 0
  ⌊if dst < src then src else dst⌋₊

/-- `scale_pct_of`. -/
def scalePctOf (dhl : LayerData) : Nat :=
  let e := extentsOf dhl
  if e.srcW ≤ 0 ∨ e.srcH ≤ 0 then 100
  else ⌊max (e.dstW / e.srcW) (e.dstH / e.srcH) * 100 + 1 / 2⌋₊

/-- The walk that seats a run on merging planes and everything around it on
ordinary ones, each class with a cursor of its own; `i` is the position of
the first layer of the list. -/
def seatRun (u : UsablePlanes P) (begin_ runLen : Nat) :
    Nat → List P → List P → List LayerData → Option (List P)
  | _, _, _, [] => some []
  | i, ordinaryIt, mergingIt, dhl :: rest =>
    let merged := decide (begin_ ≤ i) && decide (i < begin_ + runLen)
    match
      findPlane (fun p => u.isMerging p == merged && u.isValidForLayer p dhl)
        (if merged then mergingIt else ordinaryIt) with
    | none => none
    | some (p, passed) =>
      (seatRun u begin_ runLen (i + 1) (if merged then ordinaryIt else passed)
        (if merged then passed else mergingIt) rest).map (p :: ·)

/-- `run_uniform`. -/
def runUniform (composition : List LayerData) (runLen begin_ : Nat) : Bool :=
  match (composition.drop begin_).take runLen with
  | [] => true
  | first :: rest => rest.all fun dhl => sharesTurn dhl.pi.transform first.pi.transform

/-- `record`, without the layers lowered. -/
def weighRun (u : UsablePlanes P) (avail : List P) (composition : List LayerData)
    (runLen begin_ live : Nat) : Run :=
  let members := (composition.drop begin_).take runLen
  { begin_ := begin_
    live := live
    pixels := (members.map pixelsOf).sum
    scalePct := (members.map scalePctOf).foldl max 100
    seatable := (seatRun u begin_ runLen 0 avail avail composition).isSome }

/-- The contiguous runs, for the record: the count of live layers slides
along with the run. -/
def contiguousRuns (u : UsablePlanes P) (avail : List P) (composition : List LayerData)
    (runLen : Nat) : List Run :=
  let liveAt := fun i => if ((composition[i]?).map LayerData.live).getD false then 1 else 0
  let first := ((List.range runLen).map liveAt).sum
  let recordAt := fun (runs : List Run) (begin_ live : Nat) =>
    if runUniform composition runLen begin_ then
      runs ++ [weighRun u avail composition runLen begin_ live]
    else runs
  ((List.range' runLen (composition.length - runLen)).foldl
    (fun (state : Nat × List Run) i =>
      let live := state.1 - liveAt (i - runLen) + liveAt i
      (live, recordAt state.2 (i - runLen + 1) live))
    (first, recordAt [] 0 first)).2

/-- `rank_of_input`, written rank by rank. -/
def ranksOf (order : List Nat) : List Nat :=
  order.zipIdx.foldl (fun ranks entry => ranks.set entry.1 entry.2)
    (List.replicate order.length 0)

/-- What a seating attempt leaves: whether it seated, the plan so far and the
layers as they stand. -/
structure Placed (P : Type) where
  steered : Bool
  plan : LayerToPlaneJoiningPlan P
  composition : List LayerData
  deriving DecidableEq, Repr

/-- The tail of `PlaceSteered`, once a group is chosen and the layers stand
around it: seat everything, or leave everything to the first fit. -/
def seatSteered (u : UsablePlanes P) (avail : List P) (plan : LayerToPlaneJoiningPlan P)
    (composition : List LayerData) (runBegin runLen : Nat) : Placed P :=
  match seatRun u runBegin runLen 0 avail avail composition with
  | none => ⟨false, { plan with steering := .kSeatRefused }, composition⟩
  | some seats =>
    ⟨true,
      { plan with
        plan := (composition.zip seats).foldl (fun joinings x => emplace joinings x.1 x.2)
          plan.plan
        steering := .kSteered },
      composition⟩

/-- `need`: the overflow the ordinary planes could not take or, where the
merge is preferred, the most it will hold. -/
def need (composition : List LayerData) (mergingCount ordinaryCount : Nat)
    (preferMerge : Bool) : Nat :=
  if preferMerge then min composition.length mergingCount
  else composition.length - ordinaryCount

/-- `PlaceSteered`. -/
def placeSteered (u : UsablePlanes P) (avail : List P) (plan : LayerToPlaneJoiningPlan P)
    (composition : List LayerData) (preferMerge : Bool) : Placed P :=
  let mergingCount := avail.countP fun p => u.isMerging p
  let ordinaryCount := avail.countP fun p => !u.isMerging p
  if mergingCount = 0 ∨ (!preferMerge && decide (composition.length ≤ ordinaryCount)) = true then
    ⟨false, { plan with steering := .kFitsOrdinary }, composition⟩
  else if !(composition.any (·.live)) || !(composition.any (!·.live)) then
    ⟨false, { plan with steering := .kMonotone }, composition⟩
  else
    let runLen := need composition mergingCount ordinaryCount preferMerge
    if mergingCount < runLen then
      ⟨false, { plan with steering := .kRunTooLong }, composition⟩
    else
      let plan :=
        { plan with
          runLen := runLen
          runs := plan.runs ++ contiguousRuns u avail composition runLen }
      match MergeGroup.chooseMergeGroup (composition.map groupMember) runLen with
      | none => ⟨false, { plan with steering := .kMixedTurn }, composition⟩
      | some group =>
        if group.lowered ≠ 0 then
          let reordered := group.order.filterMap (composition[·]?)
          let run := weighRun u avail reordered runLen group.begin_ group.live
          seatSteered u avail
            { plan with
              rankOfInput := ranksOf group.order
              runs := plan.runs ++ [{ run with lowered := group.lowered }]
              chosenRun := plan.runs.length }
            reordered group.begin_ runLen
        else
          seatSteered u avail
            { plan with
              chosenRun := plan.runs.zipIdx.foldl
                (fun chosen entry => if entry.1.begin_ = group.begin_ then entry.2 else chosen)
                plan.chosenRun }
            composition group.begin_ runLen

/-- Whether a layer for the cursor, where there is one, can go to its plane. -/
def cursorUsable (u : UsablePlanes P) (cursorLayer : Option LayerData) : Bool :=
  match cursorLayer with
  | none => true
  | some layer => (u.cursor.map fun p => u.isValidForLayer p layer).getD false

/-- `CreateLayerToPlaneJoiningPlan`. -/
def createLayerToPlaneJoiningPlan (u : UsablePlanes P) (composition : List LayerData)
    (cursorLayer : Option LayerData) (preferMerge : Bool) : Option (LayerToPlaneJoiningPlan P) :=
  -- `std::stable_partition`
  let avail :=
    if preferMerge then u.avail.filter (u.isMerging ·) ++ u.avail.filter (!u.isMerging ·)
    else u.avail
  if !cursorUsable u cursorLayer then none
  else
    let placed := placeSteered u avail {} composition preferMerge
    let seated :=
      if placed.steered then some placed.plan.plan
      else placeFirstFit u placed.plan.plan avail placed.composition
    match seated with
    | none => none
    | some joinings =>
      some
        { placed.plan with
          plan :=
            match cursorLayer, u.cursor with
            | some layer, some p => emplace joinings layer p
            | _, _ => joinings }

-- ---------------------------------------------------------------------------
-- Blocks
-- ---------------------------------------------------------------------------

/-- What stands in one block still does with some elements gone. -/
theorem oneBlock_sublist {α : Type} {p : α → Prop} {l l' : List α} (h : OneBlock p l)
    (hSub : l'.Sublist l) : OneBlock p l' := by
  obtain ⟨before, block, after, rfl, hBefore, hBlock, hAfter⟩ := h
  obtain ⟨first, after', rfl, hFirst, hAfterSub⟩ := List.sublist_append_iff.mp hSub
  obtain ⟨before', block', rfl, hBeforeSub, hBlockSub⟩ := List.sublist_append_iff.mp hFirst
  refine ⟨before', block', after', rfl, ?_, ?_, ?_⟩
  · exact fun a ha => hBefore a (hBeforeSub.subset ha)
  · exact fun a ha => hBlock a (hBlockSub.subset ha)
  · exact fun a ha => hAfter a (hAfterSub.subset ha)

/-- A block of the images is a block of what they are images of. -/
theorem oneBlock_of_map {α β : Type} {p : β → Prop} {f : α → β} {l : List α}
    (h : OneBlock p (l.map f)) : OneBlock (fun a => p (f a)) l := by
  obtain ⟨before, block, after, hSplit, hBefore, hBlock, hAfter⟩ := h
  obtain ⟨first, after', rfl, hFirst, rfl⟩ := List.map_eq_append_iff.mp hSplit
  obtain ⟨before', block', rfl, rfl, rfl⟩ := List.map_eq_append_iff.mp hFirst
  refine ⟨before', block', after', rfl, ?_, ?_, ?_⟩
  · exact fun a ha => hBefore (f a) (List.mem_map_of_mem ha)
  · exact fun a ha => hBlock (f a) (List.mem_map_of_mem ha)
  · exact fun a ha => hAfter (f a) (List.mem_map_of_mem ha)

/-- The positions from `b` up to `b + w` are a block. -/
theorem oneBlock_of_positions {α : Type} {p : α → Prop} {l : List α} (b w : Nat)
    (h : ∀ (k : Nat) (a : α), l[k]? = some a → (p a ↔ b ≤ k ∧ k < b + w)) : OneBlock p l := by
  refine ⟨l.take b, (l.drop b).take w, (l.drop b).drop w, ?_, ?_, ?_, ?_⟩
  · rw [List.append_assoc, List.take_append_drop, List.take_append_drop]
  · intro a ha hp
    obtain ⟨k, hk⟩ := List.mem_iff_getElem?.mp ha
    rw [List.getElem?_take] at hk
    split at hk
    · have hPos := (h k a hk).mp hp
      omega
    · cases hk
  · intro a ha
    obtain ⟨k, hk⟩ := List.mem_iff_getElem?.mp ha
    rw [List.getElem?_take] at hk
    split at hk
    · rw [List.getElem?_drop] at hk
      exact (h _ a hk).mpr (by omega)
    · cases hk
  · intro a ha hp
    obtain ⟨k, hk⟩ := List.mem_iff_getElem?.mp ha
    rw [List.getElem?_drop, List.getElem?_drop] at hk
    have hPos := (h _ a hk).mp hp
    omega

-- ---------------------------------------------------------------------------
-- Seating a list of layers
-- ---------------------------------------------------------------------------

/-- A joining's position in the plan is its `z_pos`. -/
def ZInOrder (joinings : List (LayerToPlaneJoining P)) : Prop :=
  ∀ (k : Nat) (j : LayerToPlaneJoining P), joinings[k]? = some j → j.zPos = k

/-- The layers on merging planes share one transform. -/
def OneTurn (u : UsablePlanes P) (joinings : List (LayerToPlaneJoining P)) : Prop :=
  ∀ j ∈ joinings, ∀ j' ∈ joinings, u.isMerging j.plane = true → u.isMerging j'.plane = true →
    j.layer.pi.transform = j'.layer.pi.transform

/-- A list of layers seated: one joining a layer in their order, planes of the
list each used once, valid for their layers, and one group at most. -/
structure Seated (u : UsablePlanes P) (avail : List P) (composition : List LayerData)
    (joinings : List (LayerToPlaneJoining P)) : Prop where
  layers : joinings.map (·.layer) = composition
  planes : (joinings.map (·.plane)).Subperm avail
  valid : ∀ j ∈ joinings, u.isValidForLayer j.plane j.layer = true
  zInOrder : ZInOrder joinings
  oneBlock : OneBlock (fun j => u.isMerging j.plane = true) joinings
  oneTurn : OneTurn u joinings

/-- The plane found fits, and with the planes after it comes from the list. -/
theorem findPlane_some {fits : P → Bool} {ps passed : List P} {p : P}
    (h : findPlane fits ps = some (p, passed)) :
    fits p = true ∧ (p :: passed).Sublist ps := by
  induction ps with
  | nil => cases h
  | cons q ps ih =>
    unfold findPlane at h
    split at h
    · rename_i hFits
      obtain ⟨rfl, rfl⟩ : q = p ∧ ps = passed := by simpa using h
      exact ⟨hFits, List.Sublist.refl _⟩
    · obtain ⟨hFits, hSub⟩ := ih h
      exact ⟨hFits, hSub.trans (List.sublist_cons_self q ps)⟩

/-- Positions are counted up as layers are seated. -/
theorem zInOrder_emplace {joinings : List (LayerToPlaneJoining P)} (h : ZInOrder joinings)
    (layer : LayerData) (plane : P) : ZInOrder (emplace joinings layer plane) := by
  intro k j hj
  unfold emplace at hj
  rw [List.getElem?_append] at hj
  split at hj
  · exact h k j hj
  · rename_i hk
    obtain ⟨hLast, rfl⟩ := List.getElem?_eq_some_iff.mp hj
    rw [List.length_singleton] at hLast
    rw [List.getElem_singleton]
    show joinings.length = k
    omega

/-- What the first fit adds to a plan, one layer after another. -/
theorem placeFirstFit_adds {u : UsablePlanes P} :
    ∀ {composition : List LayerData} {plan joinings : List (LayerToPlaneJoining P)}
      {avail : List P}, placeFirstFit u plan avail composition = some joinings →
      ZInOrder plan → OneTurn u plan → ZInOrder joinings ∧ OneTurn u joinings ∧
      ∃ added, joinings = plan ++ added ∧ added.map (·.layer) = composition ∧
        (added.map (·.plane)).Sublist avail ∧
        ∀ j ∈ added, u.isValidForLayer j.plane j.layer = true := by
  intro composition
  induction composition with
  | nil =>
    intro plan joinings avail h hZ hTurn
    obtain rfl : plan = joinings := by simpa [placeFirstFit] using h
    exact ⟨hZ, hTurn, [], by simp⟩
  | cons dhl rest ih =>
    intro plan joinings avail h hZ hTurn
    unfold placeFirstFit at h
    split at h
    · cases h
    · rename_i p passed hFound
      obtain ⟨hFits, hSub⟩ := findPlane_some hFound
      obtain ⟨hValid, hShares⟩ := Bool.and_eq_true_iff.mp hFits
      -- a layer that joins the group turns as every member already there
      have hAgrees : u.isMerging p = true → ∀ j ∈ plan, u.isMerging j.plane = true →
          dhl.pi.transform = j.layer.pi.transform := by
        intro hMerging j hj hMergingJ
        rw [hMerging, Bool.not_true, Bool.false_or, List.all_eq_true] at hShares
        have hThis := hShares j hj
        rw [hMergingJ, Bool.not_true, Bool.false_or] at hThis
        exact sharesTurn_iff.mp hThis
      have hTurn' : OneTurn u (emplace plan dhl p) := by
        intro j hj j' hj' hm hm'
        rcases List.mem_append.mp hj with hj | hj <;> rcases List.mem_append.mp hj' with hj' | hj'
        · exact hTurn j hj j' hj' hm hm'
        · rw [List.mem_singleton.mp hj'] at hm' ⊢
          exact (hAgrees hm' j hj hm).symm
        · rw [List.mem_singleton.mp hj] at hm ⊢
          exact hAgrees hm j' hj' hm'
        · rw [List.mem_singleton.mp hj, List.mem_singleton.mp hj']
      obtain ⟨hZ', hTurn'', added, rfl, hLayers, hPlanes, hValidRest⟩ :=
        ih h (zInOrder_emplace hZ dhl p) hTurn'
      refine ⟨hZ', hTurn'', ⟨dhl, p, plan.length⟩ :: added, ?_, ?_, ?_, ?_⟩
      · simp [emplace]
      · simp [hLayers]
      · exact (hPlanes.cons_cons p).trans hSub
      · intro j hj
        rcases List.mem_cons.mp hj with rfl | hj
        · exact hValid
        · exact hValidRest j hj

/-- **The first fit seats the list it is given**, and its planes being taken
in the order they are listed, the group's are one block of them. -/
theorem placeFirstFit_seated {u : UsablePlanes P} {avail : List P}
    {composition : List LayerData} {joinings : List (LayerToPlaneJoining P)}
    (hBlock : OneBlock (fun p => u.isMerging p = true) avail)
    (h : placeFirstFit u [] avail composition = some joinings) :
    Seated u avail composition joinings := by
  obtain ⟨hZ, hTurn, added, rfl, hLayers, hPlanes, hValid⟩ :=
    placeFirstFit_adds h (fun k j hj => by simp at hj) (fun j hj => by cases hj)
  exact ⟨hLayers, hPlanes.subperm, hValid, hZ,
    oneBlock_of_map (oneBlock_sublist hBlock hPlanes), hTurn⟩

/-- What the walk of the steering seats: each layer validly, the run on
merging planes and only the run, and each class in its listed order. -/
theorem seatRun_some {u : UsablePlanes P} {b w : Nat} :
    ∀ {composition : List LayerData} {i : Nat} {ordinaryIt mergingIt seats : List P},
      seatRun u b w i ordinaryIt mergingIt composition = some seats →
      seats.length = composition.length ∧
      (∀ (k : Nat) (p : P) (dhl : LayerData), seats[k]? = some p → composition[k]? = some dhl →
        (u.isMerging p = true ↔ b ≤ i + k ∧ i + k < b + w) ∧
          u.isValidForLayer p dhl = true) ∧
      (seats.filter (u.isMerging ·)).Sublist mergingIt ∧
      (seats.filter (!u.isMerging ·)).Sublist ordinaryIt := by
  intro composition
  induction composition with
  | nil =>
    intro i ordinaryIt mergingIt seats h
    obtain rfl : seats = [] := by simpa [seatRun] using h.symm
    simp
  | cons dhl rest ih =>
    intro i ordinaryIt mergingIt seats h
    unfold seatRun at h
    simp only at h
    split at h
    · cases h
    · rename_i p passed hFound
      obtain ⟨seatsRest, hRest, rfl⟩ := Option.map_eq_some_iff.mp h
      obtain ⟨hFits, hSub⟩ := findPlane_some hFound
      obtain ⟨hMerging, hValid⟩ := Bool.and_eq_true_iff.mp hFits
      rw [beq_iff_eq] at hMerging
      obtain ⟨hLen, hEach, hMer, hOrd⟩ := ih hRest
      refine ⟨by simp [hLen], ?_, ?_, ?_⟩
      · intro k q dhl' hq hdhl'
        cases k with
        | zero =>
          obtain rfl : p = q := by simpa using hq
          obtain rfl : dhl = dhl' := by simpa using hdhl'
          refine ⟨?_, hValid⟩
          rw [hMerging]
          simp
        | succ k =>
          have hThis := hEach k q dhl' (by simpa using hq) (by simpa using hdhl')
          have hPos : i + 1 + k = i + (k + 1) := by omega
          rwa [hPos] at hThis
      · -- a merging plane was taken from its own class's cursor
        cases hm : u.isMerging p with
        | true =>
          rw [← hMerging, hm, if_pos rfl] at hMer hSub
          rw [List.filter_cons_of_pos (by simp [hm])]
          exact (hMer.cons_cons p).trans hSub
        | false =>
          rw [← hMerging, hm] at hMer
          rw [List.filter_cons_of_neg (by simp [hm])]
          simpa using hMer
      · cases hm : u.isMerging p with
        | true =>
          rw [← hMerging, hm] at hOrd
          rw [List.filter_cons_of_neg (by simp [hm])]
          simpa using hOrd
        | false =>
          rw [← hMerging, hm] at hOrd hSub
          rw [List.filter_cons_of_pos (by simp [hm])]
          simp only [Bool.false_eq_true, if_false] at hOrd hSub
          exact (hOrd.cons_cons p).trans hSub

/-- Planes taken class by class, each class from its own list, are taken from
the whole list once each. -/
theorem subperm_of_classes {p : P → Bool} {seats avail : List P}
    (hYes : (seats.filter p).Sublist avail) (hNo : (seats.filter (!p ·)).Sublist avail) :
    seats.Subperm avail := by
  have hYes' : (seats.filter p).Sublist (avail.filter p) := by
    simpa [List.filter_filter] using hYes.filter p
  have hNo' : (seats.filter (!p ·)).Sublist (avail.filter (!p ·)) := by
    simpa [List.filter_filter] using hNo.filter (!p ·)
  have hBoth := (hYes'.append hNo').subperm
  have hSeats := (List.filter_append_perm p seats).symm
  exact hSeats.subperm.trans (hBoth.trans (List.filter_append_perm p avail).subperm)

/-- Seating a list of layers on as many planes. -/
theorem foldl_emplace (pairs : List (LayerData × P)) (plan : List (LayerToPlaneJoining P)) :
    (pairs.foldl (fun joinings x => emplace joinings x.1 x.2) plan).map (·.layer) =
        plan.map (·.layer) ++ pairs.map (·.1) ∧
      (pairs.foldl (fun joinings x => emplace joinings x.1 x.2) plan).map (·.plane) =
        plan.map (·.plane) ++ pairs.map (·.2) ∧
      (ZInOrder plan →
        ZInOrder (pairs.foldl (fun joinings x => emplace joinings x.1 x.2) plan)) := by
  induction pairs generalizing plan with
  | nil => simp
  | cons x pairs ih =>
    obtain ⟨hLayers, hPlanes, hZ⟩ := ih (emplace plan x.1 x.2)
    refine ⟨?_, ?_, fun h => hZ (zInOrder_emplace h x.1 x.2)⟩
    · simpa [emplace] using hLayers
    · simpa [emplace] using hPlanes

/-- The three bits of a turn tell the transforms apart. -/
theorem turnBits_inj : ∀ ah av ar bh bv br : Bool,
    (if ah then 1 else 0) ||| (if av then 2 else 0) ||| (if ar then 4 else 0) =
      (if bh then 1 else 0) ||| (if bv then 2 else 0) ||| (if br then 4 else 0) →
    ah = bh ∧ av = bv ∧ ar = br := by
  decide

/-- Layers of one turn have one transform. -/
theorem transform_of_turn {a b : LayerData} (h : (groupMember a).turn = (groupMember b).turn) :
    a.pi.transform = b.pi.transform := by
  obtain ⟨hFlip, vFlip, hRotate⟩ := turnBits_inj _ _ _ _ _ _ h
  cases ha : a.pi.transform
  cases hb : b.pi.transform
  rw [ha, hb] at hFlip vFlip hRotate
  simp only [LayerTransform.mk.injEq]
  exact ⟨hFlip, vFlip, hRotate⟩

/-- **What the steering seats is seated**, given that the run it merges has
one turn. -/
theorem seatSteered_seated {u : UsablePlanes P} {avail : List P}
    {plan : LayerToPlaneJoiningPlan P} {composition : List LayerData} {b w turn : Nat}
    (hEmpty : plan.plan = [])
    (hTurn : ∀ (k : Nat) (dhl : LayerData), b ≤ k → k < b + w → composition[k]? = some dhl →
      (groupMember dhl).turn = turn)
    (hSteered : (seatSteered u avail plan composition b w).steered = true) :
    Seated u avail composition (seatSteered u avail plan composition b w).plan.plan := by
  unfold seatSteered at *
  split at hSteered
  · cases hSteered
  · rename_i seats hSeats
    obtain ⟨hLen, hEach, hMer, hOrd⟩ := seatRun_some hSeats
    obtain ⟨hLayers, hPlanes, hZ⟩ := foldl_emplace (composition.zip seats) plan.plan
    set joinings := (composition.zip seats).foldl (fun joinings x => emplace joinings x.1 x.2)
      plan.plan with hJoinings
    rw [hEmpty, List.map_nil, List.nil_append, List.map_fst_zip (by omega)] at hLayers
    rw [hEmpty, List.map_nil, List.nil_append, List.map_snd_zip (by omega)] at hPlanes
    -- the joining at a position is the layer and the seat there
    have hAt : ∀ (k : Nat) (j : LayerToPlaneJoining P), joinings[k]? = some j →
        composition[k]? = some j.layer ∧ seats[k]? = some j.plane := by
      intro k j hj
      rw [← hLayers, ← hPlanes, List.getElem?_map, List.getElem?_map, hj]
      exact ⟨rfl, rfl⟩
    have hMerged : ∀ (k : Nat) (j : LayerToPlaneJoining P), joinings[k]? = some j →
        (u.isMerging j.plane = true ↔ b ≤ k ∧ k < b + w) := by
      intro k j hj
      obtain ⟨hLayer, hPlane⟩ := hAt k j hj
      have hThis := (hEach k j.plane j.layer hPlane hLayer).1
      rwa [Nat.zero_add] at hThis
    refine ⟨hLayers, ?_, ?_, ?_, ?_, ?_⟩
    · show (joinings.map (·.plane)).Subperm avail
      rw [hPlanes]
      exact subperm_of_classes hMer hOrd
    · intro j hj
      obtain ⟨k, hk⟩ := List.mem_iff_getElem?.mp hj
      obtain ⟨hLayer, hPlane⟩ := hAt k j hk
      exact (hEach k j.plane j.layer hPlane hLayer).2
    · exact hZ (by
        rw [hEmpty]
        intro k j hj
        cases hj)
    · exact oneBlock_of_positions b w hMerged
    · intro j hj j' hj' hm hm'
      obtain ⟨k, hk⟩ := List.mem_iff_getElem?.mp hj
      obtain ⟨k', hk'⟩ := List.mem_iff_getElem?.mp hj'
      obtain ⟨hLow, hHigh⟩ := (hMerged k j hk).mp hm
      obtain ⟨hLow', hHigh'⟩ := (hMerged k' j' hk').mp hm'
      refine transform_of_turn ?_
      rw [hTurn k j.layer hLow hHigh (hAt k j hk).1, hTurn k' j'.layer hLow' hHigh' (hAt k' j' hk').1]

-- ---------------------------------------------------------------------------
-- The order of the layers
-- ---------------------------------------------------------------------------

/-- The layers of an order, position by position. -/
theorem getElem?_filterMap_order {composition : List LayerData} {order : List Nat}
    (hIn : ∀ i ∈ order, i < composition.length) (k : Nat) :
    (order.filterMap (composition[·]?))[k]? = (order[k]?).bind (composition[·]?) := by
  induction order generalizing k with
  | nil => simp
  | cons i order ih =>
    have hlt : i < composition.length := hIn i (by simp)
    have hi : composition[i]? = some composition[i] := List.getElem?_eq_getElem hlt
    rw [List.filterMap_cons_some hi]
    cases k with
    | zero => simp [hi]
    | succ k => simpa using ih (fun j hj => hIn j (by simp [hj])) k

/-- The ranks written for an order name each layer's place in it. -/
theorem ranksOf_spec {order : List Nat} (hNodup : order.Nodup) (n : Nat)
    (hIn : ∀ i ∈ order, i < n) {r i : Nat} (hr : order[r]? = some i) :
    (order.zipIdx.foldl (fun ranks entry => ranks.set entry.1 entry.2)
      (List.replicate n 0))[i]? = some r := by
  have hLength : ∀ (entries : List (Nat × Nat)) (ranks : List Nat),
      (entries.foldl (fun ranks entry => ranks.set entry.1 entry.2) ranks).length =
        ranks.length := by
    intro entries
    induction entries with
    | nil => exact fun _ => rfl
    | cons entry entries ih =>
      intro ranks
      rw [List.foldl_cons, ih, List.length_set]
  induction order using List.reverseRecOn generalizing r with
  | nil => cases hr
  | append_singleton order last ih =>
    rw [List.nodup_append] at hNodup
    obtain ⟨hOrder, -, hApart⟩ := hNodup
    rw [List.zipIdx_append, List.foldl_append, List.zipIdx_cons, List.zipIdx_nil,
      List.foldl_cons, List.foldl_nil, Nat.zero_add]
    rw [List.getElem?_append] at hr
    split at hr
    · -- an earlier layer: the last write went elsewhere
      have hne : last ≠ i := by
        have hMem : i ∈ order := List.mem_of_getElem? hr
        exact fun hEq => hApart i hMem last (by simp) hEq.symm
      rw [List.getElem?_set_ne hne]
      exact ih hOrder (fun j hj => hIn j (by simp [hj])) hr
    · rename_i hLast
      obtain ⟨hZero, rfl⟩ := List.getElem?_eq_some_iff.mp hr
      rw [List.length_singleton] at hZero
      have hr' : r = order.length := by omega
      have hInside : last < n := hIn last (by simp)
      simp only [List.getElem_singleton]
      rw [List.getElem?_set_self (by rw [hLength, List.length_replicate]; exact hInside), hr']

/-- A list of layers that is the composition in another order: which the
ranks record, and which moves no two layers that overlap past each other. -/
def Reordered (composition composition' : List LayerData) (ranks : List Nat) : Prop :=
  ∃ order : List Nat, order.Perm (List.range composition.length) ∧
    MergeGroup.KeepsOrder (composition.map groupMember) order ∧
    composition' = order.filterMap (composition[·]?) ∧
    ∀ r i : Nat, order[r]? = some i → (ranks[i]?).getD i = r

/-- The indices of an order are those of the layers. -/
theorem lt_of_mem_perm_range {order : List Nat} {n : Nat} (h : order.Perm (List.range n)) :
    ∀ i ∈ order, i < n := by
  intro i hi
  exact List.mem_range.mp (h.mem_iff.mp hi)

/-- The layers in the order they came. -/
theorem filterMap_range (composition : List LayerData) :
    (List.range composition.length).filterMap (composition[·]?) = composition := by
  refine List.ext_getElem? fun k => ?_
  rw [getElem?_filterMap_order (fun i hi => List.mem_range.mp hi)]
  by_cases hk : k < composition.length
  · rw [List.getElem?_range hk, Option.bind_some]
  · rw [List.getElem?_eq_none (by simpa using hk), Option.bind_none,
      List.getElem?_eq_none (by omega)]

/-- The composition as it came is a reordering with no ranks recorded. -/
theorem reordered_refl (composition : List LayerData) : Reordered composition composition [] := by
  refine ⟨List.range composition.length, List.Perm.refl _, ?_, (filterMap_range _).symm, ?_⟩
  · refine List.pairwise_lt_range.imp fun {a b} hlt hgt => ?_
    omega
  · intro r i hr
    obtain ⟨hlt, rfl⟩ := List.getElem?_eq_some_iff.mp hr
    simp

/-- A good choice reorders the composition as its ranks say. -/
theorem reordered_of_good {composition : List LayerData} {width : Nat} {group : GroupChoice}
    (hGood : MergeGroup.Good (composition.map groupMember) width group) :
    Reordered composition (group.order.filterMap (composition[·]?)) (ranksOf group.order) := by
  have hPerm := hGood.perm
  rw [List.length_map] at hPerm
  refine ⟨group.order, hPerm, hGood.keepsOrder, rfl, ?_⟩
  intro r i hr
  have hLen : group.order.length = composition.length := by
    rw [hPerm.length_eq, List.length_range]
  unfold ranksOf
  rw [ranksOf_spec (hPerm.nodup_iff.mpr List.nodup_range) group.order.length
    (by rw [hLen]; exact lt_of_mem_perm_range hPerm) hr]
  rfl

/-- The run a good choice merges has one turn. -/
theorem turn_of_good {composition : List LayerData} {width : Nat} {group : GroupChoice}
    (hGood : MergeGroup.Good (composition.map groupMember) width group) :
    ∃ turn, ∀ (k : Nat) (dhl : LayerData), group.begin_ ≤ k → k < group.begin_ + width →
      (group.order.filterMap (composition[·]?))[k]? = some dhl →
      (groupMember dhl).turn = turn := by
  have hPerm := hGood.perm
  rw [List.length_map] at hPerm
  obtain ⟨below, members, above, turn, hOrder, hBelow, hWidth, -, hTurn, -⟩ := hGood.group
  refine ⟨turn, fun k dhl hLow hHigh hk => ?_⟩
  rw [getElem?_filterMap_order (lt_of_mem_perm_range hPerm)] at hk
  obtain ⟨m, hm, hdhl⟩ := Option.bind_eq_some_iff.mp hk
  have hMember : m ∈ members := by
    rw [hOrder, List.append_assoc, List.getElem?_append_right (by omega),
      List.getElem?_append_left (by omega)] at hm
    exact List.mem_of_getElem? hm
  have hThis := hTurn m hMember
  rw [List.getElem?_map, hdhl] at hThis
  simpa using hThis

/-- What a seating attempt must leave, seated or not. -/
structure PlacedWell (u : UsablePlanes P) (avail : List P) (composition : List LayerData)
    (placed : Placed P) : Prop where
  reordered : Reordered composition placed.composition placed.plan.rankOfInput
  seated : placed.steered = true → Seated u avail placed.composition placed.plan.plan
  untouched : placed.steered = false → placed.plan.plan = []

/-- An attempt given up before any layer moved. -/
theorem placedWell_refused {u : UsablePlanes P} {avail : List P} {composition : List LayerData}
    {plan : LayerToPlaneJoiningPlan P} (hEmpty : plan.plan = []) (hRanks : plan.rankOfInput = []) :
    PlacedWell u avail composition ⟨false, plan, composition⟩ where
  reordered := by
    show Reordered composition composition plan.rankOfInput
    rw [hRanks]
    exact reordered_refl composition
  seated := by
    intro h
    cases h
  untouched := fun _ => hEmpty

/-- The seating of a chosen group, refused late or not. -/
theorem placedWell_seatSteered {u : UsablePlanes P} {avail : List P}
    {composition composition' : List LayerData} {plan : LayerToPlaneJoiningPlan P}
    {b w turn : Nat} (hEmpty : plan.plan = [])
    (hReordered : Reordered composition composition' plan.rankOfInput)
    (hTurn : ∀ (k : Nat) (dhl : LayerData), b ≤ k → k < b + w → composition'[k]? = some dhl →
      (groupMember dhl).turn = turn) :
    PlacedWell u avail composition (seatSteered u avail plan composition' b w) where
  reordered := by
    unfold seatSteered
    split <;> exact hReordered
  seated := by
    intro hSteered
    have hSame : (seatSteered u avail plan composition' b w).composition = composition' := by
      unfold seatSteered
      split <;> rfl
    rw [hSame]
    exact seatSteered_seated hEmpty hTurn hSteered
  untouched := by
    unfold seatSteered
    split
    · exact fun _ => hEmpty
    · intro h
      cases h

/-- **Every exit of the steering** leaves the composition in an order the
ranks record and overlaps allow, and a plan either whole or empty. -/
theorem placeSteered_placedWell {u : UsablePlanes P} {avail : List P}
    {plan : LayerToPlaneJoiningPlan P} (composition : List LayerData) (preferMerge : Bool)
    (hEmpty : plan.plan = []) (hRanks : plan.rankOfInput = []) :
    PlacedWell u avail composition (placeSteered u avail plan composition preferMerge) := by
  unfold placeSteered
  simp only
  split
  · exact placedWell_refused hEmpty hRanks
  split
  · exact placedWell_refused hEmpty hRanks
  split
  · exact placedWell_refused hEmpty hRanks
  split
  · exact placedWell_refused hEmpty hRanks
  · rename_i group hGroup
    have hGood := MergeGroup.chooseMergeGroup_good hGroup
    obtain ⟨turn, hTurn⟩ := turn_of_good hGood
    split
    · exact placedWell_seatSteered hEmpty (reordered_of_good hGood) hTurn
    · -- nothing lowered: the group is a run of the stack as it came
      rename_i hLowered
      have hOrder := hGood.unmoved (by omega)
      rw [List.length_map] at hOrder
      rw [hOrder, filterMap_range] at hTurn
      refine placedWell_seatSteered hEmpty ?_ hTurn
      show Reordered composition composition plan.rankOfInput
      rw [hRanks]
      exact reordered_refl composition

-- ---------------------------------------------------------------------------
-- The plan returned
-- ---------------------------------------------------------------------------

/-- What a plan returned must be of the composition it was asked for. -/
structure Joined (u : UsablePlanes P) (composition : List LayerData)
    (cursorLayer : Option LayerData) (plan : LayerToPlaneJoiningPlan P) : Prop where
  /-- One joining a layer, the cursor's included. -/
  length : plan.plan.length = composition.length + cursorLayer.toList.length
  /-- The joining at a layer's rank is that layer's. -/
  placed : ∀ (i : Nat) (dhl : LayerData), composition[i]? = some dhl →
    ∃ j, plan.plan[plan.rankOf i]? = some j ∧ j.layer = dhl
  /-- The ranks of the layers are the positions below the cursor, each once. -/
  ranks : ∀ i < composition.length, plan.rankOf i < composition.length
  ranksApart : ∀ i < composition.length, ∀ k < composition.length,
    plan.rankOf i = plan.rankOf k → i = k
  /-- The cursor comes last, on its own plane. -/
  cursorLast : ∀ layer, cursorLayer = some layer →
    ∃ j, plan.plan[composition.length]? = some j ∧ j.layer = layer ∧ u.cursor = some j.plane
  /-- Layers that overlap keep their order. -/
  overlaps : ∀ i k, i < k → ∀ a b, composition[i]? = some a → composition[k]? = some b →
    MergeGroup.overlaps (groupMember a) (groupMember b) = true → plan.rankOf i < plan.rankOf k
  /-- No plane is used twice, and every one takes its layer. -/
  planesOnce : (plan.plan.map (·.plane)).Nodup
  planesUsable : ∀ j ∈ plan.plan, j.plane ∈ u.avail ++ u.cursor.toList
  valid : ∀ j ∈ plan.plan, u.isValidForLayer j.plane j.layer = true
  /-- The merged layers are neighbours, and share one transform. -/
  oneBlock : OneBlock (fun j => u.isMerging j.plane = true) plan.plan
  oneTurn : OneTurn u plan.plan
  zInOrder : ZInOrder plan.plan

/-- The rank of a layer of a reordered list is its place there. -/
theorem rank_of_reordered {composition composition' : List LayerData} {ranks : List Nat}
    (h : Reordered composition composition' ranks) {i : Nat} {dhl : LayerData}
    (hi : composition[i]? = some dhl) : composition'[(ranks[i]?).getD i]? = some dhl := by
  obtain ⟨order, hPerm, -, rfl, hRank⟩ := h
  have hlt : i < composition.length := (List.getElem?_eq_some_iff.mp hi).1
  have hMem : i ∈ order := hPerm.mem_iff.mpr (List.mem_range.mpr hlt)
  obtain ⟨r, hr⟩ := List.mem_iff_getElem?.mp hMem
  rw [hRank r i hr, getElem?_filterMap_order (lt_of_mem_perm_range hPerm), hr]
  exact hi

/-- No two layers of a reordered list have one rank. -/
theorem rank_inj_of_reordered {composition composition' : List LayerData} {ranks : List Nat}
    (h : Reordered composition composition' ranks) {i k : Nat} (hi : i < composition.length)
    (hk : k < composition.length) (hEq : (ranks[i]?).getD i = (ranks[k]?).getD k) : i = k := by
  obtain ⟨order, hPerm, -, -, hRank⟩ := h
  obtain ⟨r, hr⟩ := List.mem_iff_getElem?.mp (hPerm.mem_iff.mpr (List.mem_range.mpr hi))
  obtain ⟨r', hr'⟩ := List.mem_iff_getElem?.mp (hPerm.mem_iff.mpr (List.mem_range.mpr hk))
  rw [hRank r i hr, hRank r' k hr'] at hEq
  rw [hEq, hr'] at hr
  exact (Option.some.inj hr).symm

/-- Overlapping layers keep their order in a reordered list. -/
theorem rank_lt_of_overlaps {composition composition' : List LayerData} {ranks : List Nat}
    (h : Reordered composition composition' ranks) {i k : Nat} (hik : i < k) {a b : LayerData}
    (ha : composition[i]? = some a) (hb : composition[k]? = some b)
    (hOverlap : MergeGroup.overlaps (groupMember a) (groupMember b) = true) :
    (ranks[i]?).getD i < (ranks[k]?).getD k := by
  have hi : i < composition.length := (List.getElem?_eq_some_iff.mp ha).1
  have hk : k < composition.length := (List.getElem?_eq_some_iff.mp hb).1
  have hApart := rank_inj_of_reordered h hi hk
  obtain ⟨order, hPerm, hKeeps, -, hRank⟩ := h
  obtain ⟨r, hr⟩ := List.mem_iff_getElem?.mp (hPerm.mem_iff.mpr (List.mem_range.mpr hi))
  obtain ⟨r', hr'⟩ := List.mem_iff_getElem?.mp (hPerm.mem_iff.mpr (List.mem_range.mpr hk))
  rw [hRank r i hr, hRank r' k hr'] at hApart ⊢
  by_contra hNot
  have hlt : r' < r := by
    have hne : r ≠ r' := fun hEq => Nat.ne_of_lt hik (hApart hEq)
    omega
  -- the upper layer was placed below the lower one: it covers none of it
  obtain ⟨hrLen, hrEq⟩ := List.getElem?_eq_some_iff.mp hr
  obtain ⟨hrLen', hrEq'⟩ := List.getElem?_eq_some_iff.mp hr'
  have hPair := List.pairwise_iff_getElem.mp hKeeps r' r hrLen' hrLen hlt
  rw [hrEq, hrEq'] at hPair
  have hClear := hPair hik
  simp [MergeGroup.overlapsAt, ha, hb, hOverlap] at hClear

/-- A composition seated in some order, with no cursor. -/
theorem joined_of_seated {u : UsablePlanes P} {avail : List P}
    {composition composition' : List LayerData} {joinings : List (LayerToPlaneJoining P)}
    {plan : LayerToPlaneJoiningPlan P} (hAvail : avail.Perm u.avail)
    (hReordered : Reordered composition composition' plan.rankOfInput)
    (hSeated : Seated u avail composition' joinings) :
    Joined u composition none { plan with plan := joinings } := by
  have hLength : joinings.length = composition.length := by
    obtain ⟨order, hPerm, -, rfl, -⟩ := hReordered
    have hLayers := congrArg List.length hSeated.layers
    have hAll : order.filterMap (composition[·]?) =
        order.filterMap fun i => some ((composition[i]?).getD {}) := by
      refine List.filterMap_congr fun i hi => ?_
      have hlt : i < composition.length := lt_of_mem_perm_range hPerm i hi
      simp [hlt]
    rw [List.length_map, hAll, List.filterMap_eq_map', List.length_map, hPerm.length_eq,
      List.length_range] at hLayers
    exact hLayers
  have hUsable : (joinings.map (·.plane)).Subperm u.avail :=
    hSeated.planes.trans hAvail.subperm
  have hDistinct : u.avail.Nodup := (List.nodup_append.mp u.distinct).1
  -- the joining at a layer's rank
  have hPlaced : ∀ (i : Nat) (dhl : LayerData), composition[i]? = some dhl →
      ∃ j, joinings[(plan.rankOfInput[i]?).getD i]? = some j ∧ j.layer = dhl := by
    intro i dhl hi
    have hAt := rank_of_reordered hReordered hi
    rw [← hSeated.layers, List.getElem?_map] at hAt
    obtain ⟨j, hj, hLayer⟩ := Option.map_eq_some_iff.mp hAt
    exact ⟨j, hj, hLayer⟩
  refine
    { length := by simpa using hLength
      placed := hPlaced
      ranks := ?_
      ranksApart := fun i hi k hk hEq => rank_inj_of_reordered hReordered hi hk hEq
      cursorLast := fun layer h => by cases h
      overlaps := fun i k hik a b ha hb hOverlap =>
        rank_lt_of_overlaps hReordered hik ha hb hOverlap
      planesOnce := ?_
      planesUsable := ?_
      valid := hSeated.valid
      oneBlock := hSeated.oneBlock
      oneTurn := hSeated.oneTurn
      zInOrder := hSeated.zInOrder }
  · intro i hi
    obtain ⟨j, hj, -⟩ := hPlaced i _ (List.getElem?_eq_getElem hi)
    exact hLength ▸ (List.getElem?_eq_some_iff.mp hj).1
  · obtain ⟨l, hPerm, hSub⟩ := hUsable
    exact hPerm.nodup_iff.mp (hDistinct.sublist hSub)
  · intro j hj
    exact List.mem_append_left _ (hUsable.subset (List.mem_map_of_mem hj))

/-- The cursor put on top of a joining of the rest. -/
theorem joined_cursor {u : UsablePlanes P} {composition : List LayerData}
    {plan : LayerToPlaneJoiningPlan P} {layer : LayerData} {p : P}
    (h : Joined u composition none plan)
    (hAvail : ∀ j ∈ plan.plan, j.plane ∈ u.avail) (hCursor : u.cursor = some p)
    (hValid : u.isValidForLayer p layer = true) :
    Joined u composition (some layer) { plan with plan := emplace plan.plan layer p } := by
  have hLength : plan.plan.length = composition.length := by simpa using h.length
  have hOrdinary : u.isMerging p = false := u.cursorOrdinary p hCursor
  have hMem : ∀ j ∈ emplace plan.plan layer p,
      j ∈ plan.plan ∨ j = ⟨layer, p, plan.plan.length⟩ := by
    intro j hj
    simpa [emplace] using hj
  refine
    { length := by simp [emplace, hLength]
      placed := ?_
      ranks := h.ranks
      ranksApart := h.ranksApart
      cursorLast := ?_
      overlaps := h.overlaps
      planesOnce := ?_
      planesUsable := ?_
      valid := ?_
      oneBlock := ?_
      oneTurn := ?_
      zInOrder := zInOrder_emplace h.zInOrder layer p }
  · intro i dhl hi
    obtain ⟨j, hj, hLayer⟩ := h.placed i dhl hi
    refine ⟨j, ?_, hLayer⟩
    show (plan.plan ++ _)[plan.rankOf i]? = some j
    rw [List.getElem?_append_left (List.getElem?_eq_some_iff.mp hj).1]
    exact hj
  · intro layer' hLayer
    obtain rfl := Option.some.inj hLayer
    refine ⟨⟨layer, p, plan.plan.length⟩, ?_, rfl, hCursor⟩
    simp [emplace, ← hLength]
  · -- the cursor's plane is none of those the display lists for layers
    have hApart := (List.nodup_append.mp u.distinct).2.2
    show ((plan.plan ++ [_]).map _).Nodup
    rw [List.map_append, List.nodup_append]
    refine ⟨h.planesOnce, List.nodup_singleton _, ?_⟩
    intro q hq q' hq'
    obtain ⟨j, hj, rfl⟩ := List.mem_map.mp hq
    obtain rfl : q' = p := by simpa using hq'
    exact hApart _ (hAvail j hj) _ (by simp [hCursor])
  · intro j hj
    rcases hMem j hj with hj | rfl
    · exact h.planesUsable j hj
    · simp [hCursor]
  · intro j hj
    rcases hMem j hj with hj | rfl
    · exact h.valid j hj
    · exact hValid
  · obtain ⟨before, block, after, hSplit, hBefore, hBlock, hAfter⟩ := h.oneBlock
    refine ⟨before, block, after ++ [⟨layer, p, plan.plan.length⟩], ?_, hBefore, hBlock, ?_⟩
    · show plan.plan ++ _ = _
      rw [hSplit, List.append_assoc]
    · intro j hj
      rcases List.mem_append.mp hj with hj | hj
      · exact hAfter j hj
      · rw [List.mem_singleton.mp hj]
        show ¬u.isMerging p = true
        rw [hOrdinary]
        exact Bool.false_ne_true
  · intro j hj j' hj' hm hm'
    rcases hMem j hj with hj | rfl
    · rcases hMem j' hj' with hj' | rfl
      · exact h.oneTurn j hj j' hj' hm hm'
      · rw [hOrdinary] at hm'
        cases hm'
    · rw [hOrdinary] at hm
      cases hm

/-- The list the planes are taken from is the display's, in some order, its
merging planes still one block. -/
theorem avail_partition (u : UsablePlanes P) (preferMerge : Bool) :
    let avail :=
      if preferMerge then u.avail.filter (u.isMerging ·) ++ u.avail.filter (!u.isMerging ·)
      else u.avail
    avail.Perm u.avail ∧ OneBlock (fun p => u.isMerging p = true) avail := by
  cases preferMerge with
  | false => exact ⟨List.Perm.refl _, u.oneBlock⟩
  | true =>
    refine ⟨List.filter_append_perm _ _, [], u.avail.filter (u.isMerging ·),
      u.avail.filter (!u.isMerging ·), rfl, ?_, ?_, ?_⟩
    · intro p hp
      cases hp
    · intro p hp
      exact (List.mem_filter.mp hp).2
    · intro p hp
      have hNot := (List.mem_filter.mp hp).2
      simpa using hNot

/--
**Every plan returned is a joining of the composition.** Whatever the planes
take, whichever layers are live, with or without a preference for the merge,
and through every exit of the steering: each layer stands at its rank, layers
that overlap keep their order, no plane is used twice, and the merged layers
are neighbours with one transform.
-/
theorem createLayerToPlaneJoiningPlan_joined (u : UsablePlanes P) (composition : List LayerData)
    (cursorLayer : Option LayerData) (preferMerge : Bool) (plan : LayerToPlaneJoiningPlan P)
    (hPlan : createLayerToPlaneJoiningPlan u composition cursorLayer preferMerge = some plan) :
    Joined u composition cursorLayer plan := by
  unfold createLayerToPlaneJoiningPlan at hPlan
  obtain ⟨hPerm, hBlock⟩ := avail_partition u preferMerge
  simp only at hPlan hPerm hBlock
  set avail := if preferMerge then u.avail.filter (u.isMerging ·) ++
    u.avail.filter (!u.isMerging ·) else u.avail with hAvail
  have hWell := @placeSteered_placedWell _ u avail {} composition preferMerge rfl rfl
  set placed := placeSteered u avail {} composition preferMerge with hPlaced
  split at hPlan
  · cases hPlan
  rename_i hUsable
  split at hPlan
  · cases hPlan
  rename_i joinings hJoinings
  -- seated by the steering, or by the first fit over what it left
  have hSeated : Seated u avail placed.composition joinings := by
    split at hJoinings
    · rename_i hSteered
      obtain rfl := Option.some.inj hJoinings
      exact hWell.seated hSteered
    · rename_i hSteered
      rw [hWell.untouched (by simpa using hSteered)] at hJoinings
      exact placeFirstFit_seated hBlock hJoinings
  have hRest := joined_of_seated hPerm hWell.reordered hSeated
  obtain rfl := Option.some.inj hPlan
  cases cursorLayer with
  | none => exact hRest
  | some layer =>
    cases hCursor : u.cursor with
    | none => simp [cursorUsable, hCursor] at hUsable
    | some p =>
      have hInAvail : ∀ j ∈ joinings, j.plane ∈ u.avail := fun j hj =>
        (hSeated.planes.trans hPerm.subperm).subset (List.mem_map_of_mem hj)
      exact joined_cursor hRest hInAvail hCursor (by simpa [cursorUsable, hCursor] using hUsable)

/-- One ordinary window and a merging one offered twice, taking anything. -/
def threePlanes : UsablePlanes Nat where
  isMerging p := decide (p ≠ 0)
  isValidForLayer _ _ := true
  avail := [0, 1, 2]
  cursor := none
  distinct := by decide
  oneBlock := ⟨[0], [1, 2], [], rfl, by decide, by decide, by decide⟩
  cursorOrdinary := by
    intro p hp
    cases hp

/-- A quiet layer, a drawing one beside it and a quiet one on top. -/
def liveBetweenQuiet : List LayerData :=
  [{ pi := { displayFrame := some ⟨0, 0, 10, 10⟩ } },
    { pi := { displayFrame := some ⟨20, 0, 30, 10⟩ }, live := true },
    { pi := { displayFrame := some ⟨0, 0, 10, 20⟩ } }]

/-- The drawing layer is lowered, and the quiet ones are merged. -/
theorem createLayerToPlaneJoiningPlan_lowers :
    ∃ plan, createLayerToPlaneJoiningPlan threePlanes liveBetweenQuiet none false = some plan ∧
      plan.rankOfInput = [1, 0, 2] ∧ Joined threePlanes liveBetweenQuiet none plan :=
  ⟨_, rfl, rfl, createLayerToPlaneJoiningPlan_joined _ _ none false _ rfl⟩

end LayerToPlaneJoiningPlan

end TegraHwc
