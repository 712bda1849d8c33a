import TegraHwc.Lib.Film
import TegraHwc.Tegra.DrawnByParts
import TegraHwc.Vk.Compositor

/-!
# TegraHwc — what the panel shows of a plan

From the composition to the panel: `CreateLayerToPlaneJoiningPlan` of
`compositor/LayerToPlaneJoiningPlan.cpp` may show layers out of their order,
`GetAtomicModeReqForArgs` of `tegra/TegraAtomicStateManager.cpp` folds the
merged ones into one window, and the controller orders windows by depth. The
engine draws the group apart, over nothing, into a slot that window shows.

The controller is known by what a window shows where it lies, which is inside
its rectangle only, and by laying nearer windows over farther ones; of windows
of one depth it takes either for the nearer. Colours are any monoid: what the
blending of a window or of a seat makes of a buffer, laid over what is below.

## Results

* `described_describeAll` — the window at a binding's place is the one described
  for its layer.
* `holdsGroup_of_drawn`   — drawn whole or by parts, the slot holds the group.
* `panel_shows_composition` — the panel shows the layers of the composition,
  bottom first, as if they were laid one by one in their own order.
-/

namespace TegraHwc

open PartialRedraw Raster

/-- The place of a window on the panel. -/
def DcWindow.place (w : DcWindow) : IRect :=
  ⟨w.outX, w.outY, w.outX + w.outWidth, w.outY + w.outHeight⟩

/-- The place of the cursor's image. -/
def Cursor.place (c : Cursor) : IRect := ⟨c.x, c.y, c.x + c.width, c.y + c.height⟩

namespace TegraAtomicRequest

-- ---------------------------------------------------------------------------
-- The panel
-- ---------------------------------------------------------------------------

/-- The head and the engine, by what they show: a window of a buffer of its own
at a point of the panel, the cursor's unit, and the engine's member at a point
of the group's frame. -/
structure Panel (C : Type*) where
  window : DcWindow → Point → C
  sprite : Cursor → Point → C
  member : Nat → VicLayer → Point → C

/-- An order the controller may lay the windows in: those that are on, the
farthest first. -/
structure Scanned (r : TegraAtomicRequest) (order : List DcWindow) : Prop where
  lit : order.Perm (r.windows.filter fun w => w.bufferFd ≠ 0)
  farthest : order.Pairwise fun a b => b.z ≤ a.z

section Films

variable {C : Type*} (panel : Panel C)

/-- The cursor's image, where there is one. -/
def spriteFilm (c : Cursor) : Film Point C where
  lands := fun p => c.present && decide (inside c.place p)
  color := panel.sprite c

/-- A member of the group, in the group's frame. -/
def memberFilm (member : Nat) (l : VicLayer) : Film Point C where
  lands := fun p => decide (inside l.display p)
  color := panel.member member l

/-- A film of the group's frame on the panel. -/
def onPanel (r : TegraAtomicRequest) : Film Point C → Film Point C :=
  Film.seen fun p => (p.1 - r.merge.originX, p.2 - r.merge.originY)

/-- A window with a buffer of its own. -/
def windowFilm (w : DcWindow) : Film Point C where
  lands := fun p => decide (inside w.place p)
  color := panel.window w

/-- A window of a request. The group's shows its slot, unturned and at its own
size. -/
def scannedFilm (slot : Point → C) (r : TegraAtomicRequest) (w : DcWindow) : Film Point C :=
  if r.merge.layers ≠ [] ∧ w.index = r.merge.window then
    { lands := fun p => decide (inside w.place p)
      color := fun p => slot (p.1 - w.outX, p.2 - w.outY) }
  else windowFilm panel w

/-- **What the panel shows** of a request over the background `ground`: its
windows, and the cursor above them. -/
def shown [Monoid C] (slot : Point → C) (r : TegraAtomicRequest) (order : List DcWindow)
    (ground : C) (p : Point) : C :=
  compose ((order.map (scannedFilm panel slot r) ++ [spriteFilm panel r.cursor]).map Film.laid)
    ground p

/-- **The slot holds the group**: inside the group's frame its members lie over
one another, and over nothing. -/
def HoldsGroup [Monoid C] (merge : Merge) (slot : Point → C) : Prop :=
  ∀ q, inside (frameOf merge.width merge.height) q →
    slot q = compose (merge.layers.zipIdx.map fun l => (memberFilm panel l.2 l.1).laid) 1 q

variable (args : RequestArgs) (r : TegraAtomicRequest)

/-- The window described for a binding's layer. -/
def windowOf (args : RequestArgs) (j : Joining) : DcWindow :=
  (describeWindow args.tables args.forcedTurn j.layer j.plane.index (depthForZPos j.zPos)).getD {}

/-- What a binding shows by itself: the cursor's in its unit, a member of the
group from the group's corner, any other in the window described for it. -/
def bindingFilm (member : Nat) (j : Joining) : Film Point C :=
  if j.plane.index = TegraDisplayPipeline.kPlaneId then
    spriteFilm panel (cursorFrom args j.layer)
  else if j.plane.merging then
    let l := mergeLayerFrom j.layer
    onPanel r (memberFilm panel member
      { l with display := moved l.display (-r.merge.originX) (-r.merge.originY) })
  else windowFilm panel (windowOf args j)

/-- What the bindings of a plan show, one film each; `member` of the group came
before. -/
def bindingFilms (member : Nat) : List Joining → List (Film Point C)
  | [] => []
  | j :: rest =>
    bindingFilm panel args r member j ::
      bindingFilms (if j.plane.merging then member + 1 else member) rest

end Films

-- ---------------------------------------------------------------------------
-- The walk over the plan
-- ---------------------------------------------------------------------------

variable {p : TegraDisplayPipeline} {args : RequestArgs} {plan done : List Joining}
  {r r' : TegraAtomicRequest}

/-- What the walk has described after some of the bindings: each window bound,
as its layer is described, and the cursor. -/
structure Described (p : TegraDisplayPipeline) (args : RequestArgs) (done : List Joining)
    (r : TegraAtomicRequest) : Prop where
  window : ∀ j ∈ done, Ordinary j → ∃ w,
    describeWindow args.tables args.forcedTurn j.layer j.plane.index (depthForZPos j.zPos) =
      some w ∧ r.windows[p.windows.idxOf j.plane.index]? = some w
  sprite : ∀ j ∈ done, j.plane.index = TegraDisplayPipeline.kPlaneId →
    r.cursor = cursorFrom args j.layer
  bare : (∀ j ∈ done, j.plane.index ≠ TegraDisplayPipeline.kPlaneId) → r.cursor = {}

theorem cursorFrom_absent {layer : LayerData} (h : (cursorFrom args layer).present = false) :
    cursorFrom args layer = {} := by
  unfold cursorFrom at h ⊢
  split at h
  · cases h
  · rfl

/-- A layer set aside for the unit is what the request holds of the cursor. -/
theorem described_cursor {j : Joining} (h : Described p args done r)
    (hIndex : j.plane.index = TegraDisplayPipeline.kPlaneId)
    (hFirst : ∀ k ∈ done, k.plane.index ≠ TegraDisplayPipeline.kPlaneId)
    (hStep : r.describe p args j = some r') :
    r'.windows = r.windows ∧ r'.cursor = cursorFrom args j.layer := by
  unfold describe at hStep
  rw [if_pos hIndex] at hStep
  obtain rfl := Option.some.inj hStep
  refine ⟨rfl, ?_⟩
  show (if _ then _ else r.cursor) = _
  split
  · rfl
  · rename_i hAbsent
    rw [h.bare hFirst, cursorFrom_absent (by simpa using hAbsent)]

/-- And one bound for a window is described there. -/
theorem describe_ordinary {j : Joining} (hOrdinary : Ordinary j)
    (hStep : r.describe p args j = some r') : j.plane.index ∈ p.windows ∧ ∃ w,
      describeWindow args.tables args.forcedTurn j.layer j.plane.index (depthForZPos j.zPos) =
        some w ∧
      r' = { r with windows := r.windows.set (p.windows.idxOf j.plane.index) w } := by
  unfold describe at hStep
  rw [if_neg hOrdinary.2] at hStep
  split at hStep
  · rename_i hIndex
    simp only [hOrdinary.1, Bool.false_eq_true, if_false] at hStep
    obtain ⟨w, hw, rfl⟩ := Option.map_eq_some_iff.mp hStep
    exact ⟨hIndex, w, hw, rfl⟩
  · cases hStep

theorem described_describe {j : Joining} (h : Described p args done r) (hFilled : Filled p done r)
    (hOnce : ∀ k ∈ done, Ordinary k → Ordinary j → k.plane.index ≠ j.plane.index)
    (hUnit : j.plane.index = TegraDisplayPipeline.kPlaneId →
      ∀ k ∈ done, k.plane.index ≠ TegraDisplayPipeline.kPlaneId)
    (hStep : r.describe p args j = some r') : Described p args (done ++ [j]) r' := by
  by_cases hCursor : j.plane.index = TegraDisplayPipeline.kPlaneId
  · obtain ⟨hWindows, hSprite⟩ := described_cursor h hCursor (hUnit hCursor) hStep
    refine ⟨fun k hk hOrdinary => ?_, fun k hk hIndex => ?_, fun hNone => ?_⟩
    · rw [hWindows]
      obtain hk | hk := List.mem_append.mp hk
      · exact h.window k hk hOrdinary
      · rw [List.mem_singleton.mp hk] at hOrdinary
        exact absurd hCursor hOrdinary.2
    · obtain hk | hk := List.mem_append.mp hk
      · exact absurd hIndex (hUnit hCursor k hk)
      · rw [List.mem_singleton.mp hk]
        exact hSprite
    · exact absurd hCursor (hNone j (by simp))
  -- any other binding leaves the cursor as it is
  have hSprite : r'.cursor = r.cursor := by
    obtain ⟨hIndex, -⟩ | ⟨-, -, rfl⟩ | ⟨-, -, w, -, -, -, rfl⟩ := describe_cases hStep
    · exact absurd hIndex hCursor
    · rfl
    · rfl
  have hOld : ∀ k ∈ done ++ [j], k.plane.index = TegraDisplayPipeline.kPlaneId → k ∈ done := by
    intro k hk hIndex
    refine (List.mem_append.mp hk).resolve_right fun hLast => ?_
    rw [List.mem_singleton.mp hLast] at hIndex
    exact hCursor hIndex
  refine ⟨fun k hk hOrdinary => ?_,
    fun k hk hIndex => hSprite ▸ h.sprite k (hOld k hk hIndex) hIndex,
    fun hNone => hSprite ▸ h.bare fun k hk => hNone k (List.mem_append_left _ hk)⟩
  by_cases hOwn : Ordinary j
  · obtain ⟨hIndex, w, hw, rfl⟩ := describe_ordinary hOwn hStep
    simp only
    obtain hk | hk := List.mem_append.mp hk
    · obtain ⟨wk, hwk, hAt⟩ := h.window k hk hOrdinary
      refine ⟨wk, hwk, ?_⟩
      rw [List.getElem?_set_ne, hAt]
      intro hSame
      exact hOnce k hk hOrdinary hOwn ((List.idxOf_inj hIndex).mp hSame).symm
    · obtain rfl := List.mem_singleton.mp hk
      exact ⟨w, hw, List.getElem?_set_self (hFilled.get hIndex).1⟩
  · -- a member of the group touches no window
    have hWindows : r'.windows = r.windows := by
      obtain ⟨hIndex, -⟩ | ⟨-, -, rfl⟩ | ⟨-, hOrdinary', -⟩ := describe_cases hStep
      · exact absurd hIndex hCursor
      · rfl
      · exact absurd hOrdinary' hOwn
    rw [hWindows]
    refine h.window k ((List.mem_append.mp hk).resolve_right fun hLast => ?_) hOrdinary
    rw [List.mem_singleton.mp hLast] at hOrdinary
    exact hOwn hOrdinary

/-- The unit's plane is one plane, and bound once. -/
theorem Planned.unit_once {j k : Joining} {rest : List Joining} (h : Planned p plan)
    (hSplit : plan = done ++ j :: rest) (hk : k ∈ done)
    (hIndex : k.plane.index = TegraDisplayPipeline.kPlaneId) :
    j.plane.index ≠ TegraDisplayPipeline.kPlaneId := by
  have hUnit : ∀ q ∈ plan, q.plane.index = TegraDisplayPipeline.kPlaneId →
      q.plane = { index := TegraDisplayPipeline.kPlaneId } := by
    intro q hq hIndex'
    obtain hOffered | hUnit := usable_cases (h.planesUsable q hq)
    · exact absurd hIndex' (ne_kPlaneId_of_mem (planes_spec hOffered).1)
    · exact hUnit
  intro hIndex'
  have hOnce := h.planesOnce
  subst hSplit
  rw [List.map_append, List.nodup_append] at hOnce
  refine hOnce.2.2 _ (List.mem_map_of_mem hk) _ (List.mem_map_of_mem List.mem_cons_self) ?_
  rw [hUnit k (List.mem_append_left _ hk) hIndex, hUnit j (by simp) hIndex']

/-- **The walk describes what the plan binds**: a window bound once is the one
described for its layer. -/
theorem described_describeAll {rest : List Joining} (hPlan : Planned p plan)
    (hEach : OneEach plan) (hSplit : plan = done ++ rest) (hFilled : Filled p done r)
    (h : Described p args done r) (hWalk : r.describeAll p args rest = some r') :
    Described p args plan r' := by
  induction rest generalizing done r with
  | nil =>
    obtain rfl := Option.some.inj hWalk
    rw [hSplit, List.append_nil]
    exact h
  | cons j rest ih =>
    unfold describeAll at hWalk
    split at hWalk
    · cases hWalk
    rename_i next hNext
    have hj : j ∈ plan := by
      rw [hSplit]
      exact List.mem_append_right _ List.mem_cons_self
    have hAt : plan[done.length]? = some j := by
      rw [hSplit, List.getElem?_append_right (Nat.le_refl _), Nat.sub_self]
      rfl
    have hOnce : ∀ k ∈ done, Ordinary k → Ordinary j → k.plane.index ≠ j.plane.index := by
      intro k hk hOrdinary hOrdinary'
      obtain ⟨i, hi⟩ := List.mem_iff_getElem?.mp hk
      have hLt := (List.getElem?_eq_some_iff.mp hi).1
      refine hEach i done.length k j hLt ?_ hAt hOrdinary hOrdinary'
      rw [hSplit, List.getElem?_append_left hLt, hi]
    have hUnit : j.plane.index = TegraDisplayPipeline.kPlaneId → j.plane.merging = false := by
      intro hIndex
      by_contra hMerging
      rw [Bool.not_eq_false] at hMerging
      exact ne_kPlaneId_of_mem (hPlan.merging_mem hj hMerging) hIndex
    have hFirst : j.plane.index = TegraDisplayPipeline.kPlaneId →
        ∀ k ∈ done, k.plane.index ≠ TegraDisplayPipeline.kPlaneId :=
      fun hIndex k hk hIndex' => hPlan.unit_once hSplit hk hIndex' hIndex
    exact ih (by rw [hSplit]; simp)
      (filled_describe hFilled hOnce hUnit (hPlan.describable j hj) hNext)
      (described_describe h hFilled hOnce hFirst hNext) hWalk

-- ---------------------------------------------------------------------------
-- The windows of the request
-- ---------------------------------------------------------------------------

/-- Where the group is seated changes nothing of it but the window it names. -/
theorem seatMerge_merge : r.seatMergeInEmptyWindow.cursor = r.cursor ∧
    ∃ window, r.seatMergeInEmptyWindow.merge = { r.merge with window := window } := by
  obtain hSame | ⟨slot, w, -, -, -, hMoved⟩ := @seatMerge_cases r
  · rw [hSame]
    exact ⟨rfl, _, rfl⟩
  · rw [hMoved]
    exact ⟨rfl, _, rfl⟩

/-- A group that is placed is on the panel. -/
theorem offPanel_of_placed {mode : DrmMode} (h : r.placeMerge p args = some r')
    (hMode : p.modes.head? = some mode) (hWidth : 0 < mode.hdisplay)
    (hHeight : 0 < mode.vdisplay) : ∀ l ∈ r.merge.layers, offPanel mode l = false := by
  intro l hl
  unfold placeMerge at h
  rw [if_neg (by simpa using List.ne_nil_of_mem hl), hMode] at h
  split at h
  · cases h
  · rename_i hNone
    simp only [Option.any_some, hWidth, hHeight, decide_true, Bool.and_self, Bool.true_and,
      List.any_eq_true, not_exists, not_and, Bool.not_eq_true] at hNone
    exact hNone l hl

/-- The lowest of the group's bindings. -/
def lowestMember (plan : List Joining) : Option Joining :=
  (plan.filter fun j => j.plane.merging).head?

/-- **The windows of a request that are on**: those of the ordinary bindings, each
as its layer is described, and the group's. -/
structure Lit (p : TegraDisplayPipeline) (args : RequestArgs) (plan : List Joining)
    (r : TegraAtomicRequest) : Prop where
  once : (r.windows.map (·.index)).Nodup
  own : ∀ j ∈ plan, Ordinary j →
    r.windows[p.windows.idxOf j.plane.index]? = some (windowOf args j) ∧
      (windowOf args j).bufferFd ≠ 0 ∧ (windowOf args j).z = depthForZPos j.zPos
  group : ∀ first, lowestMember plan = some first →
    r.windows[r.slot]? = some (mergeWindow args r.merge) ∧
      (mergeWindow args r.merge).z = depthForZPos first.zPos ∧
        ∀ j ∈ plan, Ordinary j → p.windows.idxOf j.plane.index ≠ r.slot
  spare : ∀ (k : Nat) (w : DcWindow), r.windows[k]? = some w → w.bufferFd ≠ 0 →
    (∃ j ∈ plan, Ordinary j ∧ p.windows.idxOf j.plane.index = k) ∨
      k = r.slot ∧ (lowestMember plan).isSome
  sprite : ∀ j ∈ plan, j.plane.index = TegraDisplayPipeline.kPlaneId →
    r.cursor = cursorFrom args j.layer
  bare : (∀ j ∈ plan, j.plane.index ≠ TegraDisplayPipeline.kPlaneId) → r.cursor = {}

theorem Described.own {j : Joining} (h : Described p args plan r) (hPlan : Planned p plan)
    (hj : j ∈ plan) (hOrdinary : Ordinary j) :
    r.windows[p.windows.idxOf j.plane.index]? = some (windowOf args j) ∧
      (windowOf args j).bufferFd ≠ 0 ∧ (windowOf args j).z = depthForZPos j.zPos := by
  obtain ⟨w, hw, hAt⟩ := h.window j hj hOrdinary
  obtain ⟨-, hDepth, hFd⟩ := describeWindow_spec hw
  have hWindow : windowOf args j = w := by
    unfold windowOf
    rw [hw]
    rfl
  rw [hWindow]
  refine ⟨hAt, fun hOff => hPlan.describable j hj ?_, hDepth⟩
  rw [hFd, hOff]

theorem lit_of_placed (hPlan : Planned p plan) (hNear : Contiguous plan)
    (hFilled : Filled p plan r) (h : Described p args plan r)
    (hPlace : r.placeMerge p args = some r') : Lit p args plan r' := by
  have hOrder : InOrder p plan r' := inOrder_of_filled hPlan hNear hFilled hPlace
  have hSpare : ∀ (k : Nat) (w : DcWindow), r.windows[k]? = some w → w.bufferFd ≠ 0 →
      ∃ j ∈ plan, Ordinary j ∧ p.windows.idxOf j.plane.index = k := by
    intro k w hw hLit
    by_contra hNone
    push Not at hNone
    exact hLit (hFilled.spare k w hw hNone)
  obtain ⟨hNone, rfl⟩ | ⟨hSome, s, hSeated, rfl⟩ := placeMerge_cases hPlace
  · have hEmpty : lowestMember plan = none := by
      have hMembers := hFilled.members
      rw [hNone] at hMembers
      unfold lowestMember
      rw [List.map_eq_nil_iff.mp hMembers.symm]
      rfl
    refine ⟨hOrder.once, fun j hj => h.own hPlan hj, fun first hFirst => ?_,
      fun k w hw hLit => .inl (hSpare k w hw hLit), h.sprite, h.bare⟩
    rw [hEmpty] at hFirst
    cases hFirst
  obtain ⟨first, hFirst⟩ : ∃ first, lowestMember plan = some first := by
    unfold lowestMember
    cases hMembers : plan.filter fun j => j.plane.merging with
    | nil =>
      have := hFilled.members
      rw [hMembers] at this
      exact absurd this hSome
    | cons first rest => exact ⟨first, rfl⟩
  have hGroup := grouped_of_filled hPlan hFilled hFirst
  rw [hSeated] at hGroup
  have hLt : s.slot < r.windows.length := by
    by_contra hOut
    have := hGroup.named
    rw [List.getElem?_eq_none (Nat.not_lt.mp hOut)] at this
    cases this
  have hCursor : s.cursor = r.cursor := hSeated ▸ seatMerge_merge.1
  refine ⟨hOrder.once, fun j hj hOrdinary => ?_, fun first' hFirst' => ?_, fun k w hw hLit => ?_,
    fun j hj hIndex => hCursor.trans (h.sprite j hj hIndex),
    fun hNone => hCursor.trans (h.bare hNone)⟩
  · obtain ⟨hAt, hOn⟩ := h.own hPlan hj hOrdinary
    refine ⟨?_, hOn⟩
    show (s.windows.set s.slot _)[_]? = _
    rw [List.getElem?_set_ne (hGroup.apart j hj hOrdinary).symm, hGroup.windows, hAt]
  · obtain ⟨w, hw, -, hDepth, -⟩ := hOrder.lowest first' hFirst'
    have hAt : (s.windows.set s.slot (mergeWindow args s.merge))[s.slot]? =
        some (mergeWindow args s.merge) := by
      rw [hGroup.windows]
      exact List.getElem?_set_self hLt
    refine ⟨hAt, ?_, hGroup.apart⟩
    obtain rfl := Option.some.inj (hw.symm.trans hAt)
    exact hDepth
  · by_cases hHere : k = s.slot
    · exact .inr ⟨hHere, by rw [hFirst]; rfl⟩
    · replace hw : (s.windows.set s.slot _)[k]? = some w := hw
      rw [List.getElem?_set_ne (Ne.symm hHere), hGroup.windows] at hw
      exact .inl (hSpare k w hw hLit)

/-- The window a binding is seen in. -/
def seatedWindow (args : RequestArgs) (r : TegraAtomicRequest) (j : Joining) : DcWindow :=
  if j.plane.merging then mergeWindow args r.merge else windowOf args j

/-- The lowest member is a member of the plan. -/
theorem lowestMember_spec {first : Joining} (h : lowestMember plan = some first) :
    first ∈ plan ∧ first.plane.merging = true := by
  have hMem := List.mem_of_mem_head? (Option.mem_def.mpr h)
  simpa using List.mem_filter.mp hMem

/-- Every place of a plan is nearer the viewer than those under it. -/
theorem Planned.nearer (h : Planned p plan) :
    plan.Pairwise fun a b => depthForZPos b.zPos < depthForZPos a.zPos := by
  rw [List.pairwise_iff_getElem]
  intro i k hi hk hik
  obtain ⟨hDepth, -⟩ := h.depth (List.getElem?_eq_getElem hi)
  obtain ⟨hDepth', hShallow⟩ := h.depth (List.getElem?_eq_getElem hk)
  rw [hDepth, hDepth']
  omega

theorem Lit.seated (h : Lit p args plan r) {j : Joining} (hj : j ∈ plan)
    (hSeat : Ordinary j ∨ lowestMember plan = some j) :
    seatedWindow args r j ∈ r.windows ∧ (seatedWindow args r j).bufferFd ≠ 0 ∧
      (seatedWindow args r j).z = depthForZPos j.zPos := by
  unfold seatedWindow
  obtain hOrdinary | hFirst := hSeat
  · obtain ⟨hAt, hOn⟩ := h.own j hj hOrdinary
    rw [hOrdinary.1, if_neg (by decide)]
    exact ⟨List.mem_of_getElem? hAt, hOn⟩
  · obtain ⟨hAt, hDepth, -⟩ := h.group j hFirst
    rw [(lowestMember_spec hFirst).2, if_pos rfl]
    exact ⟨List.mem_of_getElem? hAt, one_ne_zero, hDepth⟩

/-- **The controller's order is the plan's**: no two windows that are on have one
depth, so the windows are laid as the plan counts upwards. -/
theorem scanned_eq (hPlan : Planned p plan) (h : Lit p args plan r) {seats : List Joining}
    (hSeats : seats.Sublist plan)
    (hSeat : ∀ j ∈ seats, Ordinary j ∨ lowestMember plan = some j)
    (hAll : ∀ j ∈ plan, Ordinary j ∨ lowestMember plan = some j → j ∈ seats)
    {order : List DcWindow} (hScan : Scanned r order) :
    order = seats.map (seatedWindow args r) := by
  have hNearer : (seats.map (seatedWindow args r)).Pairwise fun a b => b.z < a.z := by
    rw [List.pairwise_map]
    refine (hPlan.nearer.sublist hSeats).imp_of_mem fun ha hb hLt => ?_
    rw [(h.seated (hSeats.subset ha) (hSeat _ ha)).2.2,
      (h.seated (hSeats.subset hb) (hSeat _ hb)).2.2]
    exact hLt
  have hDepths : ((seats.map (seatedWindow args r)).map DcWindow.z).Nodup := by
    rw [List.Nodup, List.pairwise_map]
    exact hNearer.imp fun hLt => (Nat.ne_of_lt hLt).symm
  have hPerm : order.Perm (seats.map (seatedWindow args r)) := by
    refine hScan.lit.trans ((List.perm_ext_iff_of_nodup (h.once.of_map.filter _)
      hDepths.of_map).mpr fun w => ?_)
    rw [List.mem_filter, List.mem_map]
    constructor
    · rintro ⟨hw, hLit⟩
      obtain ⟨k, hk⟩ := List.mem_iff_getElem?.mp hw
      obtain ⟨j, hj, hOrdinary, hPlace⟩ | ⟨hSlot, hGroup⟩ := h.spare k w hk (by simpa using hLit)
      · refine ⟨j, hAll j hj (.inl hOrdinary), ?_⟩
        unfold seatedWindow
        rw [hOrdinary.1, if_neg (by decide)]
        rw [← hPlace, (h.own j hj hOrdinary).1] at hk
        exact Option.some.inj hk
      · obtain ⟨first, hFirst⟩ := Option.isSome_iff_exists.mp hGroup
        refine ⟨first, hAll first (lowestMember_spec hFirst).1 (.inr hFirst), ?_⟩
        unfold seatedWindow
        rw [(lowestMember_spec hFirst).2, if_pos rfl]
        rw [hSlot, (h.group first hFirst).1] at hk
        exact Option.some.inj hk
    · rintro ⟨j, hj, rfl⟩
      obtain ⟨hMem, hLit, -⟩ := h.seated (hSeats.subset hj) (hSeat j hj)
      exact ⟨hMem, by simpa using hLit⟩
  refine hPerm.eq_of_pairwise (fun a b ha hb hFar hFar' => ?_) hScan.farthest
    (hNearer.imp fun hLt => Nat.le_of_lt hLt)
  exact List.inj_on_of_nodup_map hDepths (hPerm.subset ha) hb (Nat.le_antisymm hFar' hFar)

-- ---------------------------------------------------------------------------
-- The group in its window
-- ---------------------------------------------------------------------------

/-- A member of the group as the engine is told of it, from the group's corner. -/
def rebased (r : TegraAtomicRequest) (j : Joining) : VicLayer :=
  { mergeLayerFrom j.layer with
    display := moved (mergeLayerFrom j.layer).display (-r.merge.originX) (-r.merge.originY) }

/-- A group that is placed has its members where the plan has them, inside its
frame. -/
theorem group_of_placed {mode : DrmMode} (hFilled : Filled p plan r)
    (hPlace : r.placeMerge p args = some r') (hMode : p.modes.head? = some mode)
    (hWidth : 0 < mode.hdisplay ∧ mode.hdisplay < 2 ^ 16)
    (hHeight : 0 < mode.vdisplay ∧ mode.vdisplay < 2 ^ 16) :
    r'.merge.layers = (plan.filter fun j => j.plane.merging).map (rebased r') ∧
      (r'.merge.layers ≠ [] → SignedSize r'.merge.width r'.merge.height ∧
        ∀ l ∈ r'.merge.layers, LiesIn (frameOf r'.merge.width r'.merge.height) l.display) := by
  have hOn := offPanel_of_placed hPlace hMode hWidth.1 hHeight.1
  obtain ⟨hNone, rfl⟩ | ⟨-, s, hSeated, rfl⟩ := placeMerge_cases hPlace
  · have hMembers := hFilled.members
    rw [hNone] at hMembers ⊢
    rw [List.map_eq_nil_iff.mp hMembers.symm]
    exact ⟨rfl, fun h => absurd rfl h⟩
  obtain ⟨window, hMerge⟩ := hSeated ▸
    (@seatMerge_merge { r with merge := rebase r.merge }).2
  obtain ⟨-, -, hSigned, hPlaced⟩ := VicSession.rebase_sound hOn hWidth hHeight
  unfold rebased
  simp only [hMerge]
  refine ⟨?_, fun _ => ⟨hSigned, hPlaced⟩⟩
  have hMoved : (rebase r.merge).layers = r.merge.layers.map fun l =>
      { l with
        display := moved l.display (-(rebase r.merge).originX) (-(rebase r.merge).originY) } := rfl
  rw [hMoved]
  generalize rebase r.merge = corner
  rw [hFilled.members, List.map_map]
  rfl

section Films

variable {C : Type*} {panel : Panel C} {slot : Point → C} {pt : Point} {member : Nat}
  {plan' : List Joining}

theorem bindingFilms_append : bindingFilms panel args r member (plan ++ plan') =
    bindingFilms panel args r member plan ++
      bindingFilms panel args r (member + plan.countP fun j => j.plane.merging) plan' := by
  induction plan generalizing member with
  | nil => rfl
  | cons j rest ih =>
    rw [List.cons_append, bindingFilms, bindingFilms, ih, List.countP_cons, List.cons_append]
    congr 3
    split <;> omega

/-- Ordinary bindings show their windows. -/
theorem bindingFilms_ordinary (hPlan : ∀ j ∈ plan, Ordinary j) :
    bindingFilms panel args r member plan =
      plan.map fun j => windowFilm panel (windowOf args j) := by
  induction plan generalizing member with
  | nil => rfl
  | cons j rest ih =>
    obtain ⟨hMerging, hIndex⟩ := hPlan j (by simp)
    rw [bindingFilms, ih fun k hk => hPlan k (by simp [hk]), bindingFilm, if_neg hIndex, hMerging,
      if_neg (by decide)]
    rfl

/-- Bindings of the group show its members in their turn. -/
theorem bindingFilms_members (hPlan : ∀ j ∈ plan, j.plane.merging = true ∧
      j.plane.index ≠ TegraDisplayPipeline.kPlaneId) :
    bindingFilms panel args r member plan =
      (((plan.map (rebased r)).zipIdx member).map fun l => memberFilm panel l.2 l.1).map
        (onPanel r) := by
  induction plan generalizing member with
  | nil => rfl
  | cons j rest ih =>
    obtain ⟨hMerging, hIndex⟩ := hPlan j (by simp)
    rw [bindingFilms, ih fun k hk => hPlan k (by simp [hk]), bindingFilm, if_neg hIndex, hMerging,
      if_pos rfl]
    rfl

/-- A window on the group's frame. -/
theorem inside_mergeWindow (hSigned : SignedSize r.merge.width r.merge.height) :
    inside (mergeWindow args r.merge).place pt ↔
      inside (frameOf r.merge.width r.merge.height)
        (pt.1 - r.merge.originX, pt.2 - r.merge.originY) := by
  unfold inside DcWindow.place mergeWindow frameOf
  simp only
  rw [asInt32_of_lt hSigned.1, asInt32_of_lt hSigned.2]
  omega

/-- **The group's window shows the group**: the slot, laid where the window is, is
the stack of the group's films flattened. -/
theorem laid_group [Monoid C] (args : RequestArgs) (pt : Point) {block : List Joining}
    (hLayers : r.merge.layers = block.map (rebased r))
    (hBlock : ∀ j ∈ block, j.plane.merging = true ∧
      j.plane.index ≠ TegraDisplayPipeline.kPlaneId)
    (hSome : block ≠ []) (hSigned : SignedSize r.merge.width r.merge.height)
    (hHolds : HoldsGroup panel r.merge slot) :
    (scannedFilm panel slot r (mergeWindow args r.merge)).laid pt =
      (Film.flattened (fun q => decide (inside (mergeWindow args r.merge).place q))
        (bindingFilms panel args r 0 block)).laid pt := by
  have hGroup : r.merge.layers ≠ [] ∧ (mergeWindow args r.merge).index = r.merge.window :=
    ⟨by rw [hLayers]; simpa using hSome, rfl⟩
  unfold scannedFilm
  rw [if_pos hGroup]
  funext below
  unfold Film.laid Film.flattened
  simp only
  by_cases hIn : inside (mergeWindow args r.merge).place pt
  · have hSlot := hHolds _ ((inside_mergeWindow hSigned).mp hIn)
    rw [bindingFilms_members hBlock, onPanel, compose_seen, ← hLayers, List.map_map]
    simp only [hIn, decide_true, if_true]
    exact congrArg (· * below) hSlot
  · simp only [hIn, decide_false, Bool.false_eq_true, if_false]

/-- No member of the group leaves its window. -/
theorem members_inside (panel : Panel C) (args : RequestArgs) (pt : Point) {block : List Joining}
    (hLayers : r.merge.layers = block.map (rebased r))
    (hBlock : ∀ j ∈ block, j.plane.merging = true ∧
      j.plane.index ≠ TegraDisplayPipeline.kPlaneId)
    (hSigned : SignedSize r.merge.width r.merge.height)
    (hPlaced : ∀ l ∈ r.merge.layers, LiesIn (frameOf r.merge.width r.merge.height) l.display) :
    ∀ f ∈ bindingFilms panel args r 0 block, f.lands pt = true →
      decide (inside (mergeWindow args r.merge).place pt) = true := by
  rw [bindingFilms_members hBlock, ← hLayers]
  intro f hf hLands
  obtain ⟨g, hg, rfl⟩ := List.mem_map.mp hf
  obtain ⟨l, hl, rfl⟩ := List.mem_map.mp hg
  refine decide_eq_true ((inside_mergeWindow hSigned).mpr ?_)
  exact VicSession.inside_of_liesIn (hPlaced l.1 (List.fst_mem_of_mem_zipIdx hl))
    (of_decide_eq_true hLands)

/-- A window of a layer's own shows its buffer. -/
theorem scannedFilm_own {j : Joining} (h : Lit p args plan r) (hj : j ∈ plan)
    (hOrdinary : Ordinary j)
    (hLayers : r.merge.layers = (plan.filter fun j => j.plane.merging).map (rebased r)) :
    scannedFilm panel slot r (windowOf args j) = windowFilm panel (windowOf args j) := by
  unfold scannedFilm
  refine if_neg fun hGroup => ?_
  obtain ⟨first, hFirst⟩ : ∃ first, lowestMember plan = some first := by
    refine Option.ne_none_iff_exists'.mp fun hNone => hGroup.1 ?_
    rw [hLayers, List.head?_eq_none_iff.mp hNone]
    rfl
  obtain ⟨hAt, -, hApart⟩ := h.group first hFirst
  obtain ⟨hOwn, -⟩ := h.own j hj hOrdinary
  -- no two windows of the head have one name
  refine hApart j hj hOrdinary ((List.getElem?_inj ?_ h.once).mp ?_)
  · rw [List.length_map]
    exact (List.getElem?_eq_some_iff.mp hOwn).1
  · rw [List.getElem?_map, List.getElem?_map, hOwn, hAt]
    exact congrArg some hGroup.2

end Films

-- ---------------------------------------------------------------------------
-- The plan on the panel
-- ---------------------------------------------------------------------------

/-- A plan from the bottom: bindings of windows, the group, more windows, and the
cursor's unit on top where there is a cursor for it. -/
structure Parted (plan before block after tail : List Joining) : Prop where
  split : plan = before ++ block ++ after ++ tail
  ordinaryBefore : ∀ j ∈ before, Ordinary j
  members : ∀ j ∈ block, j.plane.merging = true ∧
    j.plane.index ≠ TegraDisplayPipeline.kPlaneId
  ordinaryAfter : ∀ j ∈ after, Ordinary j
  unit : tail = [] ∨ ∃ j, tail = [j] ∧ j.plane.merging = false ∧
    j.plane.index = TegraDisplayPipeline.kPlaneId

namespace Parted

variable {before block after tail : List Joining}

theorem members_eq (h : Parted plan before block after tail) :
    plan.filter (fun j => j.plane.merging) = block := by
  have hNone : ∀ l : List Joining, (∀ j ∈ l, j.plane.merging = false) →
      l.filter (fun j => j.plane.merging) = [] := by
    intro l hl
    rw [List.filter_eq_nil_iff]
    intro j hj hMerging
    rw [hl j hj] at hMerging
    cases hMerging
  have hTail : ∀ j ∈ tail, j.plane.merging = false := by
    obtain rfl | ⟨k, rfl, hMerging, -⟩ := h.unit
    · exact fun j hj => nomatch hj
    · intro j hj
      rw [List.mem_singleton.mp hj]
      exact hMerging
  rw [h.split, List.filter_append, List.filter_append, List.filter_append,
    hNone before fun j hj => (h.ordinaryBefore j hj).1,
    hNone after fun j hj => (h.ordinaryAfter j hj).1, hNone tail hTail, List.nil_append,
    List.append_nil, List.append_nil, List.filter_eq_self]
  exact fun j hj => (h.members j hj).1

theorem lowestMember_eq (h : Parted plan before block after tail) :
    lowestMember plan = block.head? := by
  unfold lowestMember
  rw [h.members_eq]

/-- The bindings that are seen in windows of their own, and the group's lowest. -/
theorem seats (h : Parted plan before block after tail) :
    (before ++ block.head?.toList ++ after).Sublist plan ∧
      (∀ j ∈ before ++ block.head?.toList ++ after,
        Ordinary j ∨ lowestMember plan = some j) ∧
      ∀ j ∈ plan, Ordinary j ∨ lowestMember plan = some j →
        j ∈ before ++ block.head?.toList ++ after := by
  rw [h.lowestMember_eq]
  refine ⟨?_, fun j hj => ?_, fun j hj hSeat => ?_⟩
  · rw [h.split]
    refine List.Sublist.trans ?_ (List.sublist_append_left _ tail)
    refine ((List.Sublist.refl before).append ?_).append (List.Sublist.refl after)
    cases block with
    | nil => exact List.Sublist.refl _
    | cons first rest => exact (List.nil_sublist rest).cons_cons first
  · simp only [List.mem_append, Option.mem_toList] at hj
    obtain (hj | hj) | hj := hj
    · exact .inl (h.ordinaryBefore j hj)
    · exact .inr hj
    · exact .inl (h.ordinaryAfter j hj)
  · simp only [List.mem_append, Option.mem_toList]
    obtain hOrdinary | hFirst := hSeat
    · rw [h.split] at hj
      simp only [List.mem_append] at hj
      obtain ((hj | hj) | hj) | hj := hj
      · exact .inl (.inl hj)
      · have hMerging := (h.members j hj).1
        rw [hOrdinary.1] at hMerging
        cases hMerging
      · exact .inr hj
      · obtain rfl | ⟨k, rfl, -, hIndex⟩ := h.unit
        · cases hj
        · rw [List.mem_singleton.mp hj] at hOrdinary
          exact absurd hIndex hOrdinary.2
    · exact .inl (.inr hFirst)

variable {C : Type*} {panel : Panel C} {slot : Point → C} {pt : Point}

/-- What a plan's bindings show, part by part. -/
theorem bindingFilms_eq (h : Parted plan before block after tail) :
    bindingFilms panel args r 0 plan =
      (before.map fun j => windowFilm panel (windowOf args j)) ++
        bindingFilms panel args r 0 block ++
          (after.map fun j => windowFilm panel (windowOf args j)) ++
            tail.map fun j => spriteFilm panel (cursorFrom args j.layer) := by
  have hCount : (before.countP fun j => j.plane.merging) = 0 := by
    rw [List.countP_eq_zero]
    intro j hj hMerging
    rw [(h.ordinaryBefore j hj).1] at hMerging
    cases hMerging
  rw [h.split, bindingFilms_append, bindingFilms_append, bindingFilms_append, Nat.zero_add, hCount,
    bindingFilms_ordinary h.ordinaryBefore, bindingFilms_ordinary h.ordinaryAfter]
  refine congrArg _ ?_
  obtain rfl | ⟨j, rfl, -, hIndex⟩ := h.unit
  · rfl
  · rw [bindingFilms, bindingFilm, if_pos hIndex]
    rfl

/-- The cursor the unit shows is the one bound to it, if any. -/
theorem laid_cursor [Monoid C] (h : Parted plan before block after tail)
    (hLit : Lit p args plan r) (ground : C) :
    (spriteFilm panel r.cursor).laid pt ground =
      compose ((tail.map fun j => spriteFilm panel (cursorFrom args j.layer)).map Film.laid)
        ground pt := by
  obtain rfl | ⟨j, rfl, -, hIndex⟩ := h.unit
  · have hBare : r.cursor = {} := by
      refine hLit.bare fun j hj => ?_
      rw [h.split] at hj
      simp only [List.mem_append, List.not_mem_nil, or_false] at hj
      obtain (hj | hj) | hj := hj
      · exact (h.ordinaryBefore j hj).2
      · exact (h.members j hj).2
      · exact (h.ordinaryAfter j hj).2
    rw [hBare]
    rfl
  · have hj : j ∈ plan := by
      rw [h.split]
      simp
    rw [hLit.sprite j hj hIndex]
    rfl

/-- **The windows of a request, scanned by depth, show its plan**: each binding by
itself, bottom first, and the group as if its members were laid one by one. -/
theorem shown_eq [Monoid C] (h : Parted plan before block after tail) (hPlan : Planned p plan)
    (hLit : Lit p args plan r)
    (hLayers : r.merge.layers = (plan.filter fun j => j.plane.merging).map (rebased r))
    (hFrame : r.merge.layers ≠ [] → SignedSize r.merge.width r.merge.height ∧
      ∀ l ∈ r.merge.layers, LiesIn (frameOf r.merge.width r.merge.height) l.display)
    (hHolds : r.merge.layers ≠ [] → HoldsGroup panel r.merge slot) {order : List DcWindow}
    (hScan : Scanned r order)
    (ground : C) :
    shown panel slot r order ground pt =
      compose ((bindingFilms panel args r 0 plan).map Film.laid) ground pt := by
  obtain ⟨hSub, hSeat, hAll⟩ := h.seats
  have hOwn : ∀ l : List Joining, (∀ j ∈ l, j ∈ plan ∧ Ordinary j) →
      l.map (fun j => scannedFilm panel slot r (seatedWindow args r j)) =
        l.map fun j => windowFilm panel (windowOf args j) := by
    intro l hl
    refine List.map_congr_left fun j hj => ?_
    obtain ⟨hMem, hOrdinary⟩ := hl j hj
    unfold seatedWindow
    rw [hOrdinary.1, if_neg (by decide)]
    exact scannedFilm_own hLit hMem hOrdinary hLayers
  have hIn : ∀ j, j ∈ before ∨ j ∈ block ∨ j ∈ after → j ∈ plan := by
    intro j hj
    rw [h.split]
    simp only [List.mem_append]
    tauto
  have hSeats : ((before ++ block.head?.toList ++ after).map (seatedWindow args r)).map
      (scannedFilm panel slot r) =
        (before.map fun j => windowFilm panel (windowOf args j)) ++
          (block.head?.toList.map fun j => scannedFilm panel slot r (seatedWindow args r j)) ++
            after.map fun j => windowFilm panel (windowOf args j) := by
    rw [List.map_map, List.map_append, List.map_append]
    rw [← hOwn before fun j hj => ⟨hIn j (.inl hj), h.ordinaryBefore j hj⟩,
      ← hOwn after fun j hj => ⟨hIn j (.inr (.inr hj)), h.ordinaryAfter j hj⟩]
    rfl
  unfold shown
  rw [scanned_eq hPlan hLit hSub hSeat hAll hScan, h.bindingFilms_eq, hSeats, compose_over,
    List.map_singleton, compose_cons, compose_nil, h.laid_cursor hLit, compose_over _ (tail.map _)]
  congr 1
  -- below the cursor: the group's window in place of its members
  rw [h.members_eq] at hLayers
  cases block with
  | nil => simp [bindingFilms]
  | cons first rest =>
    have hSome : r.merge.layers ≠ [] := by
      rw [hLayers]
      exact List.cons_ne_nil _ _
    obtain ⟨hSigned, hPlaced⟩ := hFrame hSome
    have hWindow : seatedWindow args r first = mergeWindow args r.merge := if_pos
      (h.members first (by simp)).1
    have hGroup := laid_group args pt hLayers h.members (List.cons_ne_nil _ _) hSigned
      (hHolds hSome)
    have hFlat := compose_flattened (fun q => decide (inside (mergeWindow args r.merge).place q))
      (before.map fun j => windowFilm panel (windowOf args j))
      (after.map fun j => windowFilm panel (windowOf args j)) ground
      (members_inside panel args pt hLayers h.members hSigned hPlaced)
    rw [← hFlat]
    simp only [compose_over, List.head?_cons, Option.toList_some, List.map_singleton, hWindow,
      compose_cons, compose_nil, hGroup]

end Parted

-- ---------------------------------------------------------------------------
-- Films of layers that share a point
-- ---------------------------------------------------------------------------

section Overlaps

variable {C : Type*} {panel : Panel C} {pt : Point} {member : Nat}

@[simp] theorem length_bindingFilms :
    (bindingFilms panel args r member plan).length = plan.length := by
  induction plan generalizing member with
  | nil => rfl
  | cons j rest ih =>
    rw [bindingFilms, List.length_cons, ih, List.length_cons]

theorem getElem?_bindingFilms (panel : Panel C) (args : RequestArgs) (r : TegraAtomicRequest)
    (member : Nat) {k : Nat} {j : Joining} (hj : plan[k]? = some j) :
    ∃ member', (bindingFilms panel args r member plan)[k]? =
      some (bindingFilm panel args r member' j) := by
  induction plan generalizing member k with
  | nil => cases hj
  | cons first rest ih =>
    cases k with
    | zero =>
      obtain rfl := Option.some.inj hj
      exact ⟨member, rfl⟩
    | succ k => exact ih _ hj

/-- A window described for a layer lies where the layer does. -/
theorem place_windowOf {j : Joining} {frame : IRect} (hFrame : j.layer.pi.displayFrame = some frame)
    (hIn : inside (windowOf args j).place pt) : inside frame pt := by
  unfold windowOf at hIn
  cases hWindow : describeWindow args.tables args.forcedTurn j.layer j.plane.index
      (depthForZPos j.zPos) with
  | none =>
    rw [hWindow] at hIn
    unfold inside DcWindow.place at hIn
    simp only [Option.getD_none] at hIn
    omega
  | some w =>
    rw [hWindow] at hIn
    unfold describeWindow at hWindow
    split at hWindow
    · simp only at hWindow
      split at hWindow
      · cases hWindow
      split at hWindow
      · cases hWindow
      obtain rfl := Option.some.inj hWindow
      unfold inside DcWindow.place Rect.width Rect.height at hIn
      simp only [Option.getD_some, hFrame, Option.map_some] at hIn
      unfold inside
      omega
    · cases hWindow

/-- A binding of a window shows nothing outside its layer's place. -/
theorem lands_bindingFilm {j : Joining} {frame : IRect}
    (hIndex : j.plane.index ≠ TegraDisplayPipeline.kPlaneId)
    (hFrame : j.layer.pi.displayFrame = some frame)
    (hLands : (bindingFilm panel args r member j).lands pt = true) : inside frame pt := by
  unfold bindingFilm at hLands
  rw [if_neg hIndex] at hLands
  split at hLands
  · have hIn := of_decide_eq_true hLands
    unfold inside moved mergeLayerFrom at hIn
    simp only [hFrame, Option.getD_some] at hIn
    unfold inside
    omega
  · exact place_windowOf hFrame (of_decide_eq_true hLands)

/-- Layers whose films land on one point overlap. -/
theorem overlaps_of_lands {a b : Joining} {member' : Nat}
    (ha : a.plane.index ≠ TegraDisplayPipeline.kPlaneId)
    (hb : b.plane.index ≠ TegraDisplayPipeline.kPlaneId)
    (hLandsA : (bindingFilm panel args r member a).lands pt = true)
    (hLandsB : (bindingFilm panel args r member' b).lands pt = true) :
    MergeGroup.overlaps (LayerToPlaneJoiningPlan.groupMember a.layer)
      (LayerToPlaneJoiningPlan.groupMember b.layer) = true := by
  unfold MergeGroup.overlaps LayerToPlaneJoiningPlan.groupMember
  simp only
  split
  · rename_i frame frame' hFrame hFrame'
    have hIn := lands_bindingFilm ha hFrame hLandsA
    have hIn' := lands_bindingFilm hb hFrame' hLandsB
    unfold inside at hIn hIn'
    rw [Bool.and_eq_true, decide_eq_true_iff, decide_eq_true_iff]
    omega
  · rfl

end Overlaps

-- ---------------------------------------------------------------------------
-- The plan of a composition
-- ---------------------------------------------------------------------------

section Composition

variable {u : UsablePlanes TegraPlane} {composition : List LayerData}
  {cursorLayer : Option LayerData} {preferMerge : Bool}
  {joined : LayerToPlaneJoiningPlan TegraPlane}

open LayerToPlaneJoiningPlan

/-- A plan joins the layers to the planes for layers, and then the cursor to its
own. -/
theorem created_cases
    (h : createLayerToPlaneJoiningPlan u composition cursorLayer preferMerge = some joined) :
    ∃ rest, Joined u composition none { joined with plan := rest } ∧
      (∀ j ∈ rest, j.plane ∈ u.avail) ∧
        ((cursorLayer = none ∧ joined.plan = rest) ∨
          ∃ layer plane, cursorLayer = some layer ∧ u.cursor = some plane ∧
            u.isValidForLayer plane layer = true ∧ joined.plan = emplace rest layer plane) := by
  unfold createLayerToPlaneJoiningPlan at h
  obtain ⟨hPerm, hBlock⟩ := avail_partition u preferMerge
  simp only at h hPerm hBlock
  set avail := if preferMerge then u.avail.filter (u.isMerging ·) ++
    u.avail.filter (!u.isMerging ·) else u.avail
  have hWell := @placeSteered_placedWell _ u avail {} composition preferMerge rfl rfl
  set placed := placeSteered u avail {} composition preferMerge
  split at h
  · cases h
  rename_i hUsable
  split at h
  · cases h
  rename_i joinings hJoinings
  have hSeated : Seated u avail placed.composition joinings := by
    split at hJoinings
    · rename_i hSteered
      obtain rfl := Option.some.inj hJoinings
      exact hWell.seated hSteered
    · rename_i hSteered
      rw [hWell.untouched (by simpa using hSteered)] at hJoinings
      exact placeFirstFit_seated hBlock hJoinings
  obtain rfl := Option.some.inj h
  refine ⟨joinings, joined_of_seated hPerm hWell.reordered hSeated, fun j hj => ?_, ?_⟩
  · exact (hSeated.planes.trans hPerm.subperm).subset (List.mem_map_of_mem hj)
  cases cursorLayer with
  | none => exact .inl ⟨rfl, rfl⟩
  | some layer =>
    cases hCursor : u.cursor with
    | none => simp [cursorUsable, hCursor] at hUsable
    | some plane =>
      exact .inr ⟨layer, plane, rfl, rfl, by simpa [cursorUsable, hCursor] using hUsable, rfl⟩

/-- **A plan of the pipeline's planes has its parts**: the merged layers together,
and the cursor's unit, if it is bound, on top. -/
theorem parted_of_created
    (h : createLayerToPlaneJoiningPlan u composition cursorLayer preferMerge = some joined)
    (hPlanes : (u.avail, u.cursor) = p.getUsablePlanes)
    (hMerging : ∀ plane, u.isMerging plane = plane.merging) :
    Joined u composition cursorLayer joined ∧
      (∀ j ∈ joined.plan.take composition.length,
        j.plane.index ≠ TegraDisplayPipeline.kPlaneId) ∧
      ∃ before block after tail, Parted joined.plan before block after tail := by
  obtain ⟨rest, hRest, hAvail, hCursor⟩ := created_cases h
  have hLength : rest.length = composition.length := by simpa using hRest.length
  -- no plane for layers is the unit's
  have hIndex : ∀ j ∈ rest, j.plane.index ≠ TegraDisplayPipeline.kPlaneId := by
    intro j hj
    have hUsable : j.plane ∈ p.getUsablePlanes.1 := hPlanes ▸ hAvail j hj
    exact ne_kPlaneId_of_mem (planes_spec (List.mem_of_mem_filter hUsable)).1
  obtain ⟨before, block, after, hSplit, hBefore, hBlock, hAfter⟩ := hRest.oneBlock
  simp only [hMerging, Bool.not_eq_true] at hBefore hBlock hAfter
  replace hSplit : rest = before ++ block ++ after := hSplit
  have hIn : ∀ j, j ∈ before ∨ j ∈ block ∨ j ∈ after → j ∈ rest := by
    intro j hj
    rw [hSplit]
    simp only [List.mem_append]
    tauto
  have hParted : ∀ tail, (tail = [] ∨ ∃ j, tail = [j] ∧ j.plane.merging = false ∧
      j.plane.index = TegraDisplayPipeline.kPlaneId) →
        Parted (rest ++ tail) before block after tail := by
    intro tail hTail
    exact ⟨by rw [hSplit], fun j hj => ⟨hBefore j hj, hIndex j (hIn j (.inl hj))⟩,
      fun j hj => ⟨hBlock j hj, hIndex j (hIn j (.inr (.inl hj)))⟩,
      fun j hj => ⟨hAfter j hj, hIndex j (hIn j (.inr (.inr hj)))⟩, hTail⟩
  obtain ⟨rfl, hPlan⟩ | ⟨layer, plane, rfl, hPlane, hValid, hPlan⟩ := hCursor
  · have hWhole : { joined with plan := rest } = joined := by rw [← hPlan]
    refine ⟨hWhole ▸ hRest, fun j hj => ?_, before, block, after, [], ?_⟩
    · rw [hPlan] at hj
      exact hIndex j (List.mem_of_mem_take hj)
    · have := hParted [] (.inl rfl)
      rwa [List.append_nil, ← hPlan] at this
  · have hWhole : { joined with plan := emplace rest layer plane } = joined := by rw [← hPlan]
    refine ⟨hWhole ▸ joined_cursor hRest hAvail hPlane hValid, fun j hj => ?_, ?_⟩
    · rw [hPlan, ← hLength, emplace, List.take_left] at hj
      exact hIndex j hj
    · rw [hPlan]
      have hOrdinary : plane.merging = false := hMerging plane ▸ u.cursorOrdinary plane hPlane
      have hUsable : plane ∈ p.getUsablePlanes.1 ++ p.getUsablePlanes.2.toList := by
        rw [← hPlanes]
        simp [hPlane]
      obtain hOffered | hUnit := usable_cases hUsable
      · -- the cursor's plane is a window: one more above the group
        refine ⟨before, block, after ++ [⟨layer, plane, rest.length⟩], [], ?_⟩
        have hHere := hParted [] (.inl rfl)
        refine ⟨by rw [emplace, hSplit]; simp, hHere.ordinaryBefore, hHere.members,
          fun j hj => ?_, .inl rfl⟩
        obtain hj | hj := List.mem_append.mp hj
        · exact hHere.ordinaryAfter j hj
        · rw [List.mem_singleton.mp hj]
          exact ⟨hOrdinary, ne_kPlaneId_of_mem (planes_spec hOffered).1⟩
      · exact ⟨before, block, after, _,
          hParted [⟨layer, plane, rest.length⟩] (.inr ⟨_, rfl, hOrdinary, by rw [hUnit]⟩)⟩

variable {C : Type*} {panel : Panel C} {pt : Point}

/-- The films of the layers of a composition, in their own order: each that of the
binding at its rank. -/
def layerFilms (panel : Panel C) (args : RequestArgs) (r : TegraAtomicRequest)
    (joined : LayerToPlaneJoiningPlan TegraPlane) (count : Nat) : List (Film Point C) :=
  (List.range count).filterMap fun i =>
    (bindingFilms panel args r 0 joined.plan)[joined.rankOf i]?

/-- The ranks of the layers are their places, in another order. -/
theorem ranks_perm (h : Joined u composition cursorLayer joined) :
    ((List.range composition.length).map joined.rankOf).Perm (List.range composition.length) := by
  have hOnce : ((List.range composition.length).map joined.rankOf).Nodup := by
    refine List.nodup_range.map_on fun i hi k hk hSame => ?_
    exact h.ranksApart i (List.mem_range.mp hi) k (List.mem_range.mp hk) hSame
  refine (hOnce.subperm fun rank hRank => ?_).perm_of_length_le (by simp)
  obtain ⟨i, hi, rfl⟩ := List.mem_map.mp hRank
  exact List.mem_range.mpr (h.ranks i (List.mem_range.mp hi))

/-- **Layers shown out of their order show the same**: those that trade places
share no point. -/
theorem compose_ranked [Monoid C] (h : Joined u composition cursorLayer joined)
    (hIndex : ∀ j ∈ joined.plan.take composition.length,
      j.plane.index ≠ TegraDisplayPipeline.kPlaneId) (ground : C) :
    compose (((bindingFilms panel args r 0 joined.plan).take composition.length).map Film.laid)
        ground pt =
      compose ((layerFilms panel args r joined composition.length).map Film.laid) ground pt := by
  set films := bindingFilms panel args r 0 joined.plan with hFilms
  let film (rank : Nat) : Film Point C := (films[rank]?).getD (spriteFilm panel {})
  have hLength : composition.length ≤ films.length := by
    rw [hFilms, length_bindingFilms, h.length]
    exact Nat.le_add_right _ _
  have hSome : ∀ rank < composition.length, films[rank]? = some (film rank) := by
    intro rank hRank
    show _ = some ((films[rank]?).getD _)
    rw [List.getElem?_eq_getElem (hRank.trans_le hLength)]
    rfl
  have hTaken : films.take composition.length = (List.range composition.length).map film := by
    refine List.ext_getElem? fun rank => ?_
    rw [List.getElem?_map]
    by_cases hRank : rank < composition.length
    · rw [List.getElem?_take_of_lt hRank, hSome rank hRank, List.getElem?_range hRank]
      rfl
    · rw [List.getElem?_take_eq_none (Nat.not_lt.mp hRank),
        List.getElem?_eq_none (by simpa using hRank)]
      rfl
  have hRanked : layerFilms panel args r joined composition.length =
      ((List.range composition.length).map joined.rankOf).map film := by
    unfold layerFilms
    rw [List.map_map, ← List.filterMap_eq_map]
    refine List.filterMap_congr fun i hi => ?_
    exact hSome _ (h.ranks i (List.mem_range.mp hi))
  rw [hTaken, hRanked, List.map_map, List.map_map]
  refine compose_reordered (· < ·) (fun i k hLt => Nat.lt_asymm hLt) (ranks_perm h).symm
    (List.pairwise_lt_range.imp fun hLt _ _ => hLt) ?_ ground
  rw [List.pairwise_map]
  refine List.pairwise_lt_range.imp_of_mem fun {i k} hi hk hik hLandsI hLandsK => ?_
  -- both layers land here, so they overlap, and keep their order
  have hAt : ∀ i ∈ List.range composition.length, (film (joined.rankOf i)).lands pt = true →
      ∃ j member, composition[i]? = some j.layer ∧
        j.plane.index ≠ TegraDisplayPipeline.kPlaneId ∧
          (bindingFilm panel args r member j).lands pt = true := by
    intro i hi hLands
    have hLt := List.mem_range.mp hi
    obtain ⟨j, hj, hLayer⟩ := h.placed i _ (List.getElem?_eq_getElem hLt)
    obtain ⟨member, hFilm⟩ := getElem?_bindingFilms panel args r 0 hj
    refine ⟨j, member, hLayer ▸ List.getElem?_eq_getElem hLt, hIndex j ?_, ?_⟩
    · refine List.mem_iff_getElem?.mpr ⟨joined.rankOf i, ?_⟩
      rw [List.getElem?_take_of_lt (h.ranks i hLt), hj]
    · have := hSome _ (h.ranks i hLt)
      rw [hFilms, hFilm] at this
      rw [Option.some.inj this]
      exact hLands
  obtain ⟨a, memberA, hA, hUnitA, hLandsA⟩ := hAt i hi hLandsI
  obtain ⟨b, memberB, hB, hUnitB, hLandsB⟩ := hAt k hk hLandsK
  exact h.overlaps i k hik a.layer b.layer hA hB
    (overlaps_of_lands hUnitA hUnitB hLandsA hLandsB)

/-- What the walk has filled in and described of a plan that becomes a request. -/
theorem walked_of_joined (hJoined : Joined u composition cursorLayer joined)
    (hPlanes : (u.avail, u.cursor) = p.getUsablePlanes)
    (hMerging : ∀ plane, u.isMerging plane = plane.merging)
    (hFds : ∀ j ∈ joined.plan, j.layer.fb ≠ some 0) (hEach : OneEach joined.plan)
    (hRequest : getAtomicModeReqForArgs p args (some joined.plan) = some r) :
    ∃ walked : TegraAtomicRequest, Filled p joined.plan walked ∧
      walked.placeMerge p args = some r ∧ Lit p args joined.plan r := by
  obtain ⟨hPlan, hNear⟩ := planned_of_joined hJoined hPlanes hMerging hFds
  unfold getAtomicModeReqForArgs at hRequest
  split at hRequest
  · cases hRequest
  split at hRequest
  · cases hRequest
  obtain ⟨walked, hWalk, hPlace⟩ := Option.bind_eq_some_iff.mp hRequest
  have hFilled := filled_describeAll hPlan hEach (List.nil_append _).symm filled_start hWalk
  have hDescribed := described_describeAll hPlan hEach (List.nil_append _).symm filled_start
    ⟨fun _ h => (nomatch h), fun _ h => (nomatch h), fun _ => rfl⟩ hWalk
  exact ⟨walked, hFilled, hPlace, lit_of_placed hPlan hNear hFilled hDescribed hPlace⟩

/-- The panel shows a joining of the composition, for a slot that holds the group. -/
theorem shown_of_joined [Monoid C] {mode : DrmMode} {slot : Point → C}
    {before block after tail : List Joining} (hJoined : Joined u composition cursorLayer joined)
    (hIndex : ∀ j ∈ joined.plan.take composition.length,
      j.plane.index ≠ TegraDisplayPipeline.kPlaneId)
    (hParted : Parted joined.plan before block after tail)
    (hPlanes : (u.avail, u.cursor) = p.getUsablePlanes)
    (hMerging : ∀ plane, u.isMerging plane = plane.merging)
    (hFds : ∀ j ∈ joined.plan, j.layer.fb ≠ some 0) (hEach : OneEach joined.plan)
    (hMode : p.modes.head? = some mode) (hWidth : 0 < mode.hdisplay ∧ mode.hdisplay < 2 ^ 16)
    (hHeight : 0 < mode.vdisplay ∧ mode.vdisplay < 2 ^ 16)
    (hRequest : getAtomicModeReqForArgs p args (some joined.plan) = some r)
    (hHolds : r.merge.layers ≠ [] → HoldsGroup panel r.merge slot) {order : List DcWindow}
    (hScan : Scanned r order) (ground : C) :
    shown panel slot r order ground pt =
      compose ((layerFilms panel args r joined composition.length ++
        (bindingFilms panel args r 0 joined.plan).drop composition.length).map Film.laid)
          ground pt := by
  obtain ⟨hPlan, -⟩ := planned_of_joined hJoined hPlanes hMerging hFds
  obtain ⟨walked, hFilled, hPlace, hLit⟩ :=
    walked_of_joined hJoined hPlanes hMerging hFds hEach hRequest
  obtain ⟨hLayers, hFrame⟩ := group_of_placed hFilled hPlace hMode hWidth hHeight
  rw [hParted.shown_eq hPlan hLit hLayers hFrame hHolds hScan, compose_over,
    ← compose_ranked hJoined hIndex, ← compose_over, List.take_append_drop]

end Composition

-- ---------------------------------------------------------------------------
-- The slot as the engine leaves it
-- ---------------------------------------------------------------------------

section Engine

variable {C : Type*} [Monoid C]

/-- An engine that clears to nothing and lays what it reads, weighted by the
member's alpha, over what is below. -/
structure Lays (vic : VicSession.Vic C) (ink : Bool → Rat → C → C) : Prop where
  clear : vic.clear = 1
  blend : ∀ (premultiplied : Bool) (alpha : Rat) (drawn below : C),
    vic.blend premultiplied alpha drawn below = ink premultiplied alpha drawn * below

/-- A panel beside such an engine. -/
def withEngine (panel : Panel C) (vic : VicSession.Vic C) (ink : Bool → Rat → C → C) : Panel C :=
  { panel with
    member := fun member l q =>
      ink l.premultiplied l.alpha (vic.read 0 member l.source l.display q) }

/-- **The slot as the engine leaves it**: an unturned group drawn by
`DrawMergeJob`, whole or by parts over a picture that is right outside them. -/
def Drawn (vic : VicSession.Vic C) (merge : Merge) (slot : Point → C) : Prop :=
  ∃ (g : VicSession.Group C) (parts : List IRect) (target : Nat) (forced : Int),
    g.merge = merge ∧ (∀ part ∈ parts, LiesIn g.frame part ∧ empty part = false) ∧
      (parts ≠ [] → ∀ q, inside g.frame q → ¬Covered parts q →
        g.target.pixels q = g.picture vic q) ∧
          slot = (vic.drawMergeJob (g.job target forced parts) g.target).1.pixels

/-- What the engine shows of a group is its members laid one by one. -/
theorem picture_eq {vic : VicSession.Vic C} {ink : Bool → Rat → C → C} (h : Lays vic ink)
    (panel : Panel C) (g : VicSession.Group C) (q : Point) :
    g.picture vic q =
      compose (g.merge.layers.zipIdx.map fun l =>
        (memberFilm (withEngine panel vic ink) l.2 l.1).laid) 1 q := by
  unfold VicSession.Group.picture VicSession.Vic.picture
  rw [g.seats_none, h.clear, List.map_map]
  congr 1
  refine List.map_congr_left fun l _ => ?_
  funext q' below
  show (if inside l.1.display q' then vic.blend _ _ _ below else below) = _
  rw [h.blend]
  unfold Film.laid memberFilm
  simp only [decide_eq_true_iff]
  rfl

/-- **Drawn, the slot holds its group**, whether every part was taken or one was
refused and the whole drawn after all. -/
theorem holdsGroup_of_drawn {vic : VicSession.Vic C} {ink : Bool → Rat → C → C}
    (h : Lays vic ink) (panel : Panel C) {merge : Merge} {slot : Point → C}
    (hDrawn : Drawn vic merge slot) : HoldsGroup (withEngine panel vic ink) merge slot := by
  obtain ⟨g, parts, target, forced, rfl, hParts, hOld, rfl⟩ := hDrawn
  intro q hq
  rw [← picture_eq h]
  have hWhole : ∀ pixels : Point → C,
      Raster.redraw (inside g.frame) (g.picture vic) pixels q = g.picture vic q :=
    fun _ => if_pos hq
  unfold VicSession.Vic.drawMergeJob
  have hJob : (g.job target forced parts).parts = parts := rfl
  rw [hJob]
  simp only
  split
  · rw [g.drawWhole_eq vic target forced g.target.pixels]
    exact hWhole _
  rename_i hSome
  by_cases hSeats : ∀ part ∈ parts, g.seats (some part) ≠ []
  · rw [g.drawParts_eq vic target forced parts (fun part hp => (hParts part hp).1)
      (fun part hp => (hParts part hp).2) hSeats g.target.pixels]
    show Raster.redraw (Covered parts) (g.picture vic) g.target.pixels q = _
    rw [Raster.redraw_eq_iff]
    exact hOld hSome q hq
  · push Not at hSeats
    obtain ⟨pixels, hRefused⟩ := g.drawParts_none vic target forced parts hParts hSeats
      g.target.pixels
    rw [hRefused, if_neg Bool.false_ne_true, g.drawWhole_eq vic target forced pixels]
    exact hWhole _

end Engine

/-- A premultiplied colour laid over another. -/
def laidOn (top below : Vk.Pixel) : Vk.Pixel :=
  ⟨top.r + below.r * (1 - top.a), top.g + below.g * (1 - top.a), top.b + below.b * (1 - top.a),
    top.a + below.a * (1 - top.a)⟩

/-- Premultiplied colours are such a monoid, and what a clear leaves hides
nothing. -/
instance : Monoid Vk.Pixel where
  one := .transparent
  mul := laidOn
  one_mul := fun c => by
    show laidOn .transparent c = c
    simp [laidOn, Vk.Pixel.transparent]
  mul_one := fun c => by
    show laidOn c .transparent = c
    simp [laidOn, Vk.Pixel.transparent]
  mul_assoc := fun a b c => by
    show laidOn (laidOn a b) c = laidOn a (laidOn b c)
    simp only [laidOn, Vk.Pixel.mk.injEq]
    refine ⟨?_, ?_, ?_, ?_⟩ <;> ring

/-- A picture, a layer that draws between others, and a strip. -/
def strips : List LayerData := [rowsAt 0, { rowsAt 100 with live := true }, rowsAt 200]

/-- A pointer. -/
def pointer : LayerData :=
  { rowsAt 300 with bi := some { width := 64, height := 64, handle := some 4 } }

/-- The planes of the two windows, taking every layer with a descriptor. -/
def twoWindowPlanes : UsablePlanes TegraPlane where
  isMerging := TegraPlane.merging
  isValidForLayer := fun _ layer => layer.fb.isSome
  avail := (twoWindows true).getUsablePlanes.1
  cursor := (twoWindows true).getUsablePlanes.2
  distinct := by decide
  oneBlock := ⟨[⟨0, 0, false⟩], (List.range 5).map fun offer => ⟨1, offer, true⟩, [], by decide,
    by decide, by decide, by decide⟩
  cursorOrdinary := by
    intro plane h
    have hUnit : plane = { index := TegraDisplayPipeline.kPlaneId } := (Option.some.inj h).symm
    rw [hUnit]

/-- Their plan: the drawing layer is lowered, the quiet ones are merged. -/
def stripsPlan : LayerToPlaneJoiningPlan TegraPlane :=
  (LayerToPlaneJoiningPlan.createLayerToPlaneJoiningPlan twoWindowPlanes strips (some pointer)
    false).getD {}

/-- And its request. -/
def stripsRequest : TegraAtomicRequest :=
  (getAtomicModeReqForArgs (twoWindows true) {} (some stripsPlan.plan)).getD { windows := [] }

/-- An engine that reads green everywhere. -/
def green : VicSession.Vic Vk.Pixel where
  clear := 1
  read := fun _ _ _ _ _ => ⟨0, 1, 0, 1⟩
  blend := fun _ alpha drawn below => drawn.scale alpha * below
  read_exact := fun _ _ _ _ _ _ _ _ _ _ _ => rfl

/-- A panel beside it, of red windows and a blue pointer. -/
def flatPanel : Panel Vk.Pixel :=
  withEngine ⟨fun _ _ => ⟨1, 0, 0, 1⟩, fun _ _ => ⟨0, 0, 1, 1⟩, fun _ _ _ => 1⟩ green
    fun _ alpha drawn => drawn.scale alpha

/-- The group, in a slot of the panel's size. -/
def stripsGroup : VicSession.Group Vk.Pixel where
  merge := stripsRequest.merge
  target := ⟨800, 1280, fun _ => 1⟩
  layers_ne := by decide +kernel
  layers_le := by decide +kernel
  unturned := by decide +kernel
  width_fits := by decide +kernel
  height_fits := by decide +kernel
  signed := by
    unfold SignedSize
    decide +kernel
  placed := by
    unfold LiesIn
    decide +kernel

end TegraAtomicRequest

end TegraHwc
