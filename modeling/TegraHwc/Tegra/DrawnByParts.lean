import TegraHwc.Tegra.VicSession

/-!
# TegraHwc — a group drawn by parts

The parts `Decide` of `compositor/PartialRedraw.cpp` gathers for a group, drawn
one after another by `DrawMergeJob` of `tegra/TegraAtomicStateManager.cpp`. A
part in which no member has a seat is refused by `ComposeInto`, and the whole
buffer is drawn instead. `Gather` means to leave no such part, and takes a
member to land where its place meets the part; a place that is empty may meet
it, and may be all that was changed.

## Results

* `exists_group`         — the unturned groups of requests are the groups here.
* `drawMergeJob_covered` — refused or not, every pixel of the parts comes out right.
* `drawn_by_parts_iff`   — when drawing the parts is the whole drawing cut down to
  them: whenever no member's place is empty, and in general just where each part
  meets a member that is scaled or covers something.
-/

namespace TegraHwc

open PartialRedraw

namespace PartialRedraw

open VicSession

section Decided

variable {held : Snapshot} {width height : UInt32} {members : List Member}
  {history : DamageHistory} {engine : Engine}

/-- Where the parts of a plan come from. -/
theorem decide_parts_cases :
    (decide_ held width height members history engine).parts = [] ∨
      (decide_ held width height members history engine).parts =
        gather (held.members.map (·.dst) ++ members.map (·.dst)) (frameOf width height) members
          engine ∨
      ∃ damage, damageOfAll history members held.members = .ok damage ∧
        (decide_ held width height members history engine).parts =
          gather damage (frameOf width height) members engine := by
  unfold decide_
  split
  · exact .inl rfl
  split
  · exact .inl rfl
  simp only
  split
  · exact .inr (.inl rfl)
  split
  · exact .inr (.inl rfl)
  split
  · exact .inr (.inl rfl)
  rename_i damage hDamage
  split
  · exact .inl rfl
  split
  · exact .inr (.inl rfl)
  · exact .inr (.inr ⟨damage, hDamage, rfl⟩)

/-- The parts of a plan lie inside the buffer, and each covers something. -/
theorem decide_parts_sound {part : IRect}
    (h : part ∈ (decide_ held width height members history engine).parts) :
    LiesIn (frameOf width height) part ∧ empty part = false := by
  obtain hNone | hFull | ⟨damage, -, hDamage⟩ :=
    @decide_parts_cases held width height members history engine
  · rw [hNone] at h
    cases h
  · rw [hFull] at h
    exact ⟨gather_liesIn part h, gather_not_empty part h⟩
  · rw [hDamage] at h
    exact ⟨gather_liesIn part h, gather_not_empty part h⟩

/-- The damage of a member lies where the member does. -/
theorem damageOf_liesIn {now then_ : Member} {damage : List IRect}
    (h : damageOf history now then_ = .ok damage) : ∀ r ∈ damage, LiesIn now.dst r := by
  have hOnto : ∀ (r : IRect) (isScaled : Bool),
      LiesIn now.dst (Floats.singles.onto r now isScaled) :=
    fun r isScaled => ⟨le_max_right _ _, le_max_right _ _, min_le_right _ _, min_le_right _ _⟩
  unfold damageOf at h
  split at h
  · cases h
  split at h
  · cases h
  split at h
  · obtain rfl := Except.ok.inj h
    intro r hr
    cases hr
  split at h
  · cases h
  split at h
  · cases h
  obtain rfl := Except.ok.inj h
  intro r hr
  rcases List.mem_append.mp hr with hr | hr
  · split at hr
    · rw [List.mem_singleton.mp hr]
      exact ⟨le_rfl, le_rfl, le_rfl, le_rfl⟩
    · cases hr
  · obtain ⟨q, -, rfl⟩ := List.mem_map.mp hr
    exact hOnto q _

/-- And that of all members where some member does. -/
theorem damageOfAll_liesIn : ∀ {members held : List Member} {damage : List IRect},
    damageOfAll history members held = .ok damage →
      ∀ r ∈ damage, ∃ m ∈ members, LiesIn m.dst r := by
  intro members
  induction members with
  | nil =>
    intro held damage h r hr
    obtain rfl : [] = damage := Except.ok.inj h
    cases hr
  | cons now members ih =>
    intro held damage h r hr
    cases held with
    | nil =>
      obtain rfl : [] = damage := Except.ok.inj h
      cases hr
    | cons then_ held =>
      unfold damageOfAll at h
      split at h
      · cases h
      rename_i own hOwn
      split at h
      · cases h
      rename_i rest hRest
      obtain rfl := Except.ok.inj h
      rcases List.mem_append.mp hr with hr | hr
      · exact ⟨now, by simp, damageOf_liesIn hOwn r hr⟩
      · obtain ⟨m, hm, hIn⟩ := ih hRest r hr
        exact ⟨m, List.mem_cons_of_mem now hm, hIn⟩

end Decided

-- ---------------------------------------------------------------------------
-- Parts that draw something
-- ---------------------------------------------------------------------------

/-- Along one axis, what is left of a place on the engine's edges reaches what
the place lies in. -/
theorem snap_reaches {grain low high dstLow dstHigh frameHigh : Int} (hGrain : 0 < grain)
    (hOrigin : 0 ≤ dstLow) (hLow : dstLow ≤ low) (hHigh : high ≤ dstHigh)
    (hDst : dstLow < dstHigh) (hFrame : dstHigh ≤ frameHigh)
    (hSome : max (down low grain) 0 < min (up high grain) frameHigh) :
    dstLow < min (up high grain) frameHigh ∧ max (down low grain) 0 < dstHigh := by
  have hEdges : down low grain < up high grain :=
    (le_max_left _ _).trans_lt (hSome.trans_le (min_le_left _ _))
  have hDown : down low grain = low / grain * grain := by
    unfold down
    rw [Int.tdiv_eq_ediv_of_nonneg (hOrigin.trans hLow)]
  have hDownNonneg : 0 ≤ down low grain := by
    rw [hDown]
    exact mul_nonneg (Int.ediv_nonneg (hOrigin.trans hLow) hGrain.le) hGrain.le
  have hUp : up high grain = (high + grain - 1) / grain * grain := by
    unfold up
    refine congrArg (· * grain) (Int.tdiv_eq_ediv_of_nonneg ?_)
    -- rounded towards nought, a place before the origin has no edge past it
    by_contra hBefore
    have hNonneg : 0 ≤ (-(high + grain - 1)).tdiv grain := Int.tdiv_nonneg (by omega) hGrain.le
    rw [Int.neg_tdiv] at hNonneg
    have hNone : up high grain ≤ 0 := mul_nonpos_of_nonpos_of_nonneg (by omega) hGrain.le
    omega
  have hNext : (low / grain + 1) * grain ≤ up high grain := by
    rw [hDown, hUp] at hEdges
    rw [hUp]
    exact mul_le_mul_of_nonneg_right (lt_of_mul_lt_mul_right hEdges hGrain.le) hGrain.le
  have hPast := Int.lt_ediv_add_one_mul_self low hGrain
  have hWithin : up high grain ≤ high + grain - 1 := by
    rw [hUp]
    exact Int.ediv_mul_le _ hGrain.ne'
  rw [Int.add_mul, Int.one_mul, ← hDown] at hNext
  rw [Int.add_mul, Int.one_mul, ← hDown] at hPast
  omega

/-- A place inside a member's own, on the engine's edges, meets the member. -/
theorem meet_snap {width height : UInt32} {dst r : IRect}
    (hPlaced : LiesIn (frameOf width height) dst) (hDst : empty dst = false) (hIn : LiesIn dst r)
    (hSome : empty (snap (frameOf width height) r) = false) :
    meet dst (snap (frameOf width height) r) = true := by
  obtain ⟨hFrameLeft, hFrameTop, hFrameRight, hFrameBottom⟩ := hPlaced
  obtain ⟨hLeft, hTop, hRight, hBottom⟩ := hIn
  rw [empty_eq_false] at hDst hSome
  obtain ⟨hAcross, hAcross'⟩ := snap_reaches (by decide) hFrameLeft hLeft hRight hDst.1 hFrameRight
    hSome.1
  obtain ⟨hDown, hDown'⟩ := snap_reaches (by decide) hFrameTop hTop hBottom hDst.2 hFrameBottom
    hSome.2
  exact meet_iff.mpr ⟨hAcross, hAcross', hDown, hDown'⟩

section Draws

variable {held : Snapshot} {width height : UInt32} {members : List Member}
  {history : DamageHistory} {engine : Engine}

/-- What is gathered from places of the members draws something throughout. -/
theorem gather_own_draws {places : List IRect}
    (hPlaced : ∀ m ∈ members, LiesIn (frameOf width height) m.dst ∧ empty m.dst = false)
    (hOwn : ∀ r ∈ places, ∃ m ∈ members, LiesIn m.dst r) :
    ∀ part ∈ gather places (frameOf width height) members engine,
      drawsSomething members part = true := by
  refine gather_all (fun a b ha _ => drawsSomething_join b ha) fun r hr => ?_
  obtain ⟨-, hSome⟩ := mem_snapped hr
  obtain ⟨q, hq, rfl⟩ := List.mem_map.mp (List.mem_filter.mp hr).1
  obtain ⟨m, hm, hIn⟩ := hOwn q hq
  obtain ⟨hFrame, hDst⟩ := hPlaced m hm
  exact List.any_eq_true.mpr ⟨m, hm, meet_snap hFrame hDst hIn hSome⟩

/-- So is what is gathered from them among other places, by an engine that draws
no part without a member: where one part is left, it covers them all. -/
theorem gather_among_draws {places : List IRect} (hEmpty : engine.drawsEmptyPart = false)
    (hMembers : members ≠ [])
    (hPlaced : ∀ m ∈ members, LiesIn (frameOf width height) m.dst ∧ empty m.dst = false)
    (hAll : ∀ m ∈ members, m.dst ∈ places) :
    ∀ part ∈ gather places (frameOf width height) members engine,
      drawsSomething members part = true := by
  obtain hDraws | hOne := @gather_draws places (frameOf width height) members engine hEmpty
  · exact hDraws
  intro part hPart
  obtain ⟨m, hm⟩ := List.exists_mem_of_ne_nil members hMembers
  obtain ⟨hFrame, hDst⟩ := hPlaced m hm
  rw [empty_eq_false] at hDst
  -- the corner of a member is in some part, and there is one
  have hCorner : inside m.dst (m.dst.left, m.dst.top) := ⟨le_rfl, hDst.1, le_rfl, hDst.2⟩
  obtain ⟨only, hOnly, hIn⟩ := @gather_covers places _ members engine _ rfl rfl
    (inside_of_liesIn hFrame hCorner) ⟨m.dst, hAll m hm, hCorner⟩
  obtain ⟨q, hq⟩ := List.length_eq_one_iff.mp
    (le_antisymm hOne (List.length_pos_of_mem hPart))
  rw [hq, List.mem_singleton] at hPart hOnly
  rw [hPart, ← hOnly]
  exact List.any_eq_true.mpr ⟨m, hm, VicSession.meet_of_inside hCorner hIn⟩

/-- Every part of a plan draws something, where every member is in the buffer
and covers something. -/
theorem decide_parts_draw (hEmpty : engine.drawsEmptyPart = false) (hMembers : members ≠ [])
    (hPlaced : ∀ m ∈ members, LiesIn (frameOf width height) m.dst ∧ empty m.dst = false)
    {part : IRect} (h : part ∈ (decide_ held width height members history engine).parts) :
    drawsSomething members part = true := by
  obtain hNone | hFull | ⟨damage, hDamage, hPartial⟩ :=
    @decide_parts_cases held width height members history engine
  · rw [hNone] at h
    cases h
  · rw [hFull] at h
    refine gather_among_draws hEmpty hMembers hPlaced (fun m hm => ?_) part h
    exact List.mem_append_right _ (List.mem_map_of_mem hm)
  · rw [hPartial] at h
    exact gather_own_draws hPlaced (damageOfAll_liesIn hDamage) part h

end Draws

end PartialRedraw

namespace VicSession

-- ---------------------------------------------------------------------------
-- The groups of requests
-- ---------------------------------------------------------------------------

section Extents

variable {layers : List VicLayer} {edge : VicLayer → Int} {init bound : Int}

theorem foldl_min_le {l : VicLayer} (hl : l ∈ layers) :
    layers.foldl (fun v l => min v (edge l)) init ≤ edge l := by
  induction layers generalizing init with
  | nil => cases hl
  | cons first rest ih =>
    rcases List.mem_cons.mp hl with rfl | hRest
    · refine (?_ : _ ≤ min init (edge l)).trans (min_le_right _ _)
      exact List.foldlRecOn (motive := fun v => v ≤ min init (edge l)) rest _ le_rfl
        fun v hv _ _ => (min_le_left _ _).trans hv
    · exact ih hRest

theorem le_foldl_min (hInit : bound ≤ init) (hAll : ∀ l ∈ layers, bound ≤ edge l) :
    bound ≤ layers.foldl (fun v l => min v (edge l)) init :=
  List.foldlRecOn (motive := fun v => bound ≤ v) layers _ hInit
    fun _ hv l hl => le_min hv (hAll l hl)

theorem le_foldl_max {l : VicLayer} (hl : l ∈ layers) :
    edge l ≤ layers.foldl (fun v l => max v (edge l)) init := by
  induction layers generalizing init with
  | nil => cases hl
  | cons first rest ih =>
    rcases List.mem_cons.mp hl with rfl | hRest
    · refine (le_max_right _ _).trans (?_ : max init (edge l) ≤ _)
      exact List.foldlRecOn (motive := fun v => max init (edge l) ≤ v) rest _ le_rfl
        fun v hv _ _ => hv.trans (le_max_left _ _)
    · exact ih hRest

theorem foldl_max_le (hInit : init ≤ bound) (hAll : ∀ l ∈ layers, edge l ≤ bound) :
    layers.foldl (fun v l => max v (edge l)) init ≤ bound :=
  List.foldlRecOn (motive := fun v => v ≤ bound) layers _ hInit
    fun _ hv l hl => max_le hv (hAll l hl)

end Extents

/-- The size of a group along one axis: what its members span, or one. -/
theorem extent_sound {low high panel : Int} (hLow : 0 ≤ low) (hHigh : high ≤ panel)
    (hPanel : 0 < panel ∧ panel < 2 ^ 16) {size : UInt32}
    (hSize : size = if low < high then UInt32.ofNat (high - low).toNat else 1) :
    0 < size ∧ size ≤ UInt32.ofNat panel.toNat ∧ size.toNat < 2 ^ 31 ∧ high - low ≤ asInt32 size := by
  have hNat : (0 : Int) < size.toNat ∧ (size.toNat : Int) ≤ panel ∧ high - low ≤ size.toNat := by
    rw [hSize]
    split
    · rw [UInt32.toNat_ofNat_of_lt' (by show _ < 2 ^ 32; omega)]
      omega
    · show (0 : Int) < ((1 : UInt32).toNat : Int) ∧ ((1 : UInt32).toNat : Int) ≤ panel ∧ _ ≤ _
      rw [UInt32.toNat_one]
      omega
  have hSigned : size.toNat < 2 ^ 31 := by omega
  refine ⟨UInt32.lt_iff_toNat_lt.mpr ?_, UInt32.le_iff_toNat_le.mpr ?_, hSigned, ?_⟩
  · rw [UInt32.toNat_zero]
    omega
  · rw [UInt32.toNat_ofNat_of_lt' (by show _ < 2 ^ 32; omega)]
    omega
  · rw [asInt32_of_lt hSigned]
    exact hNat.2.2

/-- A group on the panel, from its own corner, lies in a frame that fits the
panel. -/
theorem rebase_sound {merge : Merge} {mode : DrmMode}
    (hOn : ∀ l ∈ merge.layers, TegraAtomicRequest.offPanel mode l = false)
    (hWidth : 0 < mode.hdisplay ∧ mode.hdisplay < 2 ^ 16)
    (hHeight : 0 < mode.vdisplay ∧ mode.vdisplay < 2 ^ 16) :
    let group := TegraAtomicRequest.rebase merge
    (0 < group.width ∧ group.width ≤ UInt32.ofNat mode.hdisplay) ∧
      (0 < group.height ∧ group.height ≤ UInt32.ofNat mode.vdisplay) ∧
        SignedSize group.width group.height ∧
          ∀ l ∈ group.layers, LiesIn (frameOf group.width group.height) l.display := by
  have hEdges : ∀ l ∈ merge.layers, 0 ≤ l.display.left ∧ 0 ≤ l.display.top ∧
      l.display.right ≤ mode.hdisplay ∧ l.display.bottom ≤ mode.vdisplay := by
    intro l hl
    have hInside := hOn l hl
    unfold TegraAtomicRequest.offPanel at hInside
    simp only [Bool.or_eq_false_iff, decide_eq_false_iff_not, not_lt] at hInside
    exact ⟨hInside.1.1.1, hInside.1.1.2, hInside.1.2, hInside.2⟩
  obtain ⟨hSome, hFits, hSigned, hSpan⟩ := extent_sound
    (le_foldl_min (by decide) fun l hl => (hEdges l hl).1)
    (foldl_max_le (by omega) fun l hl => (hEdges l hl).2.2.1) (by omega)
    (rfl : (TegraAtomicRequest.rebase merge).width = _)
  obtain ⟨hSome', hFits', hSigned', hSpan'⟩ := extent_sound
    (le_foldl_min (by decide) fun l hl => (hEdges l hl).2.1)
    (foldl_max_le (by omega) fun l hl => (hEdges l hl).2.2.2) (by omega)
    (rfl : (TegraAtomicRequest.rebase merge).height = _)
  refine ⟨⟨hSome, hFits⟩, ⟨hSome', hFits'⟩, ⟨hSigned, hSigned'⟩, fun l hl => ?_⟩
  obtain ⟨q, hq, rfl⟩ := List.mem_map.mp hl
  have hLeft := @foldl_min_le _ (fun l => l.display.left) (2 ^ 31 - 1) q hq
  have hTop := @foldl_min_le _ (fun l => l.display.top) (2 ^ 31 - 1) q hq
  have hRight := @le_foldl_max _ (fun l => l.display.right) (-2 ^ 31) q hq
  have hBottom := @le_foldl_max _ (fun l => l.display.bottom) (-2 ^ 31) q hq
  unfold TegraAtomicRequest.moved frameOf LiesIn
  simp only
  omega

/-- **Every unturned group of a request is such a group**: its members are on the
panel, which is as large as the slots, and no more than the merging planes. -/
theorem exists_group {C : Type*} {p : TegraDisplayPipeline} {args : RequestArgs}
    {r r' : TegraAtomicRequest} {mode : DrmMode} (h : r.placeMerge p args = some r')
    (hLayers : r.merge.layers ≠ [])
    (hFew : r.merge.layers.length ≤ TegraDisplayPipeline.kMaxLayers)
    (hTurn : uniformTurn r.merge.transforms = some 0) (hMode : p.modes.head? = some mode)
    (hWidth : 0 < mode.hdisplay ∧ mode.hdisplay < 2 ^ 16)
    (hHeight : 0 < mode.vdisplay ∧ mode.vdisplay < 2 ^ 16) (pixels : Point → C) :
    ∃ g : Group C, g.merge = r'.merge ∧
      g.target = ⟨UInt32.ofNat mode.hdisplay, UInt32.ofNat mode.vdisplay, pixels⟩ := by
  have hOn : ∀ l ∈ r.merge.layers, TegraAtomicRequest.offPanel mode l = false := by
    unfold TegraAtomicRequest.placeMerge at h
    rw [if_neg (by simpa using hLayers), hMode] at h
    split at h
    · cases h
    · rename_i hNone
      simp only [Option.any_some, hWidth.1, hHeight.1, decide_true, Bool.and_self, Bool.true_and,
        List.any_eq_true, not_exists, not_and, Bool.not_eq_true] at hNone
      exact hNone
  obtain ⟨hFits, hFits', hSigned, hPlaced⟩ := rebase_sound hOn hWidth hHeight
  obtain ⟨hNone, -⟩ | ⟨-, s, hSeated, rfl⟩ := TegraAtomicRequest.placeMerge_cases h
  · exact absurd hNone hLayers
  -- the window the group is seated in is none of the engine's business
  have hMerge : ∃ window, s.merge = { TegraAtomicRequest.rebase r.merge with window := window } := by
    rw [← hSeated]
    obtain hSame | ⟨slot, w, -, -, -, hMoved⟩ := @TegraAtomicRequest.seatMerge_cases
      { r with merge := TegraAtomicRequest.rebase r.merge }
    · rw [hSame]
      exact ⟨_, rfl⟩
    · rw [hMoved]
      exact ⟨_, rfl⟩
  obtain ⟨window, hMerge⟩ := hMerge
  refine ⟨⟨s.merge, _, ?_, ?_, ?_, ?_, ?_, ?_, ?_⟩, rfl, rfl⟩ <;> rw [hMerge]
  · simpa [TegraAtomicRequest.rebase] using hLayers
  · simpa [TegraAtomicRequest.rebase] using hFew
  · exact hTurn
  · exact hFits
  · exact hFits'
  · exact hSigned
  · exact hPlaced

-- ---------------------------------------------------------------------------
-- Seats in a part
-- ---------------------------------------------------------------------------

/-- Whether a member has a seat in a part: it meets the part, and either is not
cut or has something to cut. -/
def lands (part : IRect) (l : VicLayer) : Bool :=
  meet l.display part && (isScaled l.source l.display || !empty l.display)

theorem isSome_seatOf {part : IRect} (hSome : empty part = false) (width height : Int)
    (l : VicLayer) (member : Nat) :
    (seatOf (some part) 0 width height l member).isSome = lands part l := by
  rw [seatOf_part]
  unfold lands
  cases hMeet : meet l.display part with
  | false => rfl
  | true =>
    cases hOwn : isScaled l.source l.display with
    | true => rfl
    | false =>
      rw [Bool.not_true, if_neg (by decide), if_neg (by decide), Option.isSome_map, Bool.true_and,
        Bool.false_or, ← empty_overlap hSome hMeet]
      cases hCut : clipTo part l.source l.display with
      | none =>
        rw [clipTo_eq_none.mp hCut]
        rfl
      | some cut =>
        obtain ⟨hDisplay, hCovers⟩ := clipTo_display hCut
        rw [← hDisplay, hCovers]
        rfl

namespace Group

variable {C : Type*} (g : Group C)

theorem seats_ne_nil_iff {part : IRect} (hSome : empty part = false) :
    g.seats (some part) ≠ [] ↔ ∃ l ∈ g.merge.layers, lands part l = true := by
  unfold seats
  rw [ne_eq, List.filterMap_eq_nil_iff]
  push Not
  constructor
  · rintro ⟨layer, hMem, hSeat⟩
    rw [← Option.isSome_iff_ne_none, isSome_seatOf hSome] at hSeat
    exact ⟨layer.1, List.fst_mem_of_mem_zipIdx hMem, hSeat⟩
  · rintro ⟨l, hMem, hLands⟩
    obtain ⟨i, hAt⟩ := List.mem_iff_getElem?.mp hMem
    refine ⟨(l, i), List.mk_mem_zipIdx_iff_getElem?.mpr hAt, ?_⟩
    rw [← Option.isSome_iff_ne_none, isSome_seatOf hSome]
    exact hLands

/-- The parts to draw of the group, over a slot that holds a picture of it. -/
def parts (held : Snapshot) (history : DamageHistory) : List IRect :=
  (decide_ held g.merge.width g.merge.height (mergeMembers g.merge) history
    ⟨true, true, false⟩).parts

/-- **Drawn by parts as it is drawn whole**: every part has a member to draw, and
drawing them in turn writes at their pixels what drawing the whole does, and
leaves the others. -/
def DrawnByParts (vic : Vic C) (slot : Nat) (forced : Int) (parts : List IRect) : Prop :=
  (∀ part ∈ parts, ∃ pass,
    composeInto g.target.width g.target.height g.merge.layers g.merge.width g.merge.height
        (g.job slot forced parts).groupCode (some part) = some pass ∧ pass.seats ≠ []) ∧
    ∃ after whole,
      vic.drawParts (g.job slot forced parts) parts g.target = (after, true) ∧
        vic.drawWhole (g.job slot forced parts) g.target = some whole ∧
          ∀ p, after.pixels p = if Covered parts p then whole.pixels p else g.target.pixels p

/-- Parts inside the frame are drawn as the whole is, just where each has a
member to draw. -/
theorem drawnByParts_iff (vic : Vic C) (slot : Nat) (forced : Int) {parts : List IRect}
    (hParts : ∀ part ∈ parts, LiesIn g.frame part ∧ empty part = false) :
    g.DrawnByParts vic slot forced parts ↔
      ∀ part ∈ parts, ∃ l ∈ g.merge.layers, lands part l = true := by
  unfold DrawnByParts
  rw [job_groupCode]
  constructor
  · rintro ⟨hEach, -⟩ part hPart
    obtain ⟨hIn, hSome⟩ := hParts part hPart
    obtain ⟨pass, hPass, hSeats⟩ := hEach part hPart
    rw [← g.seats_ne_nil_iff hSome]
    intro hNone
    rw [g.composeInto_part hIn hSome, if_pos hNone] at hPass
    cases hPass
  · intro hLands
    have hSeats : ∀ part ∈ parts, g.seats (some part) ≠ [] := fun part hPart =>
      (g.seats_ne_nil_iff (hParts part hPart).2).mpr (hLands part hPart)
    refine ⟨fun part hPart => ?_, _, _,
      g.drawParts_eq vic slot forced parts (fun part h => (hParts part h).1)
        (fun part h => (hParts part h).2) hSeats g.target.pixels,
      g.drawWhole_eq vic slot forced g.target.pixels, fun p => ?_⟩
    · obtain ⟨hIn, hSome⟩ := hParts part hPart
      refine ⟨_, (g.composeInto_part hIn hSome).trans (if_neg (hSeats part hPart)), ?_⟩
      exact hSeats part hPart
    · unfold Raster.redraw
      simp only
      by_cases hCovered : Covered parts p
      · obtain ⟨part, hPart, hp⟩ := hCovered
        have hFrame : inside g.frame p := inside_of_liesIn (hParts part hPart).1 hp
        rw [if_pos ⟨part, hPart, hp⟩, if_pos ⟨part, hPart, hp⟩, if_pos hFrame]
      · rw [if_neg hCovered, if_neg hCovered]

theorem parts_sound (held : Snapshot) (history : DamageHistory) :
    ∀ part ∈ g.parts held history, LiesIn g.frame part ∧ empty part = false :=
  fun _ hPart => decide_parts_sound hPart

/-- Each part of a plan has a member to draw where every member's place covers
something. -/
theorem parts_land (held : Snapshot) (history : DamageHistory)
    (hPlaces : ∀ l ∈ g.merge.layers, empty l.display = false) :
    ∀ part ∈ g.parts held history, ∃ l ∈ g.merge.layers, lands part l = true := by
  have hPlaced : ∀ m ∈ mergeMembers g.merge,
      LiesIn (frameOf g.merge.width g.merge.height) m.dst ∧ empty m.dst = false := by
    intro m hm
    obtain ⟨i, hi, rfl⟩ := List.mem_mapIdx.mp hm
    exact ⟨g.placed _ (List.getElem_mem hi), hPlaces _ (List.getElem_mem hi)⟩
  have hMembers : mergeMembers g.merge ≠ [] := fun hNone =>
    g.layers_ne (List.mapIdx_eq_nil_iff.mp hNone)
  intro part hPart
  have hDraws := decide_parts_draw rfl hMembers hPlaced hPart
  obtain ⟨m, hm, hMeet⟩ := List.any_eq_true.mp hDraws
  obtain ⟨i, hi, rfl⟩ := List.mem_mapIdx.mp hm
  refine ⟨g.merge.layers[i], List.getElem_mem hi, ?_⟩
  unfold lands
  rw [hMeet, hPlaces _ (List.getElem_mem hi)]
  simp

/-- A part with no member to draw is refused, whatever was drawn before it. -/
theorem drawParts_none (vic : Vic C) (slot : Nat) (forced : Int) (whole : List IRect)
    {parts : List IRect} (hParts : ∀ part ∈ parts, LiesIn g.frame part ∧ empty part = false)
    (hNone : ∃ part ∈ parts, g.seats (some part) = []) (pixels : Point → C) :
    ∃ pixels', vic.drawParts (g.job slot forced whole) parts { g.target with pixels := pixels } =
      ({ g.target with pixels := pixels' }, false) := by
  induction parts generalizing pixels with
  | nil =>
    obtain ⟨part, hPart, -⟩ := hNone
    cases hPart
  | cons part rest ih =>
    obtain ⟨hIn, hSome⟩ := hParts part (by simp)
    have hPart := g.compose_part vic hIn hSome pixels
    rw [← g.job_groupCode slot forced whole] at hPart
    split at hPart
    · exact ⟨pixels, vic.drawParts_refused hPart⟩
    · rename_i hSeats
      obtain ⟨q, hq, hLeft⟩ := hNone
      have hRest : q ∈ rest := (List.mem_cons.mp hq).resolve_left fun hSame =>
        hSeats (hSame ▸ hLeft)
      obtain ⟨pixels', hDrawn⟩ := ih (fun q hq => hParts q (List.mem_cons_of_mem part hq))
        ⟨q, hRest, hLeft⟩ _
      exact ⟨pixels', (vic.drawParts_drawn hPart).trans hDrawn⟩

/-- **Refused or not, the parts come out right**: `DrawMergeJob` draws the group,
and at every pixel of the parts the slot shows what drawing the whole shows. -/
theorem drawMergeJob_covered (vic : Vic C) (held : Snapshot) (history : DamageHistory)
    (slot : Nat) (forced : Int) :
    (vic.drawMergeJob (g.job slot forced (g.parts held history)) g.target).2 = true ∧
      ∀ p, Covered (g.parts held history) p →
        (vic.drawMergeJob (g.job slot forced (g.parts held history)) g.target).1.pixels p =
          g.picture vic p := by
  have hParts := g.parts_sound held history
  generalize g.parts held history = parts at hParts
  have hJob : (g.job slot forced parts).parts = parts := rfl
  -- what the whole drawing shows in the frame, it shows in the parts
  have hWhole : ∀ (pixels : Point → C) p, Covered parts p →
      Raster.redraw (inside g.frame) (g.picture vic) pixels p = g.picture vic p := by
    rintro pixels p ⟨part, hPart, hp⟩
    exact if_pos (inside_of_liesIn (hParts part hPart).1 hp)
  unfold Vic.drawMergeJob
  rw [hJob]
  simp only
  split
  · rw [g.drawWhole_eq vic slot forced g.target.pixels]
    exact ⟨rfl, hWhole _⟩
  by_cases hSeats : ∀ part ∈ parts, g.seats (some part) ≠ []
  · rw [g.drawParts_eq vic slot forced parts (fun part h => (hParts part h).1)
      (fun part h => (hParts part h).2) hSeats g.target.pixels]
    exact ⟨rfl, fun p hp => if_pos hp⟩
  · push Not at hSeats
    obtain ⟨pixels, hRefused⟩ := g.drawParts_none vic slot forced parts hParts hSeats
      g.target.pixels
    rw [hRefused, if_neg Bool.false_ne_true, g.drawWhole_eq vic slot forced pixels]
    exact ⟨rfl, hWhole _⟩

end Group

/-- An engine that reads the texel under the middle of a pixel, and writes it
over what is below. -/
def nearest (texel : Nat → Int → Int → Nat) : Vic Nat where
  clear := 0
  read := fun _ member src dst p =>
    let under := footprint src dst p
    texel member ⌊(under.left + under.right) / 2⌋ ⌊(under.top + under.bottom) / 2⌋
  blend := fun _ _ drawn _ => drawn
  read_exact := by
    intro member src src' dst dst' p _ _ _ _ hUnder
    simp only
    rw [hUnder]

/-- Two layers, of which the one at the far edge has shrunk to no width. -/
def shrunkMerge : Merge :=
  { layers := [⟨⟨0, 0, 288, 100⟩, ⟨0, 0, 288, 100⟩, 1, true, none⟩,
      ⟨⟨0, 0, 10, 100⟩, ⟨300, 0, 300, 100⟩, 1, true, none⟩]
    sourceIds := [1, 2]
    generations := [1, 2]
    serials := [1, 2]
    transforms := [0, 0]
    width := 300
    height := 100 }

theorem shrunkMerge_placed : ∀ l ∈ shrunkMerge.layers,
    LiesIn (frameOf shrunkMerge.width shrunkMerge.height) l.display := by
  unfold LiesIn
  decide

/-- And their group, in a slot of the panel's size. -/
def shrunk : Group Nat where
  merge := shrunkMerge
  target := ⟨1536, 2048, fun _ => 0⟩
  layers_ne := by decide
  layers_le := by decide
  unturned := by decide
  width_fits := by decide
  height_fits := by decide
  signed := by
    unfold SignedSize
    decide
  placed := shrunkMerge_placed

end VicSession

end TegraHwc
