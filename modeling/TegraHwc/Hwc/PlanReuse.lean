import TegraHwc.Hwc.HwcDisplay

/-!
# TegraHwc — a plan handed back is the plan of the frame

A frame that arrives with no bit raised takes the plan of the frame before.
The bits are taken by the planner, at a validation; the plan is kept at the
present. Between the two a validation may come and go unpresented, and a layer
shown cropped may be set again and shown otherwise.

`Clean` says that no bit is raised anywhere. What holds after every run is
`Tracked`: while the display is clean, the kept plan and the staged one are of
what the planner reads now.

## Results

* `planReuse_valid`   — a plan is handed back only where nothing that shapes a
  plan has changed since it was made, in every run that is `Undisturbed`.
* `planReuse_invalid` — where a validation is not presented, it is handed back
  without.
-/

namespace TegraHwc.HwcDisplay

open PlanInvalidator Runs

variable {c : DisplayConfig}

-- ---------------------------------------------------------------------------
-- No bit raised
-- ---------------------------------------------------------------------------

/-- No bit is raised, of the display, its client target or its layers. -/
structure Clean (s : HwcDisplay) : Prop where
  display : s.planInvalidators = 0
  client : s.clientLayer.planInvalidators = 0
  layers : ∀ e ∈ s.layers, e.layer.planInvalidators = 0

theorem not_clean_marked {s : HwcDisplay} {bits : UInt32} (hBits : bits ≠ 0) :
    ¬ Clean (s.markPlanInvalid bits) :=
  fun h => hBits (UInt32.or_eq_zero_iff.mp h.display).2

theorem clean_of_marked {s : HwcDisplay} {bits : UInt32} (h : Clean (s.markPlanInvalid bits)) :
    Clean s :=
  ⟨(UInt32.or_eq_zero_iff.mp h.display).1, h.client, h.layers⟩

/-- Bits gathered one after another come to none where each is. -/
theorem foldl_or_eq_zero {α : Type} (f : α → UInt32) (l : List α) (bits : UInt32) :
    l.foldl (fun bits a => bits ||| f a) bits = 0 ↔ bits = 0 ∧ ∀ a ∈ l, f a = 0 := by
  induction l generalizing bits with
  | nil => simp
  | cons a l ih =>
    rw [List.foldl_cons, ih, UInt32.or_eq_zero_iff, List.forall_mem_cons]
    tauto

/-- A layer that had no bit to take and did not cross into or out of drawing is
left as it was. -/
theorem left_eq {size : Nat × Nat} {now : Nat} {l : HwcLayer}
    (h : (l.planInvalidators |||
      (if (l.refreshLiveness size now).1 then kLayerActivity else 0)) = 0) :
    l.planInvalidators = 0 ∧ (l.refreshLiveness size now).2.clearPlanInvalidators = l := by
  obtain ⟨hBits, hLive⟩ := UInt32.or_eq_zero_iff.mp h
  have hSame : (l.refreshLiveness size now).1 = false := by
    by_contra hNot
    rw [if_pos (by simpa using hNot)] at hLive
    exact absurd hLive (by decide)
  rw [HwcLayer.refreshLiveness_quiet hSame]
  refine ⟨hBits, ?_⟩
  rw [HwcLayer.clearPlanInvalidators, ← hBits]

/-- **No bit taken.** The display was clean, and is left as it was. -/
theorem take_quiet {s : HwcDisplay} {now : Nat} (h : (s.takePlanInvalidators c now).1 = 0) :
    Clean s ∧ (s.takePlanInvalidators c now).2 = s := by
  unfold takePlanInvalidators at h ⊢
  simp only [foldl_or_eq_zero, UInt32.or_eq_zero_iff] at h
  obtain ⟨⟨hDisplay, hClient⟩, hLayers⟩ := h
  rw [← UInt32.or_eq_zero_iff] at hClient
  have hEach : ∀ e ∈ s.layers, e.layer.planInvalidators = 0 ∧
      (e.layer.refreshLiveness c.size now).2.clearPlanInvalidators = e.layer :=
    fun e he => left_eq (UInt32.or_eq_zero_iff.mpr (hLayers e he))
  refine ⟨⟨hDisplay, (left_eq hClient).1, fun e he => (hEach e he).1⟩, ?_⟩
  have hMap : s.layers.map (fun e => { e with
      layer := (e.layer.refreshLiveness c.size now).2.clearPlanInvalidators }) = s.layers := by
    refine (List.map_congr_left fun e he => ?_).trans s.layers.map_id
    rw [(hEach e he).2]
    rfl
  simp only [hMap, (left_eq hClient).2, ← hDisplay]

theorem take_keeps (s : HwcDisplay) (now : Nat) :
    (s.takePlanInvalidators c now).2.reusablePlan = s.reusablePlan ∧
      (s.takePlanInvalidators c now).2.bitsSpent = s.bitsSpent ∧
      (s.takePlanInvalidators c now).2.layers.map Entry.lastSeen = s.layers.map Entry.lastSeen := by
  refine ⟨rfl, rfl, ?_⟩
  simp [takePlanInvalidators, Function.comp_def]

-- ---------------------------------------------------------------------------
-- Changes are told
-- ---------------------------------------------------------------------------

/-- What leaves the display clean found it clean, and changed nothing the
planner reads. -/
def Told (c : DisplayConfig) (s s' : HwcDisplay) : Prop :=
  Clean s' → Clean s ∧ s'.planInput c = s.planInput c

theorem told_of_not_clean {s s' : HwcDisplay} (h : ¬ Clean s') : Told c s s' :=
  fun hClean => absurd hClean h

theorem createLayer_told (s : HwcDisplay) (id : ILayerId) : Told c s (s.createLayer id) := by
  unfold createLayer
  split
  · exact fun h => ⟨h, rfl⟩
  · exact told_of_not_clean fun h =>
      @not_clean_marked s kLayerAdded (by decide)
        ⟨h.display, h.client, fun e he => h.layers e (List.mem_append_left _ he)⟩

theorem destroyLayer_told (s : HwcDisplay) (id : ILayerId) : Told c s (s.destroyLayer id) := by
  unfold destroyLayer
  split
  · refine told_of_not_clean fun h => ?_
    exact absurd (UInt32.or_eq_zero_iff.mp h.display).2 (by decide)
  · exact fun h => ⟨h, rfl⟩

/-- A layer changed through a quiet setter. -/
theorem modifyLayer_told {f : HwcLayer → HwcLayer} (hf : HwcLayer.Quiet c.minCornerRadius f)
    (s : HwcDisplay) (id : ILayerId) : Told c s (s.modifyLayer id f) := by
  intro h
  have hEach : ∀ e ∈ s.layers, e.layer.planInvalidators = 0 ∧
      (if e.id = id then { e with layer := f e.layer } else e).layer.planShape c.minCornerRadius
        = e.layer.planShape c.minCornerRadius := by
    intro e he
    have hBits := h.layers _ (List.mem_map.mpr ⟨e, he, rfl⟩)
    split at hBits
    · rename_i hId
      rw [if_pos hId]
      exact hf e.layer hBits
    · rename_i hId
      rw [if_neg hId]
      exact ⟨hBits, rfl⟩
  refine ⟨⟨h.display, h.client, fun e he => (hEach e he).1⟩, ?_⟩
  unfold planInput modifyLayer
  simp only [PlanInput.mk.injEq, List.map_map, and_true]
  refine List.map_congr_left fun e he => ?_
  simp only [Function.comp, LayerInput.mk.injEq]
  refine ⟨?_, (hEach e he).2, ?_⟩
  · split <;> rfl
  · split <;> rfl

theorem seatGpuBuffer_told (s : HwcDisplay) (now : Nat) (seat : LayerProperties) :
    Told c s (s.seatGpuBuffer now seat) := by
  intro h
  obtain ⟨hBits, hShape⟩ :=
    (HwcLayer.setLayerProperties_quiet now seat : HwcLayer.Quiet c.minCornerRadius _) s.clientLayer h.client
  refine ⟨⟨h.display, hBits, h.layers⟩, ?_⟩
  unfold planInput seatGpuBuffer
  simp only [hShape]

/-- A layer whose frame or crop was set again, while it was shown cropped, is
seen as it was. -/
def SeenAgain (c : DisplayConfig) (s : HwcDisplay) : Prop :=
  ∀ e ∈ s.layers, ∀ seen, e.lastSeen = some seen → seen ≠ e.layer.seen →
    e.layer.cropped (s.occlusionAnswer c e.id) = seen

theorem applyOcclusion_seen (shown : Occlusion.Shown) (l : HwcLayer) :
    (l.applyOcclusion shown).seen = l.cropped shown := by
  unfold HwcLayer.applyOcclusion HwcLayer.seen
  rfl

/-- What the occlusion finds is told: a layer not set again is compared with
what is shown of it. -/
theorem resolveOcclusion_told {s : HwcDisplay} (hSeen : Clean s → ∀ e ∈ s.layers, e.lastSeen.isSome)
    (h : Clean (s.resolveOcclusion c)) :
    Clean s ∧ (SeenAgain c s → (s.resolveOcclusion c).planInput c = s.planInput c) := by
  have hEach : ∀ e ∈ s.layers, e.layer.planInvalidators = 0 ∧
      (e.layer.applyOcclusion (s.occlusionAnswer c e.id)).planShape c.minCornerRadius
        = e.layer.planShape c.minCornerRadius ∧
      (e.layer.applyOcclusion (s.occlusionAnswer c e.id)).seen = e.layer.seen :=
    fun e he => HwcLayer.applyOcclusion_quiet (h.layers _ (List.mem_map.mpr ⟨e, he, rfl⟩))
  have hClean : Clean s := ⟨h.display, h.client, fun e he => (hEach e he).1⟩
  refine ⟨hClean, fun hAgain => ?_⟩
  unfold planInput resolveOcclusion
  simp only [PlanInput.mk.injEq, List.map_map, and_true]
  refine List.map_congr_left fun e he => ?_
  simp only [Function.comp, LayerInput.mk.injEq, true_and]
  refine ⟨(hEach e he).2.1, ?_⟩
  obtain ⟨seen, hLast⟩ := Option.isSome_iff_exists.mp (hSeen hClean e he)
  rw [hLast, Option.some.injEq]
  by_cases hSame : seen = e.layer.seen
  · rw [(hEach e he).2.2, hSame]
  · rw [applyOcclusion_seen, hAgain e he seen hLast hSame]

-- ---------------------------------------------------------------------------
-- What holds after every run
-- ---------------------------------------------------------------------------

/-- While the display is clean, the kept plan and the staged one are of what
the planner reads now. -/
structure Tracked (s : HwcDisplay) : Prop where
  kept : Clean s → s.bitsSpent = false → ∀ k, s.havePlan = some k → k.madeAt = s.changes
  staged : Clean s → ∀ k, s.validatedComposition = some k → k.madeAt = s.changes
  /-- The occlusion has said something of every layer. -/
  seen : Clean s → ∀ e ∈ s.layers, e.lastSeen.isSome

theorem clean_observe {s s' : HwcDisplay} : Clean (observe c s s') ↔ Clean s' := by
  unfold observe
  split
  · exact Iff.rfl
  · exact ⟨fun h => ⟨h.display, h.client, h.layers⟩, fun h => ⟨h.display, h.client, h.layers⟩⟩

/-- Counting a change changes the count alone. -/
theorem observe_eq (s s' : HwcDisplay) :
    ∃ n, observe c s s' = { s' with changes := n } ∧
      (s'.planInput c = s.planInput c → n = s'.changes) := by
  unfold observe
  split
  · exact ⟨s'.changes, rfl, fun _ => rfl⟩
  · rename_i hNot
    exact ⟨s'.changes + 1, rfl, fun h => absurd h hNot⟩

/-- The count stands still just where what the planner reads does. -/
theorem observe_counts {s s' : HwcDisplay} :
    (observe c s s').changes = s'.changes ↔ s'.planInput c = s.planInput c := by
  unfold observe
  split
  · rename_i hSame
    simp [hSame]
  · rename_i hNot
    simp [hNot]

/-- The layers' part of what the planner reads says what was seen of each. -/
theorem seen_of_planInput {s s' : HwcDisplay} (hInput : s'.planInput c = s.planInput c)
    (h : ∀ e ∈ s.layers, e.lastSeen.isSome) : ∀ e ∈ s'.layers, e.lastSeen.isSome := by
  intro e he
  have hMem : (⟨e.id, e.layer.planShape c.minCornerRadius, e.lastSeen⟩ : LayerInput) ∈
      (s'.planInput c).layers := List.mem_map.mpr ⟨e, he, rfl⟩
  rw [hInput] at hMem
  obtain ⟨e', he', hSame⟩ := List.mem_map.mp hMem
  rw [LayerInput.mk.injEq] at hSame
  rw [← hSame.2.2]
  exact h e' he'

/-- **A change that is told keeps what is tracked.** -/
theorem Tracked.observe {s s' : HwcDisplay} (hs : Tracked s) (hTold : Told c s s')
    (hKept : s'.reusablePlan = s.reusablePlan ∨ s'.reusablePlan = none)
    (hStaged : s'.validatedComposition = s.validatedComposition)
    (hSpent : s'.bitsSpent = s.bitsSpent) (hChanges : s'.changes = s.changes) :
    Tracked (observe c s s') := by
  have hFirst : Clean (HwcDisplay.observe c s s') →
      Clean s ∧ s'.planInput c = s.planInput c := fun h => hTold (clean_observe.mp h)
  obtain ⟨n, hObserve, hSame⟩ := observe_eq (c := c) s s'
  rw [hObserve] at hFirst ⊢
  refine ⟨?_, ?_, ?_⟩
  · intro hClean hNot k hk
    obtain ⟨hBefore, hInput⟩ := hFirst hClean
    simp only [hSame hInput, hChanges]
    refine hs.kept hBefore (hSpent ▸ hNot) k ?_
    rcases hKept with hKept | hKept
    · simpa only [havePlan, hKept] using hk
    · simp [havePlan, hKept] at hk
  · intro hClean k hk
    obtain ⟨hBefore, hInput⟩ := hFirst hClean
    simp only [hSame hInput, hChanges]
    exact hs.staged hBefore k (hStaged ▸ hk)
  · intro hClean
    obtain ⟨hBefore, hInput⟩ := hFirst hClean
    exact seen_of_planInput (c := c) hInput (hs.seen hBefore)

theorem tracked_init : Tracked {} := by
  refine ⟨fun h => ?_, fun h => ?_, fun h => ?_⟩
  all_goals exact absurd h.display (by decide)

/-- Nothing is tracked of a display that is not clean. -/
theorem tracked_of_not_clean {s : HwcDisplay} (h : ¬ Clean s) : Tracked s :=
  ⟨fun hClean => absurd hClean h, fun hClean => absurd hClean h, fun hClean => absurd hClean h⟩

theorem markPlanInvalid_keeps {s : HwcDisplay} (hs : Tracked s) (bits : UInt32) :
    Tracked (s.markPlanInvalid bits) :=
  ⟨fun h => hs.kept (clean_of_marked h), fun h => hs.staged (clean_of_marked h),
    fun h => hs.seen (clean_of_marked h)⟩

/-- Layers changed in what no bit and no plan is about: the type they were
given or asked for. -/
theorem mapLayers_keeps {s : HwcDisplay} (hs : Tracked s) {f : Entry → Entry}
    (hf : ∀ e, (f e).layer.planInvalidators = e.layer.planInvalidators ∧
      (f e).lastSeen = e.lastSeen) : Tracked { s with layers := s.layers.map f } := by
  have hClean : Clean { s with layers := s.layers.map f } → Clean s := fun h =>
    ⟨h.display, h.client, fun e he =>
      (hf e).1 ▸ h.layers (f e) (List.mem_map.mpr ⟨e, he, rfl⟩)⟩
  refine ⟨fun h => hs.kept (hClean h), fun h => hs.staged (hClean h), ?_⟩
  intro h e he
  obtain ⟨e', he', rfl⟩ := List.mem_map.mp he
  rw [(hf e').2]
  exact hs.seen (hClean h) e' he'

theorem setTypes_keeps {s : HwcDisplay} (hs : Tracked s) (composition : ValidatedComposition) :
    Tracked (s.setTypes composition) := by
  refine mapLayers_keeps hs fun e => ?_
  split
  · exact ⟨rfl, rfl⟩
  · exact ⟨rfl, rfl⟩

-- ---------------------------------------------------------------------------
-- A validation
-- ---------------------------------------------------------------------------

/-- What a validation needs of a run, where the display is found clean and a
plan is kept: no validation has taken raised bits since the plan was kept, the
plan being about to be handed back; and what was set again while it was shown
cropped is seen as it was. -/
def Undisturbed (c : DisplayConfig) (s : HwcDisplay) (v : Validation) : Prop :=
  let t := s.beforePlan c v
  Clean t → t.havePlan.isSome →
    SeenAgain c s ∧
      (t.flattens v = none → (t.takePlanInvalidators c v.now).1 = 0 → s.bitsSpent = false)

/-- The stand-in changes the client's target alone. -/
theorem standIn_eq (s : HwcDisplay) (v : Validation) :
    ∃ l, s.standIn c v = { s with clientLayer := l } := by
  unfold standIn
  split
  · exact ⟨_, rfl⟩
  · exact ⟨s.clientLayer, rfl⟩

theorem standIn_told (s : HwcDisplay) (v : Validation) : Told c s (s.standIn c v) := by
  unfold standIn
  split
  · exact seatGpuBuffer_told s v.now v.seat
  · exact fun h => ⟨h, rfl⟩

/-- A profile that changed raises a bit, and that is all. -/
theorem refreshDisplayProfile_eq (s : HwcDisplay) (v : Validation) :
    ∃ bits, s.refreshDisplayProfile v = { s with planInvalidators := s.planInvalidators ||| bits } := by
  unfold refreshDisplayProfile
  split
  · exact ⟨_, rfl⟩
  · exact ⟨0, by simp⟩

/-- What a validation does before the planner is asked: a bit or none is raised,
the occlusion resolved, and the client's target stood in for. -/
theorem prepared_shape (s : HwcDisplay) (v : Validation) :
    ∃ bits l, s.prepared c v =
      { resolveOcclusion c { s with
          validatedComposition := none, planInvalidators := s.planInvalidators ||| bits } with
        clientLayer := l } := by
  unfold prepared
  obtain ⟨bits, hProfile⟩ := refreshDisplayProfile_eq { s with validatedComposition := none } v
  simp only [hProfile]
  obtain ⟨l, hSeat⟩ := standIn_eq (c := c) (resolveOcclusion c { s with
    validatedComposition := none, planInvalidators := s.planInvalidators ||| bits }) v
  exact ⟨bits, l, hSeat⟩

/-- What happens to the plan before the planner is asked: nothing. -/
theorem prepared_eq (s : HwcDisplay) (v : Validation) :
    (s.prepared c v).reusablePlan = s.reusablePlan ∧
      (s.prepared c v).validatedComposition = none ∧
      (s.prepared c v).bitsSpent = s.bitsSpent ∧ (s.prepared c v).changes = s.changes := by
  obtain ⟨bits, l, hShape⟩ := prepared_shape (c := c) s v
  rw [hShape]
  exact ⟨rfl, rfl, rfl, rfl⟩

/-- The occlusion has said something of every layer. -/
theorem prepared_seen (s : HwcDisplay) (v : Validation) :
    ∀ e ∈ (s.prepared c v).layers, e.lastSeen.isSome := by
  obtain ⟨bits, l, hShape⟩ := prepared_shape (c := c) s v
  rw [hShape]
  intro e he
  obtain ⟨e', -, rfl⟩ := List.mem_map.mp he
  rfl

/-- A display found clean by the planner was clean, and is as it was where what
was set again is seen again. -/
theorem prepared_told {s : HwcDisplay} (hs : Tracked s) (v : Validation)
    (h : Clean (s.prepared c v)) :
    Clean s ∧ (SeenAgain c s → (s.prepared c v).planInput c = s.planInput c) := by
  unfold prepared at h ⊢
  obtain ⟨bits, hProfile⟩ := refreshDisplayProfile_eq { s with validatedComposition := none } v
  simp only [hProfile] at h ⊢
  obtain ⟨hResolved, hInput⟩ := standIn_told _ v h
  have hFirst : ∀ t : HwcDisplay, t.layers = s.layers → t.clientLayer = s.clientLayer →
      t.planInvalidators = s.planInvalidators ||| bits → Clean t → Clean s := by
    intro t hLayers hClient hBits ht
    exact ⟨(UInt32.or_eq_zero_iff.mp (hBits ▸ ht.display)).1, hClient ▸ ht.client,
      hLayers ▸ ht.layers⟩
  obtain ⟨hBefore, hSame⟩ := resolveOcclusion_told
    (s := { s with
      validatedComposition := none, planInvalidators := s.planInvalidators ||| bits })
    (fun ht => hs.seen (hFirst { s with
      validatedComposition := none, planInvalidators := s.planInvalidators ||| bits }
      rfl rfl rfl ht)) hResolved
  exact ⟨hFirst { s with
      validatedComposition := none, planInvalidators := s.planInvalidators ||| bits }
      rfl rfl rfl hBefore, fun hAgain => hInput.trans (hSame hAgain)⟩

/-- What the planner is given is tracked, but for a staged plan. -/
theorem beforePlan_tracked {s : HwcDisplay} (hs : Tracked s) {v : Validation}
    (hSteady : Clean (s.beforePlan c v) → (s.beforePlan c v).havePlan.isSome → SeenAgain c s) :
    Tracked (s.beforePlan c v) := by
  obtain ⟨n, hObserve, hSame⟩ := observe_eq (c := c) s (s.prepared c v)
  obtain ⟨hKept, hStaged, hSpent, hChanges⟩ := prepared_eq (c := c) s v
  unfold beforePlan at hSteady ⊢
  rw [clean_observe] at hSteady
  rw [hObserve] at hSteady ⊢
  refine ⟨?_, ?_, ?_⟩
  · intro h hNot k hk
    have hPrepared : Clean (s.prepared c v) := ⟨h.display, h.client, h.layers⟩
    obtain ⟨hBefore, hInput⟩ := prepared_told hs v hPrepared
    have hAgain := hSteady hPrepared (Option.isSome_iff_exists.mpr ⟨k, hk⟩)
    simp only [hSame (hInput hAgain), hChanges]
    refine hs.kept hBefore (hSpent ▸ hNot) k ?_
    simpa only [havePlan, hKept] using hk
  · intro _ k hk
    simp only [hStaged] at hk
    cases hk
  · intro _
    exact prepared_seen s v

/-- What the planner answers: a scene flattened, its bits left; the kept plan,
with no bit taken; or a plan made anew, of what is read now. -/
theorem validateDisplay_cases {t t' : HwcDisplay} {v : Validation} {k : ValidatedComposition}
    {reused : Bool} (h : t.validateDisplay c v = (k, reused, t')) :
    (reused = false ∧ t' = t ∧ k.madeAt = t.changes) ∨
      (reused = true ∧ t' = t ∧ t.flattens v = none ∧
        (t.takePlanInvalidators c v.now).1 = 0 ∧ t.havePlan = some k) ∨
      (reused = false ∧ k.madeAt = t'.changes ∧
        t'.reusablePlan = t.reusablePlan ∧ (t'.bitsSpent = false → t.havePlan = none) ∧
        t'.layers.map Entry.lastSeen = t.layers.map Entry.lastSeen) := by
  unfold validateDisplay at h
  split at h
  · obtain ⟨rfl, hRest⟩ := Prod.mk.inj h
    obtain ⟨rfl, rfl⟩ := Prod.mk.inj hRest
    exact .inl ⟨rfl, rfl, rfl⟩
  rename_i hFlattens
  obtain ⟨n, hObserve, hSame⟩ := observe_eq (c := c) t (t.takePlanInvalidators c v.now).2
  obtain ⟨hKept, hSpent, hSeen⟩ := take_keeps (c := c) t v.now
  simp only [hObserve] at h
  split at h
  · rename_i kept hHave
    split at h
    · rename_i hBits
      obtain ⟨rfl, hRest⟩ := Prod.mk.inj h
      obtain ⟨rfl, rfl⟩ := Prod.mk.inj hRest
      have hLeft := (take_quiet hBits).2
      refine .inr (.inl ⟨rfl, ?_, hFlattens, hBits, hHave⟩)
      have hn := hSame (by rw [hLeft])
      rw [hn, hLeft]
    · obtain ⟨rfl, hRest⟩ := Prod.mk.inj h
      obtain ⟨rfl, rfl⟩ := Prod.mk.inj hRest
      exact .inr (.inr ⟨rfl, rfl, hKept, fun h => absurd h (by simp), hSeen⟩)
  · rename_i hNone
    obtain ⟨rfl, hRest⟩ := Prod.mk.inj h
    obtain ⟨rfl, rfl⟩ := Prod.mk.inj hRest
    exact .inr (.inr ⟨rfl, rfl, hKept, fun _ => hNone, hSeen⟩)

/-- A plan staged, and the layers given its types. -/
theorem staged_keeps {t : HwcDisplay} {v : Validation} {k : ValidatedComposition} {reused : Bool}
    (hKept : Clean t → t.bitsSpent = false → ∀ k, t.havePlan = some k → k.madeAt = t.changes)
    (hSeen : Clean t → ∀ e ∈ t.layers, e.lastSeen.isSome)
    (hk : Clean t → k.madeAt = t.changes) :
    Tracked { t.setTypes (t.staged c v k) with
      validatedComposition := some (t.staged c v k), stagedCompositionReused := reused } := by
  have hTracked : Tracked { t with
      validatedComposition := some (t.staged c v k), stagedCompositionReused := reused } := by
    have hClean : Clean { t with
        validatedComposition := some (t.staged c v k), stagedCompositionReused := reused } →
        Clean t := fun h => ⟨h.display, h.client, h.layers⟩
    refine ⟨fun h => hKept (hClean h), ?_, fun h => hSeen (hClean h)⟩
    intro h k' hk'
    obtain rfl := Option.some.inj hk'
    exact hk (hClean h)
  exact setTypes_keeps hTracked _

/-- **A validation keeps what is tracked**, and hands a plan back only of what
is read now. -/
theorem validateStagedComposition_tracked {s : HwcDisplay} (hs : Tracked s) {v : Validation}
    (hSteady : Undisturbed c s v) :
    Tracked (s.validateStagedComposition c v) ∧
      ((s.validateStagedComposition c v).stagedCompositionReused = true →
        ∀ k, (s.validateStagedComposition c v).validatedComposition = some k →
          k.madeAt = (s.validateStagedComposition c v).changes) := by
  have hBefore := beforePlan_tracked hs (v := v) fun h hHave => (hSteady h hHave).1
  have hSpent : (s.beforePlan c v).bitsSpent = s.bitsSpent := by
    obtain ⟨n, hObserve, -⟩ := observe_eq (c := c) s (s.prepared c v)
    rw [beforePlan, hObserve]
    exact (prepared_eq s v).2.2.1
  have hAll : ∀ e ∈ (s.beforePlan c v).layers, e.lastSeen.isSome := by
    obtain ⟨n, hObserve, -⟩ := observe_eq (c := c) s (s.prepared c v)
    rw [beforePlan, hObserve]
    exact prepared_seen s v
  unfold Undisturbed at hSteady
  unfold validateStagedComposition
  split
  · refine ⟨⟨fun h => hs.kept ⟨h.display, h.client, h.layers⟩, ?_, fun h => hs.seen
      ⟨h.display, h.client, h.layers⟩⟩, ?_⟩
    · intro _ k hk
      cases hk
    · intro _ k hk
      cases hk
  generalize s.beforePlan c v = t at hBefore hSpent hSteady hAll ⊢
  generalize hPlan : t.validateDisplay c v = answer
  obtain ⟨k, reused, t'⟩ := answer
  obtain ⟨rfl, rfl, hMade⟩ | ⟨rfl, rfl, hFlattens, hBits, hHave⟩ | ⟨rfl, hMade, hKept, hNone, hSeen⟩
    := validateDisplay_cases hPlan
  · -- flattened: of what is read now, the kept plan as before
    exact ⟨staged_keeps hBefore.kept hBefore.seen fun _ => hMade, fun h => absurd h (by simp)⟩
  · -- handed back
    have hClean := (take_quiet hBits).1
    have hUnspent := (hSteady hClean (Option.isSome_iff_exists.mpr ⟨k, hHave⟩)).2 hFlattens hBits
    have hMade := hBefore.kept hClean (hSpent.trans hUnspent) k hHave
    refine ⟨staged_keeps hBefore.kept hBefore.seen fun _ => hMade, fun _ k' hk' => ?_⟩
    obtain rfl := Option.some.inj hk'
    exact hMade
  · -- made anew, the bits taken
    refine ⟨staged_keeps ?_ ?_ fun _ => hMade, fun h => absurd h (by simp)⟩
    · intro _ hNot k' hk'
      simp only [havePlan, hKept] at hk'
      have hNothing := hNone hNot
      unfold havePlan at hNothing
      rw [hNothing] at hk'
      cases hk'
    · intro _ e he
      have hMem : e.lastSeen ∈ t'.layers.map Entry.lastSeen := List.mem_map.mpr ⟨e, he, rfl⟩
      rw [hSeen] at hMem
      obtain ⟨e', he', hSame⟩ := List.mem_map.mp hMem
      rw [← hSame]
      exact hAll e' he'

/-- A validation stages a composition, where there is a panel and something to
show. -/
theorem validateStagedComposition_stages {s : HwcDisplay} {v : Validation}
    (h : ¬(s.headless = true ∨ s.layers = [])) :
    (s.validateStagedComposition c v).validatedComposition.isSome = true := by
  unfold validateStagedComposition
  rw [if_neg h]
  rfl

-- ---------------------------------------------------------------------------
-- A present
-- ---------------------------------------------------------------------------

/-- A present keeps the plan where it was not kept yet, and drops it where the
frame fails. -/
theorem commitStagedComposition_keeps {s : HwcDisplay} (hs : Tracked s) {p : Presentation}
    {k : ValidatedComposition} (hk : s.validatedComposition = some k) :
    Tracked (s.commitStagedComposition c p k) := by
  have hSeated : ∀ t : HwcDisplay, Tracked t → t.validatedComposition = some k →
      Tracked (
        let s' :=
          if p.described && !t.stagedCompositionReused then
            { t with reusablePlan := some k, bitsSpent := false }
          else t
        let s' := { s' with validatedComposition := none }
        if p.described && p.committed then s'
        else { s' with reusablePlan := none }.markPlanInvalid kAllDirty) := by
    intro t ht htk
    simp only
    split
    swap
    · exact tracked_of_not_clean (not_clean_marked (by decide))
    split
    · refine ⟨fun h _ k' hk' => ?_, fun _ _ h => (nomatch h),
        fun h => ht.seen ⟨h.display, h.client, h.layers⟩⟩
      have hMade := ht.staged ⟨h.display, h.client, h.layers⟩ k htk
      unfold havePlan at hk'
      rw [Option.filter_eq_some_iff] at hk'
      obtain rfl := Option.some.inj hk'.1
      exact hMade
    · exact ⟨fun h => ht.kept ⟨h.display, h.client, h.layers⟩, fun _ _ h => (nomatch h),
        fun h => ht.seen ⟨h.display, h.client, h.layers⟩⟩
  unfold commitStagedComposition
  refine hSeated _ ?_ ?_
  · split
    · exact hs.observe (seatGpuBuffer_told s p.now p.seat) (.inl rfl) rfl rfl rfl
    · exact hs
  · split
    · obtain ⟨n, hObserve, -⟩ := observe_eq (c := c) s (s.seatGpuBuffer p.now p.seat)
      rw [hObserve]
      exact hk
    · exact hk

theorem presentStagedComposition_keeps {s : HwcDisplay} (hs : Tracked s) {p : Presentation}
    (hStaged : s.validatedComposition.isSome = true) :
    Tracked (s.presentStagedComposition c p) := by
  unfold presentStagedComposition
  split
  · exact hs
  · obtain ⟨k, hk⟩ := Option.isSome_iff_exists.mp hStaged
    rw [hk]
    exact commitStagedComposition_keeps hs hk

theorem acceptValidatedComposition_keeps {s : HwcDisplay} (hs : Tracked s) :
    Tracked s.acceptValidatedComposition :=
  mapLayers_keeps hs fun _ => ⟨rfl, rfl⟩

theorem presentDisplay_keeps {s : HwcDisplay} (hs : Tracked s) {p : Presentation}
    (hSteady : s.mayValidate c p.peekedAt = true → Undisturbed c s p.validation) :
    Tracked (s.presentDisplay c p) := by
  unfold presentDisplay
  split
  · rename_i hStaged
    exact presentStagedComposition_keeps hs hStaged
  unfold validateForPresentWithoutValidation
  by_cases hMay : s.mayValidate c p.peekedAt = true
  swap
  · rw [if_neg hMay]
    exact hs
  rw [if_pos hMay]
  have hValidated := (validateStagedComposition_tracked hs (hSteady hMay)).1
  simp only [mayValidate, Bool.and_eq_true, Bool.not_eq_true', List.isEmpty_eq_false_iff] at hMay
  have hStaged := validateStagedComposition_stages (c := c) (s := s) (v := p.validation)
    (by simp [hMay.1.1.1.2, hMay.1.1.2])
  by_cases hAsked : (s.validateStagedComposition c p.validation).stagedCompositionReused = false ∨
      (s.validateStagedComposition c p.validation).changedLayers ≠ []
  · simp only [if_pos hAsked]
    exact tracked_of_not_clean (not_clean_marked (by decide))
  · simp only [if_neg hAsked]
    exact presentStagedComposition_keeps (acceptValidatedComposition_keeps hValidated) hStaged

-- ---------------------------------------------------------------------------
-- Over every run
-- ---------------------------------------------------------------------------

/-- What an action needs of a run: where it validates, that the run is
undisturbed there. -/
def Steady (c : DisplayConfig) (s : HwcDisplay) : Action → Prop
  | .validateDisplay v => Undisturbed c s v
  | .presentDisplay p => s.mayValidate c p.peekedAt = true → Undisturbed c s p.validation
  | _ => True

/-- **A step keeps what is tracked.** -/
theorem tracked_act {s : HwcDisplay} (hs : Tracked s) {a : Action} (hSteady : Steady c s a) :
    Tracked (s.act c a) := by
  cases a with
  | createLayer id =>
    refine hs.observe (createLayer_told s id) (.inl ?_) ?_ ?_ ?_
    all_goals
      unfold createLayer
      split <;> rfl
  | destroyLayer id =>
    refine hs.observe (destroyLayer_told s id) ?_ ?_ ?_ ?_
    · unfold destroyLayer
      split
      · exact .inr rfl
      · exact .inl rfl
    all_goals
      unfold destroyLayer
      split <;> rfl
  | setLayerProperties id now lp =>
    exact hs.observe (modifyLayer_told (HwcLayer.setLayerProperties_quiet now lp) s id) (.inl rfl)
      rfl rfl rfl
  | setClientTarget now lp =>
    exact hs.observe (seatGpuBuffer_told s now lp) (.inl rfl) rfl rfl rfl
  | applyEffectMetadata id applied =>
    exact hs.observe (modifyLayer_told (HwcLayer.applyEffectMetadata_quiet applied) s id) (.inl rfl)
      rfl rfl rfl
  | setSolidColor id r g b a =>
    exact hs.observe (modifyLayer_told (HwcLayer.setSolidColor_quiet r g b a) s id) (.inl rfl)
      rfl rfl rfl
  | setVisibleRegion id region =>
    exact hs.observe (modifyLayer_told (HwcLayer.setVisibleRegion_quiet region) s id) (.inl rfl)
      rfl rfl rfl
  | markPlanInvalid bits => exact markPlanInvalid_keeps hs bits
  | acceptDisplayChanges => exact acceptValidatedComposition_keeps hs
  | validateDisplay v => exact (validateStagedComposition_tracked hs hSteady).1
  | presentDisplay p => exact presentDisplay_keeps hs hSteady
  | setPipeline headless =>
    show Tracked (s.setPipeline headless)
    unfold setPipeline
    split
    · exact ⟨fun h => hs.kept ⟨h.display, h.client, h.layers⟩,
        fun h => hs.staged ⟨h.display, h.client, h.layers⟩,
        fun h => hs.seen ⟨h.display, h.client, h.layers⟩⟩
    · refine tracked_of_not_clean fun h => ?_
      exact @not_clean_marked { s with validatedComposition := none, reusablePlan := none } kAllDirty
        (by decide) ⟨h.display, h.client, h.layers⟩

/-- **Plan reuse.** After every undisturbed run, a validation that hands the
kept plan back hands back one made since the last change of anything the
planner reads of the layers: their number and order, their properties, what is
seen of them, and whether they are drawing. -/
theorem planReuse_valid {actions : List Action} {s : HwcDisplay} {v : Validation}
    (hMeets : (machine c).Meets (Steady c) {} actions)
    (hRun : (machine c).run {} actions = some s) (hSteady : Undisturbed c s v)
    {k : ValidatedComposition}
    (hReused : (s.validateStagedComposition c v).stagedCompositionReused = true)
    (hStaged : (s.validateStagedComposition c v).validatedComposition = some k) :
    k.madeAt = (s.validateStagedComposition c v).changes := by
  have hs : Tracked s := by
    refine Machine.run_of_meets (m := machine c) ?_ tracked_init hMeets hRun
    intro s a s' hs hC hStep
    obtain rfl := Option.some.inj hStep
    exact tracked_act hs hC
  exact (validateStagedComposition_tracked hs hSteady).2 hReused k hStaged

/-- A panel, and one layer shown on it. -/
def oneLayerShown : List Action :=
  [.setPipeline false, .createLayer 1,
    .setLayerProperties 1 0 { buffer := some { bi := { width := 8, height := 8 }, fb := some 1 } },
    .validateDisplay {}, .presentDisplay {}]

/-- The frame is undisturbed: its bits are raised from the start. -/
theorem oneLayerShown_steady :
    (machine { hasGpu := false }).Meets (Steady { hasGpu := false }) {} oneLayerShown :=
  ⟨trivial, trivial, trivial, fun h => absurd h.display (by decide),
    fun h => absurd h (by decide), trivial⟩

/-- The next frame, with nothing changed, is handed the plan. -/
theorem planReuse_valid_again :
    ∃ s, (machine { hasGpu := false }).run {} oneLayerShown = some s ∧
      (s.validateStagedComposition { hasGpu := false } {}).stagedCompositionReused = true ∧
      (s.validateStagedComposition { hasGpu := false } {}).validatedComposition.isSome = true ∧
      ∀ k, (s.validateStagedComposition { hasGpu := false } {}).validatedComposition = some k →
        k.madeAt = (s.validateStagedComposition { hasGpu := false } {}).changes := by
  refine ⟨_, rfl, ?_, ?_, fun k hk => ?_⟩
  · decide
  · decide
  refine planReuse_valid oneLayerShown_steady rfl ?_ (by decide) hk
  intro _ _
  refine ⟨?_, fun _ _ => by decide⟩
  intro e he seen hLast hNot
  obtain rfl := List.mem_singleton.mp he
  exact absurd (Option.some.inj hLast).symm hNot

/-- The layer fades, and the frame is validated but not presented. -/
def fadedUnpresented : List Action :=
  [.setLayerProperties 1 0 { alpha := some 0 }, .validateDisplay {}]

/-- **The plan of another frame.** The bit the fade raised is taken by the
validation that is not presented, and the next is handed the plan made before
the fade. -/
theorem planReuse_invalid :
    ¬∀ (actions : List Action) (s : HwcDisplay) (v : Validation) (k : ValidatedComposition),
      (machine { hasGpu := false }).run {} actions = some s →
      (s.validateStagedComposition { hasGpu := false } v).stagedCompositionReused = true →
      (s.validateStagedComposition { hasGpu := false } v).validatedComposition = some k →
      k.madeAt = (s.validateStagedComposition { hasGpu := false } v).changes := by
  intro hAll
  obtain ⟨s, hRun⟩ : ∃ s, (machine { hasGpu := false }).run {}
    (oneLayerShown ++ fadedUnpresented) = some s := ⟨_, rfl⟩
  have hStaged : (s.validateStagedComposition { hasGpu := false } {}).validatedComposition.map
      (·.madeAt) = some 4 := by
    obtain rfl := Option.some.inj hRun
    decide +kernel
  obtain ⟨k, hk, hMade⟩ := Option.map_eq_some_iff.mp hStaged
  have hCurrent := hAll _ s {} k hRun (by obtain rfl := Option.some.inj hRun; decide +kernel) hk
  obtain rfl := Option.some.inj hRun
  rw [hMade] at hCurrent
  exact absurd hCurrent (by decide +kernel)

/-- The occlusion's answer for two layers, the upper of which covers the upper
half of the lower where it is opaque. -/
def halfCovered : List Occlusion.Layer → List Occlusion.Shown
  | [lower, upper] =>
    let bottom := { lower.frame with top := upper.frame.bottom }
    [{ bounds := if upper.opaque_ then bottom else lower.frame }, { bounds := upper.frame }]
  | layers => layers.map fun l => { bounds := l.frame }

/-- A buffer half covered by an opaque colour. -/
def halfCoveredShown : List Action :=
  [.setPipeline false, .createLayer 1, .createLayer 2,
    .setLayerProperties 1 0
      { buffer := some { bi := { width := 8, height := 8 }, fb := some 1 }
        displayFrame := some (some ⟨0, 0, 8, 8⟩) },
    .setLayerProperties 2 0 { displayFrame := some (some ⟨0, 0, 8, 4⟩), zOrder := some 1 },
    .setSolidColor 2 0 0 0 255, .validateDisplay {}, .presentDisplay {}]

/-- The colour turns translucent, and the buffer's frame and crop are set
again. -/
def uncoveredAgain : List Action :=
  [.setSolidColor 2 0 0 0 128,
    .setLayerProperties 1 0
      { displayFrame := some (some ⟨0, 0, 8, 8⟩), sourceCrop := some none }]

/-- **What was set again.** Every validation is presented, and the plan handed
back is of the half that was seen, not of the whole that is. -/
theorem planReuse_invalid_setAgain :
    let c : DisplayConfig := { hasGpu := false, resolve := halfCovered }
    ((machine c).run {} (halfCoveredShown ++ uncoveredAgain)).map (fun s =>
      let t := s.validateStagedComposition c {}
      (s.bitsSpent, t.stagedCompositionReused,
        decide (t.validatedComposition.map (·.madeAt) = some t.changes)))
      = some (false, true, false) := by
  decide +kernel

end TegraHwc.HwcDisplay
