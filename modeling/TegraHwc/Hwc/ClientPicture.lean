import TegraHwc.Hwc.ClientOnGpu

/-!
# TegraHwc — the buffer on the client's window shows the picture

Over every run of validates and presents, of drawings planned whole, in part and
not at all, given up, dropped and refused: inside the bounds seated the buffer
shows the picture its snapshot names. What a buffer is known to hold is followed
rectangle by rectangle. A drawing makes its rectangles the picture's, and where
it was planned from what the buffer held, all that was known besides is the
picture's already; a drawing given up or refused leaves nothing known.

What the code does not follow is that a buffer known again is known only where
it was drawn: its snapshot is of all of it, and a later drawing in parts leaves
what lies between them to it, inside the bounds seated.

## Results

* `step_kept`                  — every step keeps what is known of the buffers.
* `clientOnGpu_shows_picture`  — in every run whose drawings are planned from
  what is told of the members, seat only what was drawn and overlap no parts, the
  window shows the picture.
* `clientOnGpu_shows_older`    — a run that shows pixels of an older frame.
-/

namespace TegraHwc

open PartialRedraw Runs

namespace GpuClient

variable {Texel C : Type} {cfg : GpuConfig} {d : Painter Texel C}

-- ---------------------------------------------------------------------------
-- What the claim says
-- ---------------------------------------------------------------------------

/-- `SlotPictures` says the buffer holds the picture of these members. -/
def Says (s : GpuClient C) (slot : Nat) (members : List Member) : Prop :=
  ∃ held, s.slots.slots slot = some held ∧ held.snapshot.valid = true ∧
    held.snapshot.members = members

variable (cfg d) in
/-- The buffer seated shows, inside the bounds seated, the picture it is said to
hold. -/
def ShowsPicture (s : GpuClient C) : Prop :=
  ∀ seat, s.seat = some seat → ∀ members, s.Says seat.picture.slot members →
    ∀ p, onBuffer cfg.width cfg.height p → inside seat.rect p →
      s.content seat.picture.slot p = d.picture members p

-- ---------------------------------------------------------------------------
-- What is known
-- ---------------------------------------------------------------------------

/-- The client's damage is true of every layer of the range. -/
def Told (d : Painter Texel C) (c : Composition) : Prop :=
  ∀ ld ∈ GpuConfig.range c, ToldTruly d.toDrawing ld.serial ld.generation ld.pi.damage

variable (cfg d) in
/-- What the snapshots are worth: each buffer shows its snapshot's picture where
it is known. -/
structure Buffers (s : GpuClient C) : Prop where
  truthful : d.toDrawing.Truthful s.slots.history
  engine : s.slots.engine = ⟨true, true, true⟩
  ring : s.gpu.ring.size = 3
  told : ∀ c, s.validated = some c → Told d c
  sizes : ∀ k held, s.slots.slots k = some held → held.snapshot.valid = true →
    held.snapshot.width = cfg.width ∧ held.snapshot.height = cfg.height
  holds : ∀ k held, s.slots.slots k = some held → held.snapshot.valid = true →
    ∀ p, onBuffer cfg.width cfg.height p → Covered (s.known k) p →
      s.content k p = d.picture held.snapshot.members p
  /-- Nothing is known of a buffer without a snapshot. -/
  unknown : ∀ k p, Covered (s.known k) p →
    ∃ held, s.slots.slots k = some held ∧ held.snapshot.valid = true

variable (cfg) in
/-- What the window goes by: what is seated of the buffer last drawn is known. -/
structure Window (s : GpuClient C) : Prop where
  shown : ∀ held, s.slots.slots s.gpu.current = some held → held.snapshot.valid = true →
    ∀ p, onBuffer cfg.width cfg.height p → inside (cfg.seatRect s.shownBounds) p →
      Covered (s.known s.gpu.current) p
  memory : s.memory.remembered = true → s.shownBounds = cfg.boundsOf s.memory.members
  reuse : s.reuse = true → s.nextBounds = s.shownBounds
  seat : ∀ seat, s.seat = some seat →
    seat.picture.slot = s.gpu.current ∧ seat.rect = cfg.seatRect s.shownBounds

variable (cfg d) in
/-- Where the plan draws nothing, the next buffer shows the picture already. -/
def Planned (s : GpuClient C) : Prop :=
  ∀ p, onBuffer cfg.width cfg.height p → Covered (s.known s.gpu.nextSlot) p →
    ¬Covered s.plan.parts p → s.content s.gpu.nextSlot p = d.picture s.pending p

variable (cfg d) in
/-- What is under way: the library's drawing is the one planned, into the next
buffer. -/
structure UnderWay (s : GpuClient C) : Prop where
  lent : ∀ k, s.gpu.begunAt = some k → k = s.gpu.nextSlot
  handed : s.gpu.begunAt = none ↔ s.job = none
  job : ∀ job, s.job = some job → job.members = s.pending ∧
    (s.plan.parts ≠ [] → job.parts = s.plan.parts) ∧ Planned cfg d s
  keep : s.keep = true → s.job = none ∧ s.plan.parts = [] ∧ Planned cfg d s
  bounds : s.begun = true ∨ s.keep = true → s.nextBounds = cfg.boundsOf s.pending

variable (cfg d) in
/-- All of it. -/
structure Kept (s : GpuClient C) : Prop where
  buffers : Buffers cfg d s
  window : Window cfg s
  underWay : UnderWay cfg d s

/-- What is known shows. -/
theorem Kept.shows {s : GpuClient C} (hs : Kept cfg d s) : ShowsPicture cfg d s := by
  rintro seat hSeat members ⟨held, hHeld, hValid, rfl⟩ p hp hInside
  obtain ⟨hSlot, hRect⟩ := hs.window.seat seat hSeat
  rw [hSlot] at hHeld ⊢
  rw [hRect] at hInside
  exact hs.buffers.holds _ held hHeld hValid p hp (hs.window.shown held hHeld hValid p hp hInside)

theorem kept_init (content : Nat → Point → C) : Kept cfg d (init content) where
  buffers :=
    { truthful := fun _ hl => (nomatch hl)
      engine := rfl
      ring := rfl
      told := fun _ h => (nomatch h)
      sizes := fun _ _ h => (nomatch h)
      holds := fun _ _ h => (nomatch h)
      unknown := fun _ _ ⟨_, hr, _⟩ => (nomatch hr) }
  window :=
    { shown := fun _ h => (nomatch h)
      memory := fun h => (nomatch h)
      reuse := fun h => (nomatch h)
      seat := fun _ h => (nomatch h) }
  underWay :=
    { lent := fun _ h => (nomatch h)
      handed := ⟨fun _ => rfl, fun _ => rfl⟩
      job := fun _ h => (nomatch h)
      keep := fun h => (nomatch h)
      bounds := fun h => (nomatch h) }

/-- The next buffer is not the one last drawn. -/
theorem Buffers.next_ne {s : GpuClient C} (hs : Buffers cfg d s) :
    s.gpu.current ≠ s.gpu.nextSlot := by
  have hSize := hs.ring
  unfold GpuExecutor.current GpuExecutor.nextSlot Rotation.Slots.next
  rw [hSize]
  omega

-- ---------------------------------------------------------------------------
-- A buffer lost
-- ---------------------------------------------------------------------------

theorem lost_slots (pictures : SlotPictures) (slot k : Nat) :
    (pictures.lost slot).slots k =
      if k = slot then (pictures.slots slot).map fun held =>
        { held with snapshot := { held.snapshot with valid := false } }
      else pictures.slots k := by
  unfold SlotPictures.lost
  simp only [Function.update_apply]

/-- A valid snapshot of a buffer after one was lost is another's. -/
theorem of_lost {pictures : SlotPictures} {slot k : Nat} {held : Held}
    (h : (pictures.lost slot).slots k = some held) (hValid : held.snapshot.valid = true) :
    k ≠ slot ∧ pictures.slots k = some held := by
  rw [lost_slots] at h
  split at h
  · obtain ⟨held', -, rfl⟩ := Option.map_eq_some_iff.mp h
    cases hValid
  · rename_i hne
    exact ⟨hne, h⟩

/-- Whatever is in a buffer lost, the others are known as they were. -/
theorem lost_buffers {s : GpuClient C} (hs : Buffers cfg d s) (slot : Nat)
    (content : Nat → Point → C) (hContent : ∀ k, k ≠ slot → content k = s.content k) :
    Buffers cfg d ({ s with content := content }.lost slot) where
  truthful := hs.truthful
  engine := hs.engine
  ring := hs.ring
  told := hs.told
  sizes := fun k held h hValid => hs.sizes k held (of_lost h hValid).2 hValid
  holds := by
    intro k held h hValid p hp hKnown
    obtain ⟨hne, hHeld⟩ := of_lost h hValid
    have hSame : Function.update s.known slot [] k = s.known k := Function.update_of_ne hne _ _
    change Covered (Function.update s.known slot [] k) p at hKnown
    rw [hSame] at hKnown
    change content k p = _
    rw [hContent k hne]
    exact hs.holds k held hHeld hValid p hp hKnown
  unknown := by
    intro k p hKnown
    change Covered (Function.update s.known slot [] k) p at hKnown
    rw [Function.update_apply] at hKnown
    split at hKnown
    · exact absurd hKnown (not_covered_nil p)
    · rename_i hne
      obtain ⟨held, hHeld, hValid⟩ := hs.unknown k p hKnown
      refine ⟨held, ?_, hValid⟩
      change (s.slots.lost slot).slots k = some held
      rw [lost_slots, if_neg hne]
      exact hHeld

/-- The window does not go by the next buffer. -/
theorem lost_window {s : GpuClient C} (hs : Window cfg s) {slot : Nat}
    (hne : s.gpu.current ≠ slot) (content : Nat → Point → C) :
    Window cfg ({ s with content := content }.lost slot) where
  shown := by
    intro held h hValid p hp hInside
    have hShown := hs.shown held (of_lost h hValid).2 hValid p hp hInside
    change Covered (Function.update s.known slot [] s.gpu.current) p
    rwa [Function.update_of_ne hne]
  memory := hs.memory
  reuse := hs.reuse
  seat := hs.seat

-- ---------------------------------------------------------------------------
-- The range taken down
-- ---------------------------------------------------------------------------

/-- Recording damage touches the history alone. -/
theorem recorded_frame (range : List LayerData) (pictures : SlotPictures) :
    (range.foldl (fun slots ld => slots.record (cfg.memberOf ld) ld.pi.damage) pictures).slots =
        pictures.slots ∧
      (range.foldl (fun slots ld => slots.record (cfg.memberOf ld) ld.pi.damage) pictures).engine =
        pictures.engine := by
  induction range generalizing pictures with
  | nil => exact ⟨rfl, rfl⟩
  | cons ld range ih => exact ih _

/-- A history told the truth of a range tells it. -/
theorem recorded_truthful {range : List LayerData} {pictures : SlotPictures}
    (hTold : ∀ ld ∈ range, ToldTruly d.toDrawing ld.serial ld.generation ld.pi.damage)
    (hTrue : d.toDrawing.Truthful pictures.history) :
    d.toDrawing.Truthful
      (range.foldl (fun slots ld => slots.record (cfg.memberOf ld) ld.pi.damage)
        pictures).history := by
  induction range generalizing pictures with
  | nil => exact hTrue
  | cons ld range ih =>
    refine ih (fun ld' h => hTold ld' (by simp [h])) ?_
    exact record_truthful hTrue (hTold ld (by simp))

variable (cfg) in
theorem noted_slots (s : GpuClient C) (c : Composition) :
    (s.noted cfg c).slots.slots = s.slots.slots ∧ (s.noted cfg c).slots.engine = s.slots.engine :=
  recorded_frame _ _

theorem noted_buffers {s : GpuClient C} (hs : Buffers cfg d s) {c : Composition} (hTold : Told d c) :
    Buffers cfg d (s.noted cfg c) := by
  obtain ⟨hSlots, hEngine⟩ := noted_slots cfg s c
  refine ⟨recorded_truthful hTold hs.truthful, hEngine.trans hs.engine, hs.ring, hs.told, ?_, ?_, ?_⟩
  · intro k held h
    rw [hSlots] at h
    exact hs.sizes k held h
  · intro k held h
    rw [hSlots] at h
    exact hs.holds k held h
  · intro k p hKnown
    rw [hSlots]
    exact hs.unknown k p hKnown

theorem noted_window {s : GpuClient C} (hs : Window cfg s) (hReuse : s.reuse = false)
    (c : Composition) : Window cfg (s.noted cfg c) := by
  obtain ⟨hSlots, -⟩ := noted_slots cfg s c
  refine ⟨?_, hs.memory, fun h => ?_, hs.seat⟩
  · intro held h
    rw [hSlots] at h
    exact hs.shown held h
  · have hNot : (s.noted cfg c).reuse = false := hReuse
    rw [hNot] at h
    cases h

theorem noted_underWay {s : GpuClient C} (hs : UnderWay cfg d s) (hBegun : s.begun = false)
    (c : Composition) : UnderWay cfg d (s.noted cfg c) where
  lent := hs.lent
  handed := hs.handed
  job := hs.job
  keep := fun h => (nomatch h)
  bounds := by
    rintro (h | h)
    · have hNot : (s.noted cfg c).begun = false := hBegun
      rw [hNot] at h
      cases h
    · cases h

/-- Members placed alike have the bounds of each other. -/
theorem boundsOf_congr {members members' : List Member}
    (h : List.Forall₂ (fun m r => m.dst = r.dst) members members') :
    cfg.boundsOf members = cfg.boundsOf members' := by
  have hFold : ∀ {ms ms' : List Member}, List.Forall₂ (fun m r => m.dst = r.dst) ms ms' →
      ∀ bounds, ms.foldl GpuConfig.grown bounds = ms'.foldl GpuConfig.grown bounds := by
    intro ms ms' hAll
    induction hAll with
    | nil => exact fun _ => rfl
    | cons hFirst _ ih =>
      intro bounds
      rw [List.foldl_cons, List.foldl_cons, ih]
      unfold GpuConfig.grown
      rw [hFirst]
  unfold GpuConfig.boundsOf
  rw [hFold h]

/-- A picture recognised has the bounds of the one remembered. -/
theorem reused_window {s : GpuClient C} (hs : Window cfg s) (hReuse : s.reuse = false)
    {c : Composition}
    (hSame : (s.noted cfg c).memory.judge cfg.width cfg.height (cfg.members c) = .kSame) :
    Window cfg { s.noted cfg c with reuse := true } := by
  have hNoted : Window cfg (s.noted cfg c) := noted_window hs hReuse c
  refine ⟨hNoted.shown, hNoted.memory, fun _ => ?_, hNoted.seat⟩
  obtain ⟨hRemembered, -, -, hAll⟩ := PictureMemory.judge_kSame_iff.mp hSame
  refine Eq.trans ?_ (hNoted.memory hRemembered).symm
  exact boundsOf_congr (hAll.imp fun _ _ h => h.placement.dst)

-- ---------------------------------------------------------------------------
-- Planning
-- ---------------------------------------------------------------------------

variable (cfg) in
/-- The plan for the next buffer goes by members told apart, or draws them in
full; asked of a plan that goes by what the buffer held. -/
def PlansSoundly (s : GpuClient C) (members : List Member) : Prop :=
  cfg.partialRedraw = true → ∀ held, s.slots.slots s.gpu.nextSlot = some held →
    held.snapshot.valid = true →
      DrawnInFull held.snapshot cfg.width cfg.height members ∨
        LooksKept s.slots.history held.snapshot cfg.width cfg.height members

theorem givenUp_buffers {s : GpuClient C} (hs : Buffers cfg d s) : Buffers cfg d s.givenUp := by
  unfold givenUp
  split
  · exact lost_buffers hs _ s.content fun _ _ => rfl
  · exact hs

theorem givenUp_window {s : GpuClient C} (hBuffers : Buffers cfg d s) (hs : Window cfg s) :
    Window cfg s.givenUp := by
  unfold givenUp
  split
  · exact lost_window hs hBuffers.next_ne s.content
  · exact hs

/-- What is left of a state when its next buffer may have been lost. -/
theorem givenUp_eq (s : GpuClient C) :
    s.givenUp = { s with slots := s.givenUp.slots, known := s.givenUp.known } := by
  unfold givenUp
  split <;> rfl

theorem planned_eq (s : GpuClient C) (members : List Member) :
    s.planned cfg members =
      { s with
        plan := (s.planned cfg members).plan, pending := members
        known := (s.planned cfg members).known } := by
  unfold planned
  split <;> rfl

theorem planned_gpu (s : GpuClient C) (members : List Member) :
    (s.planned cfg members).gpu = s.gpu := by
  rw [planned_eq]

/-- Planning makes nothing known. -/
theorem covered_of_planned {s : GpuClient C} {members : List Member} {k : Nat} {p : Point}
    (h : Covered ((s.planned cfg members).known k) p) : Covered (s.known k) p := by
  unfold planned at h
  split at h
  · exact h
  · change Covered (Function.update s.known s.gpu.nextSlot [] k) p at h
    rw [Function.update_apply] at h
    split at h
    · exact absurd h (not_covered_nil p)
    · exact h

variable (cfg) in
theorem planned_known_of_ne {s : GpuClient C} (members : List Member) {k : Nat}
    (hne : k ≠ s.gpu.nextSlot) : (s.planned cfg members).known k = s.known k := by
  unfold planned
  split
  · rfl
  · exact Function.update_of_ne hne _ _

theorem planned_buffers {s : GpuClient C} (hs : Buffers cfg d s) (members : List Member) :
    Buffers cfg d (s.planned cfg members) := by
  have hCovered := @covered_of_planned C cfg s members
  rw [planned_eq] at hCovered ⊢
  exact ⟨hs.truthful, hs.engine, hs.ring, hs.told, hs.sizes,
    fun k held h hValid p hp hKnown => hs.holds k held h hValid p hp (hCovered hKnown),
    fun k p hKnown => hs.unknown k p (hCovered hKnown)⟩

theorem planned_window {s : GpuClient C} (hBuffers : Buffers cfg d s) (hs : Window cfg s)
    (members : List Member) : Window cfg (s.planned cfg members) := by
  have hKnown := planned_known_of_ne cfg members hBuffers.next_ne
  rw [planned_eq] at hKnown ⊢
  refine ⟨fun held h hValid p hp hInside => ?_, hs.memory, hs.reuse, hs.seat⟩
  have hShown := hs.shown held h hValid p hp hInside
  simp only at hKnown
  change Covered ((s.planned cfg members).known s.gpu.current) p
  rwa [hKnown]

/-- The parts of a plan made for a buffer are those `Decide` makes of its
snapshot. -/
theorem decide_parts {pictures : SlotPictures} {slot : Nat} {held : Held} {width height : UInt32}
    {members : List Member} (h : pictures.slots slot = some held) :
    (pictures.decide_ slot width height members).parts =
      (PartialRedraw.decide_ held.snapshot width height members pictures.history
        pictures.engine).parts := by
  unfold SlotPictures.decide_
  rw [h]
  simp only
  split <;> rfl

/-- **The plan leaves alone what is right.** -/
theorem planned_planned {s : GpuClient C} (hFilters : Filters d.toDrawing) (hs : Buffers cfg d s)
    {members : List Member} (hSoundly : PlansSoundly cfg s members) :
    Planned cfg d (s.planned cfg members) := by
  intro p hp hKnown hLeft
  have hBefore := covered_of_planned hKnown
  rw [planned_gpu] at hBefore
  unfold planned at hKnown hLeft ⊢
  split at hKnown
  · rename_i hPartial
    rw [if_pos hPartial] at hLeft ⊢
    obtain ⟨held, hHeld, hValid⟩ := hs.unknown _ p hBefore
    change ¬Covered (s.slots.decide_ s.gpu.nextSlot cfg.width cfg.height members).parts p at hLeft
    rw [decide_parts hHeld] at hLeft
    change s.content s.gpu.nextSlot p = d.picture members p
    rw [hs.holds _ held hHeld hValid p hp hBefore]
    exact decide_leaves hFilters hs.truthful cfg.signed (by rw [hs.engine])
      ⟨hValid, hs.sizes _ held hHeld hValid⟩ (hSoundly hPartial held hHeld hValid) hp hLeft
  · -- nothing is gone by
    change Covered (Function.update s.known s.gpu.nextSlot [] s.gpu.nextSlot) p at hKnown
    rw [Function.update_self] at hKnown
    exact absurd hKnown (not_covered_nil p)

/-- Nothing is found unchanged but a picture the buffer is said to hold. -/
theorem unchanged_held {s : GpuClient C} {members : List Member}
    (h : (s.planned cfg members).plan.kind = .kUnchanged) :
    (∃ held, s.slots.slots s.gpu.nextSlot = some held ∧ held.snapshot.valid = true) ∧
      (s.planned cfg members).plan.parts = [] := by
  unfold planned at h ⊢
  split at h
  · rename_i hPartial
    rw [if_pos hPartial]
    simp only at h ⊢
    cases hSlot : s.slots.slots s.gpu.nextSlot with
    | none => simp [SlotPictures.decide_, hSlot] at h
    | some held =>
      have hKind : (PartialRedraw.decide_ held.snapshot cfg.width cfg.height members
          s.slots.history s.slots.engine).kind = .kUnchanged := by
        unfold SlotPictures.decide_ at h
        rw [hSlot] at h
        simp only at h
        split at h
        · cases h
        · exact h
      rw [decide_parts hSlot]
      refine ⟨⟨held, rfl, ?_⟩, decide_unchanged_parts hKind⟩
      by_contra hNot
      rw [PartialRedraw.decide_, if_pos (.inl (by simpa using hNot))] at hKind
      cases hKind
  · cases h

/-- A plan has no more parts than the library takes. -/
theorem planned_parts_length (s : GpuClient C) (members : List Member) :
    (s.planned cfg members).plan.parts.length ≤ Vk.kMaxParts := by
  unfold planned
  split
  · simp only
    cases hSlot : s.slots.slots s.gpu.nextSlot with
    | none => simp [SlotPictures.decide_, hSlot]
    | some held =>
      rw [decide_parts hSlot]
      exact decide_parts_length_le _ _ _ _ _ _
  · simp

-- ---------------------------------------------------------------------------
-- Beginning
-- ---------------------------------------------------------------------------

/-- A drawing runs in its own buffer. -/
theorem ran_content_of_ne {s : GpuClient C} (area : Option Area) {k : Nat}
    (h : s.gpu.begunAt ≠ some k) : (s.ran cfg d area).content k = s.content k := by
  unfold ran
  split
  · rename_i k' job hBegun hJob
    exact Function.update_of_ne (fun hEq => h (by rw [hBegun, hEq])) _ _
  · rfl

/-- A drawing that runs in a buffer nothing is known of changes nothing known. -/
theorem ran_buffers {s : GpuClient C} (hs : Buffers cfg d s) (area : Option Area)
    (hUnknown : ∀ k p, s.gpu.begunAt = some k → ¬Covered (s.known k) p) :
    Buffers cfg d (s.ran cfg d area) := by
  have hContent := @ran_content_of_ne _ _ cfg d s area
  rw [ran_eq] at hContent ⊢
  refine ⟨hs.truthful, hs.engine, hs.ring, hs.told, hs.sizes, ?_, hs.unknown⟩
  intro k held h hValid p hp hKnown
  rw [hContent fun hBegun => hUnknown k p hBegun hKnown]
  exact hs.holds k held h hValid p hp hKnown

variable (cfg) in
/-- A frame not recognised, with no drawing to give up, is planned soundly. -/
def BeginsSoundly (s : GpuClient C) (c : Composition) : Prop :=
  (s.noted cfg c).memory.judge cfg.width cfg.height (cfg.members c) ≠ .kSame →
    s.gpu.pending = false → PlansSoundly cfg (s.noted cfg c) (cfg.members c)

/-- Of a buffer given up nothing is asked. -/
theorem BeginsSoundly.plans {s : GpuClient C} {c : Composition} (h : BeginsSoundly cfg s c)
    (hOther : (s.noted cfg c).memory.judge cfg.width cfg.height (cfg.members c) ≠ .kSame) :
    PlansSoundly cfg (s.noted cfg c).givenUp (cfg.members c) := by
  intro hPartial held hHeld hValid
  have hPlans := h hOther
  have hSame : (s.noted cfg c).gpu.pending = s.gpu.pending := rfl
  rw [← hSame] at hPlans
  generalize s.noted cfg c = n at *
  unfold givenUp at hHeld ⊢
  split at hHeld
  · exact absurd rfl (of_lost hHeld hValid).1
  · rename_i hNot
    rw [if_neg hNot]
    exact hPlans (by simpa using hNot) hPartial held hHeld hValid

variable (cfg d) in
/-- A frame planned: all that is known of the state its drawing is begun from. -/
structure Weighed (t : GpuClient C) : Prop where
  buffers : Buffers cfg d t
  window : Window cfg t
  planned : Planned cfg d t
  lent : ∀ k, t.gpu.begunAt = some k → k = t.gpu.nextSlot
  handed : t.gpu.begunAt = none ↔ t.job = none
  /-- Nothing is known of a buffer another drawing was begun into. -/
  unknown : t.job ≠ none → ∀ p, ¬Covered (t.known t.gpu.nextSlot) p
  unchanged : t.plan.kind = .kUnchanged → t.job = none ∧ t.plan.parts = []
  most : t.plan.parts.length ≤ Vk.kMaxParts
  bounds : t.nextBounds = cfg.boundsOf t.pending

variable (cfg) in
/-- Giving up and planning leave the executor and the library alone. -/
theorem planned_givenUp_frame (n : GpuClient C) (members : List Member) :
    (n.givenUp.planned cfg members).gpu = n.gpu ∧ (n.givenUp.planned cfg members).job = n.job ∧
      (n.givenUp.planned cfg members).nextBounds = n.nextBounds ∧
      (n.givenUp.planned cfg members).pending = members := by
  rw [planned_eq, givenUp_eq]
  exact ⟨rfl, rfl, rfl, rfl⟩

/-- A buffer another drawing was begun into is lost. -/
theorem givenUp_lost {s : GpuClient C} (hs : UnderWay cfg d s) (h : s.job ≠ none) :
    s.givenUp = s.lost s.gpu.nextSlot := by
  have hPending : s.gpu.pending = true := by
    unfold GpuExecutor.pending
    rw [Option.isSome_iff_ne_none, ne_eq, hs.handed]
    exact h
  unfold givenUp
  rw [if_pos hPending]

theorem noted_weighed {s : GpuClient C} (hFilters : Filters d.toDrawing) (hs : Kept cfg d s)
    (hBegun : s.begun = false) (hReuse : s.reuse = false) {c : Composition} (hTold : Told d c)
    (hSoundly : PlansSoundly cfg (s.noted cfg c).givenUp (cfg.members c)) :
    Weighed cfg d ((s.noted cfg c).givenUp.planned cfg (cfg.members c)) := by
  have hBuffers := noted_buffers hs.buffers hTold
  have hWindow := noted_window hs.window hReuse c
  have hUnderWay := noted_underWay hs.underWay hBegun c
  have hBounds : (s.noted cfg c).nextBounds = cfg.boundsOf (cfg.members c) := rfl
  generalize s.noted cfg c = n at *
  have hGivenUp := givenUp_buffers hBuffers
  obtain ⟨hGpu, hJob, hNext, hPending⟩ := planned_givenUp_frame cfg n (cfg.members c)
  refine ⟨planned_buffers hGivenUp _, planned_window hGivenUp (givenUp_window hBuffers hWindow) _,
    planned_planned hFilters hGivenUp hSoundly, ?_, ?_, ?_, ?_, planned_parts_length _ _, ?_⟩
  · rw [hGpu]
    exact hUnderWay.lent
  · rw [hGpu, hJob]
    exact hUnderWay.handed
  · rw [hGpu, hJob]
    intro hSome p hKnown
    have hBefore := covered_of_planned hKnown
    rw [givenUp_lost hUnderWay hSome] at hBefore
    change Covered (Function.update n.known n.gpu.nextSlot [] n.gpu.nextSlot) p at hBefore
    rw [Function.update_self] at hBefore
    exact absurd hBefore (not_covered_nil p)
  · intro hKind
    obtain ⟨⟨held, hHeld, hValid⟩, hParts⟩ := unchanged_held hKind
    refine ⟨?_, hParts⟩
    rw [hJob]
    by_contra hSome
    rw [givenUp_lost hUnderWay hSome] at hHeld
    exact (of_lost hHeld hValid).1 rfl
  · rw [hNext, hPending]
    exact hBounds

/-- A buffer that holds the picture already is kept. -/
theorem Weighed.keep {t : GpuClient C} (ht : Weighed cfg d t) (h : t.plan.kind = .kUnchanged) :
    Kept cfg d { t with keep := true } where
  buffers := { ht.buffers with }
  window := { ht.window with }
  underWay :=
    { lent := ht.lent
      handed := ht.handed
      job := by
        intro job hJob
        have hNone : t.job = none := (ht.unchanged h).1
        rw [show t.job = some job from hJob] at hNone
        cases hNone
      keep := fun _ => ⟨(ht.unchanged h).1, (ht.unchanged h).2, ht.planned⟩
      bounds := fun _ => ht.bounds }

/-- Another drawing given up, the planned one is begun. -/
theorem Weighed.queued {t : GpuClient C} (ht : Weighed cfg d t) (hKeep : t.keep = false)
    (gone : Option Area) : Kept cfg d (t.queued cfg d gone) := by
  have hUnknown : ∀ k p, t.gpu.begunAt = some k → ¬Covered (t.known k) p := by
    intro k p hBegun
    rw [ht.lent k hBegun]
    refine ht.unknown (fun hNone => ?_) p
    rw [ht.handed.mpr hNone] at hBegun
    cases hBegun
  have hContent := @ran_content_of_ne _ _ cfg d t gone
  have hBuffers := ran_buffers ht.buffers gone hUnknown
  unfold GpuClient.queued
  rw [ran_eq] at hBuffers hContent ⊢
  refine ⟨{ hBuffers with }, { ht.window with }, ?_⟩
  refine ⟨fun k h => (Option.some.inj h).symm, ⟨fun h => (nomatch h), fun h => (nomatch h)⟩, ?_,
    fun h => ?_, fun _ => ht.bounds⟩
  · rintro job h
    obtain rfl := Option.some.inj h
    refine ⟨rfl, fun hParts => ?_, ?_⟩
    · change t.plan.parts ≠ [] at hParts
      unfold partsAsked
      simp only
      rw [if_pos hParts, List.take_of_length_le ht.most]
    · intro p hp hKnown hLeft
      refine Eq.trans ?_ (ht.planned p hp hKnown hLeft)
      exact congrFun (hContent fun hBegun => hUnknown _ p hBegun hKnown) p
  · rw [show t.keep = true from h] at hKeep
    cases hKeep

/-- **`BeginClientOnGpu` keeps what is known**, recognised, kept or queued. -/
theorem beginClientOnGpu_kept {s : GpuClient C} (hFilters : Filters d.toDrawing)
    (hs : Kept cfg d s) (hBegun : s.begun = false) (hReuse : s.reuse = false) {c : Composition}
    (hTold : Told d c) (hSoundly : BeginsSoundly cfg s c) (gone : Option Area) :
    Kept cfg d (s.beginClientOnGpu cfg d c gone) := by
  rcases s.beginClientOnGpu_cases c gone with ⟨hSame, hEq⟩ | ⟨hOther, hRest⟩
  · rw [hEq]
    exact ⟨{ noted_buffers hs.buffers hTold with }, reused_window hs.window hReuse hSame,
      { noted_underWay hs.underWay hBegun c with }⟩
  · have hWeighed := noted_weighed hFilters hs hBegun hReuse hTold (hSoundly.plans hOther)
    rcases hRest with ⟨hKind, hEq⟩ | ⟨-, hEq⟩
    · rw [hEq]
      exact hWeighed.keep hKind
    · rw [hEq]
      refine hWeighed.queued ?_ gone
      rw [planned_eq, givenUp_eq]
      rfl

-- ---------------------------------------------------------------------------
-- Drawing
-- ---------------------------------------------------------------------------

theorem meet_of_inside {a b : IRect} {p : Point} (ha : inside a p) (hb : inside b p) :
    PartialRedraw.meet a b = true := by
  obtain ⟨hal, har, hat, hab⟩ := ha
  obtain ⟨hbl, hbr, hbt, hbb⟩ := hb
  simp only [PartialRedraw.meet, Bool.and_eq_true, decide_eq_true_eq]
  omega

/-- A drawing leaves alone what it does not take. -/
theorem drawIn_outside {members : List Member} {rects : List IRect} {old : Point → C} {p : Point}
    (h : ¬Covered rects p) : d.drawIn members rects old p = old p := by
  have hNone : rects.filter (fun r => inside r p) = [] := by
    rw [List.filter_eq_nil_iff]
    intro r hr hInside
    exact h ⟨r, hr, by simpa using hInside⟩
  unfold Painter.drawIn
  rw [hNone]

/-- Where its rectangles do not meet, it makes them the picture's. -/
theorem drawIn_inside {members : List Member} {rects : List IRect} {old : Point → C} {p : Point}
    (hApart : rects.Pairwise fun a b => PartialRedraw.meet a b = false) (h : Covered rects p) :
    d.drawIn members rects old p = d.picture members p := by
  have hFilter := hApart.filter fun r => decide (inside r p)
  have hInside : ∀ r ∈ rects.filter (fun r => decide (inside r p)), inside r p := fun r hr => by
    simpa using List.of_mem_filter hr
  unfold Painter.drawIn
  split
  · rename_i hNone
    obtain ⟨r, hr, hIn⟩ := h
    have hMem : r ∈ rects.filter fun r => decide (inside r p) :=
      List.mem_filter.mpr ⟨hr, by simpa using hIn⟩
    rw [hNone] at hMem
    cases hMem
  · rename_i first more hSplit
    rw [hSplit] at hFilter hInside
    cases more with
    | nil => rfl
    | cons second more =>
      have hMeet := meet_of_inside (hInside first (by simp)) (hInside second (by simp))
      rw [(List.pairwise_cons.mp hFilter).1 second (by simp)] at hMeet
      cases hMeet

/-- However much the library draws, it draws the parts it was asked for. -/
theorem covered_rects {job : Job} {p : Point} (hp : onBuffer cfg.width cfg.height p)
    (h : Covered job.parts p) (area : Area) : Covered (job.rects cfg area) p := by
  have hWhole : Covered [cfg.frame] p := ⟨cfg.frame, by simp, inside_frameOf cfg.signed hp⟩
  unfold Job.rects
  split
  · exact hWhole
  · cases area with
    | parts => exact h
    | box => exact ⟨bounds job.parts, by simp, inside_bounds h⟩
    | whole => exact hWhole

/-- With nothing begun and nothing kept, nothing is under way. -/
theorem underWay_idle {s : GpuClient C} (hBegunAt : s.gpu.begunAt = none) (hJob : s.job = none)
    (hBegun : s.begun = false) (hKeep : s.keep = false) : UnderWay cfg d s where
  lent := by
    intro k h
    rw [hBegunAt] at h
    cases h
  handed := ⟨fun _ => hJob, fun _ => hBegunAt⟩
  job := by
    intro job h
    rw [hJob] at h
    cases h
  keep := by
    intro h
    rw [hKeep] at h
    cases h
  bounds := by
    rintro (h | h)
    · rw [hBegun] at h
      cases h
    · rw [hKeep] at h
      cases h

/-- A picture drawn is in its buffer wherever that is known, and seated where it
is: the other buffers are as they were. -/
theorem drawn_kept {u : GpuClient C} {k : Nat} {fence : Option Nat} {rects : List IRect}
    (hOthers : Buffers cfg d (u.lost k)) (hCurrent : u.gpu.current = k)
    (hShows : ∀ p, onBuffer cfg.width cfg.height p → Covered (u.known k ++ rects) p →
      u.content k p = d.picture u.pending p)
    (hSeats : ∀ p, onBuffer cfg.width cfg.height p → inside (cfg.seatRect u.nextBounds) p →
      Covered (u.known k ++ rects) p)
    (hBounds : u.nextBounds = cfg.boundsOf u.pending) (hReuse : u.reuse = false)
    (hIdle : UnderWay cfg d (u.drawn cfg k fence rects)) :
    Kept cfg d (u.drawn cfg k fence rects) := by
  have hSlots : ∀ k', (u.drawn cfg k fence rects).slots.slots k' =
      Function.update u.slots.slots k (some
        { snapshot :=
            { valid := true, width := cfg.width, height := cfg.height, members := u.pending
              partialRun := SlotPictures.runAfter
                ((u.slots.slots k).getD {}).snapshot.partialRun u.plan.kind }
          fence := fence }) k' := fun _ => rfl
  have hKnown : ∀ k', (u.drawn cfg k fence rects).known k' =
      Function.update u.known k (u.known k ++ rects) k' := fun _ => rfl
  have hLost : ∀ k', k' ≠ k → (u.lost k).slots.slots k' = u.slots.slots k' ∧
      (u.lost k).known k' = u.known k' := by
    intro k' hne
    refine ⟨?_, Function.update_of_ne hne _ _⟩
    change (u.slots.lost k).slots k' = _
    rw [lost_slots, if_neg hne]
  refine ⟨⟨hOthers.truthful, hOthers.engine, hOthers.ring, hOthers.told, ?_, ?_, ?_⟩,
    ⟨?_, fun _ => hBounds, ?_, ?_⟩, hIdle⟩
  · intro k' held h hValid
    rw [hSlots, Function.update_apply] at h
    split at h
    · obtain rfl := Option.some.inj h
      exact ⟨rfl, rfl⟩
    · rename_i hne
      rw [← (hLost k' hne).1] at h
      exact hOthers.sizes k' held h hValid
  · intro k' held h hValid p hp hIn
    rw [hSlots, Function.update_apply] at h
    rw [hKnown, Function.update_apply] at hIn
    split at h
    · rename_i hEq
      subst hEq
      obtain rfl := Option.some.inj h
      rw [if_pos rfl] at hIn
      exact hShows p hp hIn
    · rename_i hne
      rw [if_neg hne, ← (hLost k' hne).2] at hIn
      rw [← (hLost k' hne).1] at h
      exact hOthers.holds k' held h hValid p hp hIn
  · intro k' p hIn
    rw [hKnown, Function.update_apply] at hIn
    rw [hSlots, Function.update_apply]
    split at hIn
    · rename_i hEq
      rw [if_pos hEq]
      exact ⟨_, rfl, rfl⟩
    · rename_i hne
      rw [if_neg hne, ← (hLost k' hne).1]
      rw [← (hLost k' hne).2] at hIn
      exact hOthers.unknown k' p hIn
  · intro held h hValid p hp hInside
    have hSame : (u.drawn cfg k fence rects).gpu.current = k := hCurrent
    rw [hSame, hKnown, Function.update_self]
    exact hSeats p hp hInside
  · intro h
    change u.reuse = true at h
    rw [hReuse] at h
    cases h
  · intro seat h
    obtain rfl := Option.some.inj h
    exact ⟨rfl, rfl⟩

variable (cfg) in
/-- What a drawing collected or a buffer kept seats: nothing but what is known of the
buffer then, and no two of the rectangles drawn meet. -/
def DrawsSoundly (r : GpuClient C) (f : GpuFrame) : Prop :=
  r.reuse = false → (r.keep = true ∨ ∃ fence, f.answer = .drawn fence) →
    (∀ p, onBuffer cfg.width cfg.height p → inside (cfg.seatRect r.nextBounds) p →
      Covered (r.known r.gpu.nextSlot ++ if r.keep then [] else r.came cfg f.area) p) ∧
    (r.came cfg f.area).Pairwise fun a b => PartialRedraw.meet a b = false

/-- A drawing that was not come to leaves the buffers as they were. -/
theorem ran_none (s : GpuClient C) : s.ran cfg d none = s := by
  unfold ran
  split
  · rename_i k job _ hJob
    have hCame : s.came cfg none = [] := by
      unfold came
      rw [hJob]
    have hSame : d.drawIn job.members [] (s.content k) = s.content k := rfl
    rw [hCame, hSame, Function.update_eq_self]
  · rfl

/-- The library writes into the next buffer alone. -/
theorem UnderWay.content_of_ne {r : GpuClient C} (hr : UnderWay cfg d r) (area : Option Area)
    {k : Nat} (hne : k ≠ r.gpu.nextSlot) : (r.ran cfg d area).content k = r.content k :=
  ran_content_of_ne area fun hBegun => hne (hr.lent k hBegun)

/-- A drawing collected makes its buffer the picture, wherever that is known. -/
theorem collected_shows {r : GpuClient C} (hr : UnderWay cfg d r) {k : Nat}
    (hBegun : r.gpu.begunAt = some k) {f : GpuFrame} {area : Area} (hArea : f.area = some area)
    (hApart : (r.came cfg f.area).Pairwise fun a b => PartialRedraw.meet a b = false) :
    ∀ p, onBuffer cfg.width cfg.height p →
      Covered (r.known r.gpu.nextSlot ++ r.came cfg f.area) p →
      (r.ran cfg d f.area).content r.gpu.nextSlot p = d.picture r.pending p := by
  intro p hp hIn
  obtain rfl := hr.lent k hBegun
  cases hJob : r.job with
  | none =>
    rw [hr.handed.mpr hJob] at hBegun
    cases hBegun
  | some job =>
    obtain ⟨hMembers, hParts, hPlanned⟩ := hr.job job hJob
    have hCame : r.came cfg f.area = job.rects cfg area := by
      unfold came
      rw [hJob, hArea]
    have hContent : (r.ran cfg d f.area).content r.gpu.nextSlot p =
        d.drawIn job.members (r.came cfg f.area) (r.content r.gpu.nextSlot) p := by
      unfold ran
      rw [hBegun, hJob]
      simp only [Function.update_self]
    rw [hContent, ← hMembers]
    by_cases hDrawn : Covered (r.came cfg f.area) p
    · exact drawIn_inside hApart hDrawn
    · -- left alone, and right already: the plan's parts are among those drawn
      rw [drawIn_outside hDrawn, hMembers]
      obtain ⟨rect, hRect, hInside⟩ := hIn
      rcases List.mem_append.mp hRect with hKnown | hNew
      · refine hPlanned p hp ⟨rect, hKnown, hInside⟩ fun hPart => hDrawn ?_
        rw [hCame]
        refine covered_rects hp ?_ area
        rwa [hParts]
        rintro hNone
        rw [hNone] at hPart
        exact not_covered_nil p hPart
      · exact absurd ⟨rect, hNew, hInside⟩ hDrawn

/-- **`DrawClientOnGpu` keeps what is known**, whichever exit it leaves through. -/
theorem drew_kept {r u : GpuClient C} {f : GpuFrame} {how : Seating} (hr : Kept cfg d r)
    (hOn : r.reuse = false → r.keep = false → r.begun = true)
    (hSoundly : DrawsSoundly cfg r f) (h : Drew cfg d r f how u) : Kept cfg d u := by
  have hne := hr.buffers.next_ne
  have hOff := @UnderWay.content_of_ne _ _ cfg d r hr.underWay
  cases h with
  | again h =>
    have hSame := hr.window.reuse h
    refine ⟨{ hr.buffers with }, ⟨?_, fun h => hSame.trans (hr.window.memory h),
      fun h => (nomatch h), ?_⟩, { hr.underWay with bounds := ?_ }⟩
    · intro held hHeld hValid p hp hInside
      change inside (cfg.seatRect r.nextBounds) p at hInside
      rw [hSame] at hInside
      exact hr.window.shown held hHeld hValid p hp hInside
    · intro seat h
      obtain rfl := Option.some.inj h
      exact ⟨rfl, rfl⟩
    · rintro (h | h)
      · cases h
      · exact hr.underWay.bounds (.inr h)
  | kept hReuse hKeep =>
    obtain ⟨hJob, hParts, hPlanned⟩ := hr.underWay.keep hKeep
    have hBegunAt := hr.underWay.handed.mpr hJob
    obtain ⟨hSeats, -⟩ := hSoundly hReuse (.inl hKeep)
    rw [if_pos hKeep] at hSeats
    have hRan : r.ran cfg d f.ran = r := by
      unfold ran
      rw [hBegunAt]
    rw [hRan]
    refine drawn_kept ?_ rfl ?_ hSeats (hr.underWay.bounds (.inr hKeep)) hReuse
      (underWay_idle rfl rfl rfl rfl)
    · exact { lost_buffers hr.buffers r.gpu.nextSlot r.content fun _ _ => rfl with }
    · intro p hp hIn
      rw [List.append_nil] at hIn
      refine hPlanned p hp hIn ?_
      rw [hParts]
      exact not_covered_nil p
  | nothing hReuse hKeep hNone =>
    have hJob := hr.underWay.handed.mp hNone
    refine ⟨{ lost_buffers hr.buffers r.gpu.nextSlot r.content fun _ _ => rfl with },
      { lost_window hr.window hne r.content with memory := fun h => (nomatch h) },
      underWay_idle hNone hJob rfl hKeep⟩
  | drawn hReuse hKeep k hBegun fence hAnswer area hArea =>
    obtain ⟨hSeats, hApart⟩ := hSoundly hReuse (.inr ⟨fence, hAnswer⟩)
    have hShows := collected_shows hr.underWay hBegun hArea hApart
    have hBounds := hr.underWay.bounds (.inl (hOn hReuse hKeep))
    obtain rfl := hr.underWay.lent k hBegun
    have hFinish : (r.gpu.finish f.answer).2 =
        { r.gpu with begunAt := none, ring := { r.gpu.ring with at_ := r.gpu.nextSlot } } := by
      unfold GpuExecutor.finish
      rw [hBegun, hAnswer]
    rw [hKeep, if_neg Bool.false_ne_true] at hSeats
    rw [collected_eq, hFinish]
    refine drawn_kept ?_ rfl hShows hSeats hBounds hReuse (underWay_idle rfl rfl rfl hKeep)
    exact { lost_buffers hr.buffers r.gpu.nextSlot _ (fun _ h => hOff f.area h) with }
  | dropped hReuse hKeep k hBegun hAnswer hDroppable hArea =>
    -- nothing was drawn: the buffers are as they were
    have hContent : (r.ran cfg d f.area).content = r.content := by
      rw [hArea, ran_none]
    have hFinish : (r.gpu.finish f.answer).2 = { r.gpu with begunAt := none } := by
      unfold GpuExecutor.finish
      rw [hBegun, hAnswer]
    rw [collected_eq, hContent, hFinish]
    refine ⟨{ hr.buffers with }, ⟨hr.window.shown, hr.window.memory, hr.window.reuse, ?_⟩,
      underWay_idle rfl rfl rfl hKeep⟩
    intro seat h
    obtain rfl := Option.some.inj h
    exact ⟨rfl, rfl⟩
  | refused hReuse hKeep k hBegun hAnswer =>
    have hFinish : (r.gpu.finish f.answer).2 = { r.gpu with begunAt := none } := by
      unfold GpuExecutor.finish
      rw [hBegun, hAnswer]
    rw [collected_eq, hFinish]
    exact ⟨{ lost_buffers hr.buffers r.gpu.nextSlot _ (fun _ h => hOff f.area h) with },
      { lost_window hr.window hne (r.ran cfg d f.area).content with
        memory := fun h => (nomatch h) },
      underWay_idle rfl rfl rfl hKeep⟩

-- ---------------------------------------------------------------------------
-- A frame
-- ---------------------------------------------------------------------------

theorem presented_nextSlot (g : GpuExecutor Nat) (fence : Option Nat) :
    (g.presented fence).nextSlot = g.nextSlot := by
  show (g.ring.at_ + 1) % (g.ring.present fence).size = (g.ring.at_ + 1) % g.ring.size
  rw [Rotation.Slots.size_present]

/-- The executor told that a frame went up goes on as it was. -/
theorem presented_kept {s : GpuClient C} (hs : Kept cfg d s) (fence : Option Nat) :
    Kept cfg d { s with gpu := s.gpu.presented fence } := by
  have hNext := presented_nextSlot s.gpu fence
  have hPlanned : Planned cfg d s →
      Planned cfg d { s with gpu := s.gpu.presented fence } := by
    intro h p hp hKnown hLeft
    rw [hNext] at hKnown ⊢
    exact h p hp hKnown hLeft
  refine ⟨{ hs.buffers with ring := ?_ }, { hs.window with },
    ⟨fun k h => ?_, hs.underWay.handed, fun job h => ?_, fun h => ?_, hs.underWay.bounds⟩⟩
  · exact (Rotation.Slots.size_present s.gpu.ring fence).trans hs.buffers.ring
  · rw [hNext]
    exact hs.underWay.lent k h
  · obtain ⟨hMembers, hParts, hRight⟩ := hs.underWay.job job h
    exact ⟨hMembers, hParts, hPlanned hRight⟩
  · obtain ⟨hJob, hParts, hRight⟩ := hs.underWay.keep h
    exact ⟨hJob, hParts, hPlanned hRight⟩

/-- A memory that forgets says nothing. -/
theorem forget_kept {s : GpuClient C} (hs : Kept cfg d s) :
    Kept cfg d { s with memory := s.memory.forget } :=
  ⟨{ hs.buffers with }, { hs.window with memory := fun h => (nomatch h) }, { hs.underWay with }⟩

/-- What is said of the panel is no part of it. -/
theorem Kept.said {s : GpuClient C} (hs : Kept cfg d s) (panel : Option BufferPicture)
    (layers : List Nat) (unbroken : Bool) (repeated : Option Repetition) :
    Kept cfg d { s with
      panel := panel, layers := layers, unbroken := unbroken, repeated := repeated } :=
  ⟨{ hs.buffers with }, { hs.window with }, { hs.underWay with }⟩

theorem ended_kept {u : GpuClient C} (hu : Kept cfg d u) (how : Seating) (c : Composition)
    (f : GpuFrame) :
    Kept cfg d ({ u with repeated := u.repetition cfg how c }.ended cfg how c f) := by
  unfold ended
  split
  · unfold wentUp
    simp only
    split
    · exact hu.said _ _ _ _
    · exact (presented_kept hu f.presentFence).said _ _ _ _
  · exact (forget_kept hu).said _ _ _ _

/-- A frame taken to be presented is validated no more. -/
theorem entered_kept {s : GpuClient C} (hs : Kept cfg d s) : Kept cfg d s.entered :=
  ⟨{ hs.buffers with told := fun _ h => (nomatch h) }, { hs.window with }, { hs.underWay with }⟩

/-- A frame is begun by the time it is drawn. -/
theorem readied_begun (s : GpuClient C) (c : Composition) (gone : Option Area)
    (hReuse : (s.readied cfg d c gone).reuse = false)
    (hKeep : (s.readied cfg d c gone).keep = false) : (s.readied cfg d c gone).begun = true := by
  unfold readied at hReuse hKeep ⊢
  split
  · rename_i h
    rw [if_pos h] at hReuse hKeep
    rw [hReuse, hKeep, Bool.or_false, Bool.or_false] at h
    exact h
  · rename_i h
    rw [if_neg h] at hReuse hKeep
    rcases s.beginClientOnGpu_cases c gone with ⟨-, hEq⟩ | ⟨-, ⟨-, hEq⟩ | ⟨-, hEq⟩⟩
    · rw [hEq] at hReuse
      cases hReuse
    · rw [hEq] at hKeep
      cases hKeep
    · rw [hEq]
      rfl

variable (cfg d) in
/-- What is asked of the steps: a range begun is planned soundly, a picture put on
the window is drawn soundly, and the damage the client tells is true. -/
def StepSound (s : GpuClient C) : Action → Prop
  | .validate _ composition _ => ∀ c, composition = some c →
      Told d c ∧ (cfg.gpuCanDrawClient c = true → BeginsSoundly cfg s c)
  | .present f => ∀ c, s.validated = some c → c.gpuDrawsClient = true →
      ((s.begun || s.reuse || s.keep) = false → BeginsSoundly cfg s c) ∧
        DrawsSoundly cfg (s.entered.readied cfg d c f.ran) f
  | .setClientTarget => True

theorem validate_kept {s : GpuClient C} (hFilters : Filters d.toDrawing) (hs : Kept cfg d s)
    {standIn : Bool} {composition : Option Composition} {gone : Option Area}
    (hSound : StepSound cfg d s (.validate standIn composition gone)) :
    Kept cfg d (s.validate cfg d standIn composition gone) := by
  have hUnstaged : Kept cfg d s.unstaged :=
    ⟨{ hs.buffers with told := fun _ h => (nomatch h) },
      { hs.window with reuse := fun h => (nomatch h) },
      { hs.underWay with
        bounds := by
          rintro (h | h)
          · cases h
          · exact hs.underWay.bounds (.inr h) }⟩
  unfold validate
  cases composition with
  | none => exact hUnstaged
  | some c =>
    obtain ⟨hTold, hBegins⟩ := hSound c rfl
    have hOff : (s.unstaged.stoodIn cfg standIn).begun = false ∧
        (s.unstaged.stoodIn cfg standIn).reuse = false := by
      unfold stoodIn
      split <;> exact ⟨rfl, rfl⟩
    have hSoundly : cfg.gpuCanDrawClient c = true →
        BeginsSoundly cfg (s.unstaged.stoodIn cfg standIn) c := by
      intro h
      unfold stoodIn
      split <;> exact hBegins h
    have hStoodIn : Kept cfg d (s.unstaged.stoodIn cfg standIn) := by
      unfold stoodIn
      split
      · refine ⟨{ hUnstaged.buffers with }, { hUnstaged.window with seat := ?_ },
          { hUnstaged.underWay with }⟩
        intro seat h
        obtain rfl := Option.some.inj h
        exact ⟨rfl, rfl⟩
      · exact hUnstaged
    simp only
    generalize s.unstaged.stoodIn cfg standIn = t at *
    have hValidated : ∀ b, Kept cfg d { t with validated := some { c with gpuDrawsClient := b } } :=
      fun b => ⟨{ hStoodIn.buffers with
        told := by
          intro c' h
          obtain rfl := Option.some.inj h
          exact hTold }, { hStoodIn.window with }, { hStoodIn.underWay with }⟩
    split
    · rename_i hCan
      exact beginClientOnGpu_kept hFilters (hValidated true) hOff.1 hOff.2 hTold (hSoundly hCan) gone
    · exact hValidated c.gpuDrawsClient

theorem present_kept {s t : GpuClient C} (hFilters : Filters d.toDrawing) (hs : Kept cfg d s)
    {f : GpuFrame} (hSound : StepSound cfg d s (.present f)) (h : s.present cfg d f = some t) :
    Kept cfg d t := by
  rcases present_cases h with ⟨-, rfl⟩ | ⟨c, -, -, rfl⟩ | ⟨c, how, u, hSome, hGpu, hDrew, rfl⟩
  · exact (forget_kept hs).said _ _ _ _
  · exact (forget_kept (entered_kept hs)).said _ _ _ _
  · obtain ⟨hBegins, hDraws⟩ := hSound c hSome hGpu
    refine ended_kept (drew_kept ?_ (readied_begun _ _ _) hDraws hDrew) how c f
    unfold readied
    split
    · exact entered_kept hs
    · rename_i hNone
      rw [Bool.not_eq_true] at hNone
      have hOff : (s.begun || s.reuse || s.keep) = false := hNone
      simp only [Bool.or_eq_false_iff] at hOff
      exact beginClientOnGpu_kept hFilters (entered_kept hs) hOff.1.1 hOff.1.2
        (hs.buffers.told c hSome) (hBegins hNone) f.ran

/-- **Every step keeps what is known of the buffers.** -/
theorem step_kept {s t : GpuClient C} (hFilters : Filters d.toDrawing) (hs : Kept cfg d s)
    {a : Action} (hSound : StepSound cfg d s a) (h : s.step cfg d a = some t) : Kept cfg d t := by
  cases a with
  | validate standIn composition gone =>
    obtain rfl := Option.some.inj h
    exact validate_kept hFilters hs hSound
  | present f => exact present_kept hFilters hs hSound h
  | setClientTarget =>
    obtain rfl := Option.some.inj h
    exact ⟨{ hs.buffers with }, { hs.window with seat := fun _ h => (nomatch h) },
      { hs.underWay with }⟩

-- ---------------------------------------------------------------------------
-- Over every run
-- ---------------------------------------------------------------------------

/-- The buffer on the client's window shows the picture it is said to hold: in
every run of validates and presents, with drawings planned whole, in part and not
at all, given up, dropped and refused, in which each drawing planned from a buffer's
picture goes by members told apart or draws them in full, nothing is seated that was
not drawn since it was last unknown, no parts drawn meet, and the damage told is
true. -/
theorem clientOnGpu_shows_picture (cfg : GpuConfig) (d : Painter Texel C)
    (hFilters : Filters d.toDrawing) (content : Nat → Point → C) {actions : List Action}
    {s : GpuClient C} (hRun : (machine cfg d).run (init content) actions = some s)
    (hSound : (machine cfg d).Meets (StepSound cfg d) (init content) actions) :
    ShowsPicture cfg d s := by
  have hKept : Kept cfg d s := Machine.run_of_meets (I := Kept cfg d)
    (fun _ _ _ hs hC hStep => step_kept hFilters hs hC hStep) (kept_init content) hSound hRun
  exact hKept.shows

theorem bySerial_filters : Filters bySerial.toDrawing := fun _ _ _ _ _ _ _ _ => rfl

/-- Panes whose damage is all of them are told truly. -/
theorem left_told {panes : List HwcLayer} (h : ∀ l ∈ panes, l.layerData.pi.damage = []) :
    Told bySerial (left panes) := by
  intro ld hld hDamage
  obtain ⟨l, hl, rfl⟩ := List.mem_map.mp hld
  rw [List.mem_insertionSort] at hl
  obtain ⟨e, he, rfl⟩ := List.mem_map.mp hl
  obtain ⟨l', hl', rfl⟩ := List.mem_map.mp (List.mem_of_mem_filter he)
  exact absurd (h l' hl') hDamage

/-- A drawing of a layer over all of the display is given up for one of another over
all of it, which is drawn in the part it asks for. -/
def givenUpOnce : List Action :=
  [.validate true (some (left [pane 1 1 0 4096])) none,
    .validate false (some (left [pane 2 1 0 4096])) (some .whole), .present (up .parts 1)]

/-- The second layer's picture is shown, and no pixel of the first. -/
theorem clientOnGpu_shows_picture_givenUp :
    ∃ s, (machine wide bySerial).run (init fun _ _ => 9) givenUpOnce = some s ∧
      ShowsPicture wide bySerial s := by
  refine ⟨_, rfl, @clientOnGpu_shows_picture _ _ wide bySerial bySerial_filters (fun _ _ => 9)
    givenUpOnce _ rfl ⟨?_, ?_, ?_, trivial⟩⟩
  · intro c h
    obtain rfl := Option.some.inj h
    exact ⟨left_told (by simp [pane]), fun _ _ _ _ held hHeld => (nomatch hHeld)⟩
  · intro c h
    obtain rfl := Option.some.inj h
    exact ⟨left_told (by simp [pane]), fun _ _ hPending => (nomatch hPending)⟩
  · intro c h _
    obtain rfl := Option.some.inj h
    refine ⟨fun hNone => (nomatch hNone), fun _ _ => ⟨fun p hp _ => ?_, ?_⟩⟩
    · exact ⟨wide.frame, by decide, inside_frameOf wide.signed hp⟩
    · exact List.pairwise_singleton _ _

/-- The drawing of a layer over all of the display runs before it is given up, and
the next draws only a layer at the left. When that buffer comes again, another
layer has come at the far right. -/
def farApart : List Action :=
  [.validate true (some (left [pane 1 1 0 4096])) none,
    .validate false (some (left [pane 2 1 0 16])) (some .whole), .present (up .parts 1),
    .validate false (some (left [pane 2 2 0 16])) none, .present (up .whole 2),
    .validate false (some (left [pane 2 3 0 16])) none, .present (up .whole 3),
    .validate false (some (left [pane 2 4 0 16, pane 3 1 4000 4016])) none,
    .present (up .parts 4)]

/-- Between the two, inside the bounds seated, the first layer shows. -/
theorem clientOnGpu_shows_older :
    ¬ ∀ (actions : List Action) (s : GpuClient Nat),
      (machine wide bySerial).run (init fun _ _ => 9) actions = some s →
        ShowsPicture wide bySerial s := by
  intro h
  have hShows := h farApart _ rfl _ rfl _ ⟨_, rfl, rfl, rfl⟩ (100, 5) (by decide) (by decide)
  have hOlder : (1 : Nat) = 0 := hShows
  cases hOlder

end GpuClient

end TegraHwc
