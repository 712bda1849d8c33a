import TegraHwc.Hwc.ClientOnGpu

/-!
# TegraHwc — the picture a dropped drawing repeats

A drawing the GPU has not come to when its frame goes up is dropped, and the
picture last drawn is seated in its place. Whether a drawing may be dropped is
decided by the fence of the last one, which nothing clears: the picture is there
to be seated long after frames without a client range, or of other layers.

## Results

* `dropped_repeats_preceding` — where every frame since the picture was drawn
  went up from the GPU, of the same layers, the picture repeated is the one the
  frame before shows, of the layers of this one.
* `dropped_brings_back`       — a run that brings back a picture of a layer no
  longer in the range.
-/

namespace TegraHwc

open PartialRedraw Runs

namespace GpuClient

variable {Texel C : Type} {cfg : GpuConfig} {d : Painter Texel C}

-- ---------------------------------------------------------------------------
-- What planning leaves alone
-- ---------------------------------------------------------------------------

/-- The buffer last drawn, and what is seated and shown of it. -/
def shows (s : GpuClient C) :
    Nat × List Member × Option Seat × Option BufferPicture × List Nat × Bool ×
      Option Repetition :=
  (s.gpu.current, s.drawnOf, s.seat, s.panel, s.layers, s.unbroken, s.repeated)

theorem ran_shows (s : GpuClient C) (area : Option Area) : (s.ran cfg d area).shows = s.shows := by
  rw [ran_eq]
  rfl

theorem givenUp_shows (s : GpuClient C) : s.givenUp.shows = s.shows := by
  unfold givenUp
  split <;> rfl

theorem planned_shows (s : GpuClient C) (members : List Member) :
    (s.planned cfg members).shows = s.shows := by
  unfold planned
  split <;> rfl

theorem queued_shows (s : GpuClient C) (gone : Option Area) :
    (s.queued cfg d gone).shows = s.shows :=
  ran_shows s gone

/-- Planning a drawing and beginning it change nothing of what is shown. -/
theorem beginClientOnGpu_shows (s : GpuClient C) (c : Composition) (gone : Option Area) :
    (s.beginClientOnGpu cfg d c gone).shows = s.shows := by
  have hPlanned : ((s.noted cfg c).givenUp.planned cfg (cfg.members c)).shows = s.shows :=
    (planned_shows _ _).trans (givenUp_shows _)
  rcases s.beginClientOnGpu_cases c gone with ⟨-, hEq⟩ | ⟨-, ⟨-, hEq⟩ | ⟨-, hEq⟩⟩
  · rw [hEq]
    rfl
  · rw [hEq]
    exact hPlanned
  · rw [hEq, queued_shows]
    exact hPlanned

variable (cfg d) in
theorem readied_shows (s : GpuClient C) (c : Composition) (gone : Option Area) :
    (s.readied cfg d c gone).shows = s.shows := by
  unfold readied
  split
  · rfl
  · exact beginClientOnGpu_shows s c gone

-- ---------------------------------------------------------------------------
-- What stands
-- ---------------------------------------------------------------------------

/-- What a repetition is to be: of the picture the frame before shows, and that of
the layers of this frame. -/
def RepeatsPreceding (s : GpuClient C) : Prop :=
  ∀ r, s.repeated = some r →
    r.preceding = some r.picture ∧ serials r.picture.members = serials r.frame

/-- The picture last drawn, as it is called by the buffer it is in. -/
def lastDrawn (s : GpuClient C) : BufferPicture := ⟨s.gpu.current, s.drawnOf⟩

/-- What is seated is the picture last drawn; and while nothing came between, it
is what the last frame presented shows, of that frame's layers. -/
structure Standing (s : GpuClient C) : Prop where
  seat : ∀ seat, s.seat = some seat → seat.picture = s.lastDrawn
  shown : s.unbroken = true → s.panel = some s.lastDrawn ∧ serials s.drawnOf = s.layers
  repeats : s.RepeatsPreceding

theorem Standing.congr {s t : GpuClient C} (hs : Standing s) (h : t.shows = s.shows) :
    Standing t := by
  simp only [shows, Prod.mk.injEq] at h
  obtain ⟨hCurrent, hDrawn, hSeat, hPanel, hLayers, hUnbroken, hRepeated⟩ := h
  have hLast : t.lastDrawn = s.lastDrawn := by
    unfold lastDrawn
    rw [hCurrent, hDrawn]
  refine ⟨?_, ?_, ?_⟩
  · rw [hSeat, hLast]
    exact hs.seat
  · rw [hUnbroken, hPanel, hLast, hDrawn, hLayers]
    exact hs.shown
  · unfold RepeatsPreceding
    rw [hRepeated]
    exact hs.repeats

theorem standing_init (content : Nat → Point → C) : Standing (init content) where
  seat := fun _ h => (nomatch h)
  shown := fun h => (nomatch h)
  repeats := fun _ h => (nomatch h)

/-- A buffer seated is seated with the picture last drawn. -/
theorem seatGpuBuffer_standing {s : GpuClient C} (hs : Standing s) (fence : Option Nat)
    (bounds : IRect) : Standing (s.seatGpuBuffer cfg s.gpu.current fence bounds) where
  seat := by
    rintro seat h
    obtain rfl := Option.some.inj h
    rfl
  shown := hs.shown
  repeats := hs.repeats

-- ---------------------------------------------------------------------------
-- A frame
-- ---------------------------------------------------------------------------

/-- What a drawing does to what is shown, whichever exit it leaves through: no
frame has gone up yet, and only a picture drawn is a new one. -/
structure Put (r : GpuClient C) (how : Seating) (u : GpuClient C) : Prop where
  frame : u.panel = r.panel ∧ u.layers = r.layers ∧ u.unbroken = r.unbroken
  last : how ≠ .drawn → u.lastDrawn = r.lastDrawn
  seat : (how = .refused ∧ u.seat = r.seat) ∨ ∃ seat, u.seat = some seat ∧ seat.picture = u.lastDrawn

/-- A drawing the library does not hand over takes no turn. -/
theorem finish_current {g : GpuExecutor Nat} {answer : GpuExecutor.Resolved Nat}
    (h : answer = .dropped ∨ answer = .refused) : (g.finish answer).2.current = g.current := by
  unfold GpuExecutor.finish
  split
  · rfl
  · rcases h with rfl | rfl <;> rfl

/-- A drawing not handed over leaves the picture last drawn. -/
theorem collected_lastDrawn {s : GpuClient C} {f : GpuFrame}
    (h : f.answer = .dropped ∨ f.answer = .refused) :
    (s.collected cfg d f).lastDrawn = s.lastDrawn := by
  unfold lastDrawn
  rw [collected_eq]
  simp only [finish_current h]

theorem drew_put {r u : GpuClient C} {f : GpuFrame} {how : Seating} (h : Drew cfg d r f how u) :
    Put r how u := by
  cases h with
  | again h => exact ⟨⟨rfl, rfl, rfl⟩, fun _ => rfl, .inr ⟨_, rfl, rfl⟩⟩
  | kept hReuse h =>
    rw [ran_eq]
    exact ⟨⟨rfl, rfl, rfl⟩, fun hNot => absurd rfl hNot, .inr ⟨_, rfl, rfl⟩⟩
  | nothing hReuse hKeep h => exact ⟨⟨rfl, rfl, rfl⟩, fun _ => rfl, .inl ⟨rfl, rfl⟩⟩
  | drawn hReuse hKeep k h fence hAnswer area hArea =>
    rw [collected_eq]
    exact ⟨⟨rfl, rfl, rfl⟩, fun hNot => absurd rfl hNot, .inr ⟨_, rfl, rfl⟩⟩
  | dropped hReuse hKeep k h hAnswer hDroppable hArea =>
    have hLast := @collected_lastDrawn _ _ cfg d r f (.inl hAnswer)
    rw [collected_eq] at hLast ⊢
    exact ⟨⟨rfl, rfl, rfl⟩, fun _ => hLast, .inr ⟨_, rfl, rfl⟩⟩
  | refused hReuse hKeep k h hAnswer =>
    have hLast := @collected_lastDrawn _ _ cfg d r f (.inr hAnswer)
    rw [collected_eq] at hLast ⊢
    exact ⟨⟨rfl, rfl, rfl⟩, fun _ => hLast, .inl ⟨rfl, rfl⟩⟩

variable (cfg d) in
/-- The frame's drawing is dropped: one was begun, and the library came to say so. -/
def Drops (s : GpuClient C) (c : Composition) (f : GpuFrame) : Prop :=
  (s.entered.readied cfg d c f.ran).reuse = false ∧
    (s.entered.readied cfg d c f.ran).keep = false ∧
    (s.entered.readied cfg d c f.ran).gpu.begunAt.isSome = true ∧ f.answer = .dropped

variable (cfg d) in
/-- A frame whose drawing is dropped comes while nothing came between, and its
client range has the layers of the frame before. -/
def DropsFollow (s : GpuClient C) : Action → Prop
  | .present f => ∀ c, s.validated = some c → c.gpuDrawsClient = true → Drops cfg d s c f →
      s.unbroken = true ∧ serials (cfg.members c) = s.layers
  | _ => True

theorem drew_drops {s u : GpuClient C} {c : Composition} {f : GpuFrame}
    (h : Drew cfg d (s.entered.readied cfg d c f.ran) f .dropped u) : Drops cfg d s c f := by
  cases h with
  | dropped hReuse hKeep k h hAnswer hDroppable hArea =>
    exact ⟨hReuse, hKeep, by rw [h]; rfl, hAnswer⟩

/-- The end of a frame keeps what stands: a frame that went up shows what is
seated. -/
theorem ended_standing {r u : GpuClient C} {c : Composition} {f : GpuFrame} {how : Seating}
    (hr : Standing r) (hPut : Put r how u)
    (hFollows : how = .dropped → r.unbroken = true ∧ serials (cfg.members c) = r.layers) :
    Standing ({ u with repeated := u.repetition cfg how c }.ended cfg how c f) := by
  obtain ⟨⟨hPanel, hLayers, hUnbroken⟩, hLast, hSeated⟩ := hPut
  have hSeat : ∀ seat, u.seat = some seat → seat.picture = u.lastDrawn := by
    intro seat h
    rcases hSeated with ⟨rfl, hKept⟩ | ⟨seat', hNew, hPicture⟩
    · rw [hKept] at h
      rw [hLast (by decide)]
      exact hr.seat seat h
    · rw [hNew] at h
      rwa [← Option.some.inj h]
  have hRepeats : ∀ rep, u.repetition cfg how c = some rep →
      rep.preceding = some rep.picture ∧ serials rep.picture.members = serials rep.frame := by
    intro rep h
    unfold repetition at h
    split at h
    · rename_i hHow
      obtain ⟨seat, hSome, rfl⟩ := Option.map_eq_some_iff.mp h
      obtain ⟨hStands, hSame⟩ := hFollows hHow
      obtain ⟨hShows, hOf⟩ := hr.shown hStands
      have hPicture : seat.picture = r.lastDrawn :=
        (hSeat seat hSome).trans (hLast (by rw [hHow]; decide))
      simp only
      rw [hPicture, hPanel, hShows, hSame]
      exact ⟨rfl, hOf⟩
    · cases h
  -- the panel of a frame before this one, while no picture was drawn since
  have hBefore : how ≠ .drawn → u.unbroken = true →
      u.panel = some u.lastDrawn ∧ serials u.drawnOf = u.layers := by
    intro hHow h
    have hEq := hLast hHow
    rw [hUnbroken] at h
    obtain ⟨hShows, hOf⟩ := hr.shown h
    have hDrawnOf : u.drawnOf = r.drawnOf := congrArg BufferPicture.members hEq
    rw [hPanel, hLayers, hEq, hDrawnOf]
    exact ⟨hShows, hOf⟩
  unfold ended
  split
  · refine ⟨?_, ?_, hRepeats⟩
    · intro seat h
      have hEq : ∀ g : GpuExecutor Nat, (g.presented f.presentFence).current = g.current :=
        fun _ => rfl
      have hSame := hSeat seat h
      unfold lastDrawn wentUp
      simp only
      split
      · exact hSame
      · rw [hEq]
        exact hSame
    · intro h
      have hEq : ({ u with repeated := u.repetition cfg how c }.wentUp cfg how c
          f.presentFence).lastDrawn = u.lastDrawn := by
        unfold lastDrawn wentUp
        simp only
        split <;> rfl
      rw [hEq]
      unfold wentUp at h ⊢
      simp only at h ⊢
      split at h
      · rename_i hHow
        rw [decide_eq_true_eq] at h
        rcases hSeated with ⟨hRefused, -⟩ | ⟨seat, hSome, hPicture⟩
        · rw [hHow] at hRefused
          cases hRefused
        · rw [hSome, Option.map_some, hPicture]
          exact ⟨rfl, h⟩
      · rename_i hHow
        rw [Bool.and_eq_true, Bool.and_eq_true, decide_eq_true_eq] at h
        obtain ⟨⟨hStands, hIsSome⟩, hSame⟩ := h
        obtain ⟨seat, hSome⟩ := Option.isSome_iff_exists.mp hIsSome
        rw [hSome, Option.map_some, hSeat seat hSome, hSame]
        exact ⟨rfl, (hBefore hHow hStands).2⟩
  · refine ⟨hSeat, ?_, hRepeats⟩
    intro h
    simp only [Bool.and_eq_true, decide_eq_true_eq] at h
    exact hBefore h.2 h.1

/-- **Every step keeps what stands**, where a drawing dropped follows the picture
it repeats. -/
theorem step_standing {s t : GpuClient C} {a : Action} (hs : Standing s)
    (hFollows : DropsFollow cfg d s a) (h : s.step cfg d a = some t) : Standing t := by
  cases a with
  | setClientTarget =>
    obtain rfl := Option.some.inj h
    exact ⟨fun _ h => (nomatch h), hs.shown, hs.repeats⟩
  | validate standIn composition gone =>
    obtain rfl := Option.some.inj h
    unfold validate
    cases composition with
    | none => exact hs.congr rfl
    | some c =>
      simp only
      have hUnstaged : Standing s.unstaged := hs.congr rfl
      have hStandIn : Standing (s.unstaged.stoodIn cfg standIn) := by
        unfold stoodIn
        split
        · exact seatGpuBuffer_standing hUnstaged _ _
        · exact hUnstaged
      split
      · exact hStandIn.congr (beginClientOnGpu_shows _ c gone)
      · exact hStandIn.congr rfl
  | present f =>
    rcases present_cases h with ⟨-, rfl⟩ | ⟨c, -, -, rfl⟩ | ⟨c, how, u, hSome, hGpu, hDrew, rfl⟩
    · exact ⟨hs.seat, fun h => (nomatch h), fun _ h => (nomatch h)⟩
    · refine ⟨hs.seat, fun h => ?_, fun _ h => (nomatch h)⟩
      simp only [Bool.and_eq_true, Bool.not_eq_true'] at h
      simp only [h.1]
      exact hs.shown h.2
    · have hEntered : Standing s.entered := ⟨hs.seat, hs.shown, fun _ h => (nomatch h)⟩
      have hShows := readied_shows cfg d s.entered c f.ran
      refine ended_standing (hEntered.congr hShows) (drew_put hDrew) ?_
      rintro rfl
      obtain ⟨hStands, hSame⟩ := hFollows c hSome hGpu (drew_drops hDrew)
      simp only [shows, Prod.mk.injEq] at hShows
      rw [hShows.2.2.2.2.1, hShows.2.2.2.2.2.1]
      exact ⟨hStands, hSame⟩

-- ---------------------------------------------------------------------------
-- Over every run
-- ---------------------------------------------------------------------------

/-- A drawing dropped repeats the picture the frame before shows of the client
range, of the layers of its own frame: in every run, of any layers and of drawings
finished, refused and dropped, in which each drawing dropped is of the layers of
the frame before, and since the picture was drawn every frame went up from the GPU
and was of the same layers. -/
theorem dropped_repeats_preceding (cfg : GpuConfig) (d : Painter Texel C)
    (content : Nat → Point → C) {actions : List Action} {s : GpuClient C}
    (hRun : (machine cfg d).run (init content) actions = some s)
    (hFollows : (machine cfg d).Meets (DropsFollow cfg d) (init content) actions) :
    s.RepeatsPreceding := by
  have hStanding : Standing s := Machine.run_of_meets (I := Standing)
    (fun _ _ _ hs hC hStep => step_standing hs hC hStep) (standing_init content) hFollows hRun
  exact hStanding.repeats

/-- A layer's frame goes up; the drawing of its next is dropped. -/
def onceDropped : List Action :=
  [.validate true (some (left [pane 1 1 0 4096])) none, .present (up .whole 1),
    .validate false (some (left [pane 1 2 0 4096])) none, .present { answer := .dropped }]

/-- The picture repeated is the one the frame before shows. -/
theorem dropped_repeats_preceding_once :
    ∃ s, (machine wide bySerial).run (init fun _ _ => 0) onceDropped = some s ∧
      s.repeated.isSome = true ∧ s.RepeatsPreceding := by
  refine ⟨_, rfl, rfl, @dropped_repeats_preceding _ _ wide bySerial (fun _ _ => 0) onceDropped
    _ rfl ⟨trivial, ?_, trivial, ?_, trivial⟩⟩
  · -- the first drawing is not dropped
    rintro c - - ⟨-, -, -, hDropped⟩
    cases hDropped
  · intro c hValidated hGpu hDrops
    obtain rfl := Option.some.inj hValidated
    exact ⟨rfl, rfl⟩

/-- A layer's frame goes up, then one of another layer that the client range has
no part in; then the drawing of a third layer is dropped. -/
def droppedLater : List Action :=
  [.validate true (some (left [pane 1 1 0 4096])) none, .present (up .whole 1),
    .validate false (some { layers := [(pane 2 1 0 4096, .kDevice)] }) none, .present {},
    .validate false (some (left [pane 3 1 0 16])) none, .present { answer := .dropped }]

/-- The picture repeated is of a layer that went two frames ago. -/
theorem dropped_brings_back :
    ¬ ∀ (actions : List Action) (s : GpuClient Nat),
      (machine wide bySerial).run (init fun _ _ => 0) actions = some s → s.RepeatsPreceding := by
  intro h
  obtain ⟨hPreceding, -⟩ := h droppedLater _ rfl _ rfl
  cases hPreceding

end GpuClient

end TegraHwc
