import TegraHwc.Hwc.ClientPicture
import TegraHwc.Vk.ComposeSound

/-!
# TegraHwc — the executor's library draws as the display has it

`tegra/GpuExecutor.cpp`, `Begin`, makes the library's target of one of its
buffers; `vk/Compositor.cpp`, `ComposeNow`, draws into it. What a call leaves in
the buffer is what `Painter.drawIn` says, in the rectangles `Job.rects` says, for
the area the library comes to take: the display's runs take it as given.

## Results

* `composeNow_drawIn` — a call that sends its drawing leaves the buffer drawn in
  the rectangles of its area.
-/

namespace TegraHwc

open PartialRedraw

/-- A rectangle of the display as a part of a target. -/
def boxOf (r : IRect) : Vk.Box := ⟨r.left, r.top, r.right, r.bottom⟩

/-- The target `Begin` makes of a buffer for the parts it is given. -/
def targetFor (cfg : GpuConfig) (buffer stride : Nat) (ready : Option Nat) (parts : List IRect) :
    Vk.Target :=
  { buffer := some buffer
    width := cfg.width.toNat
    height := cfg.height.toNat
    stride := stride
    format := Vk.kHalRgba8888
    usage := 0xA00
    readyFence := ready
    partCount := (parts.take Vk.kMaxParts).length
    parts := fun k => boxOf (parts.getD k ⟨0, 0, 0, 0⟩) }

/-- How much of a buffer the library takes for some parts of it. -/
def areaTaken (vk : Vk.Device) (isDrawn : Bool) (parts : List IRect) : Area :=
  if vk.keepPass && isDrawn then
    if vk.loadPass || decide (parts.length = 1) then .parts else .box
  else .whole

section Target

variable {cfg : GpuConfig} {buffer stride : Nat} {ready : Option Nat} {parts : List IRect}

theorem boxOf_has {r : IRect} {x y : Int} : (boxOf r).has x y = true ↔ inside r (x, y) := by
  rw [Vk.Box.has_iff]
  rfl

/-- The pixels of the target are those of the buffer. -/
theorem targetFor_has {x y : Int} :
    (targetFor cfg buffer stride ready parts).has x y = true ↔
      onBuffer cfg.width cfg.height (x, y) := by
  rw [Vk.Target.has_iff]
  rfl

/-- The parts asked for are the parts given. -/
theorem targetFor_asked (hMost : parts.length ≤ Vk.kMaxParts) :
    (targetFor cfg buffer stride ready parts).asked = parts.map boxOf := by
  have hCount : (parts.take Vk.kMaxParts).length = parts.length := by
    rw [List.length_take]
    omega
  unfold Vk.Target.asked targetFor
  simp only [hCount]
  apply List.ext_getElem
  · rw [List.length_take, List.length_ofFn, List.length_map]
    omega
  · intro i hLeft hRight
    have hi : i < parts.length := by simpa using hRight
    rw [List.getElem_take, List.getElem_ofFn, List.getElem_map]
    simp [List.getD_eq_getElem?_getD, hi]

theorem targetFor_disjoint (hMost : parts.length ≤ Vk.kMaxParts)
    (hApart : parts.Pairwise fun a b => PartialRedraw.meet a b = false) :
    (targetFor cfg buffer stride ready parts).Disjoint := by
  unfold Vk.Target.Disjoint
  rw [targetFor_asked hMost, List.pairwise_map]
  refine hApart.imp fun {a b} hMeet x y ha => ?_
  by_contra hb
  rw [Bool.not_eq_false] at hb
  rw [GpuClient.meet_of_inside (boxOf_has.mp ha) (boxOf_has.mp hb)] at hMeet
  cases hMeet

/-- A part as the display makes them: not empty, and on the display. -/
def Placed (cfg : GpuConfig) (r : IRect) : Prop :=
  r.left < r.right ∧ r.top < r.bottom ∧ 0 ≤ r.left ∧ 0 ≤ r.top ∧
    r.right ≤ cfg.width.toNat ∧ r.bottom ≤ cfg.height.toNat

theorem Placed.join {a b : IRect} (ha : Placed cfg a) (hb : Placed cfg b) :
    Placed cfg (PartialRedraw.join a b) := by
  unfold Placed PartialRedraw.join at *
  simp only
  omega

/-- Such a part is not cut. -/
theorem targetFor_clip {r : IRect} (h : Placed cfg r) :
    (targetFor cfg buffer stride ready parts).clip (boxOf r) = some (boxOf r).rect := by
  obtain ⟨hWidth, hHeight, hLeft, hTop, hRight, hBottom⟩ := h
  have hl : max r.left 0 = r.left := by omega
  have ht : max r.top 0 = r.top := by omega
  have hr : min r.right (cfg.width.toNat : Int) = r.right := by omega
  have hb : min r.bottom (cfg.height.toNat : Int) = r.bottom := by omega
  unfold Vk.Target.clip targetFor boxOf
  simp only [hl, ht, hr, hb]
  rw [if_pos ⟨hWidth, hHeight⟩]

theorem targetFor_cutParts (hMost : parts.length ≤ Vk.kMaxParts)
    (hPlaced : ∀ r ∈ parts, Placed cfg r) :
    (targetFor cfg buffer stride ready parts).cutParts = parts.map fun r => (boxOf r).rect := by
  unfold Vk.Target.cutParts
  rw [targetFor_asked hMost, List.filterMap_map]
  have hClip : ∀ r ∈ parts,
      ((targetFor cfg buffer stride ready parts).clip ∘ boxOf) r = some (boxOf r).rect :=
    fun r hr => targetFor_clip (hPlaced r hr)
  rw [List.filterMap_congr hClip, List.filterMap_eq_map']

/-- The box around two parts is the same on either side. -/
theorem join_boxOf {a b : IRect} (ha : Placed cfg a) (hb : Placed cfg b) :
    Vk.join (boxOf a).rect (boxOf b).rect = (boxOf (PartialRedraw.join a b)).rect := by
  unfold Placed at ha hb
  have hWidth : ∀ r : IRect, r.left < r.right → r.top < r.bottom →
      (boxOf r).rect.x + ((boxOf r).rect.width : Int) = r.right ∧
        (boxOf r).rect.y + ((boxOf r).rect.height : Int) = r.bottom := by
    intro r hx hy
    unfold boxOf Vk.Box.rect
    simp only
    omega
  obtain ⟨hax, hay⟩ := hWidth a ha.1 ha.2.1
  obtain ⟨hbx, hby⟩ := hWidth b hb.1 hb.2.1
  unfold Vk.join
  rw [hax, hay, hbx, hby]
  rfl

theorem foldl_join_boxOf {first : IRect} {rest : List IRect} (hFirst : Placed cfg first)
    (hRest : ∀ r ∈ rest, Placed cfg r) :
    (rest.map fun r => (boxOf r).rect).foldl Vk.join (boxOf first).rect =
      (boxOf (rest.foldl PartialRedraw.join first)).rect := by
  induction rest generalizing first with
  | nil => rfl
  | cons r rest ih =>
    have hr := hRest r (by simp)
    rw [List.map_cons, List.foldl_cons, List.foldl_cons, join_boxOf hFirst hr]
    exact ih (hFirst.join hr) fun r' h => hRest r' (by simp [h])

/-- The rectangles of a job's area are those the library draws in. -/
theorem region_rects {vk : Vk.Device} {dst : Vk.Entry} {job : Job}
    (hMost : job.parts.length ≤ Vk.kMaxParts) (hPlaced : ∀ r ∈ job.parts, Placed cfg r) {p : Point}
    (hp : onBuffer cfg.width cfg.height p) :
    (Vk.region vk (targetFor cfg buffer stride ready job.parts) dst.drawn).parts.any
        (·.has p.1 p.2) = true ↔
      Covered (job.rects cfg (areaTaken vk dst.drawn job.parts)) p := by
  have hFrame : Covered [cfg.frame] p := ⟨cfg.frame, by simp, inside_frameOf cfg.signed hp⟩
  have hIn := (@targetFor_has cfg buffer stride ready job.parts p.1 p.2).mpr hp
  have hCut := @targetFor_cutParts cfg buffer stride ready job.parts hMost hPlaced
  -- all of the buffer is drawn
  have hAll : Vk.DrawnWhole vk (targetFor cfg buffer stride ready job.parts) dst →
      job.rects cfg (areaTaken vk dst.drawn job.parts) = [cfg.frame] →
      ((Vk.region vk (targetFor cfg buffer stride ready job.parts) dst.drawn).parts.any
          (·.has p.1 p.2) = true ↔
        Covered (job.rects cfg (areaTaken vk dst.drawn job.parts)) p) := by
    intro hDrawn hRects
    rw [Vk.region_drawnWhole hDrawn, hRects]
    refine ⟨fun _ => hFrame, fun _ => ?_⟩
    show [(targetFor cfg buffer stride ready job.parts).whole].any (·.has p.1 p.2) = true
    rw [List.any_cons, Bool.or_eq_true]
    exact .inl hIn
  cases hSplit : job.parts with
  | nil =>
    rw [← hSplit]
    refine hAll (.inl ?_) ?_
    · show (job.parts.take Vk.kMaxParts).length = 0
      rw [hSplit]
      rfl
    · unfold Job.rects
      rw [if_pos hSplit]
  | cons first rest =>
    rw [← hSplit]
    have hSome : job.parts ≠ [] := by
      rw [hSplit]
      exact List.cons_ne_nil _ _
    unfold areaTaken at hAll ⊢
    unfold Job.rects at hAll ⊢
    rw [if_neg hSome] at hAll ⊢
    by_cases hKeeps : (vk.keepPass && dst.drawn) = true
    · rw [if_pos hKeeps]
      rw [Bool.and_eq_true] at hKeeps
      by_cases hLoads : (vk.loadPass || decide (job.parts.length = 1)) = true
      · -- the parts asked for
        rw [if_pos hLoads]
        rw [Bool.or_eq_true, decide_eq_true_eq] at hLoads
        have hDrawn : Vk.DrawnInParts vk (targetFor cfg buffer stride ready job.parts) dst := by
          refine ⟨hKeeps.1, hKeeps.2, hLoads.imp (fun h => ⟨h, ?_⟩) fun h => ?_⟩
          · rw [hCut]
            simpa using hSome
          · rw [hCut, List.length_map]
            exact h
        rw [Vk.region_drawnInParts hDrawn, hCut, List.any_map, List.any_eq_true]
        refine exists_congr fun r => and_congr_right fun _ => ?_
        rw [Function.comp_apply, Vk.Box.rect_has]
        exact boxOf_has
      · -- the box around them
        rw [if_neg hLoads]
        rw [Bool.or_eq_true, decide_eq_true_eq, not_or, Bool.not_eq_true] at hLoads
        obtain ⟨hLoad, hOne⟩ := hLoads
        cases rest with
        | nil =>
          rw [hSplit] at hOne
          exact absurd rfl hOne
        | cons second rest =>
          have hPlacedFirst := hPlaced first (by simp [hSplit])
          have hPlacedRest : ∀ r ∈ second :: rest, Placed cfg r := fun r hr =>
            hPlaced r (by rw [hSplit]; exact List.mem_cons_of_mem _ hr)
          have hDrawn : Vk.DrawnAsBox vk (targetFor cfg buffer stride ready job.parts) dst
              (boxOf (bounds job.parts)).rect := by
            refine ⟨hKeeps.1, hKeeps.2, hLoad, (boxOf first).rect, (boxOf second).rect,
              rest.map fun r => (boxOf r).rect, ?_, ?_⟩
            · rw [hCut, hSplit]
              rfl
            · rw [hSplit]
              exact (foldl_join_boxOf hPlacedFirst hPlacedRest).symm
          rw [Vk.region_drawnAsBox hDrawn, List.any_cons, List.any_nil, Bool.or_false,
            Vk.Box.rect_has, boxOf_has]
          simp [Covered]
    · -- nothing is kept
      rw [if_neg hKeeps] at hAll ⊢
      rw [Bool.and_eq_true, not_and_or, Bool.not_eq_true, Bool.not_eq_true] at hKeeps
      exact hAll (.inr hKeeps) rfl

/-- The rectangles of a job's area do not meet where its parts do not. -/
theorem rects_apart {job : Job}
    (hApart : job.parts.Pairwise fun a b => PartialRedraw.meet a b = false) (area : Area) :
    (job.rects cfg area).Pairwise fun a b => PartialRedraw.meet a b = false := by
  unfold Job.rects
  split
  · exact List.pairwise_singleton _ _
  · cases area with
    | parts => exact hApart
    | box => exact List.pairwise_singleton _ _
    | whole => exact List.pairwise_singleton _ _

end Target

/-- **What a call leaves in the executor's buffer.** A call that sends the drawing
of a job leaves the buffer drawn in the rectangles of the job's area, the picture
being the plain one of its layers. -/
theorem composeNow_drawIn {Texel : Type} (cfg : GpuConfig) (vk : Vk.Device) (gpu : Vk.Gpu)
    (driver : Vk.Driver) (d : Painter Texel Vk.Pixel) (job : Job) (buffer stride : Nat)
    (ready : Option Nat) {layers : List Vk.Layer} {sources : List Vk.Source} (dst : Vk.Entry)
    (hSends : Vk.Sends driver (targetFor cfg buffer stride ready job.parts) layers sources)
    (hBounded : ∀ l ∈ layers, l.Bounded gpu (targetFor cfg buffer stride ready job.parts))
    (hPlain : ∀ p, onBuffer cfg.width cfg.height p →
      Vk.plain gpu (targetFor cfg buffer stride ready job.parts) sources p.1 p.2 =
        d.picture job.members p)
    (hMost : job.parts.length ≤ Vk.kMaxParts) (hPlaced : ∀ r ∈ job.parts, Placed cfg r)
    (hApart : job.parts.Pairwise fun a b => PartialRedraw.meet a b = false) {p : Point}
    (hp : onBuffer cfg.width cfg.height p) :
    (Vk.composeNow vk gpu driver (targetFor cfg buffer stride ready job.parts) layers
        dst).2.content p.1 p.2 =
      d.drawIn job.members (job.rects cfg (areaTaken vk dst.drawn job.parts))
        (fun q => dst.content q.1 q.2) p := by
  have hIn := (@targetFor_has cfg buffer stride ready job.parts p.1 p.2).mpr hp
  have hRects := @region_rects cfg buffer stride ready vk dst job hMost hPlaced p hp
  rw [Vk.composeNow_region hSends dst hBounded (targetFor_disjoint hMost hApart) hIn, hPlain p hp]
  split
  · rename_i h
    exact (GpuClient.drawIn_inside (rects_apart hApart _) (hRects.mp h)).symm
  · rename_i h
    have hOutside : ¬Covered (job.rects cfg (areaTaken vk dst.drawn job.parts)) p :=
      fun hCovered => h (hRects.mpr hCovered)
    rw [GpuClient.drawIn_outside hOutside]

end TegraHwc
