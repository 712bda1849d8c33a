import TegraHwc.Compositor.Occlusion
import TegraHwc.Compositor.PartialRedraw
import TegraHwc.Lib.Raster
import Mathlib.Analysis.Real.Sqrt
import Mathlib.Tactic.Linarith

/-!
# TegraHwc — the occlusion keeps the picture

What `occlusion::Resolve` finds of a layer, as points: the points of its frame
that its visible region names and that nothing certainly opaque above it
covers. Bounds are the smallest box of these, and a stack drawn within its
bounds shows what it shows drawn whole.

## Results

* `covered_subtract` — `Subtract` takes away the points of the cut.
* `covered_uncovered` — and what is left of a layer is what can be seen.
* `cornerMask_opaqueParts` — what counts as opaque of a layer with rounded
  corners is drawn whole by them.
* `resolve_picture` — drawing the layers within their bounds makes the same
  picture.
* `resolve_sound` — all of it, for every stack.
-/

namespace TegraHwc.Occlusion

open PartialRedraw (Point inside Covered)

-- ---------------------------------------------------------------------------
-- Regions as points
-- ---------------------------------------------------------------------------

theorem inside_intersect {a b : IRect} {p : Point} :
    inside (intersect a b) p ↔ inside a p ∧ inside b p := by
  simp only [inside, intersect]
  omega

/-- A rectangle is empty when it has no points. -/
theorem empty_iff {r : IRect} : empty r = true ↔ ∀ p : Point, ¬inside r p := by
  unfold empty
  rw [Bool.or_eq_true, decide_eq_true_eq, decide_eq_true_eq]
  constructor
  · intro h p hp
    unfold inside at hp
    omega
  · intro h
    have hCorner := h (r.left, r.top)
    simp only [inside, le_refl, true_and] at hCorner
    omega

theorem not_empty_iff {r : IRect} : empty r = false ↔ r.left < r.right ∧ r.top < r.bottom := by
  unfold empty
  rw [Bool.or_eq_false_iff, decide_eq_false_iff_not, decide_eq_false_iff_not]
  omega

/-- The pieces of one rectangle are its points outside the cut. -/
theorem covered_subtractFrom {cut r : IRect} {p : Point} :
    Covered (subtractFrom cut r) p ↔ inside r p ∧ ¬inside cut p := by
  unfold subtractFrom
  simp only
  split
  · -- the cut misses the rectangle
    rename_i hMisses
    have hNone := empty_iff.mp hMisses p
    rw [inside_intersect] at hNone
    simp only [Covered, List.mem_singleton, exists_eq_left]
    exact ⟨fun h => ⟨h, fun hCut => hNone ⟨h, hCut⟩⟩, And.left⟩
  · rename_i hMeets
    obtain ⟨hWide, hTall⟩ := not_empty_iff.mp (Bool.eq_false_iff.mpr hMeets)
    simp only [Covered, List.mem_append, List.mem_ite_nil_right, List.mem_singleton]
    simp only [intersect] at hWide hTall ⊢
    constructor
    · rintro ⟨q, ((⟨-, rfl⟩ | ⟨-, rfl⟩) | ⟨-, rfl⟩) | ⟨-, rfl⟩, hIn⟩
      all_goals
        simp only [inside] at hIn ⊢
        omega
    · rintro ⟨hIn, hOut⟩
      simp only [inside] at hIn hOut ⊢
      by_cases hAbove : p.2 < max r.top cut.top
      · exact ⟨_, .inl (.inl (.inl ⟨by omega, rfl⟩)), by simp only; omega⟩
      by_cases hBelow : min r.bottom cut.bottom ≤ p.2
      · exact ⟨_, .inl (.inl (.inr ⟨by omega, rfl⟩)), by simp only; omega⟩
      by_cases hLeft : p.1 < max r.left cut.left
      · exact ⟨_, .inl (.inr ⟨by omega, rfl⟩), by simp only; omega⟩
      · exact ⟨_, .inr ⟨by omega, rfl⟩, by simp only; omega⟩

/-- **`Subtract` takes away the points of the cut.** -/
theorem covered_subtract {region : List IRect} {cut : IRect} {p : Point} :
    Covered (subtract region cut) p ↔ Covered region p ∧ ¬inside cut p := by
  unfold subtract
  constructor
  · rintro ⟨q, hq, hIn⟩
    obtain ⟨r, hr, hPiece⟩ := List.mem_flatMap.mp hq
    obtain ⟨hInside, hOut⟩ := covered_subtractFrom.mp ⟨q, hPiece, hIn⟩
    exact ⟨⟨r, hr, hInside⟩, hOut⟩
  · rintro ⟨⟨r, hr, hInside⟩, hOut⟩
    obtain ⟨q, hPiece, hIn⟩ := covered_subtractFrom.mpr ⟨hInside, hOut⟩
    exact ⟨q, List.mem_flatMap.mpr ⟨r, hr, hPiece⟩, hIn⟩

/-- No piece is empty that was not. -/
theorem not_empty_subtract {region : List IRect} {cut : IRect}
    (hRegion : ∀ r ∈ region, empty r = false) : ∀ r ∈ subtract region cut, empty r = false := by
  intro q hq
  obtain ⟨r, hr, hPiece⟩ := List.mem_flatMap.mp hq
  have hr' := hRegion r hr
  unfold subtractFrom at hPiece
  simp only at hPiece
  split at hPiece
  · rw [List.mem_singleton.mp hPiece]
    exact hr'
  · rename_i hMeets
    obtain ⟨hWide, hTall⟩ := not_empty_iff.mp (Bool.eq_false_iff.mpr hMeets)
    rw [not_empty_iff] at hr' ⊢
    simp only [List.mem_append, List.mem_ite_nil_right, List.mem_singleton] at hPiece
    simp only [intersect] at hWide hTall hPiece
    rcases hPiece with ((⟨hPart, rfl⟩ | ⟨hPart, rfl⟩) | ⟨hPart, rfl⟩) | ⟨hPart, rfl⟩
    all_goals
      simp only
      omega

/-- What is left of a region: its points that nothing hides. -/
theorem covered_uncovered {hiding_ region : List IRect} {p : Point} :
    Covered (uncovered region hiding_) p ↔ Covered region p ∧ ¬Covered hiding_ p := by
  induction hiding_ generalizing region with
  | nil => simp [uncovered, Covered]
  | cons h hiding_ ih =>
    unfold uncovered
    split
    · rename_i hNil
      subst hNil
      simp [Covered]
    · have hHiding : Covered (h :: hiding_) p ↔ inside h p ∨ Covered hiding_ p := by
        simp [Covered]
      rw [ih, covered_subtract, hHiding, not_or, and_assoc]

theorem not_empty_uncovered {hiding_ region : List IRect}
    (hRegion : ∀ r ∈ region, empty r = false) : ∀ r ∈ uncovered region hiding_, empty r = false := by
  induction hiding_ generalizing region with
  | nil => exact hRegion
  | cons h hiding_ ih =>
    unfold uncovered
    split
    · exact hRegion
    · exact ih (not_empty_subtract hRegion)

-- ---------------------------------------------------------------------------
-- What of a layer is seen
-- ---------------------------------------------------------------------------

/-- A point is certainly covered by one of some layers. -/
def HiddenBy (above : List Layer) (p : Point) : Prop := ∃ m ∈ above, Covered (opaqueParts m) p

/-- The visible region of a layer, where an empty one is all of it. -/
def InVisible (l : Layer) (p : Point) : Prop := l.visible = [] ∨ Covered l.visible p

/-- A point of a layer that can be seen. -/
structure Seen (above : List Layer) (l : Layer) (p : Point) : Prop where
  inFrame : inside l.frame p
  inVisible : InVisible l p
  uncovered : ¬HiddenBy above p

/-- The walk gathers what certainly covers. -/
theorem covered_walkDown {above : List Layer} {p : Point} :
    Covered (walkDown above).2 p ↔ HiddenBy above p := by
  induction above with
  | nil => simp [walkDown, Covered, HiddenBy]
  | cons l above ih =>
    have hAppend : Covered ((walkDown above).2 ++ opaqueParts l) p ↔
        Covered (walkDown above).2 p ∨ Covered (opaqueParts l) p := by
      simp [Covered, or_and_right, exists_or]
    unfold walkDown
    simp only
    rw [hAppend, ih]
    simp [HiddenBy, or_comm]

theorem covered_startRegion {l : Layer} {p : Point} :
    Covered (startRegion l) p ↔ inside l.frame p ∧ InVisible l p := by
  unfold startRegion InVisible
  split
  · rename_i hWhole
    simp [Covered, hWhole]
  · rename_i hRegion
    constructor
    · rintro ⟨q, hq, hIn⟩
      obtain ⟨v, hv, rfl⟩ := List.mem_map.mp (List.mem_of_mem_filter hq)
      obtain ⟨hVisible, hFrame⟩ := inside_intersect.mp hIn
      exact ⟨hFrame, .inr ⟨v, hv, hVisible⟩⟩
    · rintro ⟨hFrame, hWhole | ⟨v, hv, hVisible⟩⟩
      · exact absurd hWhole hRegion
      · have hIn := inside_intersect.mpr ⟨hVisible, hFrame⟩
        have hSome : empty (intersect v l.frame) = false :=
          Bool.eq_false_iff.mpr fun hEmpty => empty_iff.mp hEmpty p hIn
        refine ⟨_, List.mem_filter.mpr ⟨List.mem_map.mpr ⟨v, hv, rfl⟩, ?_⟩, hIn⟩
        rw [hSome]
        rfl

/-- No rectangle the walk starts a layer with is empty. -/
theorem not_empty_startRegion {l : Layer} (hFrame : empty l.frame = false) :
    ∀ r ∈ startRegion l, empty r = false := by
  intro r hr
  unfold startRegion at hr
  split at hr
  · rw [List.mem_singleton.mp hr]
    exact hFrame
  · simpa using (List.mem_filter.mp hr).2

/-- **What is left of a layer is what can be seen.** -/
theorem covered_left {above : List Layer} {l : Layer} {p : Point} :
    Covered (uncovered (startRegion l) (walkDown above).2) p ↔ Seen above l p := by
  rw [covered_uncovered, covered_startRegion, covered_walkDown]
  exact ⟨fun ⟨⟨hFrame, hVisible⟩, hOpen⟩ => ⟨hFrame, hVisible, hOpen⟩,
    fun h => ⟨⟨h.inFrame, h.inVisible⟩, h.uncovered⟩⟩

-- ---------------------------------------------------------------------------
-- The smallest box
-- ---------------------------------------------------------------------------

/-- One rectangle lies within another, edge by edge. -/
structure Within (inner outer : IRect) : Prop where
  left : outer.left ≤ inner.left
  top : outer.top ≤ inner.top
  right : inner.right ≤ outer.right
  bottom : inner.bottom ≤ outer.bottom

/-- A box that holds every point of a rectangle holds the rectangle. -/
theorem within_of_inside {r b : IRect} (hSome : empty r = false)
    (hPoints : ∀ p, inside r p → inside b p) : Within r b := by
  obtain ⟨hWide, hTall⟩ := not_empty_iff.mp hSome
  have hFirst := hPoints (r.left, r.top)
  have hLast := hPoints (r.right - 1, r.bottom - 1)
  simp only [inside] at hFirst hLast
  constructor <;> omega

/-- The loop's box holds what it began with and every rectangle it met, and
lies within every box that does. -/
theorem within_boundsOf (region : List IRect) :
    ∀ front : IRect, Within front (boundsOf front region) ∧
      (∀ r ∈ region, Within r (boundsOf front region)) ∧
      ∀ b, Within front b → (∀ r ∈ region, Within r b) → Within (boundsOf front region) b := by
  induction region with
  | nil => exact fun front => ⟨⟨le_rfl, le_rfl, le_rfl, le_rfl⟩, by simp, fun b hb _ => hb⟩
  | cons r region ih =>
    intro front
    unfold boundsOf
    rw [List.foldl_cons]
    set joined : IRect := ⟨min front.left r.left, min front.top r.top, max front.right r.right,
      max front.bottom r.bottom⟩ with hJoined
    obtain ⟨hFront, hEach, hLeast⟩ := ih joined
    have hTrans : ∀ q : IRect, Within q joined → Within q (boundsOf joined region) :=
      fun q hq => ⟨hFront.left.trans hq.left, hFront.top.trans hq.top,
        hq.right.trans hFront.right, hq.bottom.trans hFront.bottom⟩
    refine ⟨hTrans front ?_, ?_, ?_⟩
    · rw [hJoined]
      constructor <;> simp only <;> omega
    · intro q hq
      rcases List.mem_cons.mp hq with rfl | hq
      · refine hTrans q ?_
        rw [hJoined]
        constructor <;> simp only <;> omega
      · exact hEach q hq
    · intro b hFrontIn hEachIn
      refine hLeast b ?_ fun q hq => hEachIn q (List.mem_cons_of_mem _ hq)
      have hr := hEachIn r List.mem_cons_self
      have hLeft := hFrontIn.left
      have hTop := hFrontIn.top
      have hRight := hFrontIn.right
      have hBottom := hFrontIn.bottom
      have hrLeft := hr.left
      have hrTop := hr.top
      have hrRight := hr.right
      have hrBottom := hr.bottom
      rw [hJoined]
      constructor <;> simp only <;> omega

theorem inside_of_within {inner outer : IRect} {p : Point} (hWithin : Within inner outer)
    (hp : inside inner p) : inside outer p := by
  obtain ⟨hLeft, hTop, hRight, hBottom⟩ := hWithin
  unfold inside at hp ⊢
  omega

-- ---------------------------------------------------------------------------
-- What is found of each layer
-- ---------------------------------------------------------------------------

/-- What is found of a layer is right. -/
structure Resolved (above : List Layer) (l : Layer) (s : Shown) : Prop where
  inBounds : ∀ p, Seen above l p → inside s.bounds p
  /-- Hidden is a layer that is not kept and has a place, but no point to see. -/
  hidden_iff : s.hidden = true ↔
    l.keep = false ∧ empty l.frame = false ∧ ¬∃ p, Seen above l p
  /-- The bounds lie within every box of what is seen. -/
  tight : l.keep = false → (∃ p, Seen above l p) →
    ∀ b : IRect, (∀ p, Seen above l p → inside b p) → Within s.bounds b
  kept : l.keep = true → s = { hidden := false, bounds := l.frame }

/-- What is found of one layer is right. -/
theorem shownUnder_resolved (above : List Layer) (l : Layer) :
    Resolved above l (shownUnder (walkDown above).2 l) := by
  unfold shownUnder
  split
  · rename_i hMay
    obtain ⟨hKeep, hPlace⟩ := hMay
    have hNotKept : l.keep = true → False := fun h => by rw [hKeep] at h; cases h
    have hNotEmpty : ∀ r ∈ uncovered (startRegion l) (walkDown above).2, empty r = false :=
      not_empty_uncovered (not_empty_startRegion hPlace)
    have hLeft : ∀ p, Covered (uncovered (startRegion l) (walkDown above).2) p ↔ Seen above l p :=
      fun _ => covered_left
    split
    · -- nothing is left of it
      rename_i hNil
      simp only [hNil] at hLeft
      have hNone : ¬∃ p, Seen above l p := by
        rintro ⟨p, hSeen⟩
        obtain ⟨r, hr, -⟩ := (hLeft p).mpr hSeen
        cases hr
      exact ⟨fun p hSeen => absurd ⟨p, hSeen⟩ hNone, ⟨fun _ => ⟨hKeep, hPlace, hNone⟩, fun _ => rfl⟩,
        fun _ hSome => absurd hSome hNone, fun h => (hNotKept h).elim⟩
    · rename_i front rest hRegion
      rw [hRegion] at hNotEmpty
      simp only [hRegion] at hLeft
      obtain ⟨hFront, hEach, hLeast⟩ := within_boundsOf (front :: rest) front
      have hCorner : ∃ p, Seen above l p := by
        obtain ⟨hWide, hTall⟩ := not_empty_iff.mp (hNotEmpty front List.mem_cons_self)
        refine ⟨(front.left, front.top), (hLeft _).mp ⟨front, List.mem_cons_self, ?_⟩⟩
        exact ⟨le_rfl, hWide, le_rfl, hTall⟩
      refine ⟨fun p hSeen => ?_, ?_, fun _ _ b hb => ?_, fun h => (hNotKept h).elim⟩
      · obtain ⟨r, hr, hIn⟩ := (hLeft p).mpr hSeen
        exact inside_of_within (hEach r hr) hIn
      · exact ⟨fun h => (nomatch h), fun ⟨_, _, hNone⟩ => absurd hCorner hNone⟩
      · have hWithin : ∀ r ∈ front :: rest, Within r b := fun r hr =>
          within_of_inside (hNotEmpty r hr) fun p hIn => hb p ((hLeft p).mp ⟨r, hr, hIn⟩)
        exact hLeast b (hWithin front List.mem_cons_self) hWithin
  · rename_i hMay
    refine ⟨fun p hSeen => hSeen.inFrame, ?_, ?_, fun _ => rfl⟩
    · exact ⟨fun h => (nomatch h), fun ⟨hKeep, hPlace, _⟩ => absurd ⟨hKeep, hPlace⟩ hMay⟩
    · -- a layer with no place has no point to see
      rintro hKeep ⟨p, hSeen⟩
      have hPlace : empty l.frame = true := by
        by_contra hSome
        exact hMay ⟨hKeep, Bool.eq_false_iff.mpr hSome⟩
      exact absurd hSeen.inFrame (empty_iff.mp hPlace p)

/-- `Resolve` finds of each layer what the layers above it leave. -/
theorem getElem?_resolve {bottomFirst : List Layer} {i : Nat} {l : Layer}
    (hLayer : bottomFirst[i]? = some l) :
    (resolve bottomFirst)[i]? = some (shownUnder (walkDown (bottomFirst.drop (i + 1))).2 l) := by
  unfold resolve
  induction bottomFirst generalizing i with
  | nil => cases hLayer
  | cons first above ih =>
    show (shownUnder (walkDown above).2 first :: (walkDown above).1)[i]? = _
    cases i with
    | zero =>
      rw [List.getElem?_cons_zero] at hLayer
      obtain rfl := Option.some.inj hLayer
      rfl
    | succ i => exact ih hLayer

-- ---------------------------------------------------------------------------
-- Rounded corners
-- ---------------------------------------------------------------------------

/-- How far past the middle of a rounded side a coordinate lies, towards
either end: `q` of `compose.frag`, along one axis. -/
noncomputable def pastMiddle (low high : Int) (radius x : ℝ) : ℝ :=
  |x - (low + high) * (1 / 2)| - ((high - low) * (1 / 2) - radius)

/-- The rounded-corner mask of `compose.frag` at a point of the target: the
signed distance to the rounded rectangle, faded over a pixel. -/
noncomputable def cornerMask (corner : IRect) (radius x y : ℝ) : ℝ :=
  let qx := pastMiddle corner.left corner.right radius x
  let qy := pastMiddle corner.top corner.bottom radius y
  let d := √(max qx 0 ^ 2 + max qy 0 ^ 2) + min (max qx qy) 0 - radius
  max 0 (min 1 (1 / 2 - d))

/-- A pixel's middle, `n` whole pixels in from both ends of a side. -/
theorem pastMiddle_le {low high n v : Int} (radius : ℝ) (hLow : low + n ≤ v)
    (hHigh : v < high - n) : pastMiddle low high radius (v + 1 / 2) ≤ radius - n - 1 / 2 := by
  have hLow' : (low : ℝ) + n ≤ v := by exact_mod_cast hLow
  have hHigh' : (v : ℝ) + 1 ≤ high - n := by exact_mod_cast hHigh
  unfold pastMiddle
  have hAbs : |(v : ℝ) + 1 / 2 - (low + high) * (1 / 2)| ≤ (high - low) * (1 / 2) - n - 1 / 2 := by
    rw [abs_le]
    constructor <;> linarith
  linarith

/-- Where one side is not yet rounded and the other not yet left, the mask is
whole. -/
theorem cornerMask_eq_one {corner : IRect} {radius x y : ℝ} (hRadius : 0 < radius)
    (hOne : (pastMiddle corner.left corner.right radius x ≤ -(1 / 2) ∧
        pastMiddle corner.top corner.bottom radius y ≤ radius - 1 / 2) ∨
      (pastMiddle corner.left corner.right radius x ≤ radius - 1 / 2 ∧
        pastMiddle corner.top corner.bottom radius y ≤ -(1 / 2))) :
    cornerMask corner radius x y = 1 := by
  unfold cornerMask
  simp only
  generalize pastMiddle corner.left corner.right radius x = qx at hOne ⊢
  generalize pastMiddle corner.top corner.bottom radius y = qy at hOne ⊢
  have hInside : √(max qx 0 ^ 2 + max qy 0 ^ 2) + min (max qx qy) 0 - radius ≤ -(1 / 2) := by
    rcases hOne with ⟨hx, hy⟩ | ⟨hx, hy⟩
    · rw [max_eq_right (by linarith : qx ≤ 0), zero_pow two_ne_zero, zero_add,
        Real.sqrt_sq (le_max_right _ _)]
      rcases le_total qy 0 with h | h
      · rw [max_eq_right h, min_eq_left (max_le (by linarith) h)]
        have hMax : max qx qy ≤ radius - 1 / 2 := max_le (by linarith) hy
        linarith
      · rw [max_eq_left h, min_eq_right (le_max_of_le_right h)]
        linarith
    · rw [max_eq_right (by linarith : qy ≤ 0), zero_pow two_ne_zero, add_zero,
        Real.sqrt_sq (le_max_right _ _)]
      rcases le_total qx 0 with h | h
      · rw [max_eq_right h, min_eq_left (max_le h (by linarith))]
        have hMax : max qx qy ≤ radius - 1 / 2 := max_le hx (by linarith)
        linarith
      · rw [max_eq_left h, min_eq_right (le_max_of_le_left h)]
        linarith
  rw [min_eq_left (by linarith), max_eq_right zero_le_one]

/-- **What counts as opaque of a rounded layer has no pixel that its corners
let anything through.** -/
theorem cornerMask_opaqueParts {l : Layer} (hRadius : 0 < l.radius) {p : Point}
    (hp : Covered (opaqueParts l) p) :
    cornerMask l.cornerCrop l.radius (p.1 + 1 / 2) (p.2 + 1 / 2) = 1 := by
  unfold opaqueParts at hp
  split at hp
  · obtain ⟨r, hr, -⟩ := hp
    cases hr
  rw [if_neg (not_le.mpr hRadius)] at hp
  simp only [Covered, List.mem_append, List.mem_ite_nil_left, List.mem_singleton] at hp
  have hCeil : (l.radius : ℝ) ≤ (⌈l.radius⌉ : Int) := by exact_mod_cast Int.le_ceil l.radius
  obtain ⟨r, ⟨-, rfl⟩ | ⟨-, rfl⟩, hIn⟩ := hp
  all_goals
    simp only [inside, intersect] at hIn
    apply cornerMask_eq_one (by exact_mod_cast hRadius)
  · -- the tall part keeps the radius from the left and right sides
    have hx := pastMiddle_le (n := ⌈l.radius⌉) (l.radius : ℝ)
      (show l.cornerCrop.left + ⌈l.radius⌉ ≤ p.1 by omega)
      (show p.1 < l.cornerCrop.right - ⌈l.radius⌉ by omega)
    have hy := pastMiddle_le (n := 0) (l.radius : ℝ)
      (show l.cornerCrop.top + 0 ≤ p.2 by omega) (show p.2 < l.cornerCrop.bottom - 0 by omega)
    refine .inl ⟨by linarith, ?_⟩
    simpa using hy
  · -- the wide part from the top and the bottom
    have hx := pastMiddle_le (n := 0) (l.radius : ℝ)
      (show l.cornerCrop.left + 0 ≤ p.1 by omega) (show p.1 < l.cornerCrop.right - 0 by omega)
    have hy := pastMiddle_le (n := ⌈l.radius⌉) (l.radius : ℝ)
      (show l.cornerCrop.top + ⌈l.radius⌉ ≤ p.2 by omega)
      (show p.2 < l.cornerCrop.bottom - ⌈l.radius⌉ by omega)
    refine .inr ⟨?_, by linarith⟩
    simpa using hx

-- ---------------------------------------------------------------------------
-- The picture
-- ---------------------------------------------------------------------------

/-- A layer and what it paints. -/
structure Drawn (C : Type) where
  layer : Layer
  paint : Raster.Layer Point C

/-- A layer drawn within what is shown of it. -/
def Drawn.within {C : Type} (d : Drawn C) (s : Shown) : Raster.Layer Point C := fun p below =>
  if s.hidden = true then below
  else if d.layer.keep = true ∨ inside s.bounds p then d.paint p below
  else below

/-- What a layer paints is as it is described. -/
structure Described {C : Type} (d : Drawn C) : Prop where
  /-- Nothing is painted past the frame by a layer that may be cropped. -/
  inFrame : d.layer.keep = false → ∀ p, ¬inside d.layer.frame p → ∀ below, d.paint p below = below
  /-- Where it is certainly opaque, nothing below it shows. -/
  opaque_ : ∀ p, Covered (opaqueParts d.layer) p → ∀ below below',
    d.paint p below = d.paint p below'

/-- What the visible region leaves out of a layer is not missed: it is covered
from above, or nothing is painted there. -/
def RegionRight {C : Type} (above : List Layer) (d : Drawn C) : Prop :=
  ∀ p, inside d.layer.frame p → ¬InVisible d.layer p →
    HiddenBy above p ∨ ∀ below, d.paint p below = below

/-- All of a stack is described, region and all. -/
def StackDescribed {C : Type} : List (Drawn C) → Prop
  | [] => True
  | d :: above => Described d ∧ RegionRight (above.map Drawn.layer) d ∧ StackDescribed above

/-- A layer painted in one colour, all over its frame. -/
def solid {C : Type} (l : Layer) (colour : C) : Drawn C where
  layer := l
  paint p below := if inside l.frame p then colour else below

/-- What is opaque of a layer lies in its frame. -/
theorem inside_of_opaqueParts {l : Layer} {p : Point} (h : Covered (opaqueParts l) p) :
    inside l.frame p := by
  obtain ⟨r, hr, hIn⟩ := h
  unfold opaqueParts at hr
  split at hr
  · cases hr
  split at hr
  · rw [List.mem_singleton.mp hr] at hIn
    exact hIn
  · rename_i hRadius
    have hCeil : 0 < ⌈l.radius⌉ := Int.ceil_pos.mpr (not_le.mp hRadius)
    refine (inside_intersect.mp (?_ : inside (intersect l.frame l.cornerCrop) p)).1
    -- either arm of the cross
    simp only [List.mem_append, List.mem_ite_nil_left, List.mem_singleton] at hr
    unfold inside at hIn ⊢
    obtain ⟨-, rfl⟩ | ⟨-, rfl⟩ := hr <;> simp only at hIn <;> omega

/-- Solid layers, whose visible region is not told, are described. -/
theorem stackDescribed_solid {C : Type} (layers : List (Layer × C))
    (hWhole : ∀ l ∈ layers, l.1.visible = []) :
    StackDescribed (layers.map fun l => solid l.1 l.2) := by
  induction layers with
  | nil => trivial
  | cons l above ih =>
    refine ⟨⟨fun _ p hOut below => if_neg hOut, fun p hCovered below below' => ?_⟩,
      fun p _ hNot => absurd (.inl (hWhole l (by simp))) hNot,
      ih fun m hm => hWhole m (List.mem_cons_of_mem l hm)⟩
    have hIn : inside l.1.frame p := inside_of_opaqueParts hCovered
    show (if inside l.1.frame p then l.2 else below) = if inside l.1.frame p then l.2 else below'
    rw [if_pos hIn, if_pos hIn]

/-- The picture of a stack drawn whole. -/
def whole {C : Type} (stack : List (Drawn C)) (ground : C) (p : Point) : C :=
  Raster.compose (stack.map Drawn.paint) ground p

/-- The picture of a stack drawn within what `Resolve` finds. -/
def occluded {C : Type} (stack : List (Drawn C)) (ground : C) (p : Point) : C :=
  Raster.compose (List.zipWith Drawn.within stack (resolve (stack.map Drawn.layer))) ground p

/-- Under something opaque the ground does not show. -/
theorem whole_of_hiddenBy {C : Type} {stack : List (Drawn C)} {p : Point}
    (hStack : StackDescribed stack) (hHidden : HiddenBy (stack.map Drawn.layer) p) :
    ∀ ground ground' : C, whole stack ground p = whole stack ground' p := by
  induction stack with
  | nil =>
    obtain ⟨m, hm, -⟩ := hHidden
    cases hm
  | cons d above ih =>
    intro ground ground'
    obtain ⟨hFirst, -, hAbove⟩ := hStack
    obtain ⟨m, hm, hCovers⟩ := hHidden
    rw [List.map_cons] at hm
    unfold whole at ih ⊢
    rw [List.map_cons, Raster.compose_cons, Raster.compose_cons]
    rcases List.mem_cons.mp hm with rfl | hm
    · rw [hFirst.opaque_ p hCovers ground ground']
    · exact ih hAbove ⟨m, hm, hCovers⟩ _ _

/-- A layer that nothing covers paints a point within its bounds as it does
whole. -/
theorem within_eq_paint {C : Type} {above : List Layer} {d : Drawn C} {s : Shown}
    (hDescribed : Described d) (hRegion : RegionRight above d) (hResolved : Resolved above d.layer s)
    {p : Point} (hOpen : ¬HiddenBy above p) (below : C) :
    d.within s p below = d.paint p below := by
  unfold Drawn.within
  by_cases hKeep : d.layer.keep = true
  · rw [hResolved.kept hKeep]
    simp [hKeep]
  by_cases hFrame : inside d.layer.frame p
  · by_cases hVisible : InVisible d.layer p
    · have hSeen : Seen above d.layer p := ⟨hFrame, hVisible, hOpen⟩
      have hShown : ¬s.hidden = true := fun h => (hResolved.hidden_iff.mp h).2.2 ⟨p, hSeen⟩
      rw [if_neg hShown, if_pos (.inr (hResolved.inBounds p hSeen))]
    · -- what the region leaves out is not painted
      have hBare := (hRegion p hFrame hVisible).resolve_left hOpen below
      rw [hBare]
      simp
  · rw [hDescribed.inFrame (Bool.eq_false_iff.mpr hKeep) p hFrame below]
    simp

/-- **Within its bounds the stack makes the same picture.** The induction is
from the bottom: a layer drawn otherwise than whole is covered by something
above it. -/
theorem resolve_picture {C : Type} {stack : List (Drawn C)} (hStack : StackDescribed stack) :
    ∀ (ground : C) (p : Point), occluded stack ground p = whole stack ground p := by
  induction stack with
  | nil => exact fun _ _ => rfl
  | cons d above ih =>
    intro ground p
    obtain ⟨hFirst, hRegion, hAbove⟩ := hStack
    have hResolved := shownUnder_resolved (above.map Drawn.layer) d.layer
    set s := shownUnder (walkDown (above.map Drawn.layer)).2 d.layer with hs
    have hRest : occluded (d :: above) ground p = occluded above (d.within s p ground) p := rfl
    have hWhole : whole (d :: above) ground p = whole above (d.paint p ground) p := rfl
    rw [hRest, hWhole, ih hAbove]
    by_cases hHidden : HiddenBy (above.map Drawn.layer) p
    · exact whole_of_hiddenBy hAbove hHidden _ _
    · rw [within_eq_paint hFirst hRegion hResolved hHidden]

/-- **The occlusion.** `Resolve` finds of each layer of a stack what can be
seen of it, no more than the smallest box of that, and nothing counts as opaque
that rounded corners let through; so the stack drawn within what it finds makes
the picture of the stack drawn whole. -/
theorem resolve_sound (bottomFirst : List Layer) :
    (∀ (i : Nat) (l : Layer), bottomFirst[i]? = some l →
      ∃ s, (resolve bottomFirst)[i]? = some s ∧ Resolved (bottomFirst.drop (i + 1)) l s) ∧
    (∀ l ∈ bottomFirst, 0 < l.radius → ∀ p, Covered (opaqueParts l) p →
      cornerMask l.cornerCrop l.radius (p.1 + 1 / 2) (p.2 + 1 / 2) = 1) ∧
    ∀ (C : Type) (stack : List (Drawn C)), stack.map Drawn.layer = bottomFirst →
      StackDescribed stack → ∀ ground p, occluded stack ground p = whole stack ground p := by
  refine ⟨fun i l hLayer => ⟨_, getElem?_resolve hLayer, shownUnder_resolved _ l⟩,
    fun l _ hRadius p hp => cornerMask_opaqueParts hRadius hp, ?_⟩
  rintro C stack - hStack ground p
  exact resolve_picture hStack ground p

/-- A pane half under another of rounded corners. -/
def panes : List (Layer × Nat) :=
  [({ frame := ⟨0, 0, 64, 64⟩, opaque_ := true }, 1),
    ({ frame := ⟨0, 32, 64, 96⟩, opaque_ := true, cornerCrop := ⟨0, 32, 64, 96⟩, radius := 8 }, 2)]

/-- At the upper pane's corner the lower one shows through, as it would whole. -/
theorem resolve_sound_panes :
    occluded (panes.map fun l => solid l.1 l.2) 0 (1, 33) =
      whole (panes.map fun l => solid l.1 l.2) 0 (1, 33) :=
  (resolve_sound (panes.map Prod.fst)).2.2 Nat (panes.map fun l => solid l.1 l.2) rfl
    (stackDescribed_solid panes (by decide)) 0 (1, 33)

/-- **What the occlusion does not promise.** A layer with no place has no point
to see and is not hidden; and one whose visible region leaves out a point that
nothing covers is not drawn there, though it would be whole. -/
theorem resolve_unpromised :
    (¬∀ (bottomFirst : List Layer) (i : Nat) (l : Layer) (s : Shown), bottomFirst[i]? = some l →
      l.keep = false → (resolve bottomFirst)[i]? = some s →
      (s.hidden = true ↔ ¬∃ p, Seen (bottomFirst.drop (i + 1)) l p)) ∧
    ¬∀ stack : List (Drawn Bool), (∀ d ∈ stack, Described d) →
      ∀ ground p, occluded stack ground p = whole stack ground p := by
  constructor
  · intro h
    have hNone : ¬∃ p, Seen [] ({} : Layer) p := fun ⟨p, hSeen⟩ =>
      absurd hSeen.inFrame (empty_iff.mp rfl p)
    exact absurd ((h [{}] 0 {} _ rfl rfl rfl).mpr hNone) (by decide)
  · intro h
    -- one pixel, in a region that misses it
    let d : Drawn Bool :=
      { layer := { frame := ⟨0, 0, 1, 1⟩, visible := [⟨1, 0, 2, 1⟩] }
        paint := fun p below => if inside ⟨0, 0, 1, 1⟩ p then true else below }
    have hDescribed : Described d :=
      ⟨fun _ p hOut below => if_neg hOut, fun p ⟨r, hr, _⟩ => (nomatch hr)⟩
    have hSame := h [d] (by simpa using hDescribed) false (0, 0)
    exact absurd hSame (by decide)

end TegraHwc.Occlusion
