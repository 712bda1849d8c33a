import Mathlib.Algebra.Order.Field.Basic
import Mathlib.Algebra.Order.Field.Rat
import Mathlib.Algebra.Order.Ring.Rat
import Mathlib.Data.List.Destutter
import Mathlib.Data.List.Sort
import Mathlib.Data.Rat.Cast.Order
import Mathlib.Order.Lattice
import Mathlib.Tactic.FieldSimp
import Mathlib.Tactic.Linarith
import Mathlib.Tactic.Positivity
import Mathlib.Tactic.Ring

/-!
# TegraHwc — where a layer lands in the target

`vk/Geometry.cpp`: the quad a layer is drawn as, and whether boxes cover an
area. Floats are rationals. `Quad.across` and `Quad.down` are what the vertex
shader's three corners make of a point: how far along the quad's two edges it
lies.

## Results

* `placeLayer_inside_iff` — the centre of a pixel lies inside the quad of an
  upright layer exactly when the pixel lies in the layer's destination.
* `covers_sound`          — an area found covered has every pixel in a box.
* `covers_exact`          — and an area with every pixel in a box is found covered.
-/

namespace TegraHwc.Vk

/-- A point of clip space or of a texture. -/
abbrev Point := Rat × Rat

/-- `Quad`. -/
structure Quad where
  posTl : Point
  posTr : Point
  posBl : Point
  uvTl : Point
  uvTr : Point
  uvBl : Point
  deriving DecidableEq, Repr

/-- `Box`: a rectangle of the target's pixels, right and bottom exclusive. -/
structure Box where
  left : Int
  top : Int
  right : Int
  bottom : Int
  deriving DecidableEq, Repr

/-- Whether a pixel lies in a box. -/
def Box.has (b : Box) (x y : Int) : Bool :=
  decide (b.left ≤ x) && decide (x < b.right) && decide (b.top ≤ y) && decide (y < b.bottom)

theorem Box.has_iff {b : Box} {x y : Int} :
    b.has x y = true ↔ b.left ≤ x ∧ x < b.right ∧ b.top ≤ y ∧ y < b.bottom := by
  simp [Box.has, and_assoc]

-- ---------------------------------------------------------------------------
-- Quads
-- ---------------------------------------------------------------------------

/-- `Ndc`. -/
def ndc (x y : Rat) (targetWidth targetHeight : Nat) : Point :=
  (2 * x / targetWidth - 1, 2 * y / targetHeight - 1)

/-- The crop's corners clockwise from the top-left. -/
structure Corners where
  tl : Point
  tr : Point
  br : Point
  bl : Point

/-- Mirrored left to right. -/
def Corners.hflip (c : Corners) : Corners := ⟨c.tr, c.tl, c.bl, c.br⟩

/-- Mirrored top to bottom. -/
def Corners.vflip (c : Corners) : Corners := ⟨c.bl, c.br, c.tr, c.tl⟩

/-- A quarter turn clockwise: what was bottom-left is now top-left, and round. -/
def Corners.rotate90 (c : Corners) : Corners := ⟨c.bl, c.tl, c.tr, c.br⟩

/-- The turn of `transform`: hflip, vflip and a quarter turn, a bit each. -/
def Corners.turn (c : Corners) (transform : Nat) : Corners :=
  let c := if transform.testBit 0 then c.hflip else c
  let c := if transform.testBit 1 then c.vflip else c
  if transform.testBit 2 then c.rotate90 else c

/-- `PlaceLayer`. -/
def placeLayer (srcLeft srcTop srcRight srcBottom : Rat) (bufferWidth bufferHeight : Nat)
    (dst : Box) (transform targetWidth targetHeight : Nat) : Quad :=
  let u0 := srcLeft / bufferWidth
  let u1 := srcRight / bufferWidth
  let v0 := srcTop / bufferHeight
  let v1 := srcBottom / bufferHeight
  let c := Corners.turn ⟨(u0, v0), (u1, v0), (u1, v1), (u0, v1)⟩ transform
  { posTl := ndc dst.left dst.top targetWidth targetHeight
    posTr := ndc dst.right dst.top targetWidth targetHeight
    posBl := ndc dst.left dst.bottom targetWidth targetHeight
    uvTl := c.tl
    uvTr := c.tr
    uvBl := c.bl }

/-- Where the top-left, top-right and bottom-left corners of a turned crop land. -/
structure TurnedCorners where
  tl : Point := (0, 0)
  tr : Point := (0, 0)
  bl : Point := (0, 0)
  deriving DecidableEq, Repr

/-- `PlaceTurnedLayer`. -/
def placeTurnedLayer (srcLeft srcTop srcRight srcBottom : Rat) (bufferWidth bufferHeight : Nat)
    (corners : TurnedCorners) (targetWidth targetHeight : Nat) : Quad :=
  { posTl := ndc corners.tl.1 corners.tl.2 targetWidth targetHeight
    posTr := ndc corners.tr.1 corners.tr.2 targetWidth targetHeight
    posBl := ndc corners.bl.1 corners.bl.2 targetWidth targetHeight
    uvTl := (srcLeft / bufferWidth, srcTop / bufferHeight)
    uvTr := (srcRight / bufferWidth, srcTop / bufferHeight)
    uvBl := (srcLeft / bufferWidth, srcBottom / bufferHeight) }

namespace Quad

/-- Twice the signed area of the quad's half; nought for one without inside. -/
def det (q : Quad) : Rat :=
  (q.posTr.1 - q.posTl.1) * (q.posBl.2 - q.posTl.2) -
    (q.posTr.2 - q.posTl.2) * (q.posBl.1 - q.posTl.1)

/-- How far along the top edge a point of clip space lies. -/
def across (q : Quad) (p : Point) : Rat :=
  ((p.1 - q.posTl.1) * (q.posBl.2 - q.posTl.2) - (p.2 - q.posTl.2) * (q.posBl.1 - q.posTl.1)) /
    q.det

/-- How far down the left edge a point of clip space lies. -/
def down (q : Quad) (p : Point) : Rat :=
  ((q.posTr.1 - q.posTl.1) * (p.2 - q.posTl.2) - (q.posTr.2 - q.posTl.2) * (p.1 - q.posTl.1)) /
    q.det

/-- The texture coordinate at a point, as the vertex shader spreads it. -/
def uv (q : Quad) (p : Point) : Point :=
  (q.uvTl.1 + q.across p * (q.uvTr.1 - q.uvTl.1) + q.down p * (q.uvBl.1 - q.uvTl.1),
    q.uvTl.2 + q.across p * (q.uvTr.2 - q.uvTl.2) + q.down p * (q.uvBl.2 - q.uvTl.2))

/-- Whether a point lies inside the quad. -/
def inside (q : Quad) (p : Point) : Bool :=
  decide (q.det ≠ 0) && decide (0 < q.across p) && decide (q.across p < 1) &&
    decide (0 < q.down p) && decide (q.down p < 1)

/-- Whether a point lies on the quad's edge, where the rasteriser has its own
rule for which of two neighbours takes it. -/
def onEdge (q : Quad) (p : Point) : Bool :=
  decide (q.det ≠ 0) && decide (0 ≤ q.across p) && decide (q.across p ≤ 1) &&
    decide (0 ≤ q.down p) && decide (q.down p ≤ 1) && !q.inside p

end Quad

/-- The centre of a pixel, in clip space. -/
def centre (x y : Int) (targetWidth targetHeight : Nat) : Point :=
  ndc (x + 1 / 2) (y + 1 / 2) targetWidth targetHeight

/-- A pixel's centre is never level with an edge of whole pixels. -/
theorem half_lt_iff {l x : Int} : (0 : Rat) < x + 1 / 2 - l ↔ l ≤ x := by
  constructor
  · intro h
    by_contra hLess
    have : (x : Rat) + 1 ≤ l := by exact_mod_cast not_le.mp hLess
    linarith
  · intro h
    have : (l : Rat) ≤ x := by exact_mod_cast h
    linarith

theorem half_le_iff {l x : Int} : (0 : Rat) ≤ x + 1 / 2 - l ↔ l ≤ x := by
  constructor
  · intro h
    by_contra hLess
    have : (x : Rat) + 1 ≤ l := by exact_mod_cast not_le.mp hLess
    linarith
  · intro h
    exact (half_lt_iff.mpr h).le

theorem lt_half_iff {x r : Int} : (x : Rat) + 1 / 2 < r ↔ x < r := by
  constructor
  · intro h
    by_contra hLess
    have : (r : Rat) ≤ x := by exact_mod_cast not_lt.mp hLess
    linarith
  · intro h
    have : (x : Rat) + 1 ≤ r := by exact_mod_cast h
    linarith

theorem le_half_iff {x r : Int} : (x : Rat) + 1 / 2 ≤ r ↔ x < r := by
  constructor
  · intro h
    by_contra hLess
    have : (r : Rat) ≤ x := by exact_mod_cast not_lt.mp hLess
    linarith
  · intro h
    exact (lt_half_iff.mpr h).le

/-- The share of a span of whole pixels that lies before a pixel's centre. -/
theorem share_inside_iff {l r x : Int} (hSpan : l < r) :
    (0 < ((x : Rat) + 1 / 2 - l) / (r - l) ∧ ((x : Rat) + 1 / 2 - l) / (r - l) < 1) ↔
      l ≤ x ∧ x < r := by
  have hPos : (0 : Rat) < r - l := by
    have : (l : Rat) < r := by exact_mod_cast hSpan
    linarith
  rw [div_pos_iff_of_pos_right hPos, div_lt_one hPos, half_lt_iff, sub_lt_sub_iff_right, lt_half_iff]

theorem share_onEdge_iff {l r x : Int} (hSpan : l < r) :
    (0 ≤ ((x : Rat) + 1 / 2 - l) / (r - l) ∧ ((x : Rat) + 1 / 2 - l) / (r - l) ≤ 1) ↔
      l ≤ x ∧ x < r := by
  have hPos : (0 : Rat) < r - l := by
    have : (l : Rat) < r := by exact_mod_cast hSpan
    linarith
  rw [le_div_iff₀ hPos, zero_mul, div_le_one hPos, half_le_iff, sub_le_sub_iff_right,
    le_half_iff]

section Upright

variable {srcLeft srcTop srcRight srcBottom : Rat} {bufferWidth bufferHeight : Nat} {dst : Box}
  {transform targetWidth targetHeight : Nat}

theorem cast_sub_pos {a b : Int} (hLess : a < b) : (0 : Rat) < b - a :=
  sub_pos.mpr (Int.cast_lt.mpr hLess)

theorem placeLayer_det (hWidth : 0 < targetWidth) (hHeight : 0 < targetHeight) :
    (placeLayer srcLeft srcTop srcRight srcBottom bufferWidth bufferHeight dst transform
      targetWidth targetHeight).det =
      (2 * (dst.right - dst.left) / targetWidth) * (2 * (dst.bottom - dst.top) / targetHeight) := by
  have hW : (targetWidth : Rat) ≠ 0 := by exact_mod_cast hWidth.ne'
  have hH : (targetHeight : Rat) ≠ 0 := by exact_mod_cast hHeight.ne'
  simp only [Quad.det, placeLayer, ndc]
  field_simp
  ring

/-- A share of an upright quad's width is a share of its destination's. -/
theorem placeLayer_across (hWidth : 0 < targetWidth) (hHeight : 0 < targetHeight)
    (hAcross : dst.left < dst.right) (hDown : dst.top < dst.bottom) (x y : Int) :
    (placeLayer srcLeft srcTop srcRight srcBottom bufferWidth bufferHeight dst transform
      targetWidth targetHeight).across (centre x y targetWidth targetHeight) =
      (x + 1 / 2 - dst.left) / (dst.right - dst.left) := by
  have hW : (targetWidth : Rat) ≠ 0 := by exact_mod_cast hWidth.ne'
  have hH : (targetHeight : Rat) ≠ 0 := by exact_mod_cast hHeight.ne'
  have hX : (dst.right : Rat) - dst.left ≠ 0 := (cast_sub_pos hAcross).ne'
  have hY : (dst.bottom : Rat) - dst.top ≠ 0 := (cast_sub_pos hDown).ne'
  rw [Quad.across, placeLayer_det hWidth hHeight]
  simp only [placeLayer, ndc, centre]
  field_simp
  ring

theorem placeLayer_down (hWidth : 0 < targetWidth) (hHeight : 0 < targetHeight)
    (hAcross : dst.left < dst.right) (hDown : dst.top < dst.bottom) (x y : Int) :
    (placeLayer srcLeft srcTop srcRight srcBottom bufferWidth bufferHeight dst transform
      targetWidth targetHeight).down (centre x y targetWidth targetHeight) =
      (y + 1 / 2 - dst.top) / (dst.bottom - dst.top) := by
  have hW : (targetWidth : Rat) ≠ 0 := by exact_mod_cast hWidth.ne'
  have hH : (targetHeight : Rat) ≠ 0 := by exact_mod_cast hHeight.ne'
  have hX : (dst.right : Rat) - dst.left ≠ 0 := (cast_sub_pos hAcross).ne'
  have hY : (dst.bottom : Rat) - dst.top ≠ 0 := (cast_sub_pos hDown).ne'
  rw [Quad.down, placeLayer_det hWidth hHeight]
  simp only [placeLayer, ndc, centre]
  field_simp
  ring

theorem placeLayer_det_ne (hWidth : 0 < targetWidth) (hHeight : 0 < targetHeight)
    (hAcross : dst.left < dst.right) (hDown : dst.top < dst.bottom) :
    (placeLayer srcLeft srcTop srcRight srcBottom bufferWidth bufferHeight dst transform
      targetWidth targetHeight).det ≠ 0 := by
  have hW : (0 : Rat) < targetWidth := by exact_mod_cast hWidth
  have hH : (0 : Rat) < targetHeight := by exact_mod_cast hHeight
  have hX : (0 : Rat) < dst.right - dst.left := cast_sub_pos hAcross
  have hY : (0 : Rat) < dst.bottom - dst.top := cast_sub_pos hDown
  rw [placeLayer_det hWidth hHeight]
  exact (mul_pos (div_pos (mul_pos two_pos hX) hW) (div_pos (mul_pos two_pos hY) hH)).ne'

/-- An upright layer's quad takes the pixels of its destination. -/
theorem placeLayer_inside_iff (hWidth : 0 < targetWidth) (hHeight : 0 < targetHeight)
    (hAcross : dst.left < dst.right) (hDown : dst.top < dst.bottom) (x y : Int) :
    (placeLayer srcLeft srcTop srcRight srcBottom bufferWidth bufferHeight dst transform
      targetWidth targetHeight).inside (centre x y targetWidth targetHeight) = dst.has x y := by
  have hX := @share_inside_iff _ _ x hAcross
  have hY := @share_inside_iff _ _ y hDown
  rw [Bool.eq_iff_iff, Box.has_iff, Quad.inside]
  simp only [Bool.and_eq_true, decide_eq_true_eq, placeLayer_across hWidth hHeight hAcross hDown,
    placeLayer_down hWidth hHeight hAcross hDown]
  constructor
  · rintro ⟨⟨⟨⟨-, hLeft⟩, hRight⟩, hTop⟩, hBottom⟩
    exact ⟨(hX.mp ⟨hLeft, hRight⟩).1, (hX.mp ⟨hLeft, hRight⟩).2, hY.mp ⟨hTop, hBottom⟩⟩
  · rintro ⟨hLeft, hRight, hTop, hBottom⟩
    obtain ⟨hLeft, hRight⟩ := hX.mpr ⟨hLeft, hRight⟩
    obtain ⟨hTop, hBottom⟩ := hY.mpr ⟨hTop, hBottom⟩
    exact ⟨⟨⟨⟨placeLayer_det_ne hWidth hHeight hAcross hDown, hLeft⟩, hRight⟩, hTop⟩, hBottom⟩

/-- No pixel's centre lies on the edge of an upright layer's quad. -/
theorem placeLayer_onEdge (hWidth : 0 < targetWidth) (hHeight : 0 < targetHeight)
    (hAcross : dst.left < dst.right) (hDown : dst.top < dst.bottom) (x y : Int) :
    (placeLayer srcLeft srcTop srcRight srcBottom bufferWidth bufferHeight dst transform
      targetWidth targetHeight).onEdge (centre x y targetWidth targetHeight) = false := by
  have hX := @share_onEdge_iff _ _ x hAcross
  have hY := @share_onEdge_iff _ _ y hDown
  rw [Bool.eq_false_iff, Quad.onEdge, placeLayer_inside_iff hWidth hHeight hAcross hDown]
  simp only [ne_eq, Bool.and_eq_true, decide_eq_true_eq, Bool.not_eq_true',
    placeLayer_across hWidth hHeight hAcross hDown, placeLayer_down hWidth hHeight hAcross hDown]
  rintro ⟨⟨⟨⟨⟨-, hLeft⟩, hRight⟩, hTop⟩, hBottom⟩, hOutside⟩
  have hHas : dst.has x y = true :=
    Box.has_iff.mpr ⟨(hX.mp ⟨hLeft, hRight⟩).1, (hX.mp ⟨hLeft, hRight⟩).2, hY.mp ⟨hTop, hBottom⟩⟩
  rw [hHas] at hOutside
  cases hOutside

end Upright

-- ---------------------------------------------------------------------------
-- Covering an area
-- ---------------------------------------------------------------------------

/-- `std::clamp`. -/
def clamp (v low high : Int) : Int := if v < low then low else if high < v then high else v

/-- The vertical edges an area is cut at, in order and each once. -/
def edges (area : Box) (boxes : List Box) : List Int :=
  let xs := area.left :: area.right ::
    boxes.flatMap fun b => [clamp b.left area.left area.right, clamp b.right area.left area.right]
  (xs.insertionSort (· ≤ ·)).destutter (· ≠ ·)

/-- The order of the pairs sorted: by the first, then by the second. -/
def spanLe (a b : Int × Int) : Bool :=
  decide (a.1 < b.1) || (decide (a.1 = b.1) && decide (a.2 ≤ b.2))

/-- The heights of the boxes that span a slab. -/
def spans (boxes : List Box) (slab : Int × Int) : List (Int × Int) :=
  let wide := boxes.filter fun b =>
    decide (b.left ≤ slab.1) && decide (slab.2 ≤ b.right) && decide (b.top < b.bottom)
  (wide.map fun b => (b.top, b.bottom)).insertionSort fun a b => spanLe a b = true

/-- How far down the spans reach from `reach` without a gap. -/
def sweep (reach : Int) : List (Int × Int) → Int
  | [] => reach
  | sp :: rest => if reach < sp.1 then reach else sweep (max reach sp.2) rest

/-- `Covers`. -/
def covers (area : Box) (boxes : List Box) : Bool :=
  if area.right ≤ area.left ∨ area.bottom ≤ area.top then true
  else
    let xs := edges area boxes
    (xs.zip xs.tail).all fun slab => decide (area.bottom ≤ sweep area.top (spans boxes slab))

/-- Where the sweep went down without a gap, a span goes down too. -/
theorem mem_of_lt_sweep {y : Int} {sps : List (Int × Int)} {reach : Int} (hTop : reach ≤ y)
    (hBottom : y < sweep reach sps) : ∃ sp ∈ sps, sp.1 ≤ y ∧ y < sp.2 := by
  induction sps generalizing reach with
  | nil =>
    simp only [sweep] at hBottom
    omega
  | cons sp rest ih =>
    simp only [sweep] at hBottom
    split at hBottom
    · omega
    · by_cases hIn : y < sp.2
      · exact ⟨sp, by simp, by omega, hIn⟩
      · obtain ⟨sp', hMem, hSpan⟩ := ih (by omega) hBottom
        exact ⟨sp', by simp [hMem], hSpan⟩

/-- A list that starts at or before `x` and goes past it passes it somewhere. -/
theorem exists_slab {x a : Int} {rest : List Int} (hFirst : a ≤ x) (hPast : ∃ b ∈ rest, x < b) :
    ∃ slab ∈ (a :: rest).zip rest, slab.1 ≤ x ∧ x < slab.2 := by
  induction rest generalizing a with
  | nil => simp at hPast
  | cons b rest ih =>
    rw [List.zip_cons_cons]
    by_cases hNext : x < b
    · exact ⟨(a, b), by simp, hFirst, hNext⟩
    · obtain ⟨c, hMem, hc⟩ := hPast
      have hLater : c ∈ rest := by
        rcases List.mem_cons.mp hMem with rfl | h
        · exact absurd hc hNext
        · exact h
      obtain ⟨slab, hSlab, hSpan⟩ := ih (not_lt.mp hNext) ⟨c, hLater, hc⟩
      exact ⟨slab, by simp [hSlab], hSpan⟩

theorem mem_destutter_ne {a : Int} {l : List Int} (h : a ∈ l) : a ∈ l.destutter (· ≠ ·) := by
  cases l with
  | nil => simp at h
  | cons b l =>
    rw [List.destutter_cons']
    induction l generalizing b with
    | nil => simpa using h
    | cons c l ih =>
      rw [List.destutter'_cons]
      split
      · rcases List.mem_cons.mp h with rfl | h
        · simp
        · exact List.mem_cons_of_mem _ (ih c h)
      · rename_i hSame
        obtain rfl : b = c := not_not.mp hSame
        exact ih b (by simpa using h)

theorem mem_edges_left (area : Box) (boxes : List Box) : area.left ∈ edges area boxes :=
  mem_destutter_ne (by simp)

theorem mem_edges_right (area : Box) (boxes : List Box) : area.right ∈ edges area boxes :=
  mem_destutter_ne (by simp)

theorem edges_pairwise (area : Box) (boxes : List Box) :
    (edges area boxes).Pairwise (· ≤ ·) :=
  (List.pairwise_insertionSort _ _).sublist (List.destutter_sublist _ _)

/-- Every column of the area lies in a slab between two edges. -/
theorem exists_edges_slab {area : Box} (boxes : List Box) {x : Int} (hLeft : area.left ≤ x)
    (hRight : x < area.right) :
    ∃ slab ∈ (edges area boxes).zip (edges area boxes).tail, slab.1 ≤ x ∧ x < slab.2 := by
  have hFrom := mem_edges_left area boxes
  have hTo := mem_edges_right area boxes
  have hSorted := edges_pairwise area boxes
  generalize edges area boxes = xs at hFrom hTo hSorted
  cases xs with
  | nil => simp at hFrom
  | cons a rest =>
    have hFirst : a ≤ x := by
      rcases List.mem_cons.mp hFrom with rfl | h
      · exact hLeft
      · exact le_trans ((List.pairwise_cons.mp hSorted).1 _ h) hLeft
    refine exists_slab hFirst ⟨area.right, ?_, hRight⟩
    rcases List.mem_cons.mp hTo with hEq | h
    · omega
    · exact h

/-- An area found covered has every pixel of it in one of the boxes. -/
theorem covers_sound {area : Box} {boxes : List Box} (h : covers area boxes = true) {x y : Int}
    (hIn : area.has x y = true) : ∃ b ∈ boxes, b.has x y = true := by
  obtain ⟨hLeft, hRight, hTop, hBottom⟩ := Box.has_iff.mp hIn
  rw [covers, if_neg (by omega)] at h
  obtain ⟨slab, hSlab, hFrom, hTo⟩ := exists_edges_slab boxes hLeft hRight
  have hReach : area.bottom ≤ sweep area.top (spans boxes slab) := by
    simpa using List.all_eq_true.mp h slab hSlab
  obtain ⟨sp, hSp, hSpTop, hSpBottom⟩ := mem_of_lt_sweep hTop (lt_of_lt_of_le hBottom hReach)
  -- the span is the height of a box as wide as the slab
  rw [spans, List.mem_insertionSort, List.mem_map] at hSp
  obtain ⟨b, hb, rfl⟩ := hSp
  obtain ⟨hMem, hWide⟩ := List.mem_filter.mp hb
  simp only [Bool.and_eq_true, decide_eq_true_eq] at hWide
  exact ⟨b, hMem, Box.has_iff.mpr ⟨by omega, by omega, hSpTop, hSpBottom⟩⟩

-- ---------------------------------------------------------------------------
-- Nothing covered is missed
-- ---------------------------------------------------------------------------

theorem le_sweep (reach : Int) (sps : List (Int × Int)) : reach ≤ sweep reach sps := by
  induction sps generalizing reach with
  | nil => simp [sweep]
  | cons sp rest ih =>
    simp only [sweep]
    split
    · omega
    · exact le_trans (le_max_left _ _) (ih _)

/-- Where the sweep stops no span goes on: the sorted ones left start below. -/
theorem not_span_sweep {reach : Int} {sps : List (Int × Int)}
    (hSorted : sps.Pairwise fun a b => a.1 ≤ b.1) {sp : Int × Int} (hMem : sp ∈ sps) :
    ¬(sp.1 ≤ sweep reach sps ∧ sweep reach sps < sp.2) := by
  induction sps generalizing reach with
  | nil => cases hMem
  | cons first rest ih =>
    obtain ⟨hBelow, hRest⟩ := List.pairwise_cons.mp hSorted
    simp only [sweep]
    split
    · rename_i hGap
      have hAfter : first.1 ≤ sp.1 := by
        rcases List.mem_cons.mp hMem with rfl | hLater
        · exact le_refl _
        · exact hBelow sp hLater
      omega
    · rcases List.mem_cons.mp hMem with rfl | hLater
      · have := le_sweep (max reach sp.2) rest
        omega
      · exact ih hRest hLater

theorem spans_pairwise (boxes : List Box) (slab : Int × Int) :
    (spans boxes slab).Pairwise fun a b => a.1 ≤ b.1 := by
  have hTotal : ∀ a b, spanLe a b = true ∨ spanLe b a = true := by
    intro a b
    simp only [spanLe, Bool.or_eq_true, Bool.and_eq_true, decide_eq_true_eq]
    omega
  have hTrans : ∀ a b c, spanLe a b = true → spanLe b c = true → spanLe a c = true := by
    intro a b c
    simp only [spanLe, Bool.or_eq_true, Bool.and_eq_true, decide_eq_true_eq]
    omega
  have : Std.Total (α := Int × Int) fun a b => spanLe a b = true := ⟨hTotal⟩
  have : IsTrans (Int × Int) fun a b => spanLe a b = true := ⟨hTrans⟩
  refine (List.pairwise_insertionSort (fun a b => spanLe a b = true) _).imp ?_
  intro a b hLe
  simp only [spanLe, Bool.or_eq_true, Bool.and_eq_true, decide_eq_true_eq] at hLe
  omega

/-- The edges rise: sorted, and each kept once. -/
theorem edges_rise (area : Box) (boxes : List Box) : (edges area boxes).Pairwise (· < ·) := by
  have hLe := edges_pairwise area boxes
  have hNe : (edges area boxes).IsChain (· ≠ ·) := List.isChain_destutter _ _
  generalize edges area boxes = xs at hLe hNe
  rw [← List.isChain_iff_pairwise]
  induction xs with
  | nil => exact .nil
  | cons a rest ih =>
    cases rest with
    | nil => exact .singleton a
    | cons b rest =>
      obtain ⟨hFirst, hRest⟩ := List.pairwise_cons.mp hLe
      obtain ⟨hDiffer, hNeRest⟩ := List.isChain_cons_cons.mp hNe
      have hBelow : a ≤ b := hFirst b (by simp)
      exact List.isChain_cons_cons.mpr ⟨lt_of_le_of_ne hBelow hDiffer, ih hRest hNeRest⟩

/-- A slab lies between two edges next to each other: no edge is inside it. -/
theorem slab_of_rise {xs : List Int} (hRise : xs.Pairwise (· < ·)) {slab : Int × Int}
    (hSlab : slab ∈ xs.zip xs.tail) :
    slab.1 ∈ xs ∧ slab.2 ∈ xs ∧ slab.1 < slab.2 ∧ ∀ c ∈ xs, c ≤ slab.1 ∨ slab.2 ≤ c := by
  induction xs with
  | nil => cases hSlab
  | cons a rest ih =>
    cases rest with
    | nil => cases hSlab
    | cons b rest =>
      obtain ⟨hFirst, hRest⟩ := List.pairwise_cons.mp hRise
      rw [List.tail_cons, List.zip_cons_cons] at hSlab
      rcases List.mem_cons.mp hSlab with rfl | hLater
      · refine ⟨by simp, by simp, hFirst b (by simp), ?_⟩
        intro c hc
        rcases List.mem_cons.mp hc with rfl | hc
        · exact .inl (le_refl _)
        · rcases List.mem_cons.mp hc with rfl | hc
          · exact .inr (le_refl _)
          · exact .inr ((List.pairwise_cons.mp hRest).1 c hc).le
      · obtain ⟨hFrom, hTo, hLt, hNone⟩ := ih hRest hLater
        refine ⟨List.mem_cons_of_mem a hFrom, List.mem_cons_of_mem a hTo, hLt, ?_⟩
        intro c hc
        rcases List.mem_cons.mp hc with rfl | hc
        · exact .inl (hFirst slab.1 hFrom).le
        · exact hNone c hc

theorem clamp_mem_edges {area : Box} {boxes : List Box} {b : Box} (hb : b ∈ boxes) :
    clamp b.right area.left area.right ∈ edges area boxes := by
  refine mem_destutter_ne ?_
  rw [List.mem_insertionSort, List.mem_cons, List.mem_cons, List.mem_flatMap]
  exact .inr (.inr ⟨b, hb, by simp⟩)

/-- Every edge is one of the area's columns or its right side. -/
theorem mem_edges_bounds {area : Box} {boxes : List Box} (hArea : area.left < area.right) {c : Int}
    (hc : c ∈ edges area boxes) : area.left ≤ c ∧ c ≤ area.right := by
  have hMem := (List.destutter_sublist _ _).subset hc
  rw [List.mem_insertionSort, List.mem_cons, List.mem_cons, List.mem_flatMap] at hMem
  rcases hMem with rfl | rfl | ⟨b, -, hb⟩
  · omega
  · omega
  · simp only [List.mem_cons, List.not_mem_nil, or_false, clamp] at hb
    omega

/-- A box with a pixel in a slab's first column spans the slab: its right side is
an edge, and there is none inside the slab. -/
theorem span_of_has {area : Box} {boxes : List Box} {slab : Int × Int}
    (hArea : area.left < area.right)
    (hSlab : slab ∈ (edges area boxes).zip (edges area boxes).tail) {b : Box} (hb : b ∈ boxes)
    {y : Int} (hHas : b.has slab.1 y = true) : (b.top, b.bottom) ∈ spans boxes slab := by
  obtain ⟨hLeft, hRight, hTop, hBottom⟩ := Box.has_iff.mp hHas
  obtain ⟨hFrom, hTo, hLt, hNone⟩ := slab_of_rise (edges_rise area boxes) hSlab
  have hFirst := mem_edges_bounds hArea hFrom
  have hLast := mem_edges_bounds hArea hTo
  have hWide : slab.2 ≤ b.right := by
    have hEdge := hNone _ (clamp_mem_edges hb)
    simp only [clamp] at hEdge
    omega
  rw [spans, List.mem_insertionSort, List.mem_map]
  refine ⟨b, List.mem_filter.mpr ⟨hb, ?_⟩, rfl⟩
  simp only [Bool.and_eq_true, decide_eq_true_eq]
  omega

/-- An area is found covered exactly when every pixel of it lies in a box. -/
theorem covers_exact (area : Box) (boxes : List Box) :
    covers area boxes = true ↔
      ∀ x y, area.has x y = true → ∃ b ∈ boxes, b.has x y = true := by
  constructor
  · intro h x y hIn
    exact covers_sound h hIn
  · intro hAll
    rw [covers]
    split
    · rfl
    · rename_i hArea
      rw [List.all_eq_true]
      intro slab hSlab
      rw [decide_eq_true_eq]
      by_contra hShort
      -- the pixel of the slab's first column at which the sweep stopped
      obtain ⟨hFrom, hTo, hLt, -⟩ := slab_of_rise (edges_rise area boxes) hSlab
      have hFirst := mem_edges_bounds (by omega) hFrom
      have hLast := mem_edges_bounds (by omega) hTo
      have hReach := le_sweep area.top (spans boxes slab)
      obtain ⟨b, hb, hHas⟩ := hAll slab.1 (sweep area.top (spans boxes slab))
        (Box.has_iff.mpr ⟨hFirst.1, by omega, hReach, by omega⟩)
      obtain ⟨-, -, hTop, hBottom⟩ := Box.has_iff.mp hHas
      exact not_span_sweep (spans_pairwise boxes slab) (span_of_has (by omega) hSlab hb hHas)
        ⟨hTop, hBottom⟩

end TegraHwc.Vk
