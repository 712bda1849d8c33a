import TegraHwc.Compositor.RedrawReach
import TegraHwc.Lib.Bilinear

/-!
# TegraHwc — how far damage reaches in a scaled member

`Onto` of `compositor/PartialRedraw.cpp` grows the box damage lands in by a
pixel on every side for a member that is scaled, since the filter the engine
samples with reads a pixel's neighbours. What it reads reaches half a texel to
each side, and a texel of a member drawn larger is more than a pixel of the
picture: the pixel grown is enough up to a scale of about three. All of it is
said of `Onto` with nothing rounded.

## Results

* `onto_reaches_iff`      — when every pixel that takes from a damaged texel lies
  in the box the damage lands in.
* `onto_reaches_of_scale` — it does for a member scaled at most threefold.
-/

namespace TegraHwc.PartialRedraw

open Bilinear
open Floats (unrounded)

-- ---------------------------------------------------------------------------
-- What a pixel takes
-- ---------------------------------------------------------------------------

/-- What a pixel of the picture takes from a texel of a member's buffer of
`w` by `h`. -/
def weightAt (w h : Nat) (m : Member) (p q : Point) : Rat :=
  share w (sampleAt m p).1 q.1 * share h (sampleAt m p).2 q.2

/-- A pixel takes something from a rectangle of the buffer. -/
def TakesFrom (w h : Nat) (r : IRect) (m : Member) (p : Point) : Prop :=
  ∃ q, inside r q ∧ inside ⟨0, 0, w, h⟩ q ∧ weightAt w h m p q ≠ 0

-- ---------------------------------------------------------------------------
-- One axis
-- ---------------------------------------------------------------------------

/-- Where an edge of the damage lies in the picture, before it is rounded. -/
def edgeAt (dstLow : Int) (srcLow scale : Rat) (v : Int) : Rat := dstLow + (v - srcLow) * scale

@[simp] theorem round_unrounded (x : Rat) : unrounded.round x = x := rfl

/-- With nothing rounded, an edge lands where it lies, to the slack. -/
theorem along_unrounded (dstLow : Int) (srcLow scale : Rat) (v : Int) (isUp : Bool) :
    unrounded.along dstLow srcLow scale v isUp =
      if isUp then ⌈edgeAt dstLow srcLow scale v - edgeSlack⌉
      else ⌊edgeAt dstLow srcLow scale v + edgeSlack⌋ := by
  unfold Floats.along edgeAt
  simp only [round_unrounded]
  cases isUp with
  | true => exact Int.floor_intCast (R := Rat) _
  | false => exact Int.floor_intCast (R := Rat) _

/-- The grown box reaches to before the damage: where an edge between pixels is
in the part it is rounded down to, the box grows past all the filter reads there,
and the damage does not begin at the edge of the buffer, which the filter reads
for all that is beyond. -/
def ClearBefore (dstLow : Int) (srcLow scale : Rat) (pad v : Int) : Prop :=
  ∀ k : Int, dstLow + pad < k → k ≤ edgeAt dstLow srcLow scale v + edgeSlack →
    0 < v ∧ k + scale / 2 ≤ edgeAt dstLow srcLow scale v + pad + 1 / 2

/-- And to after it. -/
def ClearAfter (dstLow dstHigh : Int) (srcLow scale : Rat) (pad v : Int) (n : Nat) : Prop :=
  ∀ k : Int, k < dstHigh - pad → edgeAt dstLow srcLow scale v - edgeSlack ≤ k →
    v < n ∧ edgeAt dstLow srcLow scale v + scale / 2 ≤ k + pad + 1 / 2

section Axis

variable {low high : Int} {srcLow srcSize size : Rat} {pad first past : Int} {n : Nat}

/-- Where one axis of a member is sampled for a pixel's centre. -/
def sampleAlong (low : Int) (srcLow srcSize size : Rat) (x : Int) : Rat :=
  srcLow + ((x : Rat) + 1 / 2 - low) * (srcSize / size)

/-- A pixel takes, on one axis, from texels between two edges of the damage. -/
def Takes (low : Int) (srcLow srcSize size : Rat) (first past : Int) (n : Nat) (x : Int) : Prop :=
  (0 < first → (first : Rat) - 1 / 2 < sampleAlong low srcLow srcSize size x) ∧
    (past < n → sampleAlong low srcLow srcSize size x < (past : Rat) + 1 / 2)

variable (hSrc : 0 < srcSize) (hDst : 0 < size)

include hSrc hDst in
/-- Where a pixel is sampled, in pixels of the destination. -/
theorem sampleAlong_scaled (x : Int) :
    sampleAlong low srcLow srcSize size x * (size / srcSize) =
      srcLow * (size / srcSize) + (x + 1 / 2 - low) := by
  unfold sampleAlong
  field_simp

include hSrc hDst in
theorem before_sample_iff (v x : Int) :
    (v : Rat) - 1 / 2 < sampleAlong low srcLow srcSize size x ↔
      edgeAt low srcLow (size / srcSize) v - size / srcSize / 2 < x + 1 / 2 := by
  have hScale : 0 < size / srcSize := div_pos hDst hSrc
  rw [← mul_lt_mul_iff_left₀ hScale, sampleAlong_scaled hSrc hDst]
  unfold edgeAt
  constructor <;> intro h <;> linarith

include hSrc hDst in
theorem sample_before_iff (v x : Int) :
    sampleAlong low srcLow srcSize size x < (v : Rat) + 1 / 2 ↔
      x + 1 / 2 < edgeAt low srcLow (size / srcSize) v + size / srcSize / 2 := by
  have hScale : 0 < size / srcSize := div_pos hDst hSrc
  rw [← mul_lt_mul_iff_left₀ hScale, sampleAlong_scaled hSrc hDst]
  unfold edgeAt
  constructor <;> intro h <;> linarith

include hSrc hDst in
/-- Where the box reaches to before the damage, a pixel that takes from it is
not before the box. -/
theorem low_le_of_clear (hClear : ClearBefore low srcLow (size / srcSize) pad first) {x : Int}
    (hLow : low ≤ x) (hTakes : Takes low srcLow srcSize size first past n x) :
    unrounded.along low srcLow (size / srcSize) first false - pad ≤ x := by
  by_contra hNot
  have hEdge : x + pad + 1 ≤ unrounded.along low srcLow (size / srcSize) first false := by omega
  have hFloor : ((x + pad + 1 : Int) : Rat) ≤
      edgeAt low srcLow (size / srcSize) first + edgeSlack := by
    simp only [along_unrounded, Bool.false_eq_true, if_false] at hEdge
    exact Int.le_floor.mp hEdge
  obtain ⟨hPos, hReach⟩ := hClear (x + pad + 1) (by omega) hFloor
  have hSample := (before_sample_iff hSrc hDst first x).mp (hTakes.1 hPos)
  push_cast at hReach
  linarith

include hSrc hDst in
theorem lt_high_of_clear (hClear : ClearAfter low high srcLow (size / srcSize) pad past n) {x : Int}
    (hHigh : x < high) (hTakes : Takes low srcLow srcSize size first past n x) :
    x < unrounded.along low srcLow (size / srcSize) past true + pad := by
  by_contra hNot
  have hEdge : unrounded.along low srcLow (size / srcSize) past true ≤ x - pad := by omega
  have hCeil : edgeAt low srcLow (size / srcSize) past - edgeSlack ≤ ((x - pad : Int) : Rat) := by
    simp only [along_unrounded, if_true] at hEdge
    exact Int.ceil_le.mp hEdge
  obtain ⟨hLt, hReach⟩ := hClear (x - pad) (by omega) hCeil
  have hSample := (sample_before_iff hSrc hDst past x).mp (hTakes.2 hLt)
  push_cast at hReach
  linarith

include hSrc hDst in
/-- And where no pixel that takes from the damage is before the box, it does:
otherwise the pixel before the edge, or one before it, takes from the damage. -/
theorem clear_of_low_le {x : Int} (hHigh : x < high) (hLow : low ≤ x)
    (hTakes : Takes low srcLow srcSize size first past n x)
    (hAll : ∀ x', low ≤ x' → x' < high → Takes low srcLow srcSize size first past n x' →
      unrounded.along low srcLow (size / srcSize) first false - pad ≤ x') :
    ClearBefore low srcLow (size / srcSize) pad first := by
  intro k hk hEdge
  by_contra hNot
  have hBox : k ≤ unrounded.along low srcLow (size / srcSize) first false := by
    simp only [along_unrounded, Bool.false_eq_true, if_false]
    exact Int.le_floor.mpr hEdge
  have hTakes' : Takes low srcLow srcSize size first past n (min x (k - pad - 1)) := by
    constructor
    · intro hPos
      rcases min_choice x (k - pad - 1) with hEq | hEq
      · rw [hEq]
        exact hTakes.1 hPos
      · rw [hEq, before_sample_iff hSrc hDst]
        have hFar : ¬((k : Rat) + size / srcSize / 2 ≤
            edgeAt low srcLow (size / srcSize) first + pad + 1 / 2) := fun h => hNot ⟨hPos, h⟩
        push_cast
        linarith
    · intro hLt
      rw [sample_before_iff hSrc hDst]
      have hSample := (sample_before_iff hSrc hDst past x).mp (hTakes.2 hLt)
      have hMin : ((min x (k - pad - 1) : Int) : Rat) ≤ x := Int.cast_le.mpr (min_le_left _ _)
      linarith
  have := hAll _ (by omega) (by omega) hTakes'
  omega

include hSrc hDst in
theorem clear_of_lt_high {x : Int} (hHigh : x < high) (hLow : low ≤ x)
    (hTakes : Takes low srcLow srcSize size first past n x)
    (hAll : ∀ x', low ≤ x' → x' < high → Takes low srcLow srcSize size first past n x' →
      x' < unrounded.along low srcLow (size / srcSize) past true + pad) :
    ClearAfter low high srcLow (size / srcSize) pad past n := by
  intro k hk hEdge
  by_contra hNot
  have hBox : unrounded.along low srcLow (size / srcSize) past true ≤ k := by
    simp only [along_unrounded, if_true]
    exact Int.ceil_le.mpr hEdge
  have hTakes' : Takes low srcLow srcSize size first past n (max x (k + pad)) := by
    constructor
    · intro hPos
      rw [before_sample_iff hSrc hDst]
      have hSample := (before_sample_iff hSrc hDst first x).mp (hTakes.1 hPos)
      have hMax : (x : Rat) ≤ (max x (k + pad) : Int) := Int.cast_le.mpr (le_max_left _ _)
      linarith
    · intro hLt
      rcases max_choice x (k + pad) with hEq | hEq
      · rw [hEq]
        exact hTakes.2 hLt
      · rw [hEq, sample_before_iff hSrc hDst]
        have hFar : ¬(edgeAt low srcLow (size / srcSize) past + size / srcSize / 2 ≤
            (k : Rat) + pad + 1 / 2) := fun h => hNot ⟨hLt, h⟩
        push_cast
        linarith
  have := hAll _ (by omega) (by omega) hTakes'
  omega

end Axis

-- ---------------------------------------------------------------------------
-- Both axes
-- ---------------------------------------------------------------------------

/-- `pad` of `Onto`. -/
def padOf (m : Member) : Int := if unrounded.scaled m then 1 else 0

/-- The box damage lands in reaches past all that takes from it, on every
side. -/
structure PadReaches (w h : Nat) (r : IRect) (m : Member) : Prop where
  left : ClearBefore m.dst.left m.src.left (m.dst.width / m.src.width) (padOf m) r.left
  top : ClearBefore m.dst.top m.src.top (m.dst.height / m.src.height) (padOf m) r.top
  right : ClearAfter m.dst.left m.dst.right m.src.left (m.dst.width / m.src.width) (padOf m)
    r.right w
  bottom : ClearAfter m.dst.top m.dst.bottom m.src.top (m.dst.height / m.src.height) (padOf m)
    r.bottom h

/-- A pixel takes from a rectangle where, on each axis, it takes from the texels
between its edges. -/
theorem takesFrom_iff {w h : Nat} {r : IRect} {m : Member} {p : Point} :
    TakesFrom w h r m p ↔
      (max r.left 0 < min r.right w ∧ max r.top 0 < min r.bottom h) ∧
        Takes m.dst.left m.src.left m.src.width m.dst.width r.left r.right w p.1 ∧
        Takes m.dst.top m.src.top m.src.height m.dst.height r.top r.bottom h p.2 := by
  have hX := exists_share_iff (n := w) (s := (sampleAt m p).1) (a := r.left) (b := r.right)
  have hY := exists_share_iff (n := h) (s := (sampleAt m p).2) (a := r.top) (b := r.bottom)
  constructor
  · rintro ⟨q, ⟨hl, hr, ht, hb⟩, ⟨hl', hr', ht', hb'⟩, hWeight⟩
    obtain ⟨hShareX, hShareY⟩ := mul_ne_zero_iff.mp hWeight
    obtain ⟨hMeetsX, hTakesX⟩ := hX.mp ⟨q.1, ⟨hl, hr⟩, ⟨hl', hr'⟩, hShareX⟩
    obtain ⟨hMeetsY, hTakesY⟩ := hY.mp ⟨q.2, ⟨ht, hb⟩, ⟨ht', hb'⟩, hShareY⟩
    exact ⟨⟨hMeetsX, hMeetsY⟩, hTakesX, hTakesY⟩
  · rintro ⟨⟨hMeetsX, hMeetsY⟩, hTakesX, hTakesY⟩
    obtain ⟨i, ⟨hl, hr⟩, ⟨hl', hr'⟩, hShareX⟩ := hX.mpr ⟨hMeetsX, hTakesX⟩
    obtain ⟨j, ⟨ht, hb⟩, ⟨ht', hb'⟩, hShareY⟩ := hY.mpr ⟨hMeetsY, hTakesY⟩
    exact ⟨(i, j), ⟨hl, hr, ht, hb⟩, ⟨hl', hr', ht', hb'⟩, mul_ne_zero hShareX hShareY⟩

/-- A point is in the box damage lands in where, on each axis, it is in the
destination and between the grown edges. -/
theorem inside_onto_iff {r : IRect} {m : Member} {p : Point} (h : inside m.dst p) :
    inside (unrounded.onto r m (unrounded.scaled m)) p ↔
      (unrounded.along m.dst.left m.src.left (m.dst.width / m.src.width) r.left false
        - padOf m ≤ p.1 ∧
        p.1 < unrounded.along m.dst.left m.src.left (m.dst.width / m.src.width) r.right true
          + padOf m) ∧
      (unrounded.along m.dst.top m.src.top (m.dst.height / m.src.height) r.top false
        - padOf m ≤ p.2 ∧
        p.2 < unrounded.along m.dst.top m.src.top (m.dst.height / m.src.height) r.bottom true
          + padOf m) := by
  obtain ⟨hl, hr, ht, hb⟩ := h
  unfold inside Floats.onto padOf
  simp only [round_unrounded]
  omega

/-- A pixel in the destination that takes from the damage, moved along one axis
to another that takes from it there, takes from it. -/
theorem takesFrom_moved {w h : Nat} {r : IRect} {m : Member} {p : Point} {x y : Int}
    (hTakes : TakesFrom w h r m p)
    (hX : Takes m.dst.left m.src.left m.src.width m.dst.width r.left r.right w x)
    (hY : Takes m.dst.top m.src.top m.src.height m.dst.height r.top r.bottom h y) :
    TakesFrom w h r m (x, y) := by
  rw [takesFrom_iff] at hTakes ⊢
  exact ⟨hTakes.1, hX, hY⟩

/-- **How far damage reaches.** For a straight member with something to draw and
a buffer of any size: every pixel of the destination that takes something from a
damaged rectangle lies in the box the damage lands in, exactly where none takes
from it or the box reaches past what the filter reads on every side. -/
theorem onto_reaches_iff {w h : Nat} {m : Member} (hSrcWidth : 0 < m.src.width)
    (hSrcHeight : 0 < m.src.height) (hDstWidth : 0 < m.dst.width) (hDstHeight : 0 < m.dst.height)
    (r : IRect) :
    (∀ p, inside m.dst p → TakesFrom w h r m p →
        inside (unrounded.onto r m (unrounded.scaled m)) p) ↔
      (∀ p, inside m.dst p → ¬TakesFrom w h r m p) ∨ PadReaches w h r m := by
  have hWidth : (0 : Rat) < m.dst.width := by exact_mod_cast hDstWidth
  have hHeight : (0 : Rat) < m.dst.height := by exact_mod_cast hDstHeight
  constructor
  · intro hReaches
    by_cases hNone : ∀ p, inside m.dst p → ¬TakesFrom w h r m p
    · exact .inl hNone
    push Not at hNone
    obtain ⟨p, hInside, hTakes⟩ := hNone
    obtain ⟨hl, hr, ht, hb⟩ := hInside
    obtain ⟨-, hX, hY⟩ := takesFrom_iff.mp hTakes
    -- every pixel of the destination that takes from the damage on one axis
    have hRow : ∀ x, m.dst.left ≤ x → x < m.dst.right →
        Takes m.dst.left m.src.left m.src.width m.dst.width r.left r.right w x →
        unrounded.along m.dst.left m.src.left (m.dst.width / m.src.width) r.left false
          - padOf m ≤ x ∧
          x < unrounded.along m.dst.left m.src.left (m.dst.width / m.src.width) r.right true
            + padOf m := by
      intro x hLow hHigh hx
      have hIn : inside m.dst (x, p.2) := ⟨hLow, hHigh, ht, hb⟩
      exact ((inside_onto_iff hIn).mp (hReaches _ hIn (takesFrom_moved hTakes hx hY))).1
    have hColumn : ∀ y, m.dst.top ≤ y → y < m.dst.bottom →
        Takes m.dst.top m.src.top m.src.height m.dst.height r.top r.bottom h y →
        unrounded.along m.dst.top m.src.top (m.dst.height / m.src.height) r.top false
          - padOf m ≤ y ∧
          y < unrounded.along m.dst.top m.src.top (m.dst.height / m.src.height) r.bottom true
            + padOf m := by
      intro y hLow hHigh hy
      have hIn : inside m.dst (p.1, y) := ⟨hl, hr, hLow, hHigh⟩
      exact ((inside_onto_iff hIn).mp (hReaches _ hIn (takesFrom_moved hTakes hX hy))).2
    refine .inr ⟨?_, ?_, ?_, ?_⟩
    · exact clear_of_low_le hSrcWidth hWidth hr hl hX fun x h₁ h₂ h₃ => (hRow x h₁ h₂ h₃).1
    · exact clear_of_low_le hSrcHeight hHeight hb ht hY fun y h₁ h₂ h₃ => (hColumn y h₁ h₂ h₃).1
    · exact clear_of_lt_high hSrcWidth hWidth hr hl hX fun x h₁ h₂ h₃ => (hRow x h₁ h₂ h₃).2
    · exact clear_of_lt_high hSrcHeight hHeight hb ht hY fun y h₁ h₂ h₃ => (hColumn y h₁ h₂ h₃).2
  · rintro (hNone | hPad) p hInside hTakes
    · exact absurd hTakes (hNone p hInside)
    obtain ⟨hl, hr, ht, hb⟩ := hInside
    obtain ⟨-, hX, hY⟩ := takesFrom_iff.mp hTakes
    rw [inside_onto_iff ⟨hl, hr, ht, hb⟩]
    refine ⟨⟨?_, ?_⟩, ?_, ?_⟩
    · exact low_le_of_clear hSrcWidth hWidth hPad.left hl hX
    · exact lt_high_of_clear hSrcWidth hWidth hPad.right hr hX
    · exact low_le_of_clear hSrcHeight hHeight hPad.top ht hY
    · exact lt_high_of_clear hSrcHeight hHeight hPad.bottom hb hY

/-- A member of ten by ten texels drawn over forty by forty pixels. -/
def fourfold : Member where
  serial := 1
  src := ⟨0, 0, 10, 10⟩
  dst := ⟨0, 0, 40, 40⟩

/-- One texel of a member drawn fourfold has a share in the pixels from the
eighteenth column on; its box begins at the nineteenth. -/
theorem onto_misses :
    ¬∀ p, inside fourfold.dst p → TakesFrom 10 10 ⟨5, 5, 6, 6⟩ fourfold p →
      inside (unrounded.onto ⟨5, 5, 6, 6⟩ fourfold (unrounded.scaled fourfold)) p := by
  intro h
  have hTakes : TakesFrom 10 10 ⟨5, 5, 6, 6⟩ fourfold (18, 20) := by
    rw [takesFrom_iff]
    unfold Takes sampleAlong fourfold
    norm_num [Rect.width, Rect.height]
  have hIn := h (18, 20) (by unfold inside fourfold; decide) hTakes
  have hOut : ¬inside (unrounded.onto ⟨5, 5, 6, 6⟩ fourfold (unrounded.scaled fourfold))
      (18, 20) := by decide +kernel
  exact hOut hIn

/-- The same texels drawn over twenty by twenty. -/
def twofold : Member := { fourfold with dst := ⟨0, 0, 20, 20⟩ }

/-- Where it is drawn twofold, the damage of a column reaches all it should. -/
theorem onto_reaches_twofold :
    padOf twofold = 1 ∧
      ∀ p, inside twofold.dst p → TakesFrom 10 10 ⟨5, 0, 6, 10⟩ twofold p →
        inside (unrounded.onto ⟨5, 0, 6, 10⟩ twofold (unrounded.scaled twofold)) p := by
  have hPad : padOf twofold = 1 := by decide +kernel
  refine ⟨hPad, (onto_reaches_iff (m := twofold) (by norm_num [twofold, fourfold, Rect.width])
    (by norm_num [twofold, fourfold, Rect.height]) (by decide) (by decide)
    ⟨5, 0, 6, 10⟩).mpr (.inr ⟨?_, ?_, ?_, ?_⟩)⟩
  all_goals
    rw [hPad]
    intro k hIn hEdge
    norm_num [twofold, fourfold, edgeAt, edgeSlack, Rect.width, Rect.height] at hIn hEdge ⊢
  case refine_1 => linarith
  case refine_2 =>
    have hCast : (2 : Rat) ≤ k := by exact_mod_cast hIn
    linarith
  case refine_3 => linarith
  case refine_4 =>
    have hCast : (k : Rat) ≤ 18 := by exact_mod_cast Int.lt_add_one_iff.mp hIn
    linarith

-- ---------------------------------------------------------------------------
-- Members drawn at most threefold
-- ---------------------------------------------------------------------------

section Scale

variable {low : Int} {srcLow srcSize size : Rat} (hSrc : 0 < srcSize) (hDst : 0 < size)
  (hScale : size / srcSize ≤ 3 - 2 * edgeSlack)

include hSrc hDst hScale in
theorem low_le_of_scale {v x : Int}
    (h : (v : Rat) - 1 / 2 < sampleAlong low srcLow srcSize size x) :
    unrounded.along low srcLow (size / srcSize) v false - 1 ≤ x := by
  have hSample := (before_sample_iff hSrc hDst v x).mp h
  have hFloor := Int.floor_le (edgeAt low srcLow (size / srcSize) v + edgeSlack)
  have hLt : ((unrounded.along low srcLow (size / srcSize) v false : Int) : Rat) <
      ((x + 2 : Int) : Rat) := by
    simp only [along_unrounded, Bool.false_eq_true, if_false]
    unfold edgeAt at hSample hFloor ⊢
    push_cast
    linarith
  have : unrounded.along low srcLow (size / srcSize) v false < x + 2 := by exact_mod_cast hLt
  omega

include hSrc hDst hScale in
theorem lt_high_of_scale {v x : Int}
    (h : sampleAlong low srcLow srcSize size x < (v : Rat) + 1 / 2) :
    x < unrounded.along low srcLow (size / srcSize) v true + 1 := by
  have hSample := (sample_before_iff hSrc hDst v x).mp h
  have hCeil := Int.le_ceil (edgeAt low srcLow (size / srcSize) v - edgeSlack)
  have hLt : ((x - 1 : Int) : Rat) <
      ((unrounded.along low srcLow (size / srcSize) v true : Int) : Rat) := by
    simp only [along_unrounded, if_true]
    unfold edgeAt at hSample hCeil ⊢
    push_cast
    linarith
  have : x - 1 < unrounded.along low srcLow (size / srcSize) v true := by exact_mod_cast hLt
  omega

end Scale

/-- Damage reaches every point of a scaled member drawn at most threefold. -/
theorem onto_reaches_of_scale {now : Member} (hSrcWidth : 0 < now.src.width)
    (hSrcHeight : 0 < now.src.height) (hScaled : unrounded.scaled now = true)
    (hWide : (now.dst.width : Rat) / now.src.width ≤ 3 - 2 * edgeSlack)
    (hHigh : (now.dst.height : Rat) / now.src.height ≤ 3 - 2 * edgeSlack) {r : IRect}
    {p q : Point} (hPlace : inside now.dst p) (hSampled : Sampled now p q)
    (hDamaged : inside r q) : inside (unrounded.onto r now (unrounded.scaled now)) p := by
  obtain ⟨hl, hr, ht, hb⟩ := hPlace
  obtain ⟨hl', hr', ht', hb'⟩ := hDamaged
  obtain ⟨⟨hX₁, hX₂⟩, hY₁, hY₂⟩ := And.imp abs_sub_lt_iff.mp abs_sub_lt_iff.mp hSampled
  have hWidth : (0 : Rat) < now.dst.width := by
    have : 0 < now.dst.width := by unfold Rect.width; omega
    exact_mod_cast this
  have hHeight : (0 : Rat) < now.dst.height := by
    have : 0 < now.dst.height := by unfold Rect.height; omega
    exact_mod_cast this
  have hLeft : (r.left : Rat) ≤ q.1 := by exact_mod_cast hl'
  have hRight : (q.1 : Rat) + 1 ≤ r.right := by exact_mod_cast hr'
  have hTop : (r.top : Rat) ≤ q.2 := by exact_mod_cast ht'
  have hBottom : (q.2 : Rat) + 1 ≤ r.bottom := by exact_mod_cast hb'
  have hPad : padOf now = 1 := by simp [padOf, hScaled]
  rw [inside_onto_iff ⟨hl, hr, ht, hb⟩, hPad]
  simp only [sampleAt] at hX₁ hX₂ hY₁ hY₂
  refine ⟨⟨?_, ?_⟩, ?_, ?_⟩
  · refine low_le_of_scale hSrcWidth hWidth hWide ?_
    unfold sampleAlong
    linarith
  · refine lt_high_of_scale hSrcWidth hWidth hWide ?_
    unfold sampleAlong
    linarith
  · refine low_le_of_scale hSrcHeight hHeight hHigh ?_
    unfold sampleAlong
    linarith
  · refine lt_high_of_scale hSrcHeight hHeight hHigh ?_
    unfold sampleAlong
    linarith

end TegraHwc.PartialRedraw
