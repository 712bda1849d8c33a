import Mathlib.Data.Int.Log
import Mathlib.Data.Rat.Floor
import Mathlib.Tactic.Linarith
import Mathlib.Tactic.NormNum

/-!
# MachineNumbers — signed words and single floats

A signed word keeps the residue of an integer. A single float is a rational with no
more than twenty-four bits from its first place to its last, and an operation on
floats answers the one nearest to the exact result, the even one of two as near. What
is too great for a float is not told from what is not.

## Results

* `int32_of_fit`  — a word keeps an integer that fits.
* `single_near`   — rounded, a number comes no further than any whole number of
  twenty-four bits.
* `single_intCast` — and such a number is not rounded at all.
* `single_neg`    — rounding is alike on both sides of nought.
-/

namespace MachineNumbers

-- ---------------------------------------------------------------------------
-- Signed words
-- ---------------------------------------------------------------------------

/-- An integer, as a signed word of thirty-two bits keeps it. -/
def int32 (x : Int) : Int := x.bmod (2 ^ 32)

/-- A word keeps an integer that fits. -/
theorem int32_of_fit {x : Int} (hLow : -2 ^ 31 ≤ x) (hHigh : x < 2 ^ 31) : int32 x = x :=
  Int.bmod_eq_of_le_mul_two (by omega) (by omega)

/-- A rational, as a conversion to a signed word truncates it: what does not fit is cut to
the end of the range. -/
def toInt32 (x : Rat) : Int := max (-2 ^ 31) (min (2 ^ 31 - 1) (if 0 ≤ x then ⌊x⌋ else ⌈x⌉))

/-- A whole number is cut, not truncated. -/
theorem toInt32_intCast (n : Int) : toInt32 n = max (-2 ^ 31) (min (2 ^ 31 - 1) n) := by
  unfold toInt32
  rw [Int.floor_intCast, Int.ceil_intCast, ite_self]

/-- An integer, as an unsigned word of thirty-two bits keeps it. -/
def uint32 (x : Int) : Nat := (x % 2 ^ 32).toNat

/-- The whole number nearest to a rational; halves go away from nought. -/
def lroundf (v : Rat) : Int := if 0 ≤ v then ⌊v + 1 / 2⌋ else ⌈v - 1 / 2⌉

theorem lroundf_nonneg {v : Rat} (h : 0 ≤ v) : 0 ≤ lroundf v := by
  rw [lroundf, if_pos h]
  exact Int.floor_nonneg.mpr (by linarith)

-- ---------------------------------------------------------------------------
-- Single floats
-- ---------------------------------------------------------------------------

/-- The whole number nearest to a rational, the even one of two as near. -/
def nearestEven (x : Rat) : Int :=
  if x - ⌊x⌋ < 1 / 2 then ⌊x⌋
  else if 1 / 2 < x - ⌊x⌋ then ⌊x⌋ + 1
  else if ⌊x⌋ % 2 = 0 then ⌊x⌋
  else ⌊x⌋ + 1

/-- The power of two of a float's last place, for numbers of a size. -/
def lastPlace (x : Rat) : Int := max (Int.log 2 |x| - 23) (-149)

/-- The single float nearest to a rational. -/
def single (x : Rat) : Rat := nearestEven (x / 2 ^ lastPlace x) * 2 ^ lastPlace x

variable {x : Rat} {m n : Int}

/-- **No whole number is nearer.** -/
theorem nearestEven_near (x : Rat) (m : Int) : |(nearestEven x : Rat) - x| ≤ |(m : Rat) - x| := by
  have hBelow := Int.floor_le x
  have hAbove := Int.lt_floor_add_one x
  -- the nearest is half a step away at most, and of the two around it the nearer
  have hFar : (m : Rat) ≤ ⌊x⌋ ∨ (⌊x⌋ : Rat) + 1 ≤ m := by
    rcases lt_or_ge ⌊x⌋ m with h | h
    · exact .inr (by exact_mod_cast h)
    · exact .inl (by exact_mod_cast h)
  unfold nearestEven
  rcases hFar with hFar | hFar
  · rw [abs_of_nonpos (by linarith : (m : Rat) - x ≤ 0), abs_le]
    split_ifs <;> push_cast <;> constructor <;> linarith
  · rw [abs_of_nonneg (by linarith : (0 : Rat) ≤ m - x), abs_le]
    split_ifs <;> push_cast <;> constructor <;> linarith

/-- Nor any multiple of the last place. -/
theorem single_near_multiple (x : Rat) (m : Int) :
    |single x - x| ≤ |m * 2 ^ lastPlace x - x| := by
  have hPos : (0 : Rat) < 2 ^ lastPlace x := zpow_pos (by norm_num) _
  have hScaled : ∀ k : Int, |(k : Rat) * 2 ^ lastPlace x - x| =
      |(k : Rat) - x / 2 ^ lastPlace x| * 2 ^ lastPlace x := by
    intro k
    rw [← abs_of_pos hPos, ← abs_mul, abs_of_pos hPos, sub_mul, div_mul_cancel₀ _ hPos.ne']
  unfold single
  rw [hScaled, hScaled]
  exact mul_le_mul_of_nonneg_right (nearestEven_near _ _) hPos.le

/-- A whole number is a multiple of a last place no greater than one. -/
theorem exists_multiple {k : Int} (hPlace : k ≤ 0) (n : Int) :
    ∃ m : Int, (m : Rat) * 2 ^ k = n := by
  obtain ⟨j, hj⟩ := Int.eq_ofNat_of_zero_le (neg_nonneg.mpr hPlace)
  obtain rfl : k = -(j : Int) := by omega
  refine ⟨n * 2 ^ j, ?_⟩
  push_cast
  rw [zpow_neg, zpow_natCast, mul_assoc, mul_inv_cancel₀ (by positivity), mul_one]

/-- **No whole number of twenty-four bits is nearer to a rational than the float it is
rounded to.** -/
theorem single_near (x : Rat) (hBits : |n| ≤ 2 ^ 24) : |single x - x| ≤ |(n : Rat) - x| := by
  rcases le_or_gt (lastPlace x) 0 with hPlace | hPlace
  · obtain ⟨m, hm⟩ := exists_multiple hPlace n
    rw [← hm]
    exact single_near_multiple x m
  · -- the first place of the number is further out than `n`
    have hLog : lastPlace x = Int.log 2 |x| - 23 := by
      unfold lastPlace at hPlace ⊢
      omega
    have hx : x ≠ 0 := by
      rintro rfl
      rw [hLog] at hPlace
      simp at hPlace
    have hFirst : (2 : Rat) ^ (23 + lastPlace x) ≤ |x| := by
      rw [hLog, add_sub_cancel]
      exact_mod_cast Int.zpow_log_le_self (by norm_num) (abs_pos.mpr hx)
    have hn : |(n : Rat)| ≤ 2 ^ (23 + lastPlace x) := by
      calc |(n : Rat)| ≤ 2 ^ (24 : Int) := by exact_mod_cast hBits
        _ ≤ 2 ^ (23 + lastPlace x) := zpow_le_zpow_right₀ (by norm_num) (by omega)
    have hSplit : (2 : Rat) ^ (23 + lastPlace x) = (2 ^ 23 : Int) * 2 ^ lastPlace x := by
      rw [zpow_add₀ (by norm_num)]
      norm_num
    obtain ⟨hnLow, hnHigh⟩ := abs_le.mp hn
    rcases le_or_gt 0 x with hSign | hSign
    · rw [abs_of_nonneg hSign] at hFirst
      have hTaken := single_near_multiple x (2 ^ 23)
      rw [← hSplit, abs_of_nonpos (by linarith : (2 : Rat) ^ (23 + lastPlace x) - x ≤ 0)] at hTaken
      rw [abs_of_nonpos (by linarith : (n : Rat) - x ≤ 0)]
      linarith
    · rw [abs_of_neg hSign] at hFirst
      have hTaken := single_near_multiple x (-2 ^ 23)
      rw [Int.cast_neg, neg_mul, ← hSplit,
        abs_of_nonneg (by linarith : (0 : Rat) ≤ -(2 : Rat) ^ (23 + lastPlace x) - x)] at hTaken
      rw [abs_of_nonneg (by linarith : (0 : Rat) ≤ n - x)]
      linarith

/-- A whole number of twenty-four bits is a float. -/
theorem single_intCast (hBits : |n| ≤ 2 ^ 24) : single n = n := by
  have hNear := single_near (n : Rat) hBits
  rw [sub_self, abs_zero] at hNear
  exact sub_eq_zero.mp (abs_nonpos_iff.mp hNear)

/-- Rounding does not bring a number below a whole one. -/
theorem le_single (hBits : |n| ≤ 2 ^ 24) (h : (n : Rat) ≤ x) : (n : Rat) ≤ single x := by
  have hNear := single_near x hBits
  rw [abs_of_nonpos (by linarith : (n : Rat) - x ≤ 0)] at hNear
  linarith [neg_le_of_abs_le hNear]

/-- Nor above one. -/
theorem single_le (hBits : |n| ≤ 2 ^ 24) (h : x ≤ n) : single x ≤ n := by
  have hNear := single_near x hBits
  rw [abs_of_nonneg (by linarith : (0 : Rat) ≤ n - x)] at hNear
  linarith [le_of_abs_le hNear]

/-- A number less than half a step above a whole one is not brought up to the next. -/
theorem single_lt_add_one (hBits : |n| ≤ 2 ^ 24) (h : x - n < 1 / 2) : single x < n + 1 := by
  rcases le_or_gt x n with hBelow | hAbove
  · linarith [single_le hBits hBelow]
  · have hNear := single_near x hBits
    rw [abs_of_neg (by linarith : (n : Rat) - x < 0)] at hNear
    linarith [le_of_abs_le hNear]

/-- Nor one as little below it down to the one before. -/
theorem sub_one_lt_single (hBits : |n| ≤ 2 ^ 24) (h : n - x < 1 / 2) : n - 1 < single x := by
  rcases le_or_gt (n : Rat) x with hAbove | hBelow
  · linarith [le_single hBits hAbove]
  · have hNear := single_near x hBits
    rw [abs_of_pos (by linarith : (0 : Rat) < n - x)] at hNear
    linarith [neg_le_of_abs_le hNear]

/-- Mirrored, the nearest is mirrored. -/
theorem nearestEven_neg (x : Rat) : nearestEven (-x) = -nearestEven x := by
  have hBelow := Int.floor_le x
  have hAbove := Int.lt_floor_add_one x
  rcases eq_or_lt_of_le hBelow with hWhole | hBetween
  · have hFloor : ⌊-x⌋ = -⌊x⌋ := by
      rw [← hWhole, ← Int.cast_neg, Int.floor_intCast, Int.floor_intCast]
    unfold nearestEven
    rw [hFloor, if_pos (by push_cast; linarith), if_pos (by linarith)]
  · have hFloor : ⌊-x⌋ = -⌊x⌋ - 1 := by
      rw [Int.floor_eq_iff]
      push_cast
      constructor <;> linarith
    unfold nearestEven
    rw [hFloor]
    push_cast
    split_ifs <;> first | linarith | omega

theorem lastPlace_neg (x : Rat) : lastPlace (-x) = lastPlace x := by
  unfold lastPlace
  rw [abs_neg]

theorem single_neg (x : Rat) : single (-x) = -single x := by
  unfold single
  rw [lastPlace_neg, neg_div, nearestEven_neg, Int.cast_neg, neg_mul]

end MachineNumbers
