import Mathlib.Algebra.Order.Floor.Ring
import Mathlib.Tactic.Linarith
import Mathlib.Tactic.NormNum

/-!
# Sampling a row of texels linearly

One axis of a bilinear sampler that clamps to the edge: a sample takes from the
two texels whose centres lie on either side of it, each by how near it is, and
what falls outside the row from the texel at its edge.

## Results

* `share_ne_zero_iff` — where a sample takes from a texel.
* `exists_share_iff`  — where it takes from some texel of an interval.
-/

namespace Bilinear

variable {α : Type} [Field α] [LinearOrder α] [IsStrictOrderedRing α] [FloorRing α]

/-- The texel of a row of `n` that stands for a position. -/
def clampTo (n : Nat) (k : Int) : Int := max 0 (min k (n - 1))

/-- The texel whose centre is the last at or before a sample. -/
def lower (s : α) : Int := ⌊s - 1 / (2 : Nat)⌋

/-- What a sample takes from the texel after that one. -/
def blend (s : α) : α := Int.fract (s - 1 / (2 : Nat))

/-- What a sample at `s` takes from texel `j` of a row of `n`. -/
def share (n : Nat) (s : α) (j : Int) : α :=
  (if clampTo n (lower s) = j then 1 - blend s else 0) +
    (if clampTo n (lower s + 1) = j then blend s else 0)

omit [IsStrictOrderedRing α] in
theorem lower_add_blend (s : α) : s - 1 / 2 = lower s + blend s := by
  have hSplit := Int.floor_add_fract (s - 1 / (2 : Nat))
  rw [lower, blend, hSplit, Nat.cast_ofNat]

theorem blend_nonneg (s : α) : 0 ≤ blend s := Int.fract_nonneg _

theorem blend_lt_one (s : α) : 0 < 1 - blend s := by
  have := Int.fract_lt_one (s - 1 / (2 : Nat))
  unfold blend
  linarith

/-- A sample takes from the texel before it, and from the one after it unless it
is at the centre of the first. -/
theorem share_ne_zero {n : Nat} {s : α} {j : Int} :
    share n s j ≠ 0 ↔
      clampTo n (lower s) = j ∨ (blend s ≠ 0 ∧ clampTo n (lower s + 1) = j) := by
  have h := blend_lt_one s
  have h' := blend_nonneg s
  unfold share
  by_cases hLower : clampTo n (lower s) = j
  · simp only [hLower, true_or, iff_true, if_true]
    split
    · linarith
    · linarith
  · by_cases hUpper : clampTo n (lower s + 1) = j <;> simp [hLower, hUpper]

theorem sub_lt_iff_lower {s : α} {j : Int} :
    (j : α) - 1 / 2 < s ↔ j ≤ lower s ∨ (blend s ≠ 0 ∧ j = lower s + 1) := by
  have hSplit := lower_add_blend s
  have h := blend_lt_one s
  have h' := blend_nonneg s
  constructor
  · intro hLt
    by_cases hLe : j ≤ lower s
    · exact .inl hLe
    · have hFirst : lower s + 1 ≤ j := by omega
      have hCast : ((lower s : α) + 1) ≤ j := by exact_mod_cast hFirst
      have hSecond : (j : α) < ((lower s + 2 : Int) : α) := by
        push_cast
        linarith
      have hSecond' : j < lower s + 2 := by exact_mod_cast hSecond
      refine .inr ⟨fun hZero => ?_, by omega⟩
      linarith
  · rintro (hLe | ⟨hNe, rfl⟩)
    · have hCast : (j : α) ≤ lower s := by exact_mod_cast hLe
      linarith
    · have hPos : 0 < blend s := lt_of_le_of_ne h' (Ne.symm hNe)
      push_cast
      linarith

theorem lt_add_iff_lower {s : α} {j : Int} : s < (j : α) + 3 / 2 ↔ lower s ≤ j := by
  have hSplit := lower_add_blend s
  have h := blend_lt_one s
  have h' := blend_nonneg s
  constructor
  · intro hLt
    have hCast : (lower s : α) < ((j + 1 : Int) : α) := by
      push_cast
      linarith
    have : lower s < j + 1 := by exact_mod_cast hCast
    omega
  · intro hLe
    have hCast : (lower s : α) ≤ j := by exact_mod_cast hLe
    linarith

/-- A sample takes from a texel less than a texel away from it; the texel at an
edge gives all that lies beyond the edge too. -/
theorem share_ne_zero_iff {n : Nat} {s : α} {j : Int} (hLow : 0 ≤ j) (hHigh : j < n) :
    share n s j ≠ 0 ↔ (0 < j → (j : α) - 1 / 2 < s) ∧ (j < n - 1 → s < (j : α) + 3 / 2) := by
  rw [share_ne_zero, sub_lt_iff_lower, lt_add_iff_lower]
  unfold clampTo
  constructor
  · rintro (h | ⟨hNe, h⟩)
    · exact ⟨fun _ => .inl (by omega), fun _ => by omega⟩
    · refine ⟨fun _ => ?_, fun _ => by omega⟩
      by_cases hLe : j ≤ lower s
      · exact .inl hLe
      · exact .inr ⟨hNe, by omega⟩
  · rintro ⟨hBefore, hAfter⟩
    by_cases hFirst : j = 0
    · subst hFirst
      -- the row's first texel: the sample's own is at or before it, or the row has no other
      left
      omega
    · rcases hBefore (by omega) with hLe | ⟨hNe, hEq⟩
      · left
        omega
      · exact .inr ⟨hNe, by omega⟩

/-- A sample takes from some texel of an interval: it lies less than half a texel
outside of it, or beyond the edge of the row the interval begins or ends at. -/
theorem exists_share_iff {n : Nat} {s : α} {a b : Int} :
    (∃ j, (a ≤ j ∧ j < b) ∧ (0 ≤ j ∧ j < n) ∧ share n s j ≠ 0) ↔
      max a 0 < min b n ∧ (0 < a → (a : α) - 1 / 2 < s) ∧ (b < n → s < (b : α) + 1 / 2) := by
  constructor
  · rintro ⟨j, ⟨ha, hb⟩, ⟨hLow, hHigh⟩, hShare⟩
    obtain ⟨hBefore, hAfter⟩ := (share_ne_zero_iff hLow hHigh).mp hShare
    refine ⟨by omega, fun hPos => ?_, fun hLt => ?_⟩
    · have hCast : (a : α) ≤ j := by exact_mod_cast ha
      linarith [hBefore (by omega)]
    · have hCast : (j : α) + 1 ≤ b := by exact_mod_cast hb
      linarith [hAfter (by omega)]
  · rintro ⟨hMeets, hBefore, hAfter⟩
    -- the texel of the interval nearest to the one the sample is in
    refine ⟨max (max a 0) (min (min b n - 1) ⌊s⌋), ⟨by omega, by omega⟩, ⟨by omega, by omega⟩, ?_⟩
    have hFloor : (⌊s⌋ : α) ≤ s := Int.floor_le s
    have hNext : s < (⌊s⌋ : α) + 1 := Int.lt_floor_add_one s
    rw [share_ne_zero_iff (by omega) (by omega)]
    constructor
    · intro hPos
      by_cases hIn : max (max a 0) (min (min b n - 1) ⌊s⌋) ≤ ⌊s⌋
      · have hCast : ((max (max a 0) (min (min b n - 1) ⌊s⌋) : Int) : α) ≤ ⌊s⌋ :=
          Int.cast_le.mpr hIn
        linarith
      · have hEq : max (max a 0) (min (min b n - 1) ⌊s⌋) = a := by omega
        rw [hEq]
        exact hBefore (by omega)
    · intro hLt
      by_cases hIn : ⌊s⌋ ≤ max (max a 0) (min (min b n - 1) ⌊s⌋)
      · have hCast : (⌊s⌋ : α) ≤ ((max (max a 0) (min (min b n - 1) ⌊s⌋) : Int) : α) :=
          Int.cast_le.mpr hIn
        linarith
      · have hEq : max (max a 0) (min (min b n - 1) ⌊s⌋) = b - 1 := by omega
        rw [hEq]
        push_cast
        linarith [hAfter (by omega)]

end Bilinear
