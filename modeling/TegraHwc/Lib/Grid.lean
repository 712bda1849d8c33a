import Mathlib.Algebra.Order.Ring.Int
import Mathlib.Order.Bounds.Basic
import Mathlib.Tactic.Linarith
import Mathlib.Tactic.Ring

/-!
# Grid — evenly spaced points of a line

The points `origin + k * step` of the whole numbers, the least of them after a
time, and the one nearest to a time. Machines divide toward nought; what that
makes of the least point is said beside it.

## Results

* `isLeast_next` — `next` is the least point after a time.
* `isLeast_truncated_iff` — when truncating division finds it too.
* `nearest_iff` — a time's nearest point is one of the two around it.
-/

namespace Grid

/-- The points of a grid. -/
def points (origin step : Int) : Set Int := { x | ∃ k : Int, x = origin + k * step }

/-- The least point after a time, by flooring division. -/
def next (origin step time : Int) : Int := origin + ((time - origin) / step + 1) * step

/-- The point found in its place where division truncates. -/
def truncated (origin step time : Int) : Int := step * ((time - origin).tdiv step + 1) + origin

/-- A point of a set no further from a time than any other. -/
def Nearest (s : Set Int) (time x : Int) : Prop := x ∈ s ∧ ∀ y ∈ s, |x - time| ≤ |y - time|

variable {origin step time x : Int}

theorem next_mem : next origin step time ∈ points origin step := ⟨_, rfl⟩

/-- The next point lies after the time, and no further than a step. -/
theorem next_bounds (hStep : 0 < step) :
    time < next origin step time ∧ next origin step time ≤ time + step := by
  have hDiv := Int.mul_ediv_add_emod (time - origin) step
  have hLow := Int.emod_nonneg (time - origin) hStep.ne'
  have hHigh := Int.emod_lt_of_pos (time - origin) hStep
  unfold next
  rw [add_mul, one_mul, mul_comm _ step]
  omega

/-- Two points less than a step apart are one. -/
theorem eq_of_near {y : Int} (hx : x ∈ points origin step) (hy : y ∈ points origin step)
    (hLow : x - y < step) (hHigh : y - x < step) : x = y := by
  obtain ⟨k, rfl⟩ := hx
  obtain ⟨l, rfl⟩ := hy
  have hk : k = l := by
    by_contra hNe
    rcases Int.lt_or_gt_of_ne hNe with h | h
    · have : 1 * step ≤ (l - k) * step := mul_le_mul_of_nonneg_right (by omega) (by omega)
      linarith
    · have : 1 * step ≤ (k - l) * step := mul_le_mul_of_nonneg_right (by omega) (by omega)
      linarith
  rw [hk]

/-- Every point is at or before the one before the next, or at or after it. -/
theorem le_or_next_le (hx : x ∈ points origin step) :
    x ≤ next origin step time - step ∨ next origin step time ≤ x := by
  by_contra hNot
  rw [not_or, not_le, not_le] at hNot
  have := eq_of_near hx (@next_mem origin step time) (by omega) (by omega)
  omega

/-- **The next point is the least after the time.** -/
theorem isLeast_next (hStep : 0 < step) :
    IsLeast { x | x ∈ points origin step ∧ time < x } (next origin step time) := by
  obtain ⟨hAfter, hNear⟩ := @next_bounds origin step time hStep
  refine ⟨⟨next_mem, hAfter⟩, fun y hy => ?_⟩
  rcases @le_or_next_le origin step time y hy.1 with h | h
  · have := hy.2
    omega
  · exact h

/-- **Truncating division** finds the next point from the origin on, and where the
time is a point itself. -/
theorem truncated_eq_next (hOn : origin ≤ time ∨ step ∣ time - origin) :
    truncated origin step time = next origin step time := by
  unfold truncated next
  rw [Int.tdiv_eq_ediv, if_pos (hOn.imp_left Int.sub_nonneg_of_le)]
  ring

/-- Anywhere else it finds the one after. -/
theorem truncated_eq_late (hStep : 0 < step) (hOff : ¬(origin ≤ time ∨ step ∣ time - origin)) :
    truncated origin step time = next origin step time + step := by
  unfold truncated next
  rw [Int.tdiv_eq_ediv, if_neg fun h => hOff (h.imp_left Int.le_of_sub_nonneg),
    Int.sign_eq_one_of_pos hStep]
  ring

/-- So it is the least just there. -/
theorem isLeast_truncated_iff (hStep : 0 < step) :
    IsLeast { x | x ∈ points origin step ∧ time < x } (truncated origin step time) ↔
      origin ≤ time ∨ step ∣ time - origin := by
  by_cases hOn : origin ≤ time ∨ step ∣ time - origin
  · rw [truncated_eq_next hOn]
    exact ⟨fun _ => hOn, fun _ => isLeast_next hStep⟩
  · rw [truncated_eq_late hStep hOn]
    refine ⟨fun h => ?_, fun h => absurd h hOn⟩
    have := h.unique (isLeast_next hStep)
    omega

/-- The point before the next is one. -/
theorem prev_mem : next origin step time - step ∈ points origin step :=
  ⟨(time - origin) / step, by unfold next; ring⟩

/-- **The nearest point** is the next one where that is no further than half a
step, and the one before where it is no nearer. -/
theorem nearest_iff (hStep : 0 < step) :
    Nearest (points origin step) time x ↔
      x = next origin step time ∧ 2 * (next origin step time - time) ≤ step ∨
        x = next origin step time - step ∧ step ≤ 2 * (next origin step time - time) := by
  obtain ⟨hAfter, hNear⟩ := @next_bounds origin step time hStep
  have hNext : |next origin step time - time| = next origin step time - time :=
    abs_of_pos (by omega)
  have hPrev : |next origin step time - step - time| = step - (next origin step time - time) := by
    rw [abs_of_nonpos (by omega)]
    omega
  constructor
  · rintro ⟨hx, hLeast⟩
    have hOverNext := hLeast _ (@next_mem origin step time)
    have hOverPrev := hLeast _ (@prev_mem origin step time)
    rw [hNext] at hOverNext
    rw [hPrev] at hOverPrev
    rcases @le_or_next_le origin step time x hx with h | h
    · rw [abs_of_nonpos (by omega)] at hOverNext hOverPrev
      exact .inr (by omega)
    · rw [abs_of_nonneg (by omega)] at hOverNext hOverPrev
      exact .inl (by omega)
  · rintro (⟨rfl, hHalf⟩ | ⟨rfl, hHalf⟩)
    · refine ⟨next_mem, fun y hy => ?_⟩
      rw [hNext]
      rcases @le_or_next_le origin step time y hy with h | h
      · rw [abs_of_nonpos (by omega)]
        omega
      · rw [abs_of_nonneg (by omega)]
        omega
    · refine ⟨prev_mem, fun y hy => ?_⟩
      rw [hPrev]
      rcases @le_or_next_le origin step time y hy with h | h
      · rw [abs_of_nonpos (by omega)]
        omega
      · rw [abs_of_nonneg (by omega)]
        omega

end Grid
