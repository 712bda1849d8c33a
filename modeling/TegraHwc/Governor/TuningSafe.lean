import TegraHwc.Governor.MergePlan
import Mathlib.Algebra.Order.Field.Rat

/-!
# TegraHwc — what the settings divide by

The formulas of `governor/MergePlan.cpp` once more, with every division asked
whether its divisor is nought and the sum of lead and submit whether it wraps:
where all goes well they are the formulas themselves, so that a setting is told
by what becomes of them.

## Results

* `estimateGpuChecked_eq`, `estimateMergeChecked_eq` — where the formulas divide
  by nought or wrap, and that they are the plain ones elsewhere.
* `readTuningFile_safe_iff` — the settings a file leaves are safe exactly when it
  leaves the GPU a cost and a step, and the submit times room.
-/

namespace TegraHwc.MergePlan

open TuningFile

-- ---------------------------------------------------------------------------
-- The formulas, checked
-- ---------------------------------------------------------------------------

/-- A division, unless it is by nought. -/
def divide {K : Type} [Zero K] [Div K] [DecidableEq K] (a b : K) : Option K :=
  if b = 0 then none else some (a / b)

/-- A sum in thirty-two bits, unless it wraps. -/
def sum32 (a b : UInt32) : Option UInt32 :=
  if a.toNat + b.toNat < 2 ^ 32 then some (a + b) else none

/-- `MergeCycles`, checked. -/
def mergeCyclesChecked (members : List Member) (t : Tuning) : Option ℚ≥0 := do
  let pixels ← divide (area members : ℚ≥0) (t .pixelsPerClock).toNat
  divide ((((t .jobKcycles).toNat * 1000 : Nat) + pixels) * (t .factorPct).toNat) (100 : Nat)

/-- `GpuCycles`, checked. -/
def gpuCyclesChecked (pixels : UInt32) (t : Tuning) : Option ℚ≥0 := do
  let clocks ← divide ((pixels.toNat * 1000 : Nat) : ℚ≥0) (t .gpuPixelsPerKclock).toNat
  divide (clocks * (t .factorPct).toNat) (100 : Nat)

/-- `LatchDeadline`, checked. -/
def latchDeadlineChecked (frame : Frame) (now : Int) (t : Tuning) : Option Int :=
  if phaseKnown frame now t ∧ frame.vsyncPeriodNs = 0 then none
  else some (latchDeadline frame now t)

/-- `Estimate`, checked. -/
def estimateChecked (e : WorkEstimate) (deadline submitEnd : Int) (ladder : ClockLadder) :
    Option WorkEstimate := do
  let late := deadline - submitEnd < nsPerMs
  let budget := if late then nsPerMs else deadline - submitEnd
  let needHz ← divide (e.cycles * nsPerSec : ℚ) budget
  let needMhz ← divide needHz 1000000
  let need := ⌈min needMhz (4 * ladder.top)⌉₊
  let step := ladder.atLeast need
  some { e with
    deadlineNs := deadline, budgetNs := budget, late := late, needMhz := need
    beyond := step = 0, stepMhz := if step = 0 then ladder.top else step }

/-- `EstimateWork`, checked. -/
def estimateWorkChecked (frame : Frame) (cycles raw : ℚ≥0) (now submitEnd : Int) (t : Tuning)
    (ladder : ClockLadder) : Option WorkEstimate := do
  let deadline ← latchDeadlineChecked frame now t
  let e ← estimateChecked { cycles := cycles } deadline submitEnd ladder
  let perTop ← divide (raw : ℚ) ladder.top
  let soonest := now + us t .leadMinUs * nsPerUs
  if ((deadline - soonest : Int) : ℚ) < perTop * 1000 ∧ phaseKnown frame now t then
    let e ← estimateChecked e (slippedDeadline frame deadline t) submitEnd ladder
    some { e with slipped := true }
  else some e

/-- `EstimateGpu`, checked. -/
def estimateGpuChecked (frame : Frame) (pixels : UInt32) (now : Int) (t : Tuning) :
    Option WorkEstimate := do
  let cycles ← gpuCyclesChecked pixels t
  let raw ← divide (cycles * (100 : Nat)) ((t .factorPct).toNat : ℚ≥0)
  estimateWorkChecked frame cycles raw now (now + us t .submitWarmUs * nsPerUs) t
    (gpuLadder (t .gpuCapMhz).toNat)

/-- When the submit will have happened, checked. -/
def submitEndChecked (frame : Frame) (now : Int) (t : Tuning) (cold cpuLifted : Bool)
    (submitAfter : Int) : Option Int :=
  if 0 < submitAfter then some (frame.nowNs + submitAfter)
  else (sum32 (t .leadUs) (t (submitKey cold cpuLifted))).map fun path =>
    now + path.toNat * nsPerUs

/-- `EstimateMerge`, checked. -/
def estimateMergeChecked (frame : Frame) (members : List Member) (now : Int) (t : Tuning)
    (cold cpuLifted : Bool) (submitAfter : Int) : Option WorkEstimate := do
  let cycles ← mergeCyclesChecked members t
  let submitEnd ← submitEndChecked frame now t cold cpuLifted submitAfter
  let raw ← divide (cycles * (100 : Nat)) ((t .factorPct).toNat : ℚ≥0)
  let e ← estimateWorkChecked frame cycles raw now submitEnd t vicLadder
  some (if cold ∧ e.stepMhz < (t .minColdMhz).toNat then
    { e with stepMhz := (t .minColdMhz).toNat } else e)

-- ---------------------------------------------------------------------------
-- Where they go wrong
-- ---------------------------------------------------------------------------

section Checked

variable {K : Type} [Zero K] [Div K] [DecidableEq K]

theorem divide_of_ne {a b : K} (h : b ≠ 0) : divide a b = some (a / b) := if_neg h

theorem divide_zero (a : K) : divide a 0 = none := if_pos rfl

theorem toNat_eq_zero_iff {v : UInt32} : ((v.toNat : ℚ≥0) = 0) ↔ v = 0 := by
  rw [Nat.cast_eq_zero, ← UInt32.toNat_inj]
  rfl

theorem hundred_ne : (100 : ℚ≥0) ≠ 0 := by norm_num

theorem cast_hundred : ((100 : Nat) : ℚ≥0) = 100 := Nat.cast_ofNat

theorem cast_thousands (n : Nat) : ((n * 1000 : Nat) : ℚ≥0) = n * 1000 := by
  rw [Nat.cast_mul, Nat.cast_ofNat]

theorem mergeCyclesChecked_eq (members : List Member) (t : Tuning) :
    mergeCyclesChecked members t =
      if t .pixelsPerClock = 0 then none else some (mergeCycles members t) := by
  unfold mergeCyclesChecked mergeCycles
  rw [cast_hundred, cast_thousands]
  by_cases h : t .pixelsPerClock = 0
  · rw [if_pos h, toNat_eq_zero_iff.mpr h, divide_zero]
    rfl
  · rw [if_neg h, divide_of_ne (mt toNat_eq_zero_iff.mp h)]
    exact divide_of_ne hundred_ne

theorem gpuCyclesChecked_eq (pixels : UInt32) (t : Tuning) :
    gpuCyclesChecked pixels t =
      if t .gpuPixelsPerKclock = 0 then none else some (gpuCycles pixels t) := by
  unfold gpuCyclesChecked gpuCycles
  rw [cast_hundred, cast_thousands]
  by_cases h : t .gpuPixelsPerKclock = 0
  · rw [if_pos h, toNat_eq_zero_iff.mpr h, divide_zero]
    rfl
  · rw [if_neg h, divide_of_ne (mt toNat_eq_zero_iff.mp h)]
    exact divide_of_ne hundred_ne

/-- A phase that is known has a period. -/
theorem latchDeadlineChecked_eq (frame : Frame) (now : Int) (t : Tuning) :
    latchDeadlineChecked frame now t = some (latchDeadline frame now t) := by
  unfold latchDeadlineChecked
  rw [if_neg]
  rintro ⟨hknown, hzero⟩
  have := (phaseKnown_iff.mp hknown).2.1
  omega

/-- The budget is a millisecond at least. -/
theorem estimateChecked_eq (e : WorkEstimate) (deadline submitEnd : Int) (ladder : ClockLadder) :
    estimateChecked e deadline submitEnd ladder =
      some (estimate e deadline submitEnd ladder) := by
  have hbudget : (((if deadline - submitEnd < nsPerMs then nsPerMs
      else deadline - submitEnd : Int)) : ℚ) ≠ 0 := by
    have hpos : 0 < (estimate e deadline submitEnd ladder).budgetNs := estimate_budget_pos
    exact Int.cast_ne_zero.mpr (ne_of_gt hpos)
  unfold estimateChecked estimate
  dsimp only
  rw [divide_of_ne hbudget]
  dsimp only [Option.bind_eq_bind, Option.bind_some]
  rw [divide_of_ne (by norm_num)]
  rfl

theorem estimateWorkChecked_eq (frame : Frame) (cycles raw : ℚ≥0) (now submitEnd : Int)
    (t : Tuning) (ladder : ClockLadder) :
    estimateWorkChecked frame cycles raw now submitEnd t ladder =
      if ladder.top = 0 then none
      else some (estimateWork frame cycles raw now submitEnd t ladder) := by
  unfold estimateWorkChecked estimateWork hopeless
  simp only [latchDeadlineChecked_eq, estimateChecked_eq, Option.bind_eq_bind, Option.bind_some]
  by_cases h : ladder.top = 0
  · rw [if_pos h, h, Nat.cast_zero, divide_zero]
    rfl
  · rw [if_neg h, if_neg h, divide_of_ne (by exact_mod_cast h), Option.bind_some]
    rw [← apply_ite some]
    congr 1
    simp

theorem submitEndChecked_eq (frame : Frame) (now : Int) (t : Tuning) (cold cpuLifted : Bool)
    (submitAfter : Int) :
    submitEndChecked frame now t cold cpuLifted submitAfter =
      if 0 < submitAfter ∨
          (t .leadUs).toNat + (t (submitKey cold cpuLifted)).toNat < 2 ^ 32 then
        some (submitEnd frame now t cold cpuLifted submitAfter)
      else none := by
  unfold submitEndChecked submitEnd sum32
  by_cases hmeasured : 0 < submitAfter
  · rw [if_pos hmeasured, if_pos hmeasured, if_pos (Or.inl hmeasured)]
  · rw [if_neg hmeasured, if_neg hmeasured]
    by_cases hroom : (t .leadUs).toNat + (t (submitKey cold cpuLifted)).toNat < 2 ^ 32
    · rw [if_pos hroom, if_pos (Or.inr hroom)]
      rfl
    · rw [if_neg hroom, if_neg (not_or.mpr ⟨hmeasured, hroom⟩)]
      rfl

/-- The GPU's estimate goes wrong by its cost, the margin or a ladder cut below
its lowest step, and is the plain one otherwise. -/
theorem estimateGpuChecked_eq (frame : Frame) (pixels : UInt32) (now : Int) (t : Tuning) :
    estimateGpuChecked frame pixels now t =
      if t .gpuPixelsPerKclock = 0 ∨ t .factorPct = 0 ∨
          (gpuLadder (t .gpuCapMhz).toNat).top = 0 then none
      else some (estimateGpu frame pixels now t) := by
  unfold estimateGpuChecked estimateGpu
  rw [gpuCyclesChecked_eq, cast_hundred]
  by_cases hpixels : t .gpuPixelsPerKclock = 0
  · rw [if_pos hpixels, if_pos (Or.inl hpixels)]
    rfl
  rw [if_neg hpixels, Option.bind_eq_bind, Option.bind_some]
  by_cases hfactor : t .factorPct = 0
  · rw [toNat_eq_zero_iff.mpr hfactor, divide_zero, if_pos (Or.inr (Or.inl hfactor))]
    rfl
  rw [divide_of_ne (mt toNat_eq_zero_iff.mp hfactor), Option.bind_some, estimateWorkChecked_eq]
  simp only [hpixels, hfactor, false_or]

/-- The merge's goes wrong by its cost, the margin or a path that wraps; its
ladder has a top. -/
theorem estimateMergeChecked_eq (frame : Frame) (members : List Member) (now : Int) (t : Tuning)
    (cold cpuLifted : Bool) (submitAfter : Int) :
    estimateMergeChecked frame members now t cold cpuLifted submitAfter =
      if t .pixelsPerClock ≠ 0 ∧ (0 < submitAfter ∨
          (t .leadUs).toNat + (t (submitKey cold cpuLifted)).toNat < 2 ^ 32) ∧
          t .factorPct ≠ 0 then
        some (estimateMerge frame members now t cold cpuLifted submitAfter)
      else none := by
  have htop : vicLadder.top ≠ 0 := by decide
  unfold estimateMergeChecked estimateMerge
  rw [mergeCyclesChecked_eq, cast_hundred]
  by_cases hpixels : t .pixelsPerClock = 0
  · rw [if_pos hpixels, if_neg fun h => h.1 hpixels]
    rfl
  rw [if_neg hpixels, Option.bind_eq_bind, Option.bind_some, submitEndChecked_eq]
  by_cases hpath : 0 < submitAfter ∨
      (t .leadUs).toNat + (t (submitKey cold cpuLifted)).toNat < 2 ^ 32
  · rw [if_pos hpath, Option.bind_eq_bind, Option.bind_some]
    by_cases hfactor : t .factorPct = 0
    · rw [toNat_eq_zero_iff.mpr hfactor, divide_zero, if_neg fun h => h.2.2 hfactor]
      rfl
    · rw [divide_of_ne (mt toNat_eq_zero_iff.mp hfactor), Option.bind_some,
        estimateWorkChecked_eq, if_neg htop, if_pos ⟨hpixels, hpath, hfactor⟩]
      rfl
  · rw [if_neg hpath, if_neg fun h => hpath h.2.1]
    rfl

end Checked

-- ---------------------------------------------------------------------------
-- The settings a file leaves
-- ---------------------------------------------------------------------------

/-- Settings by which no formula divides by nought and no sum wraps, whatever
the frame, the members and the pixels. -/
def Safe (t : Tuning) : Prop :=
  ∀ (frame : Frame) (members : List Member) (pixels : UInt32) (now : Int) (cold cpuLifted : Bool)
    (submitAfter : Int),
    (mergeCyclesChecked members t).isSome ∧ (gpuCyclesChecked pixels t).isSome ∧
      (estimateGpuChecked frame pixels now t).isSome ∧
      (estimateMergeChecked frame members now t cold cpuLifted submitAfter).isSome

/-- The GPU has a cost and a step under its cap, and each submit time can be
added to the lead. -/
structure LeavesRoom (t : Tuning) : Prop where
  cost : t .gpuPixelsPerKclock ≠ 0
  cap : t .gpuCapMhz = 0 ∨ 72 ≤ t .gpuCapMhz
  path : ∀ cold cpuLifted,
    (t .leadUs).toNat + (t (submitKey cold cpuLifted)).toNat < 2 ^ 32

/-- The GPU's ladder has a top unless it is cut below its lowest step. -/
theorem gpuLadder_top (cap : UInt32) :
    (gpuLadder cap.toNat).top ≠ 0 ↔ cap = 0 ∨ 72 ≤ cap := by
  have hzero : cap.toNat = 0 ↔ cap = 0 := by
    rw [← UInt32.toNat_inj]
    rfl
  have hle : 72 ≤ cap.toNat ↔ 72 ≤ cap := by
    rw [UInt32.le_iff_toNat_le]
    rfl
  rw [← hzero, ← hle]
  rcases ClockLadder.top_cases (l := gpuLadder cap.toNat) with ⟨htop, hnone⟩ | ⟨htop, hmem, -⟩
  · refine iff_of_false (not_not.mpr htop) fun h => ?_
    exact hnone 72 ⟨(by decide : 72 ∈ gpuStepsMhz), h⟩
  · refine iff_of_true (by omega) ?_
    have hlow : ∀ s ∈ gpuStepsMhz, 72 ≤ s := by decide
    exact hmem.2.imp_right (le_trans (hlow _ hmem.1))

/-- What a file leaves divides by no margin and no pixels per clock of nought. -/
theorem readTuningFile_divisors (file : List Char) (t : Tuning) :
    (readTuningFile (some file) t).2.tuning .factorPct ≠ 0 ∧
      (readTuningFile (some file) t).2.tuning .pixelsPerClock ≠ 0 := by
  rw [readTuningFile_tuning, readTuningFile_tuning]
  unfold orDivisor
  constructor
  · split
    · assumption
    · decide
  · split
    · assumption
    · decide

/-- Whatever the file and the settings it is read over, no formula divides by
nought and no sum wraps by what it leaves exactly when it leaves the GPU a cost
and a step, and the submit times room beside the lead. -/
theorem readTuningFile_safe_iff (file : List Char) (t : Tuning) :
    Safe (readTuningFile (some file) t).2.tuning ↔
      LeavesRoom (readTuningFile (some file) t).2.tuning := by
  obtain ⟨hfactor, hpixels⟩ := readTuningFile_divisors file t
  generalize (readTuningFile (some file) t).2.tuning = left at hfactor hpixels
  constructor
  · intro h
    have hgpu := (h ⟨0, 0, 0, 0, true⟩ [] 0 0 false false 0).2.2.1
    rw [estimateGpuChecked_eq] at hgpu
    split at hgpu
    · cases hgpu
    rename_i hright
    obtain ⟨hcost, hcap⟩ := not_or.mp hright
    refine ⟨hcost, (gpuLadder_top _).mp (not_or.mp hcap).2, fun cold cpuLifted => ?_⟩
    have hmerge := (h ⟨0, 0, 0, 0, true⟩ [] 0 0 cold cpuLifted 0).2.2.2
    rw [estimateMergeChecked_eq] at hmerge
    split at hmerge
    · rename_i hpath
      exact hpath.2.1.resolve_left (by decide)
    · cases hmerge
  · intro h frame members pixels now cold cpuLifted submitAfter
    have htop := (gpuLadder_top (left .gpuCapMhz)).mpr h.cap
    have hgpu : ¬ (left .gpuPixelsPerKclock = 0 ∨ left .factorPct = 0 ∨
        (gpuLadder (left .gpuCapMhz).toNat).top = 0) := by
      rintro (hzero | hzero | hzero)
      · exact h.cost hzero
      · exact hfactor hzero
      · exact htop hzero
    rw [mergeCyclesChecked_eq, gpuCyclesChecked_eq, estimateGpuChecked_eq,
      estimateMergeChecked_eq, if_neg hpixels, if_neg h.cost, if_neg hgpu,
      if_pos ⟨hpixels, Or.inr (h.path cold cpuLifted), hfactor⟩]
    exact ⟨rfl, rfl, rfl, rfl⟩

/-- The GPU's cost is not guarded as the two that divide are. -/
theorem readTuningFile_not_safe : ¬ ∀ (file : List Char) (t : Tuning),
    Safe (readTuningFile (some file) t).2.tuning := by
  intro h
  have hzero := (h "gpu_pixels_per_kclock=0\n".toList Tuning.defaults ⟨0, 0, 0, 0, true⟩ [] 0 0
    false false 0).2.1
  rw [gpuCyclesChecked_eq, if_pos (by decide)] at hzero
  cases hzero

end TegraHwc.MergePlan
