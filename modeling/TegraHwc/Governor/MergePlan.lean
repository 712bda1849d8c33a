import TegraHwc.Governor.TuningFile
import Mathlib.Algebra.Order.Floor.Semiring
import Mathlib.Algebra.Order.Ring.Rat
import Mathlib.Data.Rat.Floor
import Mathlib.Order.Bounds.Basic
import Mathlib.Tactic.Common
import Mathlib.Tactic.FieldSimp
import Mathlib.Tactic.Linarith
import Mathlib.Tactic.Positivity
import Mathlib.Tactic.Ring

/-!
# TegraHwc — from a planned frame to the clock step it needs

`governor/MergePlan.cpp` and `governor/ClockSteps.h`. Times are nanoseconds,
whole numbers in which no sum overflows; a `double` is the rational it stands
for, so no cycles are lost to rounding. What a division by nought gives is
written out where the code can come to one.

## Results

* `ClockLadder.atLeast_isLeast` — the step found is the least there is.
* `latch_isLeast`               — the deadline is a point of the latch grid.
* `estimateWork_right`          — the estimate is right.
-/

namespace TegraHwc.MergePlan

open TuningFile

-- ---------------------------------------------------------------------------
-- The ladder
-- ---------------------------------------------------------------------------

/-- `ClockLadder`: an engine's clock steps, lowest first, and the highest that
may be asked for, nought for the top one. Nought is no step: it is what is
answered where there is none. -/
structure ClockLadder where
  steps : List Nat
  capMhz : Nat
  ascending : steps.Pairwise (· < ·)
  positive : ∀ s ∈ steps, 0 < s

namespace ClockLadder

/-- `Top`: the highest step that may be asked for. -/
def top (l : ClockLadder) : Nat :=
  l.steps.foldl (fun top s => if l.capMhz = 0 ∨ s ≤ l.capMhz then s else top) 0

/-- `AtLeast`: the smallest step up to the top that covers `need`, or nought if
none does. -/
def atLeast (l : ClockLadder) (need : Nat) : Nat :=
  ((l.steps.takeWhile (· ≤ l.top)).find? (need ≤ ·)).getD 0

/-- A step that may be asked for. -/
def Allowed (l : ClockLadder) (s : Nat) : Prop := s ∈ l.steps ∧ (l.capMhz = 0 ∨ s ≤ l.capMhz)

end ClockLadder

/-- `clockStepsMhz`. -/
def clockStepsMhz : List Nat := [180, 258, 336, 378, 420, 462, 504, 552, 600, 684, 720, 756]

/-- `vicLadder`. -/
def vicLadder : ClockLadder where
  steps := clockStepsMhz
  capMhz := 0
  ascending := by decide
  positive := by decide

/-- `gpuStepsMhz`. -/
def gpuStepsMhz : List Nat :=
  [72, 108, 180, 252, 324, 396, 468, 540, 612, 648, 684, 708, 756, 804, 852]

/-- `GpuLadder`. -/
def gpuLadder (capMhz : Nat) : ClockLadder where
  steps := gpuStepsMhz
  capMhz := capMhz
  ascending := by decide
  positive := by decide

-- ---------------------------------------------------------------------------
-- The plan
-- ---------------------------------------------------------------------------

/-- `Member`, as far as its cost goes. -/
structure Member where
  srcW : UInt32
  srcH : UInt32
  dstW : UInt32
  dstH : UInt32

/-- `Frame`, as far as its deadline goes. -/
structure Frame where
  nowNs : Int
  lastLatchNs : Int
  vsyncPeriodNs : Int
  lastEngineUseNs : Int
  previousFlipLanded : Bool

def nsPerUs : Int := 1000
def nsPerMs : Int := 1000000
def nsPerSec : Int := 1000000000

/-- `WorkEstimate`. -/
structure WorkEstimate where
  cycles : ℚ≥0
  deadlineNs : Int := 0
  budgetNs : Int := 0
  needMhz : Nat := 0
  stepMhz : Nat := 0
  late : Bool := false
  beyond : Bool := false
  slipped : Bool := false

/-- A setting, as an `int64_t`. -/
def us (t : Tuning) (key : TuningKey) : Int := (t key).toNat

/-- `EngineCold`. -/
def engineCold (frame : Frame) (lastWarm now : Int) (t : Tuning) : Bool :=
  let lastUse := max frame.lastEngineUseNs lastWarm
  lastUse = 0 ∨ us t .powergateMs * nsPerMs < now - lastUse

/-- `PhaseKnown`. -/
def phaseKnown (frame : Frame) (now : Int) (t : Tuning) : Bool :=
  if frame.lastLatchNs ≤ 0 ∨ frame.vsyncPeriodNs ≤ 0 then false
  else
    let age := now - frame.lastLatchNs
    0 ≤ age ∧ age ≤ us t .phaseMaxAgePeriods * frame.vsyncPeriodNs

/-- `LatchDeadline`. -/
def latchDeadline (frame : Frame) (now : Int) (t : Tuning) : Int :=
  if phaseKnown frame now t then
    let elapsed := now - frame.lastLatchNs
    let periods := elapsed.tdiv frame.vsyncPeriodNs
    let next := frame.lastLatchNs + (periods + 1) * frame.vsyncPeriodNs
    let next := if frame.previousFlipLanded then next else next + frame.vsyncPeriodNs
    next - us t .latchMarginUs * nsPerUs
  else
    let budget := if frame.previousFlipLanded then us t .budgetEmptyUs else us t .budgetWaitedUs
    now + budget * nsPerUs

/-- The area of a merge, the larger of what each member reads and writes, in
sixty-four bits. -/
def area (members : List Member) : Nat :=
  members.foldl (fun area m =>
    (area + max (m.srcW.toNat * m.srcH.toNat) (m.dstW.toNat * m.dstH.toNat)) % 2 ^ 64) 0

/-- `MergeCycles`. -/
def mergeCycles (members : List Member) (t : Tuning) : ℚ≥0 :=
  let raw : ℚ≥0 := (t .jobKcycles).toNat * 1000 + area members / (t .pixelsPerClock).toNat
  raw * (t .factorPct).toNat / 100

/-- `Estimate`: the estimate against one deadline. -/
def estimate (e : WorkEstimate) (deadline submitEnd : Int) (ladder : ClockLadder) : WorkEstimate :=
  let late := deadline - submitEnd < nsPerMs
  let budget := if late then nsPerMs else deadline - submitEnd
  let needHz : ℚ := e.cycles * nsPerSec / budget
  let need := ⌈min (needHz / 1000000) (4 * ladder.top)⌉₊
  let step := ladder.atLeast need
  { e with
    deadlineNs := deadline, budgetNs := budget, late := late, needMhz := need
    beyond := step = 0, stepMhz := if step = 0 then ladder.top else step }

/-- Whether the raw work at the top step does not fit between the shortest path
and the latch. On a ladder with no step the time is infinite, or no number at
all where there is no work, which is under nothing. -/
def hopeless (raw : ℚ≥0) (now deadline : Int) (t : Tuning) (ladder : ClockLadder) : Bool :=
  let soonest := now + us t .leadMinUs * nsPerUs
  if ladder.top = 0 then raw ≠ 0
  else ((deadline - soonest : Int) : ℚ) < raw / ladder.top * 1000

/-- The deadline of a frame that slips: the earlier of the latch after the
nearest and the next frame's expected arrival at the engine. -/
def slippedDeadline (frame : Frame) (deadline : Int) (t : Tuning) : Int :=
  let latch := deadline + us t .latchMarginUs * nsPerUs
  min (deadline + frame.vsyncPeriodNs) (latch + us t .nextSubmitUs * nsPerUs)

/-- `EstimateWork`. -/
def estimateWork (frame : Frame) (cycles raw : ℚ≥0) (now submitEnd : Int) (t : Tuning)
    (ladder : ClockLadder) : WorkEstimate :=
  let deadline := latchDeadline frame now t
  let e := estimate { cycles := cycles } deadline submitEnd ladder
  if hopeless raw now deadline t ladder && phaseKnown frame now t then
    { estimate e (slippedDeadline frame deadline t) submitEnd ladder with slipped := true }
  else e

/-- `GpuCycles`. -/
def gpuCycles (pixels : UInt32) (t : Tuning) : ℚ≥0 :=
  pixels.toNat * 1000 / (t .gpuPixelsPerKclock).toNat * (t .factorPct).toNat / 100

/-- `EstimateGpu`. -/
def estimateGpu (frame : Frame) (pixels : UInt32) (now : Int) (t : Tuning) : WorkEstimate :=
  let cycles := gpuCycles pixels t
  estimateWork frame cycles (cycles * 100 / (t .factorPct).toNat) now
    (now + us t .submitWarmUs * nsPerUs) t (gpuLadder (t .gpuCapMhz).toNat)

/-- `submit_us`: the setting the submit is assumed to take. -/
def submitKey (cold cpuLifted : Bool) : TuningKey :=
  if cold then if cpuLifted then .submitColdUs else .submitColdSlowUs else .submitWarmUs

/-- When the submit will have happened: by the measure, or the assumed lead and
submit from now, added in thirty-two bits. -/
def submitEnd (frame : Frame) (now : Int) (t : Tuning) (cold cpuLifted : Bool)
    (submitAfter : Int) : Int :=
  if 0 < submitAfter then frame.nowNs + submitAfter
  else now + (t .leadUs + t (submitKey cold cpuLifted)).toNat * nsPerUs

/-- `EstimateMerge`. -/
def estimateMerge (frame : Frame) (members : List Member) (now : Int) (t : Tuning)
    (cold cpuLifted : Bool) (submitAfter : Int) : WorkEstimate :=
  let cycles := mergeCycles members t
  let e := estimateWork frame cycles (cycles * 100 / (t .factorPct).toNat) now
    (submitEnd frame now t cold cpuLifted submitAfter) t vicLadder
  if cold ∧ e.stepMhz < (t .minColdMhz).toNat then { e with stepMhz := (t .minColdMhz).toNat }
  else e

-- ---------------------------------------------------------------------------
-- The least step
-- ---------------------------------------------------------------------------

namespace ClockLadder

variable {l : ClockLadder}

theorem foldl_top (cap : Nat) (steps : List Nat) :
    steps.foldl (fun top s => if cap = 0 ∨ s ≤ cap then s else top) 0 =
      ((steps.filter fun s => cap = 0 ∨ s ≤ cap).getLast?).getD 0 := by
  induction steps using List.reverseRecOn with
  | nil => rfl
  | append_singleton steps s ih =>
    rw [List.foldl_append, List.foldl_cons, List.foldl_nil, List.filter_append]
    by_cases hs : cap = 0 ∨ s ≤ cap
    · simp [hs]
    · rw [if_neg hs, ih, List.filter_cons_of_neg (by simpa using hs), List.filter_nil,
        List.append_nil]

/-- The top is the highest step that may be asked for, or nought if none may. -/
theorem top_cases : (l.top = 0 ∧ ∀ s, ¬ l.Allowed s) ∨
    (0 < l.top ∧ IsGreatest {s | l.Allowed s} l.top) := by
  have hmem : ∀ s, s ∈ l.steps.filter (fun s => l.capMhz = 0 ∨ s ≤ l.capMhz) ↔ l.Allowed s := by
    intro s
    simp [Allowed]
  have hsorted := l.ascending.filter fun s => decide (l.capMhz = 0 ∨ s ≤ l.capMhz)
  rw [top, foldl_top]
  rcases List.eq_nil_or_concat (l.steps.filter fun s => decide (l.capMhz = 0 ∨ s ≤ l.capMhz)) with
    hnil | ⟨below, top, hlast⟩
  · refine Or.inl ⟨by rw [hnil]; rfl, fun s hs => ?_⟩
    rw [← hmem, hnil] at hs
    cases hs
  · rw [List.concat_eq_append] at hlast
    rw [hlast, List.pairwise_append] at hsorted
    have htop : l.Allowed top := by
      rw [← hmem, hlast]
      simp
    rw [hlast, List.getLast?_concat, Option.getD_some]
    refine Or.inr ⟨l.positive _ htop.1, htop, fun s hs => ?_⟩
    rw [Set.mem_ofPred_eq, ← hmem, hlast, List.mem_append, List.mem_singleton] at hs
    rcases hs with hbelow | rfl
    · exact Nat.le_of_lt (hsorted.2.2 s hbelow top (by simp))
    · exact le_rfl

theorem mem_takeWhile_of_ascending {b s : Nat} : ∀ {steps : List Nat}, steps.Pairwise (· < ·) →
    (s ∈ steps.takeWhile (· ≤ b) ↔ s ∈ steps ∧ s ≤ b)
  | [], _ => by simp
  | r :: steps, h => by
    obtain ⟨hr, hsteps⟩ := List.pairwise_cons.mp h
    by_cases hrb : r ≤ b
    · rw [List.takeWhile_cons_of_pos (by simpa using hrb), List.mem_cons, List.mem_cons,
        mem_takeWhile_of_ascending hsteps]
      constructor
      · rintro (rfl | hs)
        · exact ⟨Or.inl rfl, hrb⟩
        · exact ⟨Or.inr hs.1, hs.2⟩
      · rintro ⟨rfl | hs, hsb⟩
        · exact Or.inl rfl
        · exact Or.inr ⟨hs, hsb⟩
    · rw [List.takeWhile_cons_of_neg (by simpa using hrb)]
      refine iff_of_false (by simp) ?_
      rintro ⟨hs, hsb⟩
      rcases List.mem_cons.mp hs with rfl | hs
      · exact hrb hsb
      · have := hr s hs
        omega

/-- The steps looked through are those that may be asked for. -/
theorem allowed_iff {s : Nat} : l.Allowed s ↔ s ∈ l.steps ∧ s ≤ l.top := by
  rcases top_cases (l := l) with ⟨htop, hnone⟩ | ⟨-, hmem, hgreatest⟩
  · refine iff_of_false (hnone s) ?_
    rintro ⟨hs, hle⟩
    have := l.positive s hs
    omega
  · constructor
    · exact fun hs => ⟨hs.1, hgreatest hs⟩
    · rintro ⟨hs, hle⟩
      exact ⟨hs, hmem.2.imp_right (le_trans hle)⟩

/-- What is found is the least step of the ladder that covers the need, and one
that may be asked for; or it is nought, and none that may be asked for does. -/
theorem atLeast_isLeast (need : Nat) :
    (0 < l.atLeast need ∧ l.Allowed (l.atLeast need) ∧
      IsLeast {s | s ∈ l.steps ∧ need ≤ s} (l.atLeast need)) ∨
    (l.atLeast need = 0 ∧ ∀ s, l.Allowed s → s < need) := by
  have hmem : ∀ s, s ∈ l.steps.takeWhile (· ≤ l.top) ↔ l.Allowed s := by
    intro s
    rw [mem_takeWhile_of_ascending l.ascending, allowed_iff]
  have hsorted : (l.steps.takeWhile (· ≤ l.top)).Pairwise (· < ·) :=
    l.ascending.sublist (List.takeWhile_sublist _)
  rw [atLeast]
  cases hfind : (l.steps.takeWhile (· ≤ l.top)).find? (need ≤ ·) with
  | none =>
    refine Or.inr ⟨rfl, fun s hs => ?_⟩
    have := List.find?_eq_none.mp hfind s ((hmem s).mpr hs)
    simpa using this
  | some s =>
    obtain ⟨hneed, before, after, hsplit, hbefore⟩ := List.find?_eq_some_iff_append.mp hfind
    rw [decide_eq_true_eq] at hneed
    have hs : l.Allowed s := by
      rw [← hmem, hsplit]
      simp
    rw [Option.getD_some]
    refine Or.inl ⟨l.positive s hs.1, hs, ⟨hs.1, hneed⟩, ?_⟩
    rintro r ⟨hr, hrneed⟩
    -- a lower step may be asked for too, and was looked at before
    by_contra hlt
    rw [not_le] at hlt
    have hr' : l.Allowed r := allowed_iff.mpr ⟨hr, (Nat.le_of_lt hlt).trans (allowed_iff.mp hs).2⟩
    rw [← hmem, hsplit, List.mem_append, List.mem_cons] at hr'
    rw [hsplit, List.pairwise_append, List.pairwise_cons] at hsorted
    rcases hr' with hr' | rfl | hr'
    · have := hbefore r hr'
      simp only [Bool.not_eq_true', decide_eq_false_iff_not] at this
      exact this hrneed
    · exact lt_irrefl r hlt
    · exact lt_asymm hlt (hsorted.2.1.1 r hr')

end ClockLadder

-- ---------------------------------------------------------------------------
-- The latch grid
-- ---------------------------------------------------------------------------

/-- The last latch the display reported and whole periods from it. -/
def latchGrid (frame : Frame) : Set Int :=
  {p | ∃ k : Int, p = frame.lastLatchNs + k * frame.vsyncPeriodNs}

theorem phaseKnown_iff {frame : Frame} {now : Int} {t : Tuning} :
    phaseKnown frame now t = true ↔ 0 < frame.lastLatchNs ∧ 0 < frame.vsyncPeriodNs ∧
      frame.lastLatchNs ≤ now ∧
      now - frame.lastLatchNs ≤ us t .phaseMaxAgePeriods * frame.vsyncPeriodNs := by
  unfold phaseKnown
  split
  · rename_i h
    refine iff_of_false (by simp) ?_
    omega
  · rename_i h
    dsimp only
    rw [decide_eq_true_eq]
    constructor
    · rintro ⟨hage, hold⟩
      refine ⟨by omega, by omega, by omega, hold⟩
    · rintro ⟨-, -, hage, hold⟩
      exact ⟨by omega, hold⟩

/-- After so many whole periods the next point is the first after the time. -/
theorem next_isLeast {frame : Frame} {now k : Int} (hperiod : 0 < frame.vsyncPeriodNs)
    (hk : frame.lastLatchNs + k * frame.vsyncPeriodNs ≤ now)
    (hnext : now < frame.lastLatchNs + (k + 1) * frame.vsyncPeriodNs) :
    IsLeast {p | p ∈ latchGrid frame ∧ now < p}
      (frame.lastLatchNs + (k + 1) * frame.vsyncPeriodNs) := by
  refine ⟨⟨⟨k + 1, rfl⟩, hnext⟩, ?_⟩
  rintro p ⟨⟨j, rfl⟩, hp⟩
  have hlt : k * frame.vsyncPeriodNs < j * frame.vsyncPeriodNs := by omega
  have hkj : k + 1 ≤ j := lt_of_mul_lt_mul_right hlt (le_of_lt hperiod)
  have := mul_le_mul_of_nonneg_right hkj (le_of_lt hperiod)
  omega

/-- With the phase known the deadline is, before the margin, the first point of
the grid after now, or the second where the previous flip has not landed. -/
theorem latch_isLeast {frame : Frame} {now : Int} {t : Tuning}
    (h : phaseKnown frame now t = true) :
    ∃ first, IsLeast {p | p ∈ latchGrid frame ∧ now < p} first ∧
      (frame.previousFlipLanded = true →
        latchDeadline frame now t + us t .latchMarginUs * nsPerUs = first) ∧
      (frame.previousFlipLanded = false →
        IsLeast {p | p ∈ latchGrid frame ∧ first < p}
          (latchDeadline frame now t + us t .latchMarginUs * nsPerUs)) := by
  obtain ⟨-, hperiod, hage, -⟩ := phaseKnown_iff.mp h
  obtain ⟨k, hk⟩ : ∃ k, (now - frame.lastLatchNs).tdiv frame.vsyncPeriodNs = k := ⟨_, rfl⟩
  have hdiv : (now - frame.lastLatchNs) / frame.vsyncPeriodNs = k := by
    rw [← hk, Int.tdiv_eq_ediv_of_nonneg (by omega)]
  have hmod := Int.emod_add_mul_ediv (now - frame.lastLatchNs) frame.vsyncPeriodNs
  have hlow := Int.emod_nonneg (now - frame.lastLatchNs) (ne_of_gt hperiod)
  have hhigh := Int.emod_lt_of_pos (now - frame.lastLatchNs) hperiod
  rw [hdiv, Int.mul_comm] at hmod
  have hsucc : (k + 1) * frame.vsyncPeriodNs = k * frame.vsyncPeriodNs + frame.vsyncPeriodNs := by
    ring
  refine ⟨frame.lastLatchNs + (k + 1) * frame.vsyncPeriodNs,
    next_isLeast hperiod (by omega) (by omega), fun hlanded => ?_, fun hlanded => ?_⟩
  · simp [latchDeadline, h, hk, hlanded]
  · have hsecond : latchDeadline frame now t + us t .latchMarginUs * nsPerUs =
        frame.lastLatchNs + (k + 1 + 1) * frame.vsyncPeriodNs := by
      simp only [latchDeadline, h, hk, hlanded, if_true, Bool.false_eq_true, if_false]
      ring
    rw [hsecond]
    refine next_isLeast hperiod le_rfl ?_
    have : (k + 1 + 1) * frame.vsyncPeriodNs =
        (k + 1) * frame.vsyncPeriodNs + frame.vsyncPeriodNs := by ring
    omega

-- ---------------------------------------------------------------------------
-- The estimate
-- ---------------------------------------------------------------------------

/-- A clock of so many megahertz makes the cycles in the budget. -/
def Covers (cycles : ℚ≥0) (budget : Int) (mhz : Nat) : Prop := (cycles : ℚ) ≤ mhz * budget / 1000

/-- An estimate that is right: a budget of a millisecond at least, the least
step whose cycles in it cover the work, or the top one where none does; slipped
once at most, with the phase known and no budget lost; and aimed at a latch. -/
structure EstimateRight (frame : Frame) (cycles : ℚ≥0) (now submitEnd : Int) (t : Tuning)
    (ladder : ClockLadder) (e : WorkEstimate) : Prop where
  budget : nsPerMs ≤ e.budgetNs
  least : e.beyond = false → ladder.Allowed e.stepMhz ∧
    IsLeast {s | s ∈ ladder.steps ∧ Covers cycles e.budgetNs s} e.stepMhz
  beyond : e.beyond = true → e.stepMhz = ladder.top ∧
    ∀ s, ladder.Allowed s → ¬ Covers cycles e.budgetNs s
  aimed : e.slipped = false → e.deadlineNs = latchDeadline frame now t
  once : e.slipped = true → phaseKnown frame now t = true ∧
    e.deadlineNs = slippedDeadline frame (latchDeadline frame now t) t ∧
    e.deadlineNs ≤ latchDeadline frame now t + frame.vsyncPeriodNs
  longer : (estimate { cycles := cycles } (latchDeadline frame now t) submitEnd ladder).budgetNs ≤
    e.budgetNs
  latch : phaseKnown frame now t = true →
    ∃ first, IsLeast {p | p ∈ latchGrid frame ∧ now < p} first ∧
      (frame.previousFlipLanded = true →
        latchDeadline frame now t + us t .latchMarginUs * nsPerUs = first) ∧
      (frame.previousFlipLanded = false →
        IsLeast {p | p ∈ latchGrid frame ∧ first < p}
          (latchDeadline frame now t + us t .latchMarginUs * nsPerUs))

section Estimate

variable {e : WorkEstimate} {deadline submitEnd : Int} {ladder : ClockLadder}

theorem estimate_budgetNs (e : WorkEstimate) (deadline submitEnd : Int) (ladder : ClockLadder) :
    (estimate e deadline submitEnd ladder).budgetNs = max nsPerMs (deadline - submitEnd) := by
  simp only [estimate]
  split <;> omega

/-- A step up to the top meets the need, rounded up and cut at four times the
top, exactly when it covers the work. -/
theorem need_le_iff {cycles : ℚ≥0} {budget : Int} {top s : Nat} (hbudget : 0 < budget)
    (hs : 0 < s) (htop : s ≤ top) :
    ⌈min ((cycles : ℚ) * nsPerSec / budget / 1000000) (4 * top)⌉₊ ≤ s ↔ Covers cycles budget s := by
  have hb : (0 : ℚ) < budget := by exact_mod_cast hbudget
  have hcut : ¬ (4 * (top : ℚ) ≤ s) := by
    rw [not_le]
    exact_mod_cast (by omega : s < 4 * top)
  rw [Nat.ceil_le, min_le_iff, or_iff_left hcut, Covers, div_le_iff₀ (by norm_num),
    div_le_iff₀ hb, le_div_iff₀ (by norm_num)]
  unfold nsPerSec
  push_cast
  constructor <;> intro h <;> linarith

theorem estimate_budget_pos : 0 < (estimate e deadline submitEnd ladder).budgetNs := by
  rw [estimate_budgetNs]
  exact lt_of_lt_of_le (by decide) (le_max_left _ _)

theorem estimate_needMhz :
    (estimate e deadline submitEnd ladder).needMhz =
      ⌈min ((e.cycles : ℚ) * nsPerSec / (estimate e deadline submitEnd ladder).budgetNs / 1000000)
        (4 * ladder.top)⌉₊ := rfl

/-- What is asked for is in thirty-two bits where four times the top is. -/
theorem estimate_needMhz_le : (estimate e deadline submitEnd ladder).needMhz ≤ 4 * ladder.top := by
  rw [estimate_needMhz, Nat.ceil_le]
  push_cast
  exact min_le_right _ _

theorem estimate_step (e : WorkEstimate) (deadline submitEnd : Int) (ladder : ClockLadder) :
    (estimate e deadline submitEnd ladder).beyond =
        decide (ladder.atLeast (estimate e deadline submitEnd ladder).needMhz = 0) ∧
      (estimate e deadline submitEnd ladder).stepMhz =
        if ladder.atLeast (estimate e deadline submitEnd ladder).needMhz = 0 then ladder.top
        else ladder.atLeast (estimate e deadline submitEnd ladder).needMhz := ⟨rfl, rfl⟩

/-- A step that may be asked for meets the need exactly when it covers the
work. -/
theorem needMhz_le_iff {s : Nat} (hs : ladder.Allowed s) :
    (estimate e deadline submitEnd ladder).needMhz ≤ s ↔
      Covers e.cycles (estimate e deadline submitEnd ladder).budgetNs s := by
  rw [estimate_needMhz]
  exact need_le_iff estimate_budget_pos (ladder.positive s hs.1) (ClockLadder.allowed_iff.mp hs).2

/-- Against a deadline the least step that covers the work is taken. -/
theorem estimate_least (h : (estimate e deadline submitEnd ladder).beyond = false) :
    ladder.Allowed (estimate e deadline submitEnd ladder).stepMhz ∧
      IsLeast {s | s ∈ ladder.steps ∧
          Covers e.cycles (estimate e deadline submitEnd ladder).budgetNs s}
        (estimate e deadline submitEnd ladder).stepMhz := by
  obtain ⟨hbeyond, hstep⟩ := estimate_step e deadline submitEnd ladder
  rw [hbeyond, decide_eq_false_iff_not] at h
  rw [hstep, if_neg h]
  rcases ladder.atLeast_isLeast (estimate e deadline submitEnd ladder).needMhz with
    ⟨-, hallowed, ⟨hmem, hneed⟩, hleast⟩ | ⟨hzero, -⟩
  · refine ⟨hallowed, ⟨hmem, (needMhz_le_iff hallowed).mp hneed⟩, ?_⟩
    rintro r ⟨hr, hcovers⟩
    by_cases htop : r ≤ ladder.top
    · exact hleast ⟨hr, (needMhz_le_iff (ClockLadder.allowed_iff.mpr ⟨hr, htop⟩)).mpr hcovers⟩
    · have := (ClockLadder.allowed_iff.mp hallowed).2
      omega
  · exact absurd hzero h

/-- Where none does, the top one. -/
theorem estimate_beyond (h : (estimate e deadline submitEnd ladder).beyond = true) :
    (estimate e deadline submitEnd ladder).stepMhz = ladder.top ∧ ∀ s, ladder.Allowed s →
      ¬ Covers e.cycles (estimate e deadline submitEnd ladder).budgetNs s := by
  obtain ⟨hbeyond, hstep⟩ := estimate_step e deadline submitEnd ladder
  rw [hbeyond, decide_eq_true_eq] at h
  rw [hstep, if_pos h]
  refine ⟨rfl, fun s hs => ?_⟩
  rcases ladder.atLeast_isLeast (estimate e deadline submitEnd ladder).needMhz with
    ⟨hpos, -⟩ | ⟨-, hnone⟩
  · omega
  · rw [← needMhz_le_iff hs, not_le]
    exact hnone s hs

end Estimate

/-- The deadline of a frame that slips is the latch's or later, and not past the
latch after. -/
theorem slippedDeadline_bounds {frame : Frame} (deadline : Int) (t : Tuning)
    (hperiod : 0 < frame.vsyncPeriodNs) :
    deadline ≤ slippedDeadline frame deadline t ∧
      slippedDeadline frame deadline t ≤ deadline + frame.vsyncPeriodNs := by
  have hus : ∀ key, 0 ≤ us t key * nsPerUs := by
    intro key
    unfold us nsPerUs
    omega
  have hmargin := hus .latchMarginUs
  have hnext := hus .nextSubmitUs
  unfold slippedDeadline
  dsimp only
  omega

/-- For any frame, work, times, settings and ladder, the estimate is right. -/
theorem estimateWork_right (frame : Frame) (cycles raw : ℚ≥0) (now submitEnd : Int) (t : Tuning)
    (ladder : ClockLadder) :
    EstimateRight frame cycles now submitEnd t ladder
      (estimateWork frame cycles raw now submitEnd t ladder) := by
  unfold estimateWork
  dsimp only
  split
  · rename_i hslips
    rw [Bool.and_eq_true] at hslips
    obtain ⟨-, hperiod, -⟩ := phaseKnown_iff.mp hslips.2
    obtain ⟨hlow, hhigh⟩ := slippedDeadline_bounds (latchDeadline frame now t) t hperiod
    have hfirst := estimate_budgetNs { cycles := cycles } (latchDeadline frame now t) submitEnd ladder
    have hsecond := estimate_budgetNs
      (estimate { cycles := cycles } (latchDeadline frame now t) submitEnd ladder)
      (slippedDeadline frame (latchDeadline frame now t) t) submitEnd ladder
    refine ⟨?_, fun h => ?_, fun h => ?_, fun h => ?_, fun _ => ⟨hslips.2, rfl, hhigh⟩, ?_,
      latch_isLeast⟩
    · exact hsecond.symm ▸ le_max_left _ _
    · exact estimate_least h
    · exact estimate_beyond h
    · cases h
    · rw [hfirst]
      exact hsecond.symm ▸ max_le_max le_rfl (Int.sub_le_sub_right hlow _)
  · refine ⟨?_, fun h => ?_, fun h => ?_, fun _ => rfl, fun h => ?_, le_rfl, latch_isLeast⟩
    · rw [estimate_budgetNs]
      exact le_max_left _ _
    · exact estimate_least h
    · exact estimate_beyond h
    · cases h

-- Three full screens ten milliseconds into a frame whose predecessor has landed:
-- slipped, and asked 552 MHz by the defaults.
example : (estimateMerge ⟨1000000000, 990000000, 16666667, 0, true⟩
    (List.replicate 3 ⟨1536, 2048, 1536, 2048⟩) 1000000000 Tuning.defaults false false 0).stepMhz =
      552 := by
  decide +kernel

end TegraHwc.MergePlan
