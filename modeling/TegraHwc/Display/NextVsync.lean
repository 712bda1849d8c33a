import TegraHwc.Display.VSyncWorker
import TegraHwc.Lib.Grid

/-!
# TegraHwc — the vsync a frame waits for

`GetNextVsyncTimestamp` of `display/VSyncWorker.cpp`, and `WaitForPresentTime`
of `hwc/HwcDisplay.cpp`, which asks it twice: of the clock, and of the time the
frame is wanted at. The worker dates its blanks from the last one it knows; the
display holds a period of its own, the active configuration's. No sum or product
of times overflows.

## Results

* `nextVsync_least_iff`   — when the timestamp told is the next one.
* `desiredVsync_near_iff` — when the vsync waited for is the nearest.
* `vsync_next_iff`        — both, of every worker that knows of a blank.
-/

namespace TegraHwc

namespace VSyncWorker

/-- `GetNextVsyncTimestamp`. -/
def getNextVsyncTimestamp (w : VSyncWorker) (time : Int) (fenceTime : Option Int) :
    Int × VSyncWorker :=
  w.getPhasedVSync w.vsyncPeriodNs time fenceTime

/-- What `WaitForPresentTime` comes to: the vsync it takes for the frame's, and
until when it sleeps, where it does. -/
structure PresentWait where
  desiredVsync : Int
  sleepUntil : Option Int
  deriving DecidableEq, Repr

/-- The worker as the wait's second question finds it: asked once already, and
since then its thread may have taken blanks. -/
def askedOnce (w : VSyncWorker) (currentTime : Int) (fenceTime : Option Int)
    (blanks : List (Int × Int)) : VSyncWorker :=
  blanks.foldl (fun w blank => w.takeBlank blank.1 blank.2)
    (w.getNextVsyncTimestamp currentTime fenceTime).2

/-- `WaitForPresentTime`. -/
def waitForPresentTime (w : VSyncWorker) (currentTime presentTime : Int) (vsyncPeriodNs : Nat)
    (fenceTime : Option Int) (blanks : List (Int × Int)) : PresentWait × VSyncWorker :=
  let nextVsyncTime := (w.getNextVsyncTimestamp currentTime fenceTime).1
  let (vsyncAfterPresentTime, w) :=
    (w.askedOnce currentTime fenceTime blanks).getNextVsyncTimestamp presentTime fenceTime
  let vsyncBeforePresentTime := vsyncAfterPresentTime - vsyncPeriodNs
  let desiredVsync :=
    if vsyncAfterPresentTime - presentTime < presentTime - vsyncBeforePresentTime then
      vsyncAfterPresentTime
    else vsyncBeforePresentTime
  let quarterVsyncPeriod : Int := (vsyncPeriodNs / 4 : Nat)
  if desiredVsync - nextVsyncTime < quarterVsyncPeriod then (⟨desiredVsync, none⟩, w)
  else (⟨desiredVsync, some (desiredVsync - quarterVsyncPeriod * 3)⟩, w)

-- ---------------------------------------------------------------------------
-- The next vsync
-- ---------------------------------------------------------------------------

/-- A time truncating division answers: the last timestamp or a later one, or
one on the grid. -/
def Answered (last period time : Int) : Prop := last ≤ time ∨ period ∣ time - last

variable {w : VSyncWorker} {last time : Int} {fenceTime : Option Int}

/-- What a worker that knows of a blank tells. -/
theorem getNextVsyncTimestamp_eq
    (hLast : (w.updateLastVsyncTimeWithPresentTime fenceTime).lastTimestamp = some last) :
    (w.getNextVsyncTimestamp time fenceTime).1 = Grid.truncated last w.vsyncPeriodNs time := by
  unfold getNextVsyncTimestamp getPhasedVSync
  simp only [hLast]
  rfl

theorem nextVsync_least_iff
    (hLast : (w.updateLastVsyncTimeWithPresentTime fenceTime).lastTimestamp = some last)
    (hPeriod : 0 < w.vsyncPeriodNs) :
    IsLeast { x | x ∈ Grid.points last w.vsyncPeriodNs ∧ time < x }
        (w.getNextVsyncTimestamp time fenceTime).1 ↔
      Answered last w.vsyncPeriodNs time := by
  rw [getNextVsyncTimestamp_eq hLast]
  exact Grid.isLeast_truncated_iff (by exact_mod_cast hPeriod)

-- ---------------------------------------------------------------------------
-- The vsync waited for
-- ---------------------------------------------------------------------------

/-- The wait takes the nearest point by a period of its own, told the next point:
`ahead` is how far off that is. -/
def TakesNearest (period own ahead : Int) : Prop :=
  own = period ∨ 2 * ahead ≤ period ∧ (own = 0 ∨ 2 * ahead < own)

/-- It takes the nearest point though told the one after the next. -/
def TakesNearestLate (period own ahead : Int) : Prop :=
  own = period ∧ 2 * ahead ≤ period ∨ own = 2 * period ∧ period ≤ 2 * ahead

/-- The wait's vsync is the nearest to the time the frame is wanted at. -/
def NearestTaken (last period own time : Int) : Prop :=
  let ahead := Grid.next last period time - time
  Answered last period time ∧ TakesNearest period own ahead ∨
    ¬Answered last period time ∧ TakesNearestLate period own ahead

variable {now : Int} {own : Nat} {blanks : List (Int × Int)}

/-- The vsync waited for, by what the second question is told. -/
theorem desiredVsync_eq :
    (w.waitForPresentTime now time own fenceTime blanks).1.desiredVsync =
      let after :=
        ((w.askedOnce now fenceTime blanks).getNextVsyncTimestamp time fenceTime).1
      if after - time < time - (after - own) then after else after - own := by
  unfold waitForPresentTime
  simp only [apply_ite Prod.fst, apply_ite PresentWait.desiredVsync, ite_self]

theorem desiredVsync_near_iff
    (hLast : ((w.askedOnce now fenceTime blanks).updateLastVsyncTimeWithPresentTime
      fenceTime).lastTimestamp = some last)
    (hPeriod : 0 < (w.askedOnce now fenceTime blanks).vsyncPeriodNs) :
    Grid.Nearest (Grid.points last (w.askedOnce now fenceTime blanks).vsyncPeriodNs) time
        (w.waitForPresentTime now time own fenceTime blanks).1.desiredVsync ↔
      NearestTaken last (w.askedOnce now fenceTime blanks).vsyncPeriodNs own time := by
  have hStep : (0 : Int) < (w.askedOnce now fenceTime blanks).vsyncPeriodNs := by
    exact_mod_cast hPeriod
  obtain ⟨hAfter, hNear⟩ := @Grid.next_bounds last _ time hStep
  rw [desiredVsync_eq, getNextVsyncTimestamp_eq hLast, Grid.nearest_iff hStep]
  by_cases hOn : Answered last (w.askedOnce now fenceTime blanks).vsyncPeriodNs time
  · rw [Grid.truncated_eq_next hOn]
    simp only [NearestTaken, hOn, true_and, not_true_eq_false, false_and, or_false]
    unfold TakesNearest
    split <;> omega
  · rw [Grid.truncated_eq_late hStep hOn]
    simp only [NearestTaken, hOn, false_and, not_false_eq_true, true_and, false_or]
    unfold TakesNearestLate
    split <;> omega

/-- **The next vsync is the next.** What is told is the least point of the grid
after the time asked of just where truncating division answers, and the wait
takes the nearest point by its own period as `NearestTaken` says. -/
theorem vsync_next_iff (w : VSyncWorker) (last now time : Int) (own : Nat)
    (fenceTime : Option Int) (blanks : List (Int × Int)) :
    ((w.updateLastVsyncTimeWithPresentTime fenceTime).lastTimestamp = some last →
      0 < w.vsyncPeriodNs →
        (IsLeast { x | x ∈ Grid.points last w.vsyncPeriodNs ∧ time < x }
            (w.getNextVsyncTimestamp time fenceTime).1 ↔
          Answered last w.vsyncPeriodNs time)) ∧
      let asked := w.askedOnce now fenceTime blanks
      ((asked.updateLastVsyncTimeWithPresentTime fenceTime).lastTimestamp = some last →
        0 < asked.vsyncPeriodNs →
          (Grid.Nearest (Grid.points last asked.vsyncPeriodNs) time
              (w.waitForPresentTime now time own fenceTime blanks).1.desiredVsync ↔
            NearestTaken last asked.vsyncPeriodNs own time)) :=
  ⟨nextVsync_least_iff, desiredVsync_near_iff⟩

/-- A worker that waits for blanks, and knows of one at 137. -/
def phased : VSyncWorker := { enabled := true, lastTimestamp := some 137, vsyncPeriodNs := 50 }

/-- Asked of a later time by a display of the same period. -/
theorem vsync_next_phased :
    IsLeast { x | x ∈ Grid.points 137 (50 : Nat) ∧ 683 < x }
        (phased.getNextVsyncTimestamp 683 none).1 ∧
      Grid.Nearest (Grid.points 137 (50 : Nat)) 683
        (phased.waitForPresentTime 600 683 50 none []).1.desiredVsync := by
  obtain ⟨hNext, hNear⟩ := vsync_next_iff phased 137 600 683 50 none []
  exact ⟨(hNext rfl (by decide)).2 (.inl (by decide)),
    (hNear rfl (by decide)).2 (.inl ⟨.inl (by decide), .inl rfl⟩)⟩

/-- **A vsync passed over.** Asked of a time before the last blank, the worker
tells the point after the one that comes next. -/
theorem vsync_passed_over :
    ¬∀ (w : VSyncWorker) (last time : Int),
      w.lastTimestamp = some last → 0 < w.vsyncPeriodNs →
        IsLeast { x | x ∈ Grid.points last w.vsyncPeriodNs ∧ time < x }
          (w.getNextVsyncTimestamp time none).1 := by
  intro h
  have hBlank : (137 : Int) ∈ Grid.points 137 (50 : Nat) := ⟨0, by decide⟩
  have hTold := (h phased 137 100 rfl (by decide)).2 ⟨hBlank, by decide⟩
  revert hTold
  decide

end VSyncWorker

end TegraHwc
