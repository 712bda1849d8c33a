import TegraHwc.Lib.Runs
import Mathlib.Tactic.Common

/-!
# TegraHwc — the blanks and the period told

`display/VSyncWorker.cpp`, and what `hwc/HwcDisplay.cpp` asks of it. A thread
waits for the panel's blanks while it is enabled and tells the client of each;
the display sets the flags that enable it, each under the worker's lock, and
works out afterwards, under the lock again, whether it is. A rate changed
without a mode set is taken up by the panel some time later, and the period
told is to change at the first blank that runs at it: nothing but a blank read
can find that out.

Each stretch of code under the lock is a step; a call of the display is a list
of them, and the thread's own steps fall between any two. The display is called
under the composer's lock, one call at a time. Times, what the source answers
and what a fence says come from outside.

## Results

* `told_step`     — what changes the period told.
* `sound_step`    — a worker that could find out stays one that can.
* `vsync_taken_up` — in every run that keeps it so, a pending period is taken up.
-/

namespace TegraHwc

open Runs

-- ---------------------------------------------------------------------------
-- The worker
-- ---------------------------------------------------------------------------

/-- `VSyncWorker`, less its thread and what it is told through; a `callback` is
whether there is one. -/
structure VSyncWorker where
  enabled : Bool := false
  lastTimestamp : Option Int := none
  vsyncPeriodNs : Nat := 16666666
  expectedPeriodNs : Nat := 0
  enableVsyncTimestamps : Bool := false
  displayOn : Bool := true
  lastTimestampIsFresh : Bool := false
  callback : Bool := false
  lastPresentFence : Bool := false
  deriving DecidableEq, Repr

/-- What is done under the worker's lock for the display. A fence's word is when
it was signalled, where it has been. -/
inductive Critical where
  | updateVSyncControl
  | setVsyncPeriodNs (period : Nat)
  | expectVsyncPeriodNs (period : Nat)
  | setVsyncTimestampTracking (enabled : Bool)
  | getLastVsyncTimestamp
  | setDisplayOn (on : Bool)
  | addLastPresentFence
  | getNextVsyncTimestamp (fenceTime : Option Int)
  | setTimestampCallback (callback : Bool)
  deriving DecidableEq, Repr

/-- A stretch that sets a flag the worker is enabled by. -/
def Critical.movesFlags : Critical → Bool
  | .setVsyncTimestampTracking _ => true
  | .setDisplayOn _ => true
  | .setTimestampCallback _ => true
  | _ => false

/-- A stretch that says anew what period is pending. -/
def Critical.settles : Critical → Bool
  | .setVsyncPeriodNs _ => true
  | .expectVsyncPeriodNs _ => true
  | _ => false

namespace VSyncWorker

/-- `ShouldEnable`. -/
def shouldEnable (w : VSyncWorker) : Bool :=
  w.displayOn && (w.enableVsyncTimestamps || w.callback)

/-- `UpdateLastVsyncTimeWithPresentTime`. -/
def updateLastVsyncTimeWithPresentTime (w : VSyncWorker) (fenceTime : Option Int) : VSyncWorker :=
  if w.enabled then { w with lastPresentFence := false }
  else
    let fenceTime := if w.lastPresentFence then fenceTime else none
    let w := { w with lastPresentFence := false }
    if w.lastTimestamp.getD 0 < fenceTime.getD 0 then { w with lastTimestamp := fenceTime } else w

/-- `GetPhasedVSync`. -/
def getPhasedVSync (w : VSyncWorker) (frameNs current : Int) (fenceTime : Option Int) :
    Int × VSyncWorker :=
  let w := w.updateLastVsyncTimeWithPresentTime fenceTime
  match w.lastTimestamp with
  | none => (current + frameNs, w)
  | some last => (frameNs * ((current - last).tdiv frameNs + 1) + last, w)

/-- `RanAtExpectedPeriod`. -/
def ranAtExpectedPeriod (w : VSyncWorker) (ranPeriodNs : Int) : Bool :=
  decide ((ranPeriodNs - w.expectedPeriodNs).natAbs ≤ w.expectedPeriodNs / 100)

/-- `LandsOnExpectedPeriod`. -/
def landsOnExpectedPeriod (w : VSyncWorker) (previous timestamp : Int) : Bool :=
  decide ((timestamp - previous - w.expectedPeriodNs).natAbs ≤ w.expectedPeriodNs / 5)

/-- `took_hold`: by the display's word on the frame, or else by its blanks. -/
def tookHold (w : VSyncWorker) (timestamp ranPeriodNs : Int) : Bool :=
  if ranPeriodNs ≠ 0 then w.ranAtExpectedPeriod ranPeriodNs
  else
    match w.lastTimestamp with
    | none => false
    | some last => w.landsOnExpectedPeriod last timestamp

/-- A blank read, as the thread takes it down. -/
def takeBlank (w : VSyncWorker) (timestamp ranPeriodNs : Int) : VSyncWorker :=
  if w.enabled then
    let took := decide (w.expectedPeriodNs ≠ 0) && w.tookHold timestamp ranPeriodNs
    { w with
      lastTimestampIsFresh := w.lastTimestampIsFresh || w.enableVsyncTimestamps
      vsyncPeriodNs := if took then w.expectedPeriodNs else w.vsyncPeriodNs
      expectedPeriodNs := if took then 0 else w.expectedPeriodNs
      lastTimestamp := some timestamp }
  else w

/-- One stretch under the lock. -/
def enter (w : VSyncWorker) : Critical → VSyncWorker
  | .updateVSyncControl => { w with enabled := w.shouldEnable }
  | .setVsyncPeriodNs period =>
    { w with
      vsyncPeriodNs := period
      expectedPeriodNs := 0
      lastTimestamp := none
      lastPresentFence := false }
  | .expectVsyncPeriodNs period =>
    { w with expectedPeriodNs := if period = w.vsyncPeriodNs then 0 else period }
  | .setVsyncTimestampTracking enabled =>
    { w with
      enableVsyncTimestamps := enabled
      lastTimestampIsFresh := if enabled then false else w.lastTimestampIsFresh }
  | .getLastVsyncTimestamp => w
  | .setDisplayOn on => { w with displayOn := on }
  | .addLastPresentFence => { w with lastPresentFence := true }
  | .getNextVsyncTimestamp fenceTime => w.updateLastVsyncTimeWithPresentTime fenceTime
  | .setTimestampCallback callback => { w with callback := callback }

/-- `GetLastVsyncTimestamp`. -/
def getLastVsyncTimestamp (w : VSyncWorker) : Int :=
  if w.lastTimestampIsFresh then w.lastTimestamp.getD 0 else 0

/-- What a blank's callback is told, where there is one. -/
def tellsOf (w : VSyncWorker) (timestamp ranPeriodNs : Int) : List (Int × Nat) :=
  if w.enabled && w.callback then [(timestamp, (w.takeBlank timestamp ranPeriodNs).vsyncPeriodNs)]
  else []

end VSyncWorker

-- ---------------------------------------------------------------------------
-- The thread
-- ---------------------------------------------------------------------------

/-- Where the thread is: before its lock, telling the source to stop, asleep on
the condition, waiting for a blank, or asleep until the timer's. -/
inductive Phase where
  | top
  | stopping
  | waiting
  | reading
  | sleeping (timestamp : Int)
  deriving DecidableEq, Repr

/-- What the thread does next, with what the source and the timer answer. A
sleeper wakes when it is notified, and may without. -/
inductive ThreadStep where
  | lock
  | wake
  | wakeUnasked
  | blank (timestamp ranPeriodNs : Int)
  | interrupted
  | noBlank (now : Int) (fenceTime : Option Int)
  | slept
  | sleepFailed
  deriving DecidableEq, Repr

-- ---------------------------------------------------------------------------
-- The display
-- ---------------------------------------------------------------------------

/-- A mode among the display's configurations. -/
structure VSyncMode where
  groupId : Nat := 0
  periodNs : Nat
  deriving DecidableEq, Repr

/-- What is fixed: the configurations, and whether the display has blanks to
wait on. -/
structure VSyncConfig where
  getConfig : Nat → Option VSyncMode
  hasSource : Bool := true

/-- A display with its worker: the thread, whether it has been notified, and
what is left of a call under way. -/
structure VSyncDisplay where
  worker : VSyncWorker := {}
  phase : Phase := .top
  notified : Bool := false
  todo : List Critical := []
  activeConfigId : Nat := 0
  stagedModeConfigId : Option Nat := none
  deriving DecidableEq, Repr

/-- A call of the display, with what the commit and the clock answer. -/
inductive DisplayCall where
  | setVsyncCallbacksEnabled (enabled : Bool)
  | setConfig (config : Nat) (committed : Bool)
  | queueConfig (config : Nat) (fenceTime : Option Int)
  | present (due seamless fence : Bool)
  | setPowerMode (on active committed : Bool)
  | getNextConfig (fenceTime : Option Int)
  deriving DecidableEq, Repr

namespace VSyncDisplay

variable (c : VSyncConfig)

/-- `SetVsyncTimestampTracking`. -/
def setVsyncTimestampTracking (enabled : Bool) : List Critical :=
  [.setVsyncTimestampTracking enabled, .updateVSyncControl]

/-- `ApplyCommitChanges`, of a commit with a mode. -/
def applyCommitChanges (mode : VSyncMode) (seamless : Bool) : List Critical :=
  setVsyncTimestampTracking false ++
    [.getLastVsyncTimestamp,
      if seamless then .expectVsyncPeriodNs mode.periodNs else .setVsyncPeriodNs mode.periodNs]

/-- `SetConfig`: a mode set that goes through is in force when it returns. -/
def setConfig (s : VSyncDisplay) (config : Nat) (committed : Bool) :
    Bool × VSyncDisplay :=
  match c.getConfig config with
  | none => (false, s)
  | some mode =>
    if committed then
      (true,
        { s with
          activeConfigId := config
          stagedModeConfigId := none
          todo := s.todo ++ [.setVsyncPeriodNs mode.periodNs] })
    else (false, s)

/-- `QueueConfig`: blanks are tracked until the mode is applied. -/
def queueConfig (s : VSyncDisplay) (config : Nat) (fenceTime : Option Int) : VSyncDisplay :=
  match c.getConfig config, c.getConfig s.activeConfigId with
  | some new, some current =>
    if current.groupId ≠ new.groupId then s
    else
      { s with
        stagedModeConfigId := some config
        todo := s.todo ++ .getNextVsyncTimestamp fenceTime :: setVsyncTimestampTracking true }
  | _, _ => s

/-- `PresentStagedComposition`, of a frame that goes up: a mode staged and due is
in its commit. -/
def present (s : VSyncDisplay) (due seamless fence : Bool) : VSyncDisplay :=
  let fences : List Critical := if fence then [.addLastPresentFence] else []
  match s.stagedModeConfigId.filter fun _ => due with
  | none => { s with todo := s.todo ++ fences }
  | some config =>
    match c.getConfig config with
    | none => s
    | some mode =>
      { s with
        activeConfigId := config
        stagedModeConfigId := none
        todo := s.todo ++ applyCommitChanges mode seamless ++ fences }

/-- `SetPowerMode`: a head that is not active is configured before it is lit. -/
def setPowerMode (s : VSyncDisplay) (on active committed : Bool) : VSyncDisplay :=
  let lit (s : VSyncDisplay) : VSyncDisplay :=
    { s with todo := s.todo ++ [.setDisplayOn on, .updateVSyncControl] }
  if on && !active then
    match c.getConfig (s.stagedModeConfigId.getD s.activeConfigId) with
    | none => lit s
    | some _ =>
      let (configured, s') := s.setConfig c (s.stagedModeConfigId.getD s.activeConfigId) committed
      if configured then lit s' else s'
  else if committed || on then lit s
  else s

/-- What a call has to do. -/
def called (s : VSyncDisplay) : DisplayCall → VSyncDisplay
  | .setVsyncCallbacksEnabled enabled =>
    { s with todo := s.todo ++ [.setTimestampCallback enabled, .updateVSyncControl] }
  | .setConfig config committed => (s.setConfig c config committed).2
  | .queueConfig config fenceTime => s.queueConfig c config fenceTime
  | .present due seamless fence => s.present c due seamless fence
  | .setPowerMode on active committed => s.setPowerMode c on active committed
  | .getNextConfig fenceTime => { s with todo := s.todo ++ [.getNextVsyncTimestamp fenceTime] }

/-- The next stretch of the call under way; `UpdateVSyncControl` notifies the
thread. -/
def enterNext (s : VSyncDisplay) : Option VSyncDisplay :=
  match s.todo with
  | [] => none
  | critical :: rest =>
    some
      { s with
        worker := s.worker.enter critical
        todo := rest
        notified := s.notified || decide (critical = .updateVSyncControl) }

/-- The thread under its lock, before a blank: asleep if it is not enabled, the
source told first. -/
def lockTop (s : VSyncDisplay) (told : Bool) : VSyncDisplay :=
  if s.worker.enabled then { s with phase := .reading }
  else if c.hasSource && !told then { s with phase := .stopping }
  else { s with phase := .waiting, notified := false }

/-- The thread awake under its lock. -/
def woken (s : VSyncDisplay) : VSyncDisplay :=
  { s with phase := if s.worker.enabled then .reading else .top }

/-- A blank taken down. -/
def readBlank (s : VSyncDisplay) (timestamp ranPeriodNs : Int) : VSyncDisplay :=
  { s with worker := s.worker.takeBlank timestamp ranPeriodNs, phase := .top }

/-- A step of the thread; none where it is elsewhere. -/
def threadStep (s : VSyncDisplay) (t : ThreadStep) : Option VSyncDisplay :=
  match s.phase, t with
  | .top, .lock => some (s.lockTop c false)
  | .stopping, .lock => some (s.lockTop c true)
  | .waiting, .wake => if s.notified then some s.woken else none
  | .waiting, .wakeUnasked => some s.woken
  | .reading, .blank timestamp ranPeriodNs =>
    if c.hasSource then some (s.readBlank timestamp ranPeriodNs) else none
  | .reading, .interrupted => if c.hasSource then some { s with phase := .top } else none
  | .reading, .noBlank now fenceTime =>
    let (timestamp, worker) := s.worker.getPhasedVSync s.worker.vsyncPeriodNs now fenceTime
    some { s with worker := worker, phase := .sleeping timestamp }
  | .sleeping timestamp, .slept => some (s.readBlank timestamp 0)
  | .sleeping _, .sleepFailed => some { s with phase := .top }
  | _, _ => none

/-- What happens to a display: a call begins, goes on, or the thread does. -/
inductive Action where
  | call (call : DisplayCall)
  | next
  | thread (t : ThreadStep)
  deriving DecidableEq, Repr

/-- What the client is told of a step. -/
def told (s : VSyncDisplay) (t : ThreadStep) : List (Int × Nat) :=
  match s.phase, t with
  | .reading, .blank timestamp ranPeriodNs => s.worker.tellsOf timestamp ranPeriodNs
  | .sleeping timestamp, .slept => s.worker.tellsOf timestamp 0
  | _, _ => []

/-- The display and its worker, run; it emits what the client is told. -/
def machine : Machine VSyncDisplay Action (Int × Nat) where
  step s
    | .call call => if s.todo = [] then some (s.called c call) else none
    | .next => s.enterNext
    | .thread t => s.threadStep c t
  events s
    | .thread t => s.told t
    | _ => []

-- ---------------------------------------------------------------------------
-- What changes the period told
-- ---------------------------------------------------------------------------

variable {c} {s s' : VSyncDisplay}

theorem takeBlank_period {w : VSyncWorker} {timestamp ranPeriodNs : Int}
    (h : (w.takeBlank timestamp ranPeriodNs).vsyncPeriodNs ≠ w.vsyncPeriodNs) :
    w.enabled = true ∧ w.expectedPeriodNs ≠ 0 ∧ w.tookHold timestamp ranPeriodNs = true ∧
      (w.takeBlank timestamp ranPeriodNs).vsyncPeriodNs = w.expectedPeriodNs := by
  unfold VSyncWorker.takeBlank at h ⊢
  split at h
  · rename_i hEnabled
    rw [if_pos hEnabled]
    simp only at h ⊢
    split at h
    · rename_i hTook
      rw [if_pos hTook]
      obtain ⟨hExpected, hHold⟩ := Bool.and_eq_true_iff.mp hTook
      exact ⟨hEnabled, of_decide_eq_true hExpected, hHold, rfl⟩
    · exact absurd rfl h
  · exact absurd rfl h

/-- Catching up with a fence moves the last timestamp alone. -/
theorem updateTime_keeps (w : VSyncWorker) (fenceTime : Option Int) :
    ∃ last, w.updateLastVsyncTimeWithPresentTime fenceTime =
      { w with lastTimestamp := last, lastPresentFence := false } := by
  unfold VSyncWorker.updateLastVsyncTimeWithPresentTime
  split
  · exact ⟨_, rfl⟩
  · simp only
    generalize (if w.lastPresentFence = true then fenceTime else none) = signalled
    split
    · exact ⟨_, rfl⟩
    · exact ⟨_, rfl⟩

theorem phased_keeps (w : VSyncWorker) (frameNs current : Int) (fenceTime : Option Int) :
    ∃ last, (w.getPhasedVSync frameNs current fenceTime).2 =
      { w with lastTimestamp := last, lastPresentFence := false } := by
  obtain ⟨last, hLast⟩ := updateTime_keeps w fenceTime
  refine ⟨last, ?_⟩
  unfold VSyncWorker.getPhasedVSync
  rw [hLast]
  cases last <;> rfl

/-- A stretch under the lock changes the period told only where it sets it. -/
theorem enter_period {w : VSyncWorker} {critical : Critical}
    (h : (w.enter critical).vsyncPeriodNs ≠ w.vsyncPeriodNs) :
    critical = .setVsyncPeriodNs (w.enter critical).vsyncPeriodNs := by
  cases critical with
  | setVsyncPeriodNs period => rfl
  | getNextVsyncTimestamp fenceTime =>
    obtain ⟨last, hLast⟩ := updateTime_keeps w fenceTime
    simp only [VSyncWorker.enter, hLast] at h
    exact absurd rfl h
  | _ => exact absurd rfl h

/-- A call that begins leaves the worker for its stretches. -/
theorem called_worker (s : VSyncDisplay) (call : DisplayCall) :
    (s.called c call).worker = s.worker ∧ (s.called c call).phase = s.phase ∧
      (s.called c call).notified = s.notified := by
  have hConfig : ∀ config committed, (s.setConfig c config committed).2.worker = s.worker ∧
      (s.setConfig c config committed).2.phase = s.phase ∧
      (s.setConfig c config committed).2.notified = s.notified := by
    intro config committed
    unfold setConfig
    split
    · exact ⟨rfl, rfl, rfl⟩
    · split <;> exact ⟨rfl, rfl, rfl⟩
  cases call with
  | setVsyncCallbacksEnabled enabled => exact ⟨rfl, rfl, rfl⟩
  | setConfig config committed => exact hConfig config committed
  | queueConfig config fenceTime =>
    unfold called queueConfig
    simp only
    split
    · split <;> exact ⟨rfl, rfl, rfl⟩
    · exact ⟨rfl, rfl, rfl⟩
  | present due seamless fence =>
    unfold called present
    simp only
    split
    · exact ⟨rfl, rfl, rfl⟩
    · split <;> exact ⟨rfl, rfl, rfl⟩
  | setPowerMode on active committed =>
    unfold called setPowerMode
    simp only
    split
    · split
      · exact ⟨rfl, rfl, rfl⟩
      · obtain hSet := hConfig (s.stagedModeConfigId.getD s.activeConfigId) committed
        split <;> exact hSet
    · split <;> exact ⟨rfl, rfl, rfl⟩
  | getNextConfig fenceTime => exact ⟨rfl, rfl, rfl⟩

/-- Where the thread takes a blank down: from the source, or from the timer. -/
def ReadsBlank (s : VSyncDisplay) (a : Action) (timestamp ranPeriodNs : Int) : Prop :=
  (s.phase = .reading ∧ a = .thread (.blank timestamp ranPeriodNs)) ∨
    (s.phase = .sleeping timestamp ∧ a = .thread .slept ∧ ranPeriodNs = 0)

/-- A thread that wakes up is awake. -/
theorem woken_awake (s : VSyncDisplay) : s.woken.phase ≠ .waiting := by
  unfold woken
  cases s.worker.enabled <;> simp

/-- A step of the thread locks and looks about, takes a blank down, or leaves all
but its clock as it was, awake. -/
theorem threadStep_cases {t : ThreadStep} (h : s.threadStep c t = some s') :
    (∃ told, s' = s.lockTop c told) ∨
      (∃ timestamp ran, ReadsBlank s (.thread t) timestamp ran ∧
        s' = s.readBlank timestamp ran) ∨
      ∃ last fence phase, phase ≠ .waiting ∧
        s' = { s with
          worker := { s.worker with lastTimestamp := last, lastPresentFence := fence }
          phase := phase } := by
  unfold threadStep at h
  split at h
  · exact .inl ⟨false, (Option.some.inj h).symm⟩
  · exact .inl ⟨true, (Option.some.inj h).symm⟩
  · split at h
    · exact .inr (.inr ⟨_, _, _, woken_awake s, (Option.some.inj h).symm⟩)
    · cases h
  · exact .inr (.inr ⟨_, _, _, woken_awake s, (Option.some.inj h).symm⟩)
  · rename_i timestamp ran hPhase
    split at h
    · exact .inr (.inl ⟨timestamp, ran, .inl ⟨hPhase, rfl⟩, (Option.some.inj h).symm⟩)
    · cases h
  · split at h
    · exact .inr (.inr ⟨_, _, .top, by simp, (Option.some.inj h).symm⟩)
    · cases h
  · rename_i now fenceTime hPhase
    obtain ⟨last, hLast⟩ := phased_keeps s.worker s.worker.vsyncPeriodNs now fenceTime
    refine .inr (.inr ⟨last, false,
      .sleeping (s.worker.getPhasedVSync s.worker.vsyncPeriodNs now fenceTime).1, by simp, ?_⟩)
    rw [← hLast]
    exact (Option.some.inj h).symm
  · rename_i timestamp hPhase
    exact .inr (.inl ⟨timestamp, 0, .inr ⟨hPhase, rfl, rfl⟩, (Option.some.inj h).symm⟩)
  · exact .inr (.inr ⟨_, _, .top, by simp, (Option.some.inj h).symm⟩)
  · cases h

/-- What a step of the thread leaves of the worker: a blank taken down, a last
timestamp caught up with, or all as it was. -/
theorem threadStep_worker {t : ThreadStep} (h : s.threadStep c t = some s') :
    s'.todo = s.todo ∧
      ((∃ timestamp ran, ReadsBlank s (.thread t) timestamp ran ∧
          s' = s.readBlank timestamp ran) ∨
        ∃ last fence, s'.worker = { s.worker with
          lastTimestamp := last, lastPresentFence := fence }) := by
  obtain ⟨told, rfl⟩ | ⟨timestamp, ran, hReads, rfl⟩ | ⟨last, fence, phase, -, rfl⟩ :=
    threadStep_cases h
  · unfold lockTop
    split
    · exact ⟨rfl, .inr ⟨_, _, rfl⟩⟩
    · split <;> exact ⟨rfl, .inr ⟨_, _, rfl⟩⟩
  · exact ⟨rfl, .inl ⟨timestamp, ran, hReads, rfl⟩⟩
  · exact ⟨rfl, .inr ⟨last, fence, rfl⟩⟩

/-- **What changes the period told**: the display setting it, or a blank that
runs at the period expected. -/
theorem told_step {a : Action} (hStep : (machine c).step s a = some s')
    (hTold : s'.worker.vsyncPeriodNs ≠ s.worker.vsyncPeriodNs) :
    (a = .next ∧ s.todo.head? = some (.setVsyncPeriodNs s'.worker.vsyncPeriodNs)) ∨
      ∃ timestamp ran, ReadsBlank s a timestamp ran ∧ s.worker.enabled = true ∧
        s.worker.expectedPeriodNs ≠ 0 ∧ s.worker.tookHold timestamp ran = true ∧
        s'.worker.vsyncPeriodNs = s.worker.expectedPeriodNs := by
  cases a with
  | call call =>
    simp only [machine] at hStep
    split at hStep
    · obtain rfl := Option.some.inj hStep
      rw [(called_worker s call).1] at hTold
      exact absurd rfl hTold
    · cases hStep
  | next =>
    simp only [machine, enterNext] at hStep
    split at hStep
    · cases hStep
    · rename_i critical rest hTodo
      obtain rfl := Option.some.inj hStep
      refine .inl ⟨rfl, ?_⟩
      rw [hTodo, List.head?_cons]
      exact congrArg some (enter_period hTold)
  | thread t =>
    obtain ⟨-, ⟨timestamp, ran, hReads, rfl⟩ | ⟨last, fence, hWorker⟩⟩ := threadStep_worker hStep
    · exact .inr ⟨timestamp, ran, hReads, takeBlank_period hTold⟩
    · rw [hWorker] at hTold
      exact absurd rfl hTold

-- ---------------------------------------------------------------------------
-- A worker that can find out
-- ---------------------------------------------------------------------------

/-- A period is pending and the display is on. -/
def Pending (w : VSyncWorker) : Prop := w.expectedPeriodNs ≠ 0 ∧ w.displayOn = true

/-- Something asks for blanks while a period is pending. -/
def Backed (w : VSyncWorker) : Prop :=
  Pending w → w.enableVsyncTimestamps = true ∨ w.callback = true

/-- In what is left of a call a flag that is set is worked out after, and where
tracking is turned off a period is said after. -/
def Followed : List Critical → Prop
  | [] => True
  | critical :: rest =>
    (critical.movesFlags = true → Critical.updateVSyncControl ∈ rest) ∧
      (critical = .setVsyncTimestampTracking false → ∃ later ∈ rest, later.settles = true) ∧
      Followed rest

/-- A worker that finds out what is pending, or will be one when the call under
way is done, and a thread that is told. -/
structure Sound (s : VSyncDisplay) : Prop where
  followed : Followed s.todo
  control : s.worker.enabled = s.worker.shouldEnable ∨ Critical.updateVSyncControl ∈ s.todo
  backed : Backed s.worker ∨ ∃ critical ∈ s.todo, critical.settles = true
  notified : s.worker.enabled = true → s.phase = .waiting → s.notified = true

/-- **A stretch that keeps up.** A period is not left pending where nothing asks
for blanks: it is not expected so, the callback is not taken away, and the
display is not lit. -/
def keepsUp (w : VSyncWorker) : Critical → Prop
  | .expectVsyncPeriodNs period =>
    period ≠ w.vsyncPeriodNs → w.displayOn = true →
      w.enableVsyncTimestamps = true ∨ w.callback = true
  | .setTimestampCallback callback =>
    callback = false → Pending w → w.enableVsyncTimestamps = true
  | .setDisplayOn on =>
    on = true → w.expectedPeriodNs ≠ 0 → w.enableVsyncTimestamps = true ∨ w.callback = true
  | _ => True

/-- A step that keeps up. -/
def KeepsUp (s : VSyncDisplay) : Action → Prop
  | .next => ∀ critical ∈ s.todo.head?, keepsUp s.worker critical
  | _ => True

instance (w : VSyncWorker) : Decidable (Pending w) := instDecidableAnd

instance (w : VSyncWorker) : ∀ critical, Decidable (keepsUp w critical)
  | .updateVSyncControl => .isTrue trivial
  | .setVsyncPeriodNs _ => .isTrue trivial
  | .expectVsyncPeriodNs period => inferInstanceAs (Decidable (period ≠ w.vsyncPeriodNs →
      w.displayOn = true → w.enableVsyncTimestamps = true ∨ w.callback = true))
  | .setVsyncTimestampTracking _ => .isTrue trivial
  | .getLastVsyncTimestamp => .isTrue trivial
  | .setDisplayOn on => inferInstanceAs (Decidable (on = true → w.expectedPeriodNs ≠ 0 →
      w.enableVsyncTimestamps = true ∨ w.callback = true))
  | .addLastPresentFence => .isTrue trivial
  | .getNextVsyncTimestamp _ => .isTrue trivial
  | .setTimestampCallback callback => inferInstanceAs (Decidable (callback = false → Pending w →
      w.enableVsyncTimestamps = true))

instance (s : VSyncDisplay) : ∀ a, Decidable (KeepsUp s a)
  | .call _ => .isTrue trivial
  | .next =>
    inferInstanceAs (Decidable (∀ critical ∈ s.todo.head?, keepsUp s.worker critical))
  | .thread _ => .isTrue trivial

/-- What a call has to do is followed up. -/
theorem called_followed (hIdle : s.todo = []) (call : DisplayCall) :
    Followed (s.called c call).todo := by
  cases call with
  | setVsyncCallbacksEnabled enabled => simp [called, hIdle, Followed, Critical.movesFlags]
  | setConfig config committed =>
    unfold called setConfig
    simp only
    split
    · simp [hIdle, Followed]
    · split <;> simp [hIdle, Followed, Critical.movesFlags]
  | queueConfig config fenceTime =>
    unfold called queueConfig
    simp only
    split
    · split <;>
        simp [hIdle, Followed, Critical.movesFlags, setVsyncTimestampTracking]
    · simp [hIdle, Followed]
  | present due seamless fence =>
    unfold called present
    simp only
    split
    · cases fence <;> simp [hIdle, Followed, Critical.movesFlags]
    · split
      · simp [hIdle, Followed]
      · cases fence <;> cases seamless <;>
          simp [hIdle, Followed, Critical.movesFlags, Critical.settles, applyCommitChanges,
            setVsyncTimestampTracking]
  | setPowerMode on active committed =>
    unfold called setPowerMode setConfig
    simp only
    split
    · split
      · simp [hIdle, Followed, Critical.movesFlags]
      · simp only
        cases committed <;> simp [hIdle, Followed, Critical.movesFlags]
    · split <;> simp [hIdle, Followed, Critical.movesFlags]
  | getNextConfig fenceTime => simp [called, hIdle, Followed, Critical.movesFlags]

theorem sound_call (h : Sound s) (hIdle : s.todo = []) (call : DisplayCall) :
    Sound (s.called c call) := by
  obtain ⟨hWorker, hPhase, hNotified⟩ := called_worker (c := c) s call
  refine ⟨called_followed hIdle call, ?_, ?_, ?_⟩
  · rw [hWorker]
    exact .inl (h.control.resolve_right (by simp [hIdle]))
  · rw [hWorker]
    exact .inl (h.backed.resolve_right (by simp [hIdle]))
  · rw [hWorker, hPhase, hNotified]
    exact h.notified

/-- What is still to do of a call, where its next stretch is not the one. -/
theorem mem_rest {P : Critical → Prop} {critical : Critical} {rest : List Critical}
    (hNot : ¬P critical) (h : ∃ later ∈ critical :: rest, P later) : ∃ later ∈ rest, P later := by
  obtain ⟨later, hMem, hP⟩ := h
  rcases List.mem_cons.mp hMem with rfl | hMem
  · exact absurd hP hNot
  · exact ⟨later, hMem, hP⟩

/-- Nothing else under the lock enables the worker. -/
theorem enter_enabled {w : VSyncWorker} {critical : Critical}
    (h : critical ≠ .updateVSyncControl) : (w.enter critical).enabled = w.enabled := by
  cases critical with
  | updateVSyncControl => exact absurd rfl h
  | getNextVsyncTimestamp fenceTime =>
    obtain ⟨last, hLast⟩ := updateTime_keeps w fenceTime
    simp only [VSyncWorker.enter, hLast]
  | _ => rfl

/-- The next stretch of a call, where it keeps up. -/
theorem sound_next {critical : Critical} {rest : List Critical} (h : Sound s)
    (hTodo : s.todo = critical :: rest) (hKeeps : keepsUp s.worker critical) :
    Sound { s with
      worker := s.worker.enter critical
      todo := rest
      notified := s.notified || decide (critical = .updateVSyncControl) } := by
  obtain ⟨hFollowed, hControl, hBacked, hNotified⟩ := h
  rw [hTodo] at hFollowed hControl hBacked
  obtain ⟨hMoves, hTracking, hRest⟩ := hFollowed
  have hControl' : critical ≠ .updateVSyncControl →
      s.worker.enabled = s.worker.shouldEnable ∨ Critical.updateVSyncControl ∈ rest := fun hNe =>
    hControl.imp_right fun hMem => (List.mem_cons.mp hMem).resolve_left (Ne.symm hNe)
  have hBacked' : critical.settles = false →
      Backed s.worker ∨ ∃ later ∈ rest, later.settles = true :=
    fun hNot => hBacked.imp_right (mem_rest (by simp [hNot]))
  have hNotified' : critical ≠ .updateVSyncControl → (s.worker.enter critical).enabled = true →
      s.phase = .waiting →
      (s.notified || decide (critical = .updateVSyncControl)) = true := by
    intro hNe hEnabled hWaiting
    rw [enter_enabled hNe] at hEnabled
    simp [hNotified hEnabled hWaiting]
  cases critical with
  | updateVSyncControl =>
    exact ⟨hRest, .inl rfl, hBacked' rfl, fun _ _ => by simp⟩
  | setVsyncPeriodNs period =>
    refine ⟨hRest, hControl' (by simp), .inl fun hPending => absurd rfl hPending.1,
      hNotified' (by simp)⟩
  | expectVsyncPeriodNs period =>
    refine ⟨hRest, hControl' (by simp), .inl fun hPending => ?_, hNotified' (by simp)⟩
    refine hKeeps (fun hSame => hPending.1 ?_) hPending.2
    simp [VSyncWorker.enter, hSame]
  | setVsyncTimestampTracking enabled =>
    refine ⟨hRest, .inr (hMoves rfl), ?_, hNotified' (by simp)⟩
    cases enabled with
    | true => exact .inl fun _ => .inl rfl
    | false => exact .inr (hTracking rfl)
  | getLastVsyncTimestamp =>
    exact ⟨hRest, hControl' (by simp), hBacked' rfl, hNotified' (by simp)⟩
  | setDisplayOn on =>
    refine ⟨hRest, .inr (hMoves rfl), .inl fun hPending => ?_, hNotified' (by simp)⟩
    exact hKeeps hPending.2 hPending.1
  | addLastPresentFence =>
    exact ⟨hRest, hControl' (by simp), hBacked' rfl, hNotified' (by simp)⟩
  | getNextVsyncTimestamp fenceTime =>
    obtain ⟨last, hLast⟩ := updateTime_keeps s.worker fenceTime
    have hWorker : s.worker.enter (.getNextVsyncTimestamp fenceTime) =
        { s.worker with lastTimestamp := last, lastPresentFence := false } := hLast
    have hLater := hNotified' (by simp)
    rw [hWorker] at hLater ⊢
    exact ⟨hRest, hControl' (by simp), hBacked' rfl, hLater⟩
  | setTimestampCallback callback =>
    refine ⟨hRest, .inr (hMoves rfl), .inl fun hPending => ?_, hNotified' (by simp)⟩
    cases callback with
    | true => exact .inr rfl
    | false => exact .inl (hKeeps rfl hPending)

/-- The thread falls asleep only where the worker is not enabled. -/
theorem threadStep_asleep {t : ThreadStep} (h : s.threadStep c t = some s')
    (hAsleep : s'.phase = .waiting) : s'.worker.enabled = false := by
  obtain ⟨told, rfl⟩ | ⟨timestamp, ran, -, rfl⟩ | ⟨last, fence, phase, hAwake, rfl⟩ :=
    threadStep_cases h
  · revert hAsleep
    unfold lockTop
    cases hEnabled : s.worker.enabled with
    | true => simp
    | false => cases hSource : c.hasSource && !told <;> simp [hEnabled]
  · cases hAsleep
  · exact absurd hAsleep hAwake

/-- Taking a blank down leaves a pending period backed, and the flags as they
were. -/
theorem takeBlank_backed {w : VSyncWorker} (h : Backed w) (timestamp ranPeriodNs : Int) :
    Backed (w.takeBlank timestamp ranPeriodNs) := by
  unfold VSyncWorker.takeBlank
  split
  · intro hPending
    refine h ⟨fun hNone => hPending.1 ?_, hPending.2⟩
    simp [hNone]
  · exact h

theorem takeBlank_flags (w : VSyncWorker) (timestamp ranPeriodNs : Int) :
    (w.takeBlank timestamp ranPeriodNs).enabled = w.enabled ∧
      (w.takeBlank timestamp ranPeriodNs).shouldEnable = w.shouldEnable := by
  unfold VSyncWorker.takeBlank
  split <;> exact ⟨rfl, rfl⟩

theorem sound_thread {t : ThreadStep} (h : Sound s) (hStep : s.threadStep c t = some s') :
    Sound s' := by
  obtain ⟨hTodo, hWorker⟩ := threadStep_worker hStep
  have hAsleep : s'.worker.enabled = true → s'.phase = .waiting → s'.notified = true := by
    intro hEnabled hWaiting
    rw [threadStep_asleep hStep hWaiting] at hEnabled
    cases hEnabled
  obtain ⟨timestamp, ran, -, rfl⟩ | ⟨last, fence, hEq⟩ := hWorker
  · obtain ⟨hEnabled, hShould⟩ := takeBlank_flags s.worker timestamp ran
    refine ⟨h.followed, ?_, h.backed.imp_left fun hBacked => takeBlank_backed hBacked _ _, hAsleep⟩
    show (s.worker.takeBlank timestamp ran).enabled = _ ∨ _
    rw [hEnabled]
    exact h.control.imp_left fun hControl => hControl.trans hShould.symm
  · refine ⟨hTodo ▸ h.followed, ?_, ?_, hAsleep⟩
    · rw [hEq, hTodo]
      exact h.control
    · rw [hEq, hTodo]
      exact h.backed

/-- **A worker that could find out** stays one, through every step that keeps
up. -/
theorem sound_step {a : Action} (h : Sound s) (hKeeps : KeepsUp s a)
    (hStep : (machine c).step s a = some s') : Sound s' := by
  cases a with
  | call call =>
    simp only [machine] at hStep
    split at hStep
    · rename_i hIdle
      obtain rfl := Option.some.inj hStep
      exact sound_call h hIdle call
    · cases hStep
  | next =>
    simp only [machine, enterNext] at hStep
    split at hStep
    · cases hStep
    · rename_i critical rest hTodo
      obtain rfl := Option.some.inj hStep
      exact sound_next h hTodo (hKeeps critical (by simp [hTodo]))
  | thread t => exact sound_thread h hStep

theorem sound_init : Sound {} :=
  ⟨trivial, .inl rfl, .inl fun h => absurd rfl h.1, fun h => (nomatch h)⟩

-- ---------------------------------------------------------------------------
-- A pending period
-- ---------------------------------------------------------------------------

/-- The thread waits for a blank, or will after its next step. -/
def Awake (c : VSyncConfig) (s : VSyncDisplay) : Prop :=
  s.phase = .reading ∨ (∃ timestamp, s.phase = .sleeping timestamp) ∨
    ∃ t s', t ≠ .wakeUnasked ∧ s.threadStep c t = some s' ∧ s'.phase = .reading

/-- The worker is enabled and reads blanks, and the first that runs at the
period expected is where the period told becomes it. -/
structure TakesUp (c : VSyncConfig) (s : VSyncDisplay) : Prop where
  enabled : s.worker.enabled = true
  awake : Awake c s
  first : ∀ timestamp ran a s', ReadsBlank s a timestamp ran → (machine c).step s a = some s' →
    s.worker.tookHold timestamp ran = true →
    s'.worker.vsyncPeriodNs = s.worker.expectedPeriodNs ∧ s'.worker.expectedPeriodNs = 0

theorem awake_of_enabled (h : s.worker.enabled = true)
    (hNotified : s.phase = .waiting → s.notified = true) : Awake c s := by
  cases hPhase : s.phase with
  | top =>
    refine .inr (.inr ⟨.lock, s.lockTop c false, by simp, by simp [threadStep, hPhase], ?_⟩)
    simp [lockTop, h]
  | stopping =>
    refine .inr (.inr ⟨.lock, s.lockTop c true, by simp, by simp [threadStep, hPhase], ?_⟩)
    simp [lockTop, h]
  | waiting =>
    refine .inr (.inr ⟨.wake, s.woken, by simp, by simp [threadStep, hPhase, hNotified hPhase], ?_⟩)
    simp [woken, h]
  | reading => exact .inl hPhase
  | sleeping timestamp => exact .inr (.inl ⟨timestamp, hPhase⟩)

/-- A blank that runs at the period expected is taken for it. -/
theorem takeBlank_takes {w : VSyncWorker} {timestamp ran : Int} (hEnabled : w.enabled = true)
    (hExpected : w.expectedPeriodNs ≠ 0) (hHold : w.tookHold timestamp ran = true) :
    (w.takeBlank timestamp ran).vsyncPeriodNs = w.expectedPeriodNs ∧
      (w.takeBlank timestamp ran).expectedPeriodNs = 0 := by
  simp [VSyncWorker.takeBlank, hEnabled, hExpected, hHold]

/-- With no call under way a sound worker finds out what is pending. -/
theorem takesUp_of_sound (h : Sound s) (hIdle : s.todo = []) (hPending : Pending s.worker) :
    TakesUp c s := by
  have hBacked : Backed s.worker := h.backed.resolve_right (by simp [hIdle])
  have hControl : s.worker.enabled = s.worker.shouldEnable :=
    h.control.resolve_right (by simp [hIdle])
  have hEnabled : s.worker.enabled = true := by
    rw [hControl, VSyncWorker.shouldEnable, hPending.2]
    rcases hBacked hPending with hAsked | hAsked <;> simp [hAsked]
  refine ⟨hEnabled, awake_of_enabled hEnabled (h.notified hEnabled), ?_⟩
  intro timestamp ran a s' hReads hStep hHold
  have hBlank : s'.worker = s.worker.takeBlank timestamp ran := by
    obtain ⟨hPhase, rfl⟩ | ⟨hPhase, rfl, rfl⟩ := hReads
    · simp only [machine, threadStep, hPhase] at hStep
      split at hStep
      · obtain rfl := Option.some.inj hStep
        rfl
      · cases hStep
    · simp only [machine, threadStep, hPhase] at hStep
      obtain rfl := Option.some.inj hStep
      rfl
  rw [hBlank]
  exact takeBlank_takes hEnabled hPending.1 hHold

/-- **A pending period is taken up.** In every run whose steps keep up: with no
call under way, while a period is pending and the display is on, the worker is
enabled and reads blanks, and the period told becomes the one expected at the
first blank that runs at it; and the next step changes the period told only where
the display sets it, or at such a blank. -/
theorem vsync_taken_up {actions : List Action} (hKeeps : (machine c).Meets KeepsUp {} actions)
    (hRun : (machine c).run {} actions = some s) :
    (s.todo = [] → Pending s.worker → TakesUp c s) ∧
      ∀ a s', (machine c).step s a = some s' →
        s'.worker.vsyncPeriodNs ≠ s.worker.vsyncPeriodNs →
        (a = .next ∧ s.todo.head? = some (.setVsyncPeriodNs s'.worker.vsyncPeriodNs)) ∨
          ∃ timestamp ran, ReadsBlank s a timestamp ran ∧ s.worker.enabled = true ∧
            s.worker.expectedPeriodNs ≠ 0 ∧ s.worker.tookHold timestamp ran = true ∧
            s'.worker.vsyncPeriodNs = s.worker.expectedPeriodNs := by
  have hSound : Sound s :=
    Machine.run_of_meets (m := machine c) (fun _ _ _ => sound_step) sound_init hKeeps hRun
  exact ⟨takesUp_of_sound hSound, fun _ _ => told_step⟩

/-- Two modes of one group: sixty times a second, and forty-eight. -/
def twoModes : VSyncConfig where
  getConfig
    | 0 => some { periodNs := 16666666 }
    | 1 => some { periodNs := 20833333 }
    | _ => none

/-- The other mode is queued, and goes up with a frame. -/
def modeChanged : List Action :=
  [.call (.queueConfig 1 none), .next, .next, .next,
    .call (.present true true true), .next, .next, .next, .next, .next]

/-- The client asks for its blanks first. -/
def asked : List Action := [.call (.setVsyncCallbacksEnabled true), .next, .next]

/-- Where the client asks for blanks the new period is taken up. -/
theorem vsync_taken_up_asked :
    ∃ s, (machine twoModes).run {} (asked ++ modeChanged) = some s ∧ Pending s.worker ∧
      TakesUp twoModes s := by
  refine ⟨_, rfl, ⟨by decide, rfl⟩, (@vsync_taken_up twoModes _ (asked ++ modeChanged) ?_ rfl).1 rfl
    ⟨by decide, rfl⟩⟩
  decide

/-- **A period nobody waits for.** Where the client has not asked for blanks,
applying the mode turns the tracking off that was to last until the mode is
applied: the new period is pending, the display is on, and the worker is not
enabled. -/
theorem vsync_left_pending :
    ¬∀ (actions : List Action) (s : VSyncDisplay), (machine twoModes).run {} actions = some s →
      s.todo = [] → Pending s.worker → s.worker.enabled = true := by
  intro h
  have hEnabled := h modeChanged _ rfl rfl ⟨by decide, rfl⟩
  revert hEnabled
  decide

end VSyncDisplay

end TegraHwc
