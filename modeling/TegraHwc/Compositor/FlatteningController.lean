import TegraHwc.Lib.Runs
import Mathlib.Tactic.Common

/-!
# TegraHwc — flattening a quiet scene

`compositor/FlatteningController.cpp`: frames arm a time, and a thread that finds
it past asks for a refresh. Each stretch under the lock is a step of the machine,
and so are a wake-up and the callback's return; between two steps the clock may go
on, and a thread that waits may wake of itself. Reports of a state are left out.

## Results

* `kept_step`        — what every step of the display or the thread keeps.
* `kept_leads`       — the thread's own steps from a state with a time armed and past.
* `flattening_quiet` — triggers come of quiet, once, and no armed time is lost.
-/

namespace TegraHwc

open Runs

namespace FlatteningController

/-- `FlatteningController::State`. -/
inductive State where
  | kDisabled
  | kActive
  | kTriggeredCallback
  | kFlattened
  | kExitThread
  deriving DecidableEq, Repr

/-- Where the thread is: before its lock, in its untimed or its timed wait, in the
callback, or gone. -/
inductive Place where
  | top
  | wait
  | waitUntil (time : Int)
  | trigger
  | gone
  deriving DecidableEq, Repr

/-- Whether the thread waits there. -/
def Place.waits : Place → Bool
  | .wait | .waitUntil _ => true
  | .top | .trigger | .gone => false

end FlatteningController

/-- `FlatteningController`, and the clock as last read. `notified` is whether a
thread that waits has been notified; `stopped`, whether it is being destroyed. -/
structure FlatteningController where
  now : Int
  state : FlatteningController.State := .kDisabled
  sleepUntil : Int := 0
  place : FlatteningController.Place := .top
  notified : Bool := false
  stopped : Bool := false
  deriving DecidableEq, Repr

namespace FlatteningController

/-- A call of the display, or a step of the thread. -/
inductive Op where
  | disableFlattening
  | newFrame
  | settledFrame
  | stopThread
  | lock
  | wake
  | triggered
  deriving DecidableEq, Repr

/-- An operation, and what the clock says there. -/
structure Action where
  time : Int
  op : Op
  deriving DecidableEq, Repr

/-- What is told of a run: frames that arm the time, frames that answer a trigger,
calls that give the armed time up, and the thread's decisions. -/
inductive Event where
  | newFrame (time : Int)
  | answer (time : Int)
  | giveUp
  | decide (time : Int)
  deriving DecidableEq, Repr

/-- `notify_all`: whoever does not wait is not told. -/
def notifyAll (s : FlatteningController) : FlatteningController :=
  { s with notified := s.notified || s.place.waits }

/-- `DisableFlattening`. -/
def disableFlattening (s : FlatteningController) : FlatteningController :=
  { s with state := .kDisabled }

/-- `NewFrame`. -/
def newFrame (timeout : Int) (s : FlatteningController) : FlatteningController :=
  if s.state = .kTriggeredCallback then { s with state := .kFlattened }
  else
    let wasActive := s.state = .kActive
    let s := { s with sleepUntil := s.now + timeout, state := .kActive }
    if wasActive then s else s.notifyAll

/-- `SettledFrame`. -/
def settledFrame (s : FlatteningController) : FlatteningController :=
  if s.state = .kDisabled ∨ s.state = .kExitThread then s else { s with state := .kFlattened }

/-- `StopThread`. -/
def stopThread (s : FlatteningController) : FlatteningController :=
  { s with state := .kExitThread, stopped := true }.notifyAll

/-- A pass of `ThreadFn` under its lock. -/
def lock (s : FlatteningController) : FlatteningController :=
  if s.state = .kExitThread then { s with place := .gone }
  else if s.sleepUntil ≤ s.now ∧ s.state = .kActive then
    { s with state := .kTriggeredCallback, place := .trigger }
  else if s.state ≠ .kActive then { s with place := .wait, notified := false }
  else { s with place := .waitUntil s.sleepUntil, notified := false }

/-- The operation; none where the thread is elsewhere. -/
def act (timeout : Int) (s : FlatteningController) : Op → Option FlatteningController
  | .disableFlattening => some s.disableFlattening
  | .newFrame => some (s.newFrame timeout)
  | .settledFrame => some s.settledFrame
  | .stopThread => some s.stopThread
  | .lock => if s.place = .top then some s.lock else none
  | .wake => if s.place.waits then some { s with place := .top, notified := false } else none
  | .triggered => if s.place = .trigger then some { s with place := .top } else none

/-- What is told of an operation: a pass has decided where it leaves the thread before the
callback. -/
def tells (s : FlatteningController) : Op → List Event
  | .newFrame => if s.state = .kTriggeredCallback then [.answer s.now] else [.newFrame s.now]
  | .lock => if s.lock.place = .trigger then [.decide s.now] else []
  | .disableFlattening | .settledFrame => [.giveUp]
  | .stopThread | .wake | .triggered => []

/-- The controller, run: the clock does not go back. -/
def machine (timeout : Int) : Machine FlatteningController Action Event where
  step s a := if s.now ≤ a.time then { s with now := a.time }.act timeout a.op else none
  events s a := { s with now := a.time }.tells a.op

-- ---------------------------------------------------------------------------
-- What every step keeps
-- ---------------------------------------------------------------------------

variable {timeout : Int} {s s' : FlatteningController} {h : List Event}

/-- A decision comes a full timeout after a frame that armed the time, with nothing
told between. -/
def Quiet (timeout : Int) (before : List Event) : Event → Prop
  | .decide time => ∃ earlier armed, before = earlier ++ [.newFrame armed] ∧ armed + timeout ≤ time
  | .newFrame _ | .answer _ | .giveUp => True

/-- What the thread does of its own to come to its lock and take it. -/
def Place.leads : Place → List Op
  | .top => [.lock]
  | .wait | .waitUntil _ => [.wake, .lock]
  | .trigger => [.triggered, .lock]
  | .gone => []

/-- What is kept of a run: its decisions are quiet, and so will the next be; a time
armed last stays armed until the thread is stopped; a thread in its untimed wait is told
of a state it is to leave it for; the timed wait ends no later than the time armed; and
the thread is gone only where it was stopped. -/
structure Kept (timeout : Int) (h : List Event) (s : FlatteningController) : Prop where
  quiet : Follows (Quiet timeout) h
  armed : s.state = .kActive →
    ∃ earlier armed, h = earlier ++ [.newFrame armed] ∧ s.sleepUntil = armed + timeout ∧
      armed ≤ s.now
  holds : ∀ earlier armed, h = earlier ++ [.newFrame armed] → s.stopped = false →
    s.state = .kActive
  awake : s.state = .kActive → s.place = .wait → s.notified = true
  ends : ∀ time, s.place = .waitUntil time → time ≤ s.sleepUntil ∧ s.sleepUntil ≤ s.now + timeout
  exits : s.state = .kExitThread → s.stopped = true
  gone : s.place = .gone → s.stopped = true

/-- A history that ends with another event does not end with a frame that armed the time. -/
theorem ne_newFrame_concat {e : Event} {earlier : List Event} {armed : Int}
    (hOther : ∀ time, e ≠ .newFrame time) : h ++ [e] ≠ earlier ++ [.newFrame armed] := fun hEq =>
  hOther armed (List.singleton_inj.mp (List.append_inj' hEq rfl).2)

theorem kept_later {time : Int} (hKept : Kept timeout h s) (hLater : s.now ≤ time) :
    Kept timeout h { s with now := time } where
  quiet := hKept.quiet
  armed hActive := by
    obtain ⟨earlier, armed, hLast, hUntil, hPast⟩ := hKept.armed hActive
    exact ⟨earlier, armed, hLast, hUntil, Int.le_trans hPast hLater⟩
  holds := hKept.holds
  awake := hKept.awake
  ends until_ hWaits := by
    obtain ⟨hEnds, hArmed⟩ := hKept.ends until_ hWaits
    exact ⟨hEnds, Int.le_trans hArmed (Int.add_le_add_right hLater timeout)⟩
  exits := hKept.exits
  gone := hKept.gone

/-- A state that is not active has nothing armed, once that is told. -/
theorem kept_inactive {state : State} {e : Event} (hKept : Kept timeout h s)
    (hState : state ≠ .kActive) (hStays : state ≠ .kExitThread)
    (hQuiet : Quiet timeout h e) (hOther : ∀ time, e ≠ .newFrame time) :
    Kept timeout (h ++ [e]) { s with state := state } where
  quiet := follows_concat.mpr ⟨hKept.quiet, hQuiet⟩
  armed hActive := absurd hActive hState
  holds _ _ hLast := absurd hLast (ne_newFrame_concat hOther)
  awake hActive := absurd hActive hState
  ends := hKept.ends
  exits hExit := absurd hExit hStays
  gone := hKept.gone

/-- A thread that does not wait needs no wake-up. -/
theorem kept_elsewhere {place : Place} {notified : Bool} (hKept : Kept timeout h s)
    (hPlace : place.waits = false) (hGone : place = .gone → s.stopped = true) :
    Kept timeout h { s with place := place, notified := notified } where
  quiet := hKept.quiet
  armed := hKept.armed
  holds := hKept.holds
  awake _ hWaits := by
    have hAt : place = .wait := hWaits
    rw [hAt] at hPlace
    cases hPlace
  ends time hWaits := by
    have hAt : place = .waitUntil time := hWaits
    rw [hAt] at hPlace
    cases hPlace
  exits := hKept.exits
  gone := hGone

/-- A notification reaches whoever waits. -/
theorem notified_notifyAll (hWaits : s.place = .wait) : s.notifyAll.notified = true := by
  unfold notifyAll
  rw [hWaits]
  exact Bool.or_true _

/-- A frame that arms the time, whoever it notifies. -/
theorem kept_arm {notified : Bool} (hKept : Kept timeout h s)
    (hTold : s.place = .wait → notified = true) :
    Kept timeout (h ++ [.newFrame s.now])
      { s with sleepUntil := s.now + timeout, state := .kActive, notified := notified } where
  quiet := follows_concat.mpr ⟨hKept.quiet, trivial⟩
  armed _ := ⟨h, s.now, rfl, rfl, Int.le_refl _⟩
  holds _ _ _ _ := rfl
  awake _ hWaits := hTold hWaits
  ends time hWaits := ⟨Int.le_trans (hKept.ends time hWaits).1 (hKept.ends time hWaits).2,
    Int.le_refl _⟩
  exits hExit := nomatch hExit
  gone := hKept.gone

theorem kept_newFrame (hKept : Kept timeout h s) :
    Kept timeout (h ++ s.tells .newFrame) (s.newFrame timeout) := by
  unfold newFrame tells
  by_cases hAnswers : s.state = .kTriggeredCallback
  · rw [if_pos hAnswers, if_pos hAnswers]
    exact kept_inactive hKept (by decide) (by decide) trivial nofun
  · rw [if_neg hAnswers, if_neg hAnswers]
    simp only
    split
    · rename_i hActive
      exact kept_arm hKept (hKept.awake (by simpa using hActive))
    · exact kept_arm hKept notified_notifyAll

theorem kept_stopThread (hKept : Kept timeout h s) : Kept timeout h s.stopThread where
  quiet := hKept.quiet
  armed hActive := nomatch hActive
  holds _ _ _ hRuns := nomatch hRuns
  awake hActive := nomatch hActive
  ends := hKept.ends
  exits _ := rfl
  gone _ := rfl

/-- A pass that exits. -/
theorem lock_of_exit (hExit : s.state = .kExitThread) : s.lock = { s with place := .gone } :=
  if_pos hExit

/-- A pass that decides. -/
theorem lock_of_past (hActive : s.state = .kActive) (hPast : s.sleepUntil ≤ s.now) :
    s.lock = { s with state := .kTriggeredCallback, place := .trigger } := by
  rw [lock, if_neg (by rw [hActive]; decide), if_pos ⟨hPast, hActive⟩]

/-- A pass that waits for the time armed. -/
theorem lock_of_early (hActive : s.state = .kActive) (hEarly : ¬ s.sleepUntil ≤ s.now) :
    s.lock = { s with place := .waitUntil s.sleepUntil, notified := false } := by
  rw [lock, if_neg (by rw [hActive]; decide), if_neg fun hPast => hEarly hPast.1,
    if_neg (not_not_intro hActive)]

/-- A pass that waits for a state to change. -/
theorem lock_of_idle (hExit : s.state ≠ .kExitThread) (hIdle : s.state ≠ .kActive) :
    s.lock = { s with place := .wait, notified := false } := by
  rw [lock, if_neg hExit, if_neg fun hPast => hIdle hPast.2, if_pos hIdle]

/-- A pass that goes elsewhere than to the callback tells nothing. -/
theorem tells_lock {t : FlatteningController} (hLock : s.lock = t) (hElse : t.place ≠ .trigger) :
    s.tells .lock = [] :=
  if_neg (hLock ▸ hElse)

/-- A pass over a time armed and past tells that it decides. -/
theorem tells_lock_of_past (hActive : s.state = .kActive) (hPast : s.sleepUntil ≤ s.now) :
    s.tells .lock = [.decide s.now] :=
  if_pos (by rw [lock_of_past hActive hPast])

/-- A pass that decides finds the time armed past; one that waits in its timed wait
waits for it. -/
theorem kept_lock (hKept : Kept timeout h s) : Kept timeout (h ++ s.tells .lock) s.lock := by
  by_cases hActive : s.state = .kActive
  · obtain ⟨earlier, armed, hLast, hUntil, hBefore⟩ := hKept.armed hActive
    by_cases hPast : s.sleepUntil ≤ s.now
    · rw [tells_lock_of_past hActive hPast, lock_of_past hActive hPast]
      have hDecided : Kept timeout (h ++ [.decide s.now]) { s with state := .kTriggeredCallback } :=
        kept_inactive hKept (by decide) (by decide) ⟨earlier, armed, hLast, hUntil ▸ hPast⟩ nofun
      exact kept_elsewhere hDecided rfl nofun
    · have hLock := lock_of_early hActive hPast
      rw [tells_lock hLock nofun, hLock, List.append_nil]
      exact {
        quiet := hKept.quiet
        armed := hKept.armed
        holds := hKept.holds
        awake _ hWaits := nomatch hWaits
        ends time hWaits := by
          cases hWaits
          exact ⟨Int.le_refl _, by simpa [hUntil] using hBefore⟩
        exits := hKept.exits
        gone hGone := nomatch hGone }
  · by_cases hExit : s.state = .kExitThread
    · have hLock := lock_of_exit hExit
      rw [tells_lock hLock nofun, hLock, List.append_nil]
      exact kept_elsewhere hKept rfl fun _ => hKept.exits hExit
    · have hLock := lock_of_idle hExit hActive
      rw [tells_lock hLock nofun, hLock, List.append_nil]
      exact {
        quiet := hKept.quiet
        armed := hKept.armed
        holds := hKept.holds
        awake hNow := absurd hNow hActive
        ends _ hWaits := nomatch hWaits
        exits := hKept.exits
        gone hGone := nomatch hGone }

/-- **Every operation keeps the controller.** -/
theorem kept_act {op : Op} (hKept : Kept timeout h s) (hStep : s.act timeout op = some s') :
    Kept timeout (h ++ s.tells op) s' := by
  cases op with
  | disableFlattening =>
    obtain rfl := Option.some.inj hStep
    exact kept_inactive hKept (by decide) (by decide) trivial nofun
  | newFrame =>
    obtain rfl := Option.some.inj hStep
    exact kept_newFrame hKept
  | settledFrame =>
    obtain rfl := Option.some.inj hStep
    rw [tells, settledFrame]
    split
    · rename_i hIdle
      exact {
        quiet := follows_concat.mpr ⟨hKept.quiet, trivial⟩
        armed hActive := by simp [hActive] at hIdle
        holds _ _ hLast := absurd hLast (ne_newFrame_concat nofun)
        awake := hKept.awake
        ends := hKept.ends
        exits := hKept.exits
        gone := hKept.gone }
    · exact kept_inactive hKept (by decide) (by decide) trivial nofun
  | stopThread =>
    obtain rfl := Option.some.inj hStep
    rw [tells, List.append_nil]
    exact kept_stopThread hKept
  | lock =>
    rw [act, Option.ite_none_right_eq_some] at hStep
    obtain rfl := Option.some.inj hStep.2
    exact kept_lock hKept
  | wake =>
    rw [act, Option.ite_none_right_eq_some] at hStep
    obtain rfl := Option.some.inj hStep.2
    rw [tells, List.append_nil]
    exact kept_elsewhere hKept rfl nofun
  | triggered =>
    rw [act, Option.ite_none_right_eq_some] at hStep
    obtain rfl := Option.some.inj hStep.2
    rw [tells, List.append_nil]
    exact kept_elsewhere hKept rfl nofun

theorem kept_step {a : Action} (hKept : Kept timeout h s)
    (hStep : (machine timeout).step s a = some s') :
    Kept timeout (h ++ (machine timeout).events s a) s' := by
  obtain ⟨hLater, hAct⟩ := Option.ite_none_right_eq_some.mp hStep
  exact kept_act (kept_later hKept hLater) hAct

theorem kept_init {start : Int} : Kept timeout [] { now := start } where
  quiet := follows_nil
  armed hActive := nomatch hActive
  holds earlier armed hLast := absurd hLast.symm (by simp)
  awake hActive := nomatch hActive
  ends _ hWaits := nomatch hWaits
  exits hExit := nomatch hExit
  gone hGone := nomatch hGone

/-- **The thread's own steps decide.** Where the armed time is past, a thread that is not
gone comes to its lock and decides there. -/
theorem kept_leads {time : Int} (hActive : s.state = .kActive) (hStays : s.place ≠ .gone)
    (hLater : s.now ≤ time) (hPast : s.sleepUntil ≤ time) :
    (∃ s', (machine timeout).run s (s.place.leads.map (⟨time, ·⟩)) = some s') ∧
      (machine timeout).trace s (s.place.leads.map (⟨time, ·⟩)) = [.decide time] := by
  -- the thread before its lock, at the time
  have hTop : ∀ t : FlatteningController, t.state = .kActive → t.sleepUntil ≤ time →
      t.place = .top → t.now ≤ time →
      (∃ s', (machine timeout).run t [⟨time, .lock⟩] = some s') ∧
        (machine timeout).trace t [⟨time, .lock⟩] = [.decide time] := by
    intro t hState hUntil hPlace hNow
    have hTaken : (machine timeout).step t ⟨time, .lock⟩ =
        some (lock { t with now := time }) := by
      simp [machine, act, hNow, hPlace]
    refine ⟨⟨_, Machine.run_cons.mpr ⟨_, hTaken, rfl⟩⟩, ?_⟩
    rw [Machine.trace_cons hTaken, Machine.trace_nil, List.append_nil]
    exact tells_lock_of_past hState hUntil
  -- a step of its own that brings it there and tells nothing
  have hComes : ∀ (op : Op) {notified : Bool}, { s with now := time }.tells op = [] →
      { s with now := time }.act timeout op =
        some { s with now := time, place := .top, notified := notified } →
      (∃ s', (machine timeout).run s [⟨time, op⟩, ⟨time, .lock⟩] = some s') ∧
        (machine timeout).trace s [⟨time, op⟩, ⟨time, .lock⟩] = [.decide time] := by
    intro op notified hSilent hAct
    have hTaken : (machine timeout).step s ⟨time, op⟩ =
        some { s with now := time, place := .top, notified := notified } := by
      simpa [machine, hLater] using hAct
    obtain ⟨⟨s', hRest⟩, hTold⟩ := hTop { s with now := time, place := .top, notified := notified }
      hActive hPast rfl (Int.le_refl time)
    refine ⟨⟨s', Machine.run_cons.mpr ⟨_, hTaken, hRest⟩⟩, ?_⟩
    rw [Machine.trace_cons hTaken, hTold]
    exact congrArg (· ++ [.decide time]) hSilent
  cases hPlace : s.place with
  | top => exact hTop s hActive hPast hPlace hLater
  | wait => exact hComes .wake rfl (by simp [act, Place.waits, hPlace]; rfl)
  | waitUntil _ => exact hComes .wake rfl (by simp [act, Place.waits, hPlace]; rfl)
  | trigger => exact hComes .triggered rfl (by simp [act, hPlace]; rfl)
  | gone => exact absurd hPlace hStays

/-- **Flattening is triggered only by quiet, and once.** In every run each decision
comes a full timeout after the latest frame that armed the time, which no decision
has followed; while the state is active a thread in its untimed wait has been notified,
one in its timed wait waits no longer than for the time armed; and a time armed last
stays armed, so that once it is past the thread's own steps decide. -/
theorem flattening_quiet {start : Int} {actions : List Action}
    (hRun : (machine timeout).run { now := start } actions = some s) :
    Follows (Quiet timeout) ((machine timeout).trace { now := start } actions) ∧
      (s.state = .kActive → s.stopped = false → s.place = .wait → s.notified = true) ∧
      (∀ time, s.place = .waitUntil time → time ≤ s.sleepUntil) ∧
      ∀ earlier armed, (machine timeout).trace { now := start } actions =
          earlier ++ [.newFrame armed] → s.stopped = false →
        s.state = .kActive ∧ s.sleepUntil = armed + timeout ∧
          ∀ time, s.now ≤ time → armed + timeout ≤ time →
            (∃ s', (machine timeout).run s (s.place.leads.map (⟨time, ·⟩)) = some s') ∧
              (machine timeout).trace s (s.place.leads.map (⟨time, ·⟩)) = [.decide time] := by
  have hKept := Machine.run_history (fun _ _ _ _ => kept_step) (@kept_init timeout start) hRun
  rw [List.nil_append] at hKept
  refine ⟨hKept.quiet, fun hActive _ => hKept.awake hActive, fun time hWaits =>
    (hKept.ends time hWaits).1, fun earlier armed hLast hRuns => ?_⟩
  have hActive := hKept.holds earlier armed hLast hRuns
  obtain ⟨before, last, hTold, hUntil, -⟩ := hKept.armed hActive
  obtain rfl : armed = last := by
    rw [hLast] at hTold
    exact Event.newFrame.inj (List.singleton_inj.mp (List.append_inj' hTold rfl).2)
  have hStays : s.place ≠ .gone := fun hGone => by
    rw [hKept.gone hGone] at hRuns
    cases hRuns
  exact ⟨hActive, hUntil, fun time hLater hPast =>
    kept_leads hActive hStays hLater (hUntil ▸ hPast)⟩

/-- A scene that draws twice, rests, and is told to draw again. -/
def restingScene : List Action :=
  [⟨0, .newFrame⟩, ⟨0, .lock⟩, ⟨400, .newFrame⟩, ⟨1000, .wake⟩, ⟨1000, .lock⟩, ⟨1400, .wake⟩,
    ⟨1400, .lock⟩, ⟨1401, .newFrame⟩, ⟨1402, .triggered⟩, ⟨1402, .lock⟩]

example : (machine 1000).trace { now := 0 } restingScene =
    [.newFrame 0, .newFrame 400, .decide 1400, .answer 1401] := by decide

theorem flattening_quiet_resting :
    Follows (Quiet 1000) ((machine 1000).trace { now := 0 } restingScene) :=
  (@flattening_quiet 1000 _ 0 restingScene rfl).1

end FlatteningController

end TegraHwc
