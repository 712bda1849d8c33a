import TegraHwc.Lib.Runs
import Mathlib.Data.List.Induction
import Mathlib.Tactic.Common

/-!
# TegraHwc — a protected link asked for, judged and told

`compositor/HdcpController.cpp`, and the calls of `hwc/HwcDisplay.cpp` that drive it:
`StartHdcp`, `StopHdcp`, and a frame, which reads the state for what it is to ask of the
kernel (`CreateFrameUpdateCommit`) and says that it has asked once it is committed
(`ApplyCommitChanges`). A thread waits for the link, asks the connector, judges, and tells
what it judged when it has let the lock go.

Each stretch under the controller's lock is a step of the machine, and so is each asking of
the connector and each callback. The display is called under the composer's main lock: while
a frame is on its way no other call begins. Not promised is that an answer is younger than
what it judges: the link may be asked for anew between the two.

## Results

* `kept_step`     — what every step of the display or the thread keeps.
* `hdcp_as_asked` — a link is told protected as it was asked to be, and is asked for less
  once at most.
-/

namespace TegraHwc

open Runs

/-- `HdcpContentType`. -/
inductive HdcpContentType where
  | kType0
  | kType1
  deriving DecidableEq, Repr

namespace HdcpController

/-- `HdcpController::HdcpState`. -/
inductive HdcpState where
  | kUndesired
  | kDesired
  | kRequested
  | kEnabled
  | kRetry
  | kThreadExit
  deriving DecidableEq, Repr

/-- What the thread judges: the link is protected, is to be asked for less, or is given
up. -/
inductive Verdict where
  | enabled (type : HdcpContentType)
  | retry
  | failed
  deriving DecidableEq, Repr

/-- Where the thread is: before its lock, in its untimed or its timed wait, about to ask the
connector early or for good, about to judge what it was answered, about to tell, or gone. -/
inductive Place where
  | top
  | wait
  | waitUntil (time : Int)
  | early
  | fires
  | answered (enabled : Bool)
  | tells (verdict : Verdict)
  | gone
  deriving DecidableEq, Repr

/-- Whether the thread waits there. -/
def Place.waits : Place → Bool
  | .wait | .waitUntil _ => true
  | .top | .early | .fires | .answered _ | .tells _ | .gone => false

/-- What the thread has judged there, and not told. -/
def Place.untold : Place → Option Verdict
  | .tells verdict => some verdict
  | .top | .wait | .waitUntil _ | .early | .fires | .answered _ | .gone => none

end HdcpController

/-- `HdcpController`, and the clock as last read, in milliseconds. `notified` is whether a
thread that waits has been notified; `frame`, what the frame on its way asks for, if one
is. -/
structure HdcpController where
  now : Int
  hdcpState : HdcpController.HdcpState := .kUndesired
  wasRetry : Bool := false
  sleepUntil : Int := 0
  place : HdcpController.Place := .top
  notified : Bool := false
  frame : Option (Option HdcpContentType) := none
  deriving DecidableEq, Repr

namespace HdcpController

/-- A call of the display, or a step of the thread. -/
inductive Op where
  | startHdcp
  | stopHdcp
  | createFrame
  | commitFrame (committed : Bool)
  | destroy
  | lock
  | wake
  | query (enabled : Bool)
  | judge
  | tell
  deriving DecidableEq, Repr

/-- An operation, and what the clock says there. -/
structure Action where
  time : Int
  op : Op
  deriving DecidableEq, Repr

/-- What is told of a run: the link asked for anew, asked of the kernel, given back, what
the connector answered, and what was judged and told. -/
inductive Event where
  | started
  | requested (type : HdcpContentType)
  | terminated
  | answered (enabled : Bool)
  | judged (verdict : Verdict)
  | told (verdict : Verdict)
  deriving DecidableEq, Repr

/-- `notify_all`: whoever does not wait is not told. -/
def notifyAll (s : HdcpController) : HdcpController :=
  { s with notified := s.notified || s.place.waits }

/-- `Start`. -/
def start (s : HdcpController) : HdcpController :=
  if s.hdcpState ≠ .kRetry then { s with hdcpState := .kDesired }.notifyAll else s

/-- `Requested`. -/
def requested (timeout : Int) (s : HdcpController) : HdcpController :=
  if s.hdcpState = .kEnabled ∨ s.hdcpState = .kUndesired then s
  else
    { s with
      wasRetry := decide (s.hdcpState = HdcpState.kRetry)
      hdcpState := .kRequested
      sleepUntil := s.now + timeout }.notifyAll

/-- `Terminate`. -/
def terminate (s : HdcpController) : HdcpController :=
  { s with hdcpState := .kUndesired }.notifyAll

/-- What a frame asks of the kernel, of `CreateFrameUpdateCommit`. -/
def hdcpContentType : HdcpState → Option HdcpContentType
  | .kDesired => some .kType1
  | .kRetry => some .kType0
  | .kUndesired | .kRequested | .kEnabled | .kThreadExit => none

/-- The stretch of `SetContentProtectionStatus` under the lock, and what it is to tell. -/
def setContentProtectionStatus (s : HdcpController) (cpEnabled : Bool) :
    HdcpController × Option Verdict :=
  if s.hdcpState = .kRequested then
    if cpEnabled then
      ({ s with hdcpState := .kEnabled, wasRetry := false },
        some (.enabled (if s.wasRetry then .kType0 else .kType1)))
    else if s.wasRetry then
      ({ s with hdcpState := .kUndesired, wasRetry := false }, some .failed)
    else ({ s with hdcpState := .kRetry }, some .retry)
  else (s, none)

/-- A pass of `ThreadFn` under its lock. -/
def lock (s : HdcpController) : HdcpController :=
  if s.hdcpState = .kThreadExit then { s with place := .gone }
  else if s.hdcpState = .kRequested then
    if s.sleepUntil ≤ s.now then { s with place := .fires }
    else { s with place := .waitUntil (min s.sleepUntil (s.now + 1000)), notified := false }
  else { s with place := .wait, notified := false }

/-- The end of a wait: the timed one asks early where the link is still asked for. -/
def wake (s : HdcpController) : Option HdcpController :=
  match s.place with
  | .wait => some { s with place := .top, notified := false }
  | .waitUntil _ =>
    some { s with
      place := if s.hdcpState = .kRequested then .early else .top
      notified := false }
  | .top | .early | .fires | .answered _ | .tells _ | .gone => none

/-- The operation; none where the thread is elsewhere, a frame is on its way, or the
controller is being destroyed. -/
def act (timeout : Int) (s : HdcpController) : Op → Option HdcpController
  | .startHdcp =>
    if s.frame = none ∧ s.hdcpState ≠ .kThreadExit then some s.start else none
  -- no one else leaves `kEnabled` between the look at the state and the call
  | .stopHdcp =>
    if s.frame = none ∧ s.hdcpState ≠ .kThreadExit then
      some (if s.hdcpState = .kEnabled then s.terminate else s)
    else none
  | .createFrame =>
    if s.frame = none ∧ s.hdcpState ≠ .kThreadExit then
      some { s with frame := some (hdcpContentType s.hdcpState) }
    else none
  | .commitFrame committed =>
    match s.frame with
    | none => none
    | some none => some { s with frame := none }
    | some (some _) =>
      some { (if committed then s.requested timeout else s) with frame := none }
  | .destroy =>
    if s.frame = none ∧ s.hdcpState ≠ .kThreadExit then
      some { s with hdcpState := .kThreadExit }.notifyAll
    else none
  | .lock => if s.place = .top then some s.lock else none
  | .wake => s.wake
  | .query enabled =>
    match s.place with
    -- asked early, the thread goes on to ask for good where the answer is yes
    | .early => some { s with place := if enabled then .fires else .top }
    | .fires => some { s with place := .answered enabled }
    | .top | .wait | .waitUntil _ | .answered _ | .tells _ | .gone => none
  | .judge =>
    match s.place with
    | .answered cpEnabled =>
      let (s', verdict) := s.setContentProtectionStatus cpEnabled
      some { s' with place := (verdict.map Place.tells).getD .top }
    | .top | .wait | .waitUntil _ | .early | .fires | .tells _ | .gone => none
  | .tell =>
    match s.place with
    | .tells _ => some { s with place := .top }
    | .top | .wait | .waitUntil _ | .early | .fires | .answered _ | .gone => none

/-- What is told of an operation. -/
def tells (s : HdcpController) : Op → List Event
  | .startHdcp => if s.hdcpState ≠ .kRetry then [.started] else []
  | .stopHdcp => if s.hdcpState = .kEnabled then [.terminated] else []
  | .commitFrame true => (s.frame.join.map Event.requested).toList
  | .query enabled => [.answered enabled]
  | .judge =>
    match s.place with
    | .answered cpEnabled =>
      ((s.setContentProtectionStatus cpEnabled).2.map Event.judged).toList
    | .top | .wait | .waitUntil _ | .early | .fires | .tells _ | .gone => []
  | .tell => (s.place.untold.map Event.told).toList
  | .createFrame | .commitFrame false | .destroy | .lock | .wake => []

/-- The controller, run; the clock it reads may go back. -/
def machine (timeout : Int) : Machine HdcpController Action Event where
  step s a := { s with now := a.time }.act timeout a.op
  events s a := { s with now := a.time }.tells a.op

-- ---------------------------------------------------------------------------
-- How a link is asked for
-- ---------------------------------------------------------------------------

/-- Whether an event moves the asking on. -/
def Event.moves : Event → Bool
  | .started | .requested _ | .terminated | .judged _ => true
  | .answered _ | .told _ => false

/-- Where the asking is: the last event that moved it. -/
def lastMove (h : List Event) : Option Event := (h.filter Event.moves).getLast?

/-- What the connector answered last. -/
def lastAnswer (h : List Event) : Option Bool :=
  (h.filterMap fun | .answered enabled => some enabled | _ => none).getLast?

/-- What is judged and not told. -/
def untold (h : List Event) : Option Verdict :=
  h.foldl (fun kept e =>
    match e with
    | .judged verdict => some verdict
    | .told _ => none
    | .started | .requested _ | .terminated | .answered _ => kept) none

/-- **What may come next.** A link is asked for, at first, as content of type 1, and for
less where that was judged to be retried; what is judged is what was asked for last, by the
last answer of the connector; a link is given back that was judged protected; and each
judgement is told once, before the next. -/
def Next (before : List Event) : Event → Prop
  | .started => lastMove before ≠ some (.judged .retry)
  | .requested .kType1 => lastMove before = some .started
  | .requested .kType0 => lastMove before = some (.judged .retry)
  | .terminated => ∃ type, lastMove before = some (.judged (.enabled type))
  | .answered _ => True
  | .judged (.enabled type) =>
    untold before = none ∧ lastAnswer before = some true ∧
      lastMove before = some (.requested type)
  | .judged .retry =>
    untold before = none ∧ lastAnswer before = some false ∧
      lastMove before = some (.requested .kType1)
  | .judged .failed =>
    untold before = none ∧ lastAnswer before = some false ∧
      lastMove before = some (.requested .kType0)
  | .told verdict => untold before = some verdict

/-- What a state of the controller says of the asking. -/
def Reads (wasRetry : Bool) : HdcpState → Option Event → Prop
  | .kUndesired, last => last = none ∨ last = some .terminated ∨ last = some (.judged .failed)
  | .kDesired, last => last = some .started
  | .kRequested, last => last = some (.requested (if wasRetry then .kType0 else .kType1))
  | .kEnabled, last => ∃ type, last = some (.judged (.enabled type))
  | .kRetry, last => last = some (.judged .retry)
  | .kThreadExit, _ => True

/-- What is kept of a run: what has come might come next; the state says where the asking
is, and a frame on its way asks what its state is to ask; the thread judges by the last
answer, and tells what is untold; it is told of a state it is to leave its untimed wait
for, and its timed wait ends no later than the time armed unless it has been notified. -/
structure Kept (h : List Event) (s : HdcpController) : Prop where
  next : Follows Next h
  reads : Reads s.wasRetry s.hdcpState (lastMove h)
  frame : ∀ type, s.frame = some (some type) → hdcpContentType s.hdcpState = some type
  answer : ∀ enabled, s.place = .answered enabled → lastAnswer h = some enabled
  telling : untold h = s.place.untold
  awake : s.hdcpState = .kRequested ∨ s.hdcpState = .kThreadExit → s.place = .wait →
    s.notified = true
  ends : ∀ time, s.place = .waitUntil time → time ≤ s.sleepUntil ∨ s.notified = true

variable {timeout : Int} {s s' : HdcpController} {h : List Event} {e : Event}

theorem lastMove_concat : lastMove (h ++ [e]) = if e.moves then some e else lastMove h := by
  unfold lastMove
  rw [List.filter_append]
  cases hMoves : e.moves with
  | true => simp [hMoves]
  | false => simp [hMoves]

theorem lastMove_moved (hMoves : e.moves = true) : lastMove (h ++ [e]) = some e := by
  rw [lastMove_concat, if_pos hMoves]

theorem lastMove_still (hMoves : e.moves = false) : lastMove (h ++ [e]) = lastMove h := by
  rw [lastMove_concat, hMoves, if_neg Bool.false_ne_true]

theorem lastAnswer_answered {enabled : Bool} :
    lastAnswer (h ++ [.answered enabled]) = some enabled := by
  unfold lastAnswer
  simp

theorem untold_concat : untold (h ++ [e]) =
    match e with
    | .judged verdict => some verdict
    | .told _ => none
    | .started | .requested _ | .terminated | .answered _ => untold h := by
  unfold untold
  rw [List.foldl_append]
  rfl

/-- Whether an event is of the display's calls. -/
def Event.calls : Event → Bool
  | .started | .requested _ | .terminated => true
  | .answered _ | .judged _ | .told _ => false

/-- What the display calls leaves the thread's answer and its judgement. -/
theorem kept_of_calls (hCalls : e.calls = true) : lastMove (h ++ [e]) = some e ∧
    lastAnswer (h ++ [e]) = lastAnswer h ∧ untold (h ++ [e]) = untold h := by
  rw [lastMove_concat, untold_concat]
  unfold lastAnswer
  rw [List.filterMap_append]
  cases e with
  | started | requested | terminated => exact ⟨rfl, by simp, rfl⟩
  | answered | judged | told => cases hCalls

-- ---------------------------------------------------------------------------
-- What every step keeps
-- ---------------------------------------------------------------------------

theorem kept_later {time : Int} (hKept : Kept h s) : Kept h { s with now := time } :=
  ⟨hKept.next, hKept.reads, hKept.frame, hKept.answer, hKept.telling, hKept.awake, hKept.ends⟩

/-- A frame begun or ended. -/
theorem kept_framed {frame : Option (Option HdcpContentType)} (hKept : Kept h s)
    (hFrame : ∀ type, frame = some (some type) → hdcpContentType s.hdcpState = some type) :
    Kept h { s with frame := frame } :=
  ⟨hKept.next, hKept.reads, hFrame, hKept.answer, hKept.telling, hKept.awake, hKept.ends⟩

/-- A call of the display that moves the asking on, and notifies the thread. -/
theorem kept_called (hKept : Kept h s) (hCalls : e.calls = true) (hNext : Next h e)
    (hReads : Reads s'.wasRetry s'.hdcpState (some e)) (hFrame : s'.frame = none)
    (hPlace : s'.place = s.place) (hNotified : s'.notified = (s.notified || s.place.waits)) :
    Kept (h ++ [e]) s' := by
  obtain ⟨hLast, hAnswer, hUntold⟩ := kept_of_calls (h := h) hCalls
  refine ⟨follows_concat.mpr ⟨hKept.next, hNext⟩, hLast ▸ hReads, fun type hAsks => ?_,
    fun enabled hAt => ?_, ?_, fun _ hAt => ?_, fun time hAt => .inr ?_⟩
  · rw [hFrame] at hAsks
    cases hAsks
  · rw [hAnswer]
    exact hKept.answer enabled (hPlace ▸ hAt)
  · rw [hUntold, hPlace]
    exact hKept.telling
  · rw [hNotified, ← hPlace, hAt]
    exact Bool.or_true _
  · rw [hNotified, ← hPlace, hAt]
    exact Bool.or_true _

/-- The thread elsewhere, with nothing to tell and nothing to judge. -/
theorem kept_placed {place : Place} {notified : Bool} (hKept : Kept h s)
    (hTold : s.place.untold = none) (hPlace : place.untold = none)
    (hJudges : ∀ enabled, place ≠ .answered enabled)
    (hAwake : place = .wait → s.hdcpState ≠ .kRequested ∧ s.hdcpState ≠ .kThreadExit)
    (hEnds : ∀ time, place = .waitUntil time → time ≤ s.sleepUntil) :
    Kept h { s with place := place, notified := notified } where
  next := hKept.next
  reads := hKept.reads
  frame := hKept.frame
  answer enabled hAt := absurd hAt (hJudges enabled)
  telling := (hKept.telling.trans hTold).trans hPlace.symm
  awake hState hAt := hState.elim (fun h => absurd h (hAwake hAt).1)
    fun h => absurd h (hAwake hAt).2
  ends time hAt := .inl (hEnds time hAt)

/-- The thread where it neither waits nor judges nor tells. -/
theorem kept_elsewhere {place : Place} {notified : Bool} (hKept : Kept h s)
    (hTold : s.place.untold = none) (hPlace : place ∈ [Place.top, .early, .fires, .gone]) :
    Kept h { s with place := place, notified := notified } := by
  simp only [List.mem_cons, List.not_mem_nil, or_false] at hPlace
  obtain rfl | rfl | rfl | rfl := hPlace
  all_goals exact kept_placed hKept hTold rfl (fun _ => nofun) nofun fun _ => nofun

/-- A notification reaches whoever waits. -/
theorem notified_notifyAll (hWaits : s.place.waits = true) : s.notifyAll.notified = true := by
  show (s.notified || s.place.waits) = true
  rw [hWaits]
  exact Bool.or_true _

theorem kept_startHdcp (hKept : Kept h s) (hFree : s.frame = none)
    (hOpen : s.hdcpState ≠ .kThreadExit) :
    Kept (h ++ s.tells .startHdcp) s.start := by
  unfold start tells
  by_cases hRetry : s.hdcpState ≠ .kRetry
  · rw [if_pos hRetry, if_pos hRetry]
    refine kept_called hKept rfl (fun hLast => ?_) rfl hFree rfl rfl
    -- only a state to be retried has that behind it
    have hReads := hKept.reads
    rw [hLast] at hReads
    cases hState : s.hdcpState with
    | kRetry => exact hRetry hState
    | kUndesired => simp [hState, Reads] at hReads
    | kDesired => simp [hState, Reads] at hReads
    | kRequested => simp [hState, Reads] at hReads
    | kEnabled => simp [hState, Reads] at hReads
    | kThreadExit => exact hOpen hState
  · rw [if_neg hRetry, if_neg hRetry, List.append_nil]
    exact hKept

theorem kept_stopHdcp (hKept : Kept h s) (hFree : s.frame = none) :
    Kept (h ++ s.tells .stopHdcp) (if s.hdcpState = .kEnabled then s.terminate else s) := by
  unfold tells
  by_cases hEnabled : s.hdcpState = .kEnabled
  · rw [if_pos hEnabled, if_pos hEnabled]
    have hReads := hKept.reads
    rw [hEnabled] at hReads
    exact kept_called hKept rfl hReads (.inr (.inl rfl)) hFree rfl rfl
  · rw [if_neg hEnabled, if_neg hEnabled, List.append_nil]
    exact hKept

/-- A frame that asks finds the state as it was when the frame was begun. -/
theorem kept_requested {type : HdcpContentType} (hKept : Kept h s)
    (hAsks : s.frame = some (some type)) :
    Kept (h ++ [.requested type]) { s.requested timeout with frame := none } := by
  have hType := hKept.frame type hAsks
  have hReads := hKept.reads
  unfold requested
  cases hState : s.hdcpState with
  | kDesired =>
    rw [hState] at hType hReads
    obtain rfl := Option.some.inj hType
    rw [if_neg (by simp)]
    exact kept_called hKept rfl hReads rfl rfl rfl rfl
  | kRetry =>
    rw [hState] at hType hReads
    obtain rfl := Option.some.inj hType
    rw [if_neg (by simp)]
    exact kept_called hKept rfl hReads rfl rfl rfl rfl
  | kUndesired | kRequested | kEnabled | kThreadExit =>
    rw [hState] at hType
    cases hType

theorem kept_commitFrame {committed : Bool} (hKept : Kept h s)
    (hStep : s.act timeout (.commitFrame committed) = some s') :
    Kept (h ++ s.tells (.commitFrame committed)) s' := by
  unfold act at hStep
  cases hFrame : s.frame with
  | none =>
    rw [hFrame] at hStep
    cases hStep
  | some asks =>
    cases asks with
    | none =>
      rw [hFrame] at hStep
      obtain rfl := Option.some.inj hStep
      have hNothing : s.tells (.commitFrame committed) = [] := by
        cases committed with
        | false => rfl
        | true =>
          unfold tells
          rw [hFrame]
          rfl
      rw [hNothing, List.append_nil]
      exact kept_framed hKept fun _ hAsks => by cases hAsks
    | some type =>
      rw [hFrame] at hStep
      obtain rfl := Option.some.inj hStep
      cases committed with
      | false =>
        rw [tells, List.append_nil]
        exact kept_framed hKept fun _ hAsks => by cases hAsks
      | true =>
        have hAsked : s.tells (.commitFrame true) = [.requested type] := by
          unfold tells
          rw [hFrame]
          rfl
        rw [hAsked]
        exact kept_requested hKept hFrame

theorem kept_destroy (hKept : Kept h s) (hFree : s.frame = none) :
    Kept h { s with hdcpState := .kThreadExit }.notifyAll where
  next := hKept.next
  reads := trivial
  frame type hAsks := by
    have hNone : s.frame = some (some type) := hAsks
    rw [hFree] at hNone
    cases hNone
  answer := hKept.answer
  telling := hKept.telling
  awake _ hAt := by
    have hPlace : s.place = .wait := hAt
    refine notified_notifyAll ?_
    rw [hPlace]
    rfl
  ends time hAt := by
    have hPlace : s.place = .waitUntil time := hAt
    refine .inr (notified_notifyAll ?_)
    rw [hPlace]
    rfl

theorem kept_lock (hKept : Kept h s) (hTop : s.place = .top) : Kept h s.lock := by
  have hTold : s.place.untold = none := by
    rw [hTop]
    rfl
  unfold lock
  split
  · exact kept_elsewhere hKept hTold (by simp)
  rename_i hOpen
  split
  · split
    · exact kept_elsewhere hKept hTold (by simp)
    · refine kept_placed hKept hTold rfl (fun _ => nofun) nofun fun time hWaits => ?_
      cases hWaits
      exact Int.min_le_left _ _
  · rename_i hNot
    exact kept_placed hKept hTold rfl (fun _ => nofun) (fun _ => ⟨hNot, hOpen⟩) fun _ => nofun

theorem kept_wake (hKept : Kept h s) (hStep : s.wake = some s') : Kept h s' := by
  unfold wake at hStep
  cases hPlace : s.place with
  | wait =>
    rw [hPlace] at hStep
    obtain rfl := Option.some.inj hStep
    exact kept_elsewhere hKept (by rw [hPlace]; rfl) (by simp)
  | waitUntil time =>
    rw [hPlace] at hStep
    obtain rfl := Option.some.inj hStep
    have hTold : s.place.untold = none := by
      rw [hPlace]
      rfl
    split
    · exact kept_elsewhere hKept hTold (by simp)
    · exact kept_elsewhere hKept hTold (by simp)
  | top | early | fires | answered | tells | gone =>
    rw [hPlace] at hStep
    cases hStep

/-- An answer of the connector, and the thread where it takes it. -/
theorem kept_answered {place : Place} {enabled : Bool} (hKept : Kept h s)
    (hTold : s.place.untold = none) (hPlace : place.untold = none)
    (hJudges : ∀ answer, place = .answered answer → answer = enabled)
    (hWaits : place.waits = false) :
    Kept (h ++ [.answered enabled]) { s with place := place } where
  next := follows_concat.mpr ⟨hKept.next, trivial⟩
  reads := by
    rw [lastMove_still (e := .answered enabled) rfl]
    exact hKept.reads
  frame := hKept.frame
  answer answer hAt := by
    rw [lastAnswer_answered, hJudges answer hAt]
  telling := by
    rw [untold_concat]
    exact (hKept.telling.trans hTold).trans hPlace.symm
  awake _ hAt := by
    have hHere : place = .wait := hAt
    rw [hHere] at hWaits
    cases hWaits
  ends time hAt := by
    have hHere : place = .waitUntil time := hAt
    rw [hHere] at hWaits
    cases hWaits

theorem kept_query {enabled : Bool} (hKept : Kept h s)
    (hStep : s.act timeout (.query enabled) = some s') :
    Kept (h ++ s.tells (.query enabled)) s' := by
  unfold act at hStep
  cases hPlace : s.place with
  | early =>
    rw [hPlace] at hStep
    obtain rfl := Option.some.inj hStep
    have hTold : s.place.untold = none := by
      rw [hPlace]
      rfl
    cases enabled with
    | true => exact kept_answered hKept hTold rfl (fun _ => nofun) rfl
    | false => exact kept_answered hKept hTold rfl (fun _ => nofun) rfl
  | fires =>
    rw [hPlace] at hStep
    obtain rfl := Option.some.inj hStep
    refine kept_answered hKept (by rw [hPlace]; rfl) rfl (fun answer hAt => ?_) rfl
    cases hAt
    rfl
  | top | wait | waitUntil | answered | tells | gone =>
    rw [hPlace] at hStep
    cases hStep

/-- A judgement, of a link that is asked for. -/
theorem kept_judged (hKept : Kept h s) (verdict : Verdict) (state : HdcpState) (wasRetry : Bool)
    (hRequested : s.hdcpState = .kRequested) (hNext : Next h (.judged verdict))
    (hReads : Reads wasRetry state (some (.judged verdict))) :
    Kept (h ++ [.judged verdict])
      { s with hdcpState := state, wasRetry := wasRetry, place := .tells verdict } where
  next := follows_concat.mpr ⟨hKept.next, hNext⟩
  reads := by
    rw [lastMove_moved (e := .judged verdict) rfl]
    exact hReads
  frame type hAsks := by
    have hType := hKept.frame type hAsks
    rw [hRequested] at hType
    cases hType
  answer _ hAt := nomatch hAt
  telling := untold_concat
  awake _ hAt := nomatch hAt
  ends _ hAt := nomatch hAt

/-- **A stretch that judges** goes by the last answer and by what was asked for last. -/
theorem kept_setContentProtectionStatus {cpEnabled : Bool} (hKept : Kept h s)
    (hPlace : s.place = .answered cpEnabled) :
    Kept (h ++ ((s.setContentProtectionStatus cpEnabled).2.map Event.judged).toList)
      { (s.setContentProtectionStatus cpEnabled).1 with
        place := ((s.setContentProtectionStatus cpEnabled).2.map Place.tells).getD .top } := by
  have hAnswer := hKept.answer cpEnabled hPlace
  have hTold : s.place.untold = none := by
    rw [hPlace]
    rfl
  have hUntold := hKept.telling.trans hTold
  have hReads := hKept.reads
  unfold setContentProtectionStatus
  by_cases hRequested : s.hdcpState = .kRequested
  · rw [hRequested] at hReads
    rw [if_pos hRequested]
    cases cpEnabled with
    | true =>
      exact kept_judged hKept (.enabled (if s.wasRetry then .kType0 else .kType1)) .kEnabled false
        hRequested ⟨hUntold, hAnswer, hReads⟩ ⟨_, rfl⟩
    | false =>
      cases hRetry : s.wasRetry with
      | true =>
        rw [hRetry] at hReads
        exact kept_judged hKept .failed .kUndesired false hRequested ⟨hUntold, hAnswer, hReads⟩
          (.inr (.inr rfl))
      | false =>
        rw [hRetry] at hReads
        exact kept_judged hKept .retry .kRetry false hRequested ⟨hUntold, hAnswer, hReads⟩ rfl
  · -- what was asked for has been given up meanwhile, or is asked for anew
    rw [if_neg hRequested, Option.map_none, Option.toList_none, List.append_nil]
    exact kept_elsewhere hKept hTold (by simp)

theorem kept_judge (hKept : Kept h s) (hStep : s.act timeout .judge = some s') :
    Kept (h ++ s.tells .judge) s' := by
  unfold act at hStep
  cases hPlace : s.place with
  | answered cpEnabled =>
    have hJudged : s.tells .judge =
        ((s.setContentProtectionStatus cpEnabled).2.map Event.judged).toList := by
      unfold tells
      rw [hPlace]
    rw [hPlace] at hStep
    obtain rfl := Option.some.inj hStep
    rw [hJudged]
    exact kept_setContentProtectionStatus hKept hPlace
  | top | wait | waitUntil | early | fires | tells | gone =>
    rw [hPlace] at hStep
    cases hStep

theorem kept_tell (hKept : Kept h s) (hStep : s.act timeout .tell = some s') :
    Kept (h ++ s.tells .tell) s' := by
  unfold act at hStep
  cases hPlace : s.place with
  | tells verdict =>
    rw [hPlace] at hStep
    obtain rfl := Option.some.inj hStep
    have hUntold := hKept.telling
    rw [hPlace] at hUntold
    unfold HdcpController.tells
    rw [hPlace]
    refine ⟨follows_concat.mpr ⟨hKept.next, hUntold⟩, ?_, hKept.frame,
      fun _ hAt => (nomatch hAt), untold_concat, fun _ hAt => (nomatch hAt),
      fun _ hAt => (nomatch hAt)⟩
    show Reads _ _ (lastMove (h ++ [.told verdict]))
    rw [lastMove_still (e := .told verdict) rfl]
    exact hKept.reads
  | top | wait | waitUntil | early | fires | answered | gone =>
    rw [hPlace] at hStep
    cases hStep

/-- **Every operation keeps the controller.** -/
theorem kept_act {op : Op} (hKept : Kept h s) (hStep : s.act timeout op = some s') :
    Kept (h ++ s.tells op) s' := by
  cases op with
  | startHdcp =>
    obtain ⟨hFree, hStep⟩ := Option.ite_none_right_eq_some.mp hStep
    obtain rfl := Option.some.inj hStep
    exact kept_startHdcp hKept hFree.1 hFree.2
  | stopHdcp =>
    obtain ⟨hFree, hStep⟩ := Option.ite_none_right_eq_some.mp hStep
    obtain rfl := Option.some.inj hStep
    exact kept_stopHdcp hKept hFree.1
  | createFrame =>
    obtain ⟨-, hStep⟩ := Option.ite_none_right_eq_some.mp hStep
    obtain rfl := Option.some.inj hStep
    rw [tells, List.append_nil]
    exact kept_framed hKept fun type hAsks => Option.some.inj hAsks
  | commitFrame committed => exact kept_commitFrame hKept hStep
  | destroy =>
    obtain ⟨hFree, hStep⟩ := Option.ite_none_right_eq_some.mp hStep
    obtain rfl := Option.some.inj hStep
    rw [tells, List.append_nil]
    exact kept_destroy hKept hFree.1
  | lock =>
    obtain ⟨hTop, hStep⟩ := Option.ite_none_right_eq_some.mp hStep
    obtain rfl := Option.some.inj hStep
    rw [tells, List.append_nil]
    exact kept_lock hKept hTop
  | wake =>
    rw [tells, List.append_nil]
    exact kept_wake hKept hStep
  | query enabled => exact kept_query hKept hStep
  | judge => exact kept_judge hKept hStep
  | tell => exact kept_tell hKept hStep

theorem kept_step {a : Action} (hKept : Kept h s) (hStep : (machine timeout).step s a = some s') :
    Kept (h ++ (machine timeout).events s a) s' :=
  kept_act (kept_later hKept) hStep

theorem kept_init {start : Int} : Kept [] { now := start } where
  next := follows_nil
  reads := .inl rfl
  frame _ hAsks := nomatch hAsks
  answer _ hAt := nomatch hAt
  telling := rfl
  awake hState := hState.elim nofun nofun
  ends _ hAt := nomatch hAt

-- ---------------------------------------------------------------------------
-- What a run comes to
-- ---------------------------------------------------------------------------

/-- A link asked for anew may be asked for less once: it has not been while it is asked for
at first. -/
def mayRetry : Option Event → Nat
  | some .started | some (.requested .kType1) => 1
  | _ => 0

/-- **No more retries than starts**, in any asking that goes its way. -/
theorem retries_le_started (hNext : Follows Next h) :
    h.count (.judged .retry) + mayRetry (lastMove h) ≤ h.count .started := by
  induction h using List.reverseRecOn with
  | nil => exact Nat.le_refl _
  | append_singleton h e ih =>
    obtain ⟨hEarlier, hLast⟩ := follows_concat.mp hNext
    have hBefore := ih hEarlier
    rw [List.count_append, List.count_append, lastMove_concat]
    cases e with
    | started => simp [Event.moves, mayRetry]; omega
    | requested type =>
      cases type with
      | kType0 => simp [Event.moves, mayRetry]; omega
      | kType1 =>
        have hStarted : lastMove h = some .started := hLast
        rw [hStarted] at hBefore
        simpa [Event.moves, mayRetry] using hBefore
    | terminated => simp [Event.moves, mayRetry]; omega
    | answered enabled => simpa [Event.moves] using hBefore
    | judged verdict =>
      cases verdict with
      | enabled type => simp [Event.moves, mayRetry]; omega
      | retry =>
        have hRequested : lastMove h = some (.requested .kType1) := hLast.2.2
        rw [hRequested] at hBefore
        simpa [Event.moves, mayRetry] using hBefore
      | failed => simp [Event.moves, mayRetry]; omega
    | told verdict => simpa [Event.moves] using hBefore

/-- **A link is told protected as it was asked to be.** In every run, whatever the display
calls, the connector answers and the thread is held up by: what comes next might (`Next`);
the link is asked for less no more often than it was asked for anew; a thread in its untimed
wait is told of a link that is asked for, and of its own end; and one in its timed wait
waits no longer than for the time armed, unless it has been notified. -/
theorem hdcp_as_asked {start : Int} {actions : List Action}
    (hRun : (machine timeout).run { now := start } actions = some s) :
    Follows Next ((machine timeout).trace { now := start } actions) ∧
      ((machine timeout).trace { now := start } actions).count (.judged .retry) ≤
        ((machine timeout).trace { now := start } actions).count .started ∧
      (s.hdcpState = .kRequested ∨ s.hdcpState = .kThreadExit → s.place = .wait →
        s.notified = true) ∧
      ∀ time, s.place = .waitUntil time → time ≤ s.sleepUntil ∨ s.notified = true := by
  have hKept := Machine.run_history (fun _ _ _ _ => kept_step) (@kept_init start) hRun
  rw [List.nil_append] at hKept
  exact ⟨hKept.next, Nat.le_trans (Nat.le_add_right _ _) (retries_le_started hKept.next),
    hKept.awake, hKept.ends⟩

/-- A link that is not protected by its time, and then is, at less. -/
def retriedLink : List Action :=
  [⟨0, .startHdcp⟩, ⟨0, .lock⟩, ⟨5, .createFrame⟩, ⟨8, .commitFrame true⟩, ⟨8, .wake⟩, ⟨8, .lock⟩,
    ⟨30008, .wake⟩, ⟨30008, .query false⟩, ⟨30008, .lock⟩, ⟨30008, .query false⟩, ⟨30008, .judge⟩,
    ⟨30009, .tell⟩, ⟨30010, .createFrame⟩, ⟨30015, .commitFrame true⟩, ⟨30015, .lock⟩,
    ⟨31015, .wake⟩, ⟨31015, .query true⟩, ⟨31015, .query true⟩, ⟨31015, .judge⟩, ⟨31016, .tell⟩]

example : (machine 30000).trace { now := 0 } retriedLink =
    [.started, .requested .kType1, .answered false, .answered false, .judged .retry,
      .told .retry, .requested .kType0, .answered true, .answered true,
      .judged (.enabled .kType0), .told (.enabled .kType0)] := by decide

theorem hdcp_as_asked_retried :
    Follows Next ((machine 30000).trace { now := 0 } retriedLink) ∧
      ((machine 30000).trace { now := 0 } retriedLink).count (.judged .retry) ≤
        ((machine 30000).trace { now := 0 } retriedLink).count .started :=
  have hKept := @hdcp_as_asked 30000 _ 0 retriedLink rfl
  ⟨hKept.1, hKept.2.1⟩

end HdcpController

end TegraHwc
