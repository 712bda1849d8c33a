import TegraHwc.Lib.Runs
import Mathlib.Tactic.Common

/-!
# TegraHwc — an engine's clock floor, and what ends it

`governor/FenceWatch.cpp`, `governor/FloorLane.cpp` and the two actuators,
`governor/EngineClock.cpp` and `governor/GpuClock.cpp`. A lane holds one
engine's floor while work is planned for it or in flight, by the fences of that
work and by two timers. Times are nanoseconds of the monotonic clock, nought
for a timer that is not set; what the kernel answers a write is given. Traces
and logs are left out.

## Results

* `follow_ends_iff`   — what is left to end a floor once the fences are judged.
* `handled_ends_iff`  — a round leaves a floor with nothing to end it exactly
  when it is not tied.
* `floor_ends`        — in a run of tied rounds a floor always ends.
* `floor_stands`      — a report with no fence leaves one standing.
-/

namespace TegraHwc.Governor

/-- `nsPerMs`. -/
def nsPerMs : Nat := 1000000

/-- `Tuning`, as far as a lane and the processor's lift read it. -/
structure Tuning where
  coldCapMhz : Nat := 756
  cpuKhz : Nat := 1044000
  cpuCapMs : Nat := 5
  cpuLowKhz : Nat := 400000
  cpuPauseLift : Nat := 0
  submitMeasured : Nat := 1
  holdMs : Nat := 17
  fencePatienceMs : Nat := 500
  orphanMs : Nat := 100
  gpuBoost : Nat := 1
  deriving DecidableEq, Repr

-- ---------------------------------------------------------------------------
-- The fences
-- ---------------------------------------------------------------------------

/-- `Watched`. -/
structure Watched where
  fd : Int
  seq : Nat
  sinceNs : Nat := 0
  deriving DecidableEq, Repr

/-- `pollfd`, with what poll answered of it: `due` for any of `POLLIN`,
`POLLERR`, `POLLHUP` and `POLLNVAL`. -/
structure PollFd where
  fd : Int
  due : Bool := false
  deriving DecidableEq, Repr

/-- `FenceWatch`. -/
structure FenceWatch where
  watched : List Watched := []
  latestSeq : Nat := 0
  deriving DecidableEq, Repr

namespace FenceWatch

/-- `Add`: reported is reported, descriptor or not. -/
def add (f : FenceWatch) (fd : Int) (seq now : Nat) : FenceWatch :=
  { watched := if fd < 0 then f.watched else f.watched ++ [{ fd := fd, seq := seq, sinceNs := now }]
    latestSeq := if f.latestSeq < seq then seq else f.latestSeq }

/-- `AppendPollSet`. -/
def appendPollSet (f : FenceWatch) (fds : List PollFd) : List PollFd :=
  fds ++ f.watched.map fun w => { fd := w.fd }

/-- `NextGiveUpNs`. -/
def nextGiveUpNs (f : FenceWatch) (patience : Nat) : Nat :=
  f.watched.foldl (fun earliest w =>
    let at_ := w.sinceNs + patience
    if earliest = 0 ∨ at_ < earliest then at_ else earliest) 0

/-- `signaled`, of a slot. -/
def signaled (fds : List PollFd) (slot : Nat) : Bool := (fds[slot]?.map PollFd.due).getD false

/-- `Judge`'s loop from a slot on: the fences kept, and those closed. -/
def judgeFrom (fds : List PollFd) (now patience : Nat) :
    Nat → List Watched → List Watched × List Int
  | _, [] => ([], [])
  | slot, w :: rest =>
    let (kept, closed) := judgeFrom fds now patience (slot + 1) rest
    if signaled fds slot = true ∨ w.sinceNs + patience ≤ now then (kept, w.fd :: closed)
    else (w :: kept, closed)

/-- `Judge`: whether any fence was done, what is watched on, and what was
closed. -/
def judge (f : FenceWatch) (fds : List PollFd) (firstSlot now patience : Nat) :
    Bool × FenceWatch × List Int :=
  let (kept, closed) := judgeFrom fds now patience firstSlot f.watched
  (!closed.isEmpty, { f with watched := kept }, closed)

/-- `DropAll`, and what it closes. -/
def dropAll (f : FenceWatch) : FenceWatch × List Int :=
  ({ f with watched := [] }, f.watched.map Watched.fd)

end FenceWatch

-- ---------------------------------------------------------------------------
-- The actuators
-- ---------------------------------------------------------------------------

/-- What the kernel answers a clock request: taken, refused for good --
`EPERM`, `EACCES` or `ENODEV` -- or failed. -/
inductive Answer where
  | taken
  | refused
  | failed
  deriving DecidableEq, Repr

/-- `FloorActuator`: an engine's floor, and what its writes do to it. -/
class FloorActuator (A : Type) where
  opened : Bool → A
  usable : A → Bool
  floorMhz : A → Nat
  setFloor : A → Nat → Answer → Bool × A
  release : A → Answer → A
  floorMhz_opened : ∀ b, floorMhz (opened b) = 0
  setFloor_taken : ∀ a mhz answer, (setFloor a mhz answer).1 = true →
    floorMhz (setFloor a mhz answer).2 = mhz
  /-- A floor that could not be set stays as it was, or goes. -/
  setFloor_refused : ∀ a mhz answer, (setFloor a mhz answer).1 = false →
    floorMhz (setFloor a mhz answer).2 = floorMhz a ∨ floorMhz (setFloor a mhz answer).2 = 0
  floorMhz_release : ∀ a answer, floorMhz (release a answer) = 0

/-- `EngineClock`. -/
structure EngineClock where
  isOpen : Bool := true
  refused : Bool := false
  floorMhz : Nat := 0
  deriving DecidableEq, Repr

namespace EngineClock

/-- `usable`. -/
def usable (c : EngineClock) : Bool := c.isOpen && !c.refused

/-- `Request`: a kernel that refuses once is not asked again. -/
def request (c : EngineClock) (answer : Answer) : Bool × EngineClock :=
  if c.usable = false then (false, c)
  else
    match answer with
    | .taken => (true, c)
    | .refused => (false, { c with refused := true })
    | .failed => (false, c)

/-- `SetFloor`. -/
def setFloor (c : EngineClock) (mhz : Nat) (answer : Answer) : Bool × EngineClock :=
  let (ok, c) := c.request answer
  if ok then (true, { c with floorMhz := mhz }) else (false, c)

/-- `Release`. -/
def release (c : EngineClock) (answer : Answer) : EngineClock :=
  if c.floorMhz = 0 then c else ({ c with floorMhz := 0 }.request answer).2

/-- A request leaves the floor noted as it was. -/
theorem request_floorMhz (c : EngineClock) (answer : Answer) :
    (c.request answer).2.floorMhz = c.floorMhz := by
  unfold request
  split
  · rfl
  · cases answer <;> rfl

end EngineClock

instance : FloorActuator EngineClock where
  opened b := { isOpen := b }
  usable := EngineClock.usable
  floorMhz := EngineClock.floorMhz
  setFloor := EngineClock.setFloor
  release := EngineClock.release
  floorMhz_opened _ := rfl
  setFloor_taken c mhz answer h := by
    unfold EngineClock.setFloor at h ⊢
    simp only at h ⊢
    split at h
    · rename_i hOk
      rw [if_pos hOk]
    · cases h
  setFloor_refused c mhz answer h := by
    unfold EngineClock.setFloor at h ⊢
    simp only at h ⊢
    split at h
    · cases h
    · rename_i hOk
      rw [if_neg hOk]
      exact .inl (c.request_floorMhz answer)
  floorMhz_release c answer := by
    unfold EngineClock.release
    split
    · assumption
    · exact EngineClock.request_floorMhz _ answer

/-- `GpuClock`. -/
structure GpuClock where
  isOpen : Bool := true
  floorMhz : Nat := 0
  deriving DecidableEq, Repr

namespace GpuClock

/-- `Write`: a write that fails gives the floor up. -/
def write (c : GpuClock) (answer : Answer) : Bool × GpuClock :=
  if c.isOpen = false then (false, c)
  else
    match answer with
    | .taken => (true, c)
    | _ => (false, { isOpen := false, floorMhz := 0 })

/-- `SetFloor`. -/
def setFloor (c : GpuClock) (mhz : Nat) (answer : Answer) : Bool × GpuClock :=
  let (ok, c) := c.write answer
  if ok then (true, { c with floorMhz := mhz }) else (false, c)

/-- `Release`. -/
def release (c : GpuClock) (answer : Answer) : GpuClock :=
  if c.floorMhz = 0 then c else ({ c with floorMhz := 0 }.write answer).2

end GpuClock

instance : FloorActuator GpuClock where
  opened b := { isOpen := b }
  usable := GpuClock.isOpen
  floorMhz := GpuClock.floorMhz
  setFloor := GpuClock.setFloor
  release := GpuClock.release
  floorMhz_opened _ := rfl
  setFloor_taken c mhz answer h := by
    unfold GpuClock.setFloor at h ⊢
    simp only at h ⊢
    split at h
    · rename_i hOk
      rw [if_pos hOk]
    · cases h
  setFloor_refused c mhz answer h := by
    unfold GpuClock.setFloor GpuClock.write at h ⊢
    cases hOpen : c.isOpen <;> cases answer <;> simp_all
  floorMhz_release c answer := by
    unfold GpuClock.release GpuClock.write
    split
    · assumption
    · cases hOpen : c.isOpen <;> cases answer <;> simp

-- ---------------------------------------------------------------------------
-- The lane
-- ---------------------------------------------------------------------------

/-- `FloorLane`. -/
structure FloorLane (A : Type) where
  actuator : A
  fences : FenceWatch := {}
  firstSlot : Nat := 0
  releaseDueNs : Nat := 0
  orphanDueNs : Nat := 0
  owedMhz : Nat := 0
  deriving DecidableEq, Repr

/-- The earlier of two moments, nought being none: `consider`. -/
def consider (due when_ : Nat) : Nat := if 0 < when_ ∧ (due = 0 ∨ when_ < due) then when_ else due

/-- What is asked of a lane for a frame's work, the clock devfreq has the
engine at, and what the kernel answers. -/
structure Asked where
  step : Nat
  owed : Nat := 0
  reported : Bool := false
  currentMhz : Option Nat := none
  answer : Answer := .taken
  deriving DecidableEq, Repr

namespace FloorLane

open FloorActuator

variable {A : Type} [FloorActuator A]

/-- `floor_mhz`. -/
def floor (lane : FloorLane A) : Nat := floorMhz lane.actuator

/-- `HasReported`. -/
def hasReported (lane : FloorLane A) (seq : Nat) : Bool := decide (seq ≤ lane.fences.latestSeq)

/-- `fence_patience_ms`, in nanoseconds. -/
def patienceNs (t : Tuning) : Nat := t.fencePatienceMs * nsPerMs

/-- `NextDueNs`. -/
def nextDueNs (t : Tuning) (lane : FloorLane A) : Nat :=
  consider (consider (consider 0 lane.releaseDueNs) lane.orphanDueNs)
    (lane.fences.nextGiveUpNs (patienceNs t))

/-- `AppendPollSet`. -/
def appendPollSet (lane : FloorLane A) (fds : List PollFd) : FloorLane A × List PollFd :=
  ({ lane with firstSlot := fds.length }, lane.fences.appendPollSet fds)

/-- `Reported`. -/
def reported (lane : FloorLane A) (answer : Answer) : FloorLane A :=
  let step := lane.owedMhz
  let lane := { lane with orphanDueNs := 0, owedMhz := 0 }
  if step = 0 ∨ usable lane.actuator = false ∨ step ≤ lane.floor then lane
  else { lane with actuator := (setFloor lane.actuator step answer).2 }

/-- `Follow`, and the fences it closes. -/
def follow (t : Tuning) (lane : FloorLane A) (fds : List PollFd) (submitted : List Watched)
    (now : Nat) : FloorLane A × List Int :=
  let (anyDone, fences, closed) := lane.fences.judge fds lane.firstSlot now (patienceNs t)
  -- the fences reported this round are added after the slots judged
  let fences := submitted.foldl (fun f w => f.add w.fd w.seq now) fences
  let lane := { lane with fences := fences }
  if anyDone = true ∧ lane.fences.watched = [] ∧ lane.floor ≠ 0 ∧ lane.orphanDueNs = 0 then
    ({ lane with releaseDueNs := now + t.holdMs * nsPerMs }, closed)
  else (lane, closed)

/-- `Ask`. -/
def ask (t : Tuning) (lane : FloorLane A) (a : Asked) (now : Nat) : FloorLane A :=
  let lane := { lane with owedMhz := a.owed }
  let (raised, actuator) :=
    if lane.floor < a.step ∧ a.currentMhz.getD 0 < a.step then
      setFloor lane.actuator a.step a.answer
    else (false, lane.actuator)
  let lane := { lane with actuator := actuator }
  if raised = false ∧ lane.floor = 0 then lane
  else if a.reported = false then
    { lane with releaseDueNs := 0, orphanDueNs := now + t.orphanMs * nsPerMs }
  else
    { lane with
      orphanDueNs := 0
      releaseDueNs := if lane.fences.watched = [] then now + t.holdMs * nsPerMs else 0 }

/-- `ReleaseIfDue`. -/
def releaseIfDue (lane : FloorLane A) (now : Nat) (answer : Answer) : FloorLane A :=
  if lane.floor = 0 ∨ lane.fences.watched ≠ [] then lane
  else if (lane.releaseDueNs ≠ 0 ∧ lane.releaseDueNs ≤ now) ∨
      (lane.orphanDueNs ≠ 0 ∧ lane.orphanDueNs ≤ now) then
    { lane with
      releaseDueNs := 0, orphanDueNs := 0, owedMhz := 0, actuator := release lane.actuator answer }
  else lane

/-- `DropAll`, and the fences it closes. -/
def dropAll (lane : FloorLane A) (answer : Answer) : FloorLane A × List Int :=
  let (fences, closed) := lane.fences.dropAll
  ({ lane with
    fences := fences, releaseDueNs := 0, orphanDueNs := 0, owedMhz := 0
    actuator := release lane.actuator answer }, closed)

end FloorLane

/-- A round of the thread, as one lane sees it: when it is handled, by a clock
that has run since the device came up, the slots before the lane's in the poll
set and what poll answered, the work reported, what is asked for a plan, and
what the kernel answers. -/
structure Round where
  now : Nat
  now_pos : 0 < now
  before : List PollFd := []
  fds : List PollFd := []
  submitted : List Watched := []
  asked : Option Asked := none
  owedAnswer : Answer := .taken
  releaseAnswer : Answer := .taken
  deriving DecidableEq, Repr

namespace FloorLane

open FloorActuator

variable {A : Type} [FloorActuator A]

/-- A lane's part of a round, once poll has answered. -/
def handled (t : Tuning) (lane : FloorLane A) (r : Round) : FloorLane A :=
  let lane := if r.submitted = [] then lane else lane.reported r.owedAnswer
  let lane := (lane.follow t r.fds r.submitted r.now).1
  let lane := match r.asked with
    | none => lane
    | some a => lane.ask t a r.now
  lane.releaseIfDue r.now r.releaseAnswer

/-- A lane's part of a round, the poll set built first. -/
def round (t : Tuning) (lane : FloorLane A) (r : Round) : FloorLane A :=
  (lane.appendPollSet r.before).1.handled t r

end FloorLane

/-- What happens to a lane: a round, or the display going dark. -/
inductive LaneAction where
  | round (r : Round)
  | dropAll (answer : Answer)
  deriving DecidableEq, Repr

namespace FloorLane

open FloorActuator

variable {A : Type} [FloorActuator A]

/-- A lane from its opening on. -/
def machine (A : Type) [FloorActuator A] (t : Tuning) :
    Runs.Machine (FloorLane A) LaneAction Unit where
  step lane
    | .round r => some (lane.round t r)
    | .dropAll answer => some (lane.dropAll answer).1
  events _ _ := []

/-- A lane whose device opened, or would not. -/
def init (isOpen : Bool) : FloorLane A := { actuator := opened isOpen }

-- ---------------------------------------------------------------------------
-- What each operation leaves
-- ---------------------------------------------------------------------------

/-- Nothing judged is nothing kept and nothing closed. -/
theorem judgeFrom_nil_iff {fds : List PollFd} {now patience slot : Nat} {watched : List Watched} :
    ((FenceWatch.judgeFrom fds now patience slot watched).1 = [] ∧
      (FenceWatch.judgeFrom fds now patience slot watched).2 = []) ↔ watched = [] := by
  cases watched with
  | nil => simp [FenceWatch.judgeFrom]
  | cons w rest =>
    unfold FenceWatch.judgeFrom
    simp only
    split <;> simp

/-- Of the fences reported, those with a descriptor are watched. -/
theorem watched_foldl_add (submitted : List Watched) (now : Nat) (f : FenceWatch) :
    (submitted.foldl (fun f w => f.add w.fd w.seq now) f).watched =
      f.watched ++ (submitted.filter fun w => decide (0 ≤ w.fd)).map
        fun w => { w with sinceNs := now } := by
  induction submitted generalizing f with
  | nil => simp
  | cons w rest ih =>
    rw [List.foldl_cons, ih]
    unfold FenceWatch.add
    by_cases hFd : w.fd < 0
    · rw [if_pos hFd, List.filter_cons_of_neg (by simpa using hFd)]
    · rw [if_neg hFd, List.filter_cons_of_pos (by simpa using hFd), List.map_cons,
        List.append_assoc, List.singleton_append]

/-- A fence among those reported. -/
def AnyFence (submitted : List Watched) : Prop := ∃ w ∈ submitted, 0 ≤ w.fd

instance (submitted : List Watched) : Decidable (AnyFence submitted) := by
  unfold AnyFence
  infer_instance

/-- A fence of the lane that a judging keeps. -/
def Waiting (t : Tuning) (lane : FloorLane A) (fds : List PollFd) (now : Nat) : Prop :=
  (FenceWatch.judgeFrom fds now (patienceNs t) lane.firstSlot lane.fences.watched).1 ≠ []

instance (t : Tuning) (lane : FloorLane A) (fds : List PollFd) (now : Nat) :
    Decidable (Waiting t lane fds now) := by
  unfold Waiting
  infer_instance

variable {t : Tuning} {lane : FloorLane A} {fds : List PollFd} {submitted : List Watched}
  {now : Nat} {answer : Answer}

/-- What is watched after `Follow`: what was kept, and what was reported. -/
theorem follow_watched :
    (lane.follow t fds submitted now).1.fences.watched =
      (FenceWatch.judgeFrom fds now (patienceNs t) lane.firstSlot lane.fences.watched).1 ++
        (submitted.filter fun w => decide (0 ≤ w.fd)).map fun w => { w with sinceNs := now } := by
  unfold follow FenceWatch.judge
  simp only
  split <;> exact watched_foldl_add _ _ _

/-- After `Follow` nothing is watched when nothing was kept or reported. -/
theorem follow_watched_iff :
    (lane.follow t fds submitted now).1.fences.watched ≠ [] ↔
      Waiting t lane fds now ∨ AnyFence submitted := by
  rw [follow_watched]
  unfold Waiting AnyFence
  simp only [ne_eq, List.append_eq_nil_iff, List.map_eq_nil_iff, List.filter_eq_nil_iff,
    decide_eq_true_eq, not_and_or]
  push Not
  rfl

/-- What `Follow` leaves alone. -/
theorem follow_frame :
    (lane.follow t fds submitted now).1.actuator = lane.actuator ∧
      (lane.follow t fds submitted now).1.orphanDueNs = lane.orphanDueNs ∧
      (lane.follow t fds submitted now).1.owedMhz = lane.owedMhz := by
  unfold follow
  simp only
  split <;> exact ⟨rfl, rfl, rfl⟩

/-- The release time after `Follow`: set where the last fence has just gone and
no work still to come keeps the floor, and otherwise as it was. -/
theorem follow_releaseDueNs :
    (lane.follow t fds submitted now).1.releaseDueNs =
      if lane.fences.watched ≠ [] ∧ ¬Waiting t lane fds now ∧ ¬AnyFence submitted ∧
          lane.floor ≠ 0 ∧ lane.orphanDueNs = 0
      then now + t.holdMs * nsPerMs else lane.releaseDueNs := by
  have hSome := @judgeFrom_nil_iff fds now (patienceNs t) lane.firstSlot lane.fences.watched
  have hNone : (submitted.foldl (fun (f : FenceWatch) w => f.add w.fd w.seq now)
      { lane.fences with
        watched := (FenceWatch.judgeFrom fds now (patienceNs t) lane.firstSlot
          lane.fences.watched).1 }).watched = [] ↔
      ¬Waiting t lane fds now ∧ ¬AnyFence submitted := by
    rw [watched_foldl_add, ← not_or, ← follow_watched_iff, follow_watched, not_not]
  unfold follow FenceWatch.judge
  simp only
  by_cases hLast : lane.fences.watched ≠ [] ∧ ¬Waiting t lane fds now ∧ ¬AnyFence submitted ∧
      lane.floor ≠ 0 ∧ lane.orphanDueNs = 0
  · obtain ⟨hWas, hKept, hNoFence, hStands, hOrphan⟩ := hLast
    have hClosed := fun h => hWas (hSome.mp ⟨not_not.mp hKept, h⟩)
    rw [if_pos ⟨by simpa using hClosed, hNone.mpr ⟨hKept, hNoFence⟩, hStands, hOrphan⟩,
      if_pos ⟨hWas, hKept, hNoFence, hStands, hOrphan⟩]
  · rw [if_neg hLast, if_neg]
    rintro ⟨hDone, hNil, hStands, hOrphan⟩
    obtain ⟨hKept, hNoFence⟩ := hNone.mp hNil
    refine hLast ⟨fun h => ?_, hKept, hNoFence, hStands, hOrphan⟩
    rw [(hSome.mpr h).2] at hDone
    cases hDone

-- ---------------------------------------------------------------------------
-- What ends a floor
-- ---------------------------------------------------------------------------

/-- A standing floor has something that ends it. -/
def Ends (lane : FloorLane A) : Prop :=
  lane.floor ≠ 0 → lane.fences.watched ≠ [] ∨ lane.releaseDueNs ≠ 0 ∨ lane.orphanDueNs ≠ 0

/-- The actuator once the step owed, if any, has been asked. -/
def onceOwed (lane : FloorLane A) (answer : Answer) : A :=
  if lane.owedMhz = 0 ∨ usable lane.actuator = false ∨ lane.owedMhz ≤ lane.floor then lane.actuator
  else (setFloor lane.actuator lane.owedMhz answer).2

/-- **A tied round.** Work reported either comes with a fence, or finds one
watched or the hold running, or is answered by a plan that asks of the lane
again, or no floor stands for it. -/
def Tied (lane : FloorLane A) (r : Round) : Prop :=
  r.submitted ≠ [] → AnyFence r.submitted ∨ lane.fences.watched ≠ [] ∨ lane.releaseDueNs ≠ 0 ∨
    r.asked ≠ none ∨ floorMhz (lane.onceOwed r.owedAnswer) = 0

/-- What `Reported` leaves. -/
theorem reported_frame :
    (lane.reported answer).fences = lane.fences ∧
      (lane.reported answer).firstSlot = lane.firstSlot ∧
      (lane.reported answer).releaseDueNs = lane.releaseDueNs ∧
      (lane.reported answer).orphanDueNs = 0 ∧
      (lane.reported answer).actuator = lane.onceOwed answer := by
  unfold reported onceOwed
  simp only
  by_cases h : lane.owedMhz = 0 ∨ usable lane.actuator = false ∨ lane.owedMhz ≤ lane.floor
  · rw [if_pos h, if_pos]
    · exact ⟨rfl, rfl, rfl, rfl, rfl⟩
    · exact h
  · rw [if_neg h, if_neg]
    · exact ⟨rfl, rfl, rfl, rfl, rfl⟩
    · exact h

/-- **What is left once the fences are judged.** A floor that stood with
nothing watched, nothing timed and no fence reported is left to itself. -/
theorem follow_ends_iff (hNow : 0 < now) :
    Ends (lane.follow t fds submitted now).1 ↔
      (lane.floor ≠ 0 → AnyFence submitted ∨ lane.fences.watched ≠ [] ∨
        lane.releaseDueNs ≠ 0 ∨ lane.orphanDueNs ≠ 0) := by
  obtain ⟨hActuator, hOrphan, -⟩ := @follow_frame A _ t lane fds submitted now
  have hFloor : (lane.follow t fds submitted now).1.floor = lane.floor := by
    unfold floor
    rw [hActuator]
  unfold Ends
  rw [follow_watched_iff, follow_releaseDueNs, hOrphan, hFloor]
  refine imp_congr_right fun hStands => ?_
  have hWaiting : Waiting t lane fds now → lane.fences.watched ≠ [] := by
    intro h hNil
    unfold Waiting at h
    rw [hNil] at h
    exact h rfl
  split
  · rename_i hLast
    exact ⟨fun _ => .inr (.inl hLast.1), fun _ => .inr (.inl (by omega))⟩
  · rename_i hNotLast
    by_cases hWatched : lane.fences.watched = []
    · have hNotWaiting : ¬Waiting t lane fds now := fun h => hWaiting h hWatched
      simp [hWatched, hNotWaiting]
    · -- a fence that has gone leaves the hold, or the plan's own timer
      simp only [ne_eq, hWatched, not_false_eq_true, true_or, or_true, iff_true]
      by_contra hNone
      simp only [not_or, not_not] at hNone
      exact hNotLast ⟨hWatched, not_not.mpr (not_not.mp hNone.1.1), hNone.1.2, hStands, hNone.2.2⟩

/-- **A plan that asks of the lane leaves it something to end its floor.** -/
theorem ask_ends {a : Asked} (hNow : 0 < now) : Ends (lane.ask t a now) := by
  unfold ask
  simp only
  generalize (if FloorLane.floor { lane with owedMhz := a.owed } < a.step ∧
    a.currentMhz.getD 0 < a.step then setFloor lane.actuator a.step a.answer
    else (false, lane.actuator)) = tried
  split
  · rename_i hNoFloor
    exact fun hStands => absurd hNoFloor.2 hStands
  · split
    · exact fun _ => .inr (.inr (by simp only; omega))
    · intro _
      by_cases hWatched : lane.fences.watched = []
      · refine .inr (.inl ?_)
        simp only [hWatched, if_true]
        omega
      · exact .inl hWatched

/-- A release leaves no floor, and takes none that nothing ended. -/
theorem releaseIfDue_ends_iff : Ends (lane.releaseIfDue now answer) ↔ Ends lane := by
  unfold releaseIfDue
  split
  · rfl
  · split
    · rename_i hDue
      constructor
      · intro _ _
        rcases hDue with ⟨hSet, -⟩ | ⟨hSet, -⟩
        · exact .inr (.inl hSet)
        · exact .inr (.inr hSet)
      · intro _ hStands
        exact absurd (floorMhz_release lane.actuator answer) hStands
    · rfl

/-- **A round leaves a floor with nothing to end it exactly when it is not
tied.** -/
theorem handled_ends_iff {r : Round} (hEnds : Ends lane) :
    Ends (lane.handled t r) ↔ Tied lane r := by
  unfold handled
  simp only
  rw [releaseIfDue_ends_iff]
  cases hAsked : r.asked with
  | some a =>
    simp only
    exact ⟨fun _ _ => .inr (.inr (.inr (.inl (by simp [hAsked])))), fun _ => ask_ends r.now_pos⟩
  | none =>
    simp only
    rw [follow_ends_iff r.now_pos]
    unfold Tied
    by_cases hSubmitted : r.submitted = []
    · rw [if_pos hSubmitted]
      refine ⟨fun _ h => absurd hSubmitted h, fun _ hStands => .inr (hEnds hStands)⟩
    · rw [if_neg hSubmitted]
      obtain ⟨hFences, -, hRelease, hOrphan, hActuator⟩ := @reported_frame A _ lane r.owedAnswer
      rw [hFences, hRelease, hOrphan, floor, hActuator]
      simp only [hAsked, ne_eq, hSubmitted, not_false_eq_true, forall_const,
        not_true_eq_false, or_false, false_or]
      tauto

theorem round_ends_iff {r : Round} (hEnds : Ends lane) : Ends (lane.round t r) ↔ Tied lane r :=
  @handled_ends_iff A _ t (lane.appendPollSet r.before).1 r hEnds

/-- The display going dark leaves no floor. -/
theorem dropAll_ends : Ends (lane.dropAll answer).1 :=
  fun hStands => absurd (floorMhz_release lane.actuator answer) hStands

/-- Every round that happens to the lane is tied. -/
def TiedAction (lane : FloorLane A) : LaneAction → Prop
  | .round r => Tied lane r
  | .dropAll _ => True

/-- **The standing floor.** After every run of tied rounds, a floor that
stands has something that ends it. -/
theorem floor_ends {isOpen : Bool} {actions : List LaneAction}
    (hTied : (machine A t).Meets TiedAction (init isOpen) actions)
    (hRun : (machine A t).run (init isOpen) actions = some lane) : Ends lane := by
  refine Runs.Machine.run_of_meets (m := machine A t) ?_ ?_ hTied hRun
  · intro s a s' hEnds hTied hStep
    cases a with
    | round r =>
      obtain rfl := Option.some.inj hStep
      exact (round_ends_iff hEnds).mpr hTied
    | dropAll answer =>
      obtain rfl := Option.some.inj hStep
      exact dropAll_ends
  · exact fun hStands => absurd (floorMhz_opened isOpen) hStands

/-- A floor asked ahead of the work, and the work reported with its fence. -/
def followed : List LaneAction :=
  [.round { now := 1, now_pos := Nat.one_pos, asked := some { step := 400 } },
    .round { now := 2, now_pos := Nat.two_pos, submitted := [{ fd := 5, seq := 1 }] }]

/-- The floor of work reported with its fence has the fence to end it. -/
theorem floor_ends_followed :
    ∃ lane, (machine EngineClock {}).run (init true) followed = some lane ∧ lane.floor = 400 ∧
      Ends lane := by
  refine ⟨_, rfl, rfl, @floor_ends EngineClock _ {} _ true followed ?_ rfl⟩
  refine ⟨fun h => absurd rfl h, fun _ => .inl ⟨_, List.mem_singleton_self _, by decide⟩, trivial⟩

/-- The same work reported with no fence: one that could not be copied. -/
def unfollowed : List LaneAction :=
  [.round { now := 1, now_pos := Nat.one_pos, asked := some { step := 400 } },
    .round { now := 2, now_pos := Nat.two_pos, submitted := [{ fd := -1, seq := 1 }] }]

/-- **A floor left standing.** Work reported without a fence turns the orphan
timer off and puts nothing in its place. -/
theorem floor_stands :
    ¬∀ (t : Tuning) (isOpen : Bool) (actions : List LaneAction) (lane : FloorLane EngineClock),
      (machine EngineClock t).run (init isOpen) actions = some lane → Ends lane := by
  intro h
  have hEnds := h {} true unfollowed _ rfl (by decide)
  revert hEnds
  decide

end FloorLane

end TegraHwc.Governor
