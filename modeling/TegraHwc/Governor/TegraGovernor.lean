import TegraHwc.Governor.FloorLane
import TegraHwc.Lib.Ledger
import TegraHwc.Lib.MachineNumbers

/-!
# TegraHwc — the governor

`governor/TegraGovernor.cpp`, `governor/Mailbox.cpp` and
`governor/CpuFloor.cpp`: the composer's threads leave plans, reports and the
power mode in a mailbox; the governor's own thread takes them out, between one
poll and the next, and holds the two engines' floors and the processor's. Each
of the composer's calls is two actions, the look at the door and the deposit,
and a round of the thread is three: the poll, the take and the handling; so any
of them may fall between any others.

What a plan asks for is left to the plan: the estimates of `MergePlan`, the
performance profile, the measured submits and the kernel's clocks come in as
`Reading`. The warm-up, which touches no floor, the traces and the logs are
left out.
-/

namespace TegraHwc.Governor

-- ---------------------------------------------------------------------------
-- The mailbox
-- ---------------------------------------------------------------------------

/-- `Frame`, as far as the thread reads it. -/
structure Frame where
  seq : Nat := 0
  mergePlanned : Bool := false
  mergeReusePredicted : Bool := false
  previousFlipLanded : Bool := false
  deriving DecidableEq, Repr

/-- `GpuPlan`. -/
structure GpuPlan where
  seq : Nat
  pixels : Nat
  deriving DecidableEq, Repr

/-- `Power`. -/
inductive Power where
  | off
  | doze
  | dozeSuspend
  | suspend
  | on
  deriving DecidableEq, Repr

/-- `Mailbox`, and `Mailbox::Contents`, which has the same fields. -/
structure Mailbox where
  pending : Option Frame := none
  submitted : List Watched := []
  gpuPending : Option GpuPlan := none
  gpuSubmitted : List Watched := []
  power : Power := .on
  stop : Bool := false
  deriving DecidableEq, Repr

/-- A call of the composer's. -/
inductive Call where
  | framePlanned (frame : Frame)
  | mergeSubmitted (seq : Nat) (fd : Int)
  | gpuPlanned (plan : GpuPlan)
  | gpuSubmitted (seq : Nat) (fd : Int)
  deriving DecidableEq, Repr

/-- The fence a call hands in. -/
def Call.fds : Call → List Int
  | .mergeSubmitted _ fd | .gpuSubmitted _ fd => [fd]
  | _ => []

namespace Mailbox

/-- `Plan`, `Submit`, `PlanGpu` and `SubmitGpu`. -/
def deposit (m : Mailbox) (now : Nat) : Call → Mailbox
  | .framePlanned frame => { m with pending := some frame }
  | .mergeSubmitted seq fd => { m with submitted := m.submitted ++ [⟨fd, seq, now⟩] }
  | .gpuPlanned plan => { m with gpuPending := some plan }
  | .gpuSubmitted seq fd => { m with gpuSubmitted := m.gpuSubmitted ++ [⟨fd, seq, now⟩] }

/-- `SetPower`: a plan for a display going dark is a plan for nothing. -/
def setPower (m : Mailbox) (mode : Power) : Mailbox :=
  if mode = .on then { m with power := mode }
  else { m with power := mode, pending := none, gpuPending := none }

/-- `Take`: what is left in the box. -/
def taken (m : Mailbox) : Mailbox :=
  { m with pending := none, submitted := [], gpuPending := none, gpuSubmitted := [] }

end Mailbox

-- ---------------------------------------------------------------------------
-- The thread's own state
-- ---------------------------------------------------------------------------

/-- `CpuFloor`. -/
structure CpuFloor where
  isOpen : Bool := true
  lifted : Bool := false
  deriving DecidableEq, Repr

namespace CpuFloor

/-- `Write`: a write that fails gives the floor up. -/
def write (c : CpuFloor) (answer : Answer) : Bool × CpuFloor :=
  if c.isOpen = false then (false, c)
  else
    match answer with
    | .taken => (true, c)
    | _ => (false, { isOpen := false, lifted := false })

/-- `Lift`. -/
def lift (c : CpuFloor) (answer : Answer) : Bool × CpuFloor :=
  let (ok, c) := c.write answer
  if ok then (true, { c with lifted := true }) else (false, c)

/-- `Drop`. -/
def drop (c : CpuFloor) (answer : Answer) : CpuFloor :=
  if c.lifted = false then c else ({ c with lifted := false }.write answer).2

end CpuFloor

/-- What the thread alone holds of `TegraGovernor`. -/
structure Engines where
  vic : FloorLane EngineClock := FloorLane.init true
  gpu : FloorLane GpuClock := FloorLane.init true
  cpu : CpuFloor := {}
  cpuUntilNs : Nat := 0
  lastFrame : Frame := {}
  deriving DecidableEq, Repr

/-- What a plan is decided by besides itself: whether the engine is cold, the
composer paused and the device saving power, the processor's clock, the step
each engine's estimate comes to, the engines' clocks, and what the kernel
answers. -/
structure Reading where
  cold : Bool := false
  paused : Bool := false
  powerSave : Bool := false
  currentKhz : Nat := 0
  mergeStepMhz : Nat := 0
  gpuStepMhz : Nat := 0
  vicMhz : Option Nat := none
  gpuMhz : Option Nat := none
  liftFirst : Answer := .taken
  liftLast : Answer := .taken
  vicAsked : Answer := .taken
  vicOwed : Answer := .taken
  vicReleased : Answer := .taken
  gpuAsked : Answer := .taken
  gpuOwed : Answer := .taken
  gpuReleased : Answer := .taken
  cpuReported : Answer := .taken
  cpuDropped : Answer := .taken
  deriving DecidableEq, Repr

namespace Engines

open FloorActuator

/-- `TimeoutMs`: the milliseconds are cast to an `int`. -/
def timeoutMs (t : Tuning) (e : Engines) (now : Nat) : Int :=
  let due := consider (consider (consider 0 e.cpuUntilNs) (e.vic.nextDueNs t)) (e.gpu.nextDueNs t)
  if due = 0 then -1
  else if due ≤ now then 0
  else MachineNumbers.int32 (((due - now + nsPerMs - 1) / nsPerMs : Nat) : Int)

/-- `DropCpu`. -/
def dropCpu (e : Engines) (answer : Answer) : Engines :=
  { e with cpuUntilNs := 0, cpu := e.cpu.drop answer }

/-- `DropEverything`, and the fences it closes. -/
def dropEverything (e : Engines) (i : Reading) : Engines × List Int :=
  let (vic, vicClosed) := e.vic.dropAll i.vicReleased
  let (gpu, gpuClosed) := e.gpu.dropAll i.gpuReleased
  ({ e with vic := vic, gpu := gpu }.dropCpu i.cpuDropped, vicClosed ++ gpuClosed)

/-- The processor lifted for the submit to come. -/
def liftCpu (t : Tuning) (e : Engines) (answer : Answer) (now : Nat) : Bool × Engines :=
  let (lifted, cpu) := e.cpu.lift answer
  if lifted then (true, { e with cpu := cpu, cpuUntilNs := now + t.cpuCapMs * nsPerMs })
  else (false, { e with cpu := cpu })

/-- What `Decide` asks of the engine: a cold engine with the submit still ahead
is asked no more than the cap, and owed the rest. -/
def mergeAsked (t : Tuning) (i : Reading) (mergeReported : Bool) : Asked :=
  if i.cold = true ∧ mergeReported = false ∧ t.coldCapMhz < i.mergeStepMhz then
    { step := t.coldCapMhz, owed := i.mergeStepMhz, reported := mergeReported
      currentMhz := i.vicMhz, answer := i.vicAsked }
  else
    { step := i.mergeStepMhz, reported := mergeReported
      currentMhz := i.vicMhz, answer := i.vicAsked }

/-- `lift_cpu`: lifting is for a cold engine's submit, or one after a pause,
that is still to come. -/
def liftsCpu (t : Tuning) (e : Engines) (f : Frame) (mergeReported : Bool) (i : Reading) : Bool :=
  (i.cold || (i.paused && t.cpuPauseLift ≠ 0)) && !mergeReported && f.previousFlipLanded &&
    !i.powerSave && e.cpu.isOpen && t.cpuKhz ≠ 0 && usable e.vic.actuator

/-- `cpu_khz`. -/
def cpuKhz (t : Tuning) (e : Engines) (i : Reading) : Nat :=
  if e.cpu.isOpen && (t.submitMeasured ≠ 0 || i.cold || i.paused) then i.currentKhz else 0

/-- `Decide`'s first lift, of an idling processor, and whether it was made. -/
def liftFirst (t : Tuning) (e : Engines) (f : Frame) (now : Nat) (mergeReported : Bool)
    (i : Reading) : Bool × Engines :=
  if e.liftsCpu t f mergeReported i && (e.cpuKhz t i ≤ t.cpuLowKhz ||
      (!i.cold && e.cpuKhz t i < t.cpuKhz)) then e.liftCpu t i.liftFirst now
  else (false, e)

/-- `Decide`; `submitted` is `HasSubmitted` at its end. -/
def decide_ (t : Tuning) (e : Engines) (f : Frame) (now : Nat) (mergeReported submitted : Bool)
    (i : Reading) : Engines :=
  let e := { e with lastFrame := f }
  if f.mergePlanned = false ∨ f.mergeReusePredicted = true then e
  else
    let first := e.liftFirst t f now mergeReported i
    if i.powerSave = true ∨ usable first.2.vic.actuator = false then first.2
    else
      let asked := { first.2 with
        vic := first.2.vic.ask t (mergeAsked t i mergeReported) now }
      -- otherwise last, and only if the submit is still ahead
      if e.liftsCpu t f mergeReported i && !first.1 && !submitted then
        (asked.liftCpu t i.liftLast now).2
      else asked

/-- `DecideGpu`. -/
def decideGpu (t : Tuning) (e : Engines) (plan : GpuPlan) (now : Nat) (i : Reading) : Engines :=
  if t.gpuBoost = 0 ∨ usable e.gpu.actuator = false then e
  else if e.lastFrame.seq ≠ plan.seq then e
  else if i.powerSave = true then e
  else
    { e with
      gpu := e.gpu.ask t { step := i.gpuStepMhz, reported := e.gpu.hasReported plan.seq
                           currentMhz := i.gpuMhz, answer := i.gpuAsked } now }

/-- The fences of a list that are closed one by one. -/
def fdsOf (ws : List Watched) : List Int := (ws.map Watched.fd).filter fun fd => decide (0 ≤ fd)

/-- The reports of a round: the fences are judged, then those reported are
taken on. -/
def followed (t : Tuning) (e : Engines) (mail : Mailbox) (fds : List PollFd) (now : Nat)
    (i : Reading) : Engines × List Int :=
  let e := if mail.submitted = [] then e
    else { e.dropCpu i.cpuReported with vic := e.vic.reported i.vicOwed }
  let (vic, vicClosed) := e.vic.follow t fds mail.submitted now
  let gpu := if mail.gpuSubmitted = [] then e.gpu else e.gpu.reported i.gpuOwed
  let (gpu, gpuClosed) := gpu.follow t fds mail.gpuSubmitted now
  ({ e with vic := vic, gpu := gpu }, vicClosed ++ gpuClosed)

/-- The frame's own plan in a round. -/
def framePlanned (t : Tuning) (e : Engines) (mail : Mailbox) (now : Nat) (submitted : Bool)
    (i : Reading) : Engines :=
  match mail.pending with
  | none => e
  | some f => e.decide_ t f now (e.vic.hasReported f.seq) submitted i

/-- The plans of a round: the drawing's after the frame's own, whose latch it
aims at. -/
def planned (t : Tuning) (e : Engines) (mail : Mailbox) (now : Nat) (submitted : Bool)
    (i : Reading) : Engines :=
  match mail.gpuPending with
  | none => e.framePlanned t mail now submitted i
  | some plan => (e.framePlanned t mail now submitted i).decideGpu t plan now i

/-- What falls due in a round. -/
def letGo (e : Engines) (now : Nat) (i : Reading) : Engines :=
  let e := { e with
    vic := e.vic.releaseIfDue now i.vicReleased, gpu := e.gpu.releaseIfDue now i.gpuReleased }
  if e.cpuUntilNs ≠ 0 ∧ e.cpuUntilNs ≤ now then e.dropCpu i.cpuDropped else e

/-- A round of `ThreadFn` once the mail is taken, and the fences it closes;
`submitted` is whether another merge has been reported meanwhile. -/
def handle (t : Tuning) (e : Engines) (mail : Mailbox) (fds : List PollFd) (now : Nat)
    (submitted : Bool) (i : Reading) : Engines × List Int :=
  if mail.stop = true ∨ mail.power ≠ .on then
    let (e, closed) := e.dropEverything i
    (e, fdsOf mail.submitted ++ fdsOf mail.gpuSubmitted ++ closed)
  else
    let (e, closed) := e.followed t mail fds now i
    ((e.planned t mail now submitted i).letGo now i, closed)

end Engines

-- ---------------------------------------------------------------------------
-- The governor
-- ---------------------------------------------------------------------------

/-- Where the thread stands. -/
inductive Thread where
  | ready
  | polled (fds : List PollFd)
  | taken (fds : List PollFd) (mail : Mailbox)
  /-- Poll has failed, and the door is shut. -/
  | failed
  | gone
  deriving DecidableEq, Repr

/-- `TegraGovernor`, the calls under way past its door, and when the last
round was handled. -/
structure TegraGovernor where
  dead : Bool := false
  calls : List Call := []
  mailbox : Mailbox := {}
  engines : Engines := {}
  thread : Thread := .ready
  stopping : Bool := false
  destroyed : Bool := false
  lastRound : Option Nat := none
  deriving DecidableEq, Repr

/-- What can happen next. -/
inductive Action where
  /-- A call comes to the door. -/
  | enter (call : Call)
  /-- The call under way leaves its news. -/
  | deposit (k : Nat) (now : Nat)
  | powerMode (mode : Power)
  /-- Poll answers, or is interrupted, which answers nothing. -/
  | poll (due : List Bool)
  | pollFails
  | dropOut (i : Reading)
  | take
  | handle (now : Nat) (now_pos : 0 < now) (i : Reading)
  /-- The destructor: the thread is told to stop, and joined. -/
  | stop
  | join
  deriving Repr

namespace TegraGovernor

open Engines

/-- The poll set: the mailbox's slot first, then each lane's fences. -/
def pollSet (e : Engines) : Engines × List PollFd :=
  let (vic, fds) := e.vic.appendPollSet [{ fd := -1 }]
  let (gpu, fds) := e.gpu.appendPollSet fds
  ({ e with vic := vic, gpu := gpu }, fds)

/-- The slots as poll answers them. -/
def answered (fds : List PollFd) (due : List Bool) : List PollFd :=
  fds.mapIdx fun k f => { f with due := due.getD k false }

/-- A step of the governor, none where the action cannot be taken now. The
destructor runs alone: no call is under way, and none comes after. -/
def step (t : Tuning) (g : TegraGovernor) : Action → Option TegraGovernor
  | .enter call =>
    if g.stopping = true then none
    else if g.dead = true then some g
    else some { g with calls := g.calls ++ [call] }
  | .deposit k now =>
    match g.calls[k]? with
    | none => none
    | some call =>
      some { g with calls := g.calls.eraseIdx k, mailbox := g.mailbox.deposit now call }
  | .powerMode mode =>
    if g.stopping = true then none else some { g with mailbox := g.mailbox.setPower mode }
  | .poll due =>
    match g.thread with
    | .ready =>
      let (e, fds) := pollSet g.engines
      some { g with engines := e, thread := .polled (answered fds due) }
    | _ => none
  | .pollFails =>
    match g.thread with
    | .ready => some { g with engines := (pollSet g.engines).1, dead := true, thread := .failed }
    | _ => none
  | .dropOut i =>
    match g.thread with
    | .failed => some { g with engines := (g.engines.dropEverything i).1, thread := .gone }
    | _ => none
  | .take =>
    match g.thread with
    | .polled fds =>
      some { g with mailbox := g.mailbox.taken, thread := .taken fds g.mailbox }
    | _ => none
  | .handle now _ i =>
    match g.thread with
    | .taken fds mail =>
      some { g with
        engines := (g.engines.handle t mail fds now (!g.mailbox.submitted.isEmpty) i).1
        thread := if mail.stop then .gone else .ready
        lastRound := some now }
    | _ => none
  | .stop =>
    if g.stopping = true ∨ g.calls ≠ [] then none
    else some { g with stopping := true, mailbox := { g.mailbox with stop := true } }
  | .join =>
    if g.stopping = true ∧ g.thread = .gone ∧ g.destroyed = false then
      some { g with
        mailbox := g.mailbox.taken
        engines := { g.engines with
          vic := { g.engines.vic with fences := g.engines.vic.fences.dropAll.1 }
          gpu := { g.engines.gpu with fences := g.engines.gpu.fences.dropAll.1 } }
        destroyed := true }
    else none

-- What each action asks of the governor, and what it leaves.

section Steps

variable {t : Tuning} {g g' : TegraGovernor}

/-- A call that comes to a governor that is dead goes no further. -/
theorem step_enter {call : Call} (h : g.step t (.enter call) = some g') :
    g.stopping = false ∧ ((g.dead = true ∧ g' = g) ∨
      (g.dead = false ∧ g' = { g with calls := g.calls ++ [call] })) := by
  simp only [step] at h
  split at h
  · cases h
  rename_i hStopping
  refine ⟨by simpa using hStopping, ?_⟩
  split at h
  · rename_i hDead
    exact .inl ⟨hDead, (Option.some.inj h).symm⟩
  · rename_i hDead
    exact .inr ⟨by simpa using hDead, (Option.some.inj h).symm⟩

theorem step_deposit {k now : Nat} (h : g.step t (.deposit k now) = some g') :
    ∃ call, g.calls[k]? = some call ∧
      g' = { g with calls := g.calls.eraseIdx k, mailbox := g.mailbox.deposit now call } := by
  simp only [step] at h
  split at h
  · cases h
  · rename_i call hCall
    exact ⟨call, hCall, (Option.some.inj h).symm⟩

theorem step_powerMode {mode : Power} (h : g.step t (.powerMode mode) = some g') :
    g.stopping = false ∧ g' = { g with mailbox := g.mailbox.setPower mode } := by
  simp only [step] at h
  split at h
  · cases h
  · rename_i hStopping
    exact ⟨by simpa using hStopping, (Option.some.inj h).symm⟩

theorem step_poll {due : List Bool} (h : g.step t (.poll due) = some g') :
    g.thread = .ready ∧
      g' = { g with
        engines := (pollSet g.engines).1
        thread := .polled (answered (pollSet g.engines).2 due) } := by
  simp only [step] at h
  split at h
  · rename_i hReady
    exact ⟨hReady, (Option.some.inj h).symm⟩
  · cases h

theorem step_pollFails (h : g.step t .pollFails = some g') :
    g.thread = .ready ∧
      g' = { g with engines := (pollSet g.engines).1, dead := true, thread := .failed } := by
  simp only [step] at h
  split at h
  · rename_i hReady
    exact ⟨hReady, (Option.some.inj h).symm⟩
  · cases h

theorem step_dropOut {i : Reading} (h : g.step t (.dropOut i) = some g') :
    g.thread = .failed ∧
      g' = { g with engines := (g.engines.dropEverything i).1, thread := .gone } := by
  simp only [step] at h
  split at h
  · rename_i hFailed
    exact ⟨hFailed, (Option.some.inj h).symm⟩
  · cases h

theorem step_take (h : g.step t .take = some g') :
    ∃ fds, g.thread = .polled fds ∧
      g' = { g with mailbox := g.mailbox.taken, thread := .taken fds g.mailbox } := by
  simp only [step] at h
  split at h
  · rename_i fds hPolled
    exact ⟨fds, hPolled, (Option.some.inj h).symm⟩
  · cases h

theorem step_handle {now : Nat} {now_pos : 0 < now} {i : Reading}
    (h : g.step t (.handle now now_pos i) = some g') :
    ∃ fds mail, g.thread = .taken fds mail ∧
      g' = { g with
        engines := (g.engines.handle t mail fds now (!g.mailbox.submitted.isEmpty) i).1
        thread := if mail.stop then .gone else .ready
        lastRound := some now } := by
  simp only [step] at h
  split at h
  · rename_i fds mail hTaken
    exact ⟨fds, mail, hTaken, (Option.some.inj h).symm⟩
  · cases h

/-- The destructor waits for the calls under way. -/
theorem step_stop (h : g.step t .stop = some g') :
    g.stopping = false ∧ g.calls = [] ∧
      g' = { g with stopping := true, mailbox := { g.mailbox with stop := true } } := by
  simp only [step] at h
  split at h
  · cases h
  · rename_i hMay
    simp only [not_or, not_not, Bool.not_eq_true] at hMay
    exact ⟨hMay.1, hMay.2, (Option.some.inj h).symm⟩

/-- And for the thread. -/
theorem step_join (h : g.step t .join = some g') :
    (g.stopping = true ∧ g.thread = .gone ∧ g.destroyed = false) ∧
      g' = { g with
        mailbox := g.mailbox.taken
        engines := { g.engines with
          vic := { g.engines.vic with fences := g.engines.vic.fences.dropAll.1 }
          gpu := { g.engines.gpu with fences := g.engines.gpu.fences.dropAll.1 } }
        destroyed := true } := by
  simp only [step] at h
  split at h
  · rename_i hJoined
    exact ⟨hJoined, (Option.some.inj h).symm⟩
  · cases h

end Steps

/-- What a step takes over, polls and closes. -/
def events (t : Tuning) (g : TegraGovernor) : Action → List (Ledger.Event Int)
  | .enter call =>
    let fds := call.fds.filter fun fd => decide (0 ≤ fd)
    -- a governor that is dead closes at the door
    if g.dead = true then fds.map .take ++ fds.map .drop else fds.map .take
  | .poll _ | .pollFails =>
    (g.engines.vic.fences.watched.map Watched.fd ++
      g.engines.gpu.fences.watched.map Watched.fd).map .use
  | .dropOut i => (g.engines.dropEverything i).2.map .drop
  | .handle now _ i =>
    match g.thread with
    | .taken fds mail =>
      (g.engines.handle t mail fds now (!g.mailbox.submitted.isEmpty) i).2.map .drop
    | _ => []
  | .join =>
    -- the fences watched, and what was submitted and never taken
    (g.engines.gpu.fences.dropAll.2 ++ g.engines.vic.fences.dropAll.2 ++
      (fdsOf g.mailbox.submitted ++ fdsOf g.mailbox.gpuSubmitted)).map .drop
  | _ => []

/-- The governor, its thread and the composer's, in any order. -/
def machine (t : Tuning) : Runs.Machine TegraGovernor Action (Ledger.Event Int) where
  step := step t
  events := events t

/-- A governor started, each device open or not. -/
def init (vic gpu cpu : Bool) : TegraGovernor where
  engines := { vic := FloorLane.init vic, gpu := FloorLane.init gpu, cpu := { isOpen := cpu } }

end TegraGovernor

end TegraHwc.Governor
