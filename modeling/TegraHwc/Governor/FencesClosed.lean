import TegraHwc.Governor.TegraGovernor
import Mathlib.Algebra.Order.Group.Multiset
import Mathlib.Data.Multiset.Filter
import Mathlib.Tactic.Abel

/-!
# TegraHwc — every fence is closed once

A fence belongs, at any moment, to one of the composer's calls, to the mailbox,
to the mail the thread has taken or to one of the two watches. Every step hands
on what it does not close, so the fences handed in, polled and closed are a
ledger of what the governor holds.

## Results

* `follow_fds`, `handle_fds` — a round closes what it does not watch on.
* `step_ledger` — every step of the governor is a step of the ledger.
* `fences_closed_once` — no fence is polled or closed once it is closed, and a
  destroyed governor has closed every one it was handed.
-/

namespace TegraHwc.Governor

open Ledger

-- ---------------------------------------------------------------------------
-- What a round hands on
-- ---------------------------------------------------------------------------

/-- The descriptors of a watch. -/
def FenceWatch.fds (f : FenceWatch) : Multiset Int := (f.watched.map Watched.fd : List Int)

/-- What a judging does not keep it closes. -/
theorem judgeFrom_fds (fds : List PollFd) (now patience : Nat) (watched : List Watched) :
    ∀ slot, (((FenceWatch.judgeFrom fds now patience slot watched).2 : Multiset Int) +
      ((FenceWatch.judgeFrom fds now patience slot watched).1.map Watched.fd : List Int)) =
        (watched.map Watched.fd : List Int) := by
  induction watched with
  | nil => exact fun _ => rfl
  | cons w rest ih =>
    intro slot
    unfold FenceWatch.judgeFrom
    simp only
    rw [List.map_cons, ← Multiset.cons_coe, ← ih (slot + 1)]
    split
    · rw [← Multiset.cons_coe, Multiset.cons_add]
    · rw [List.map_cons, ← Multiset.cons_coe, Multiset.add_cons]

namespace FloorLane

variable {A : Type} [FloorActuator A]

/-- **What `Follow` does not watch on it closes.** -/
theorem follow_fds (t : Tuning) (lane : FloorLane A) (fds : List PollFd)
    (submitted : List Watched) (now : Nat) :
    ((lane.follow t fds submitted now).2 : Multiset Int) +
        (lane.follow t fds submitted now).1.fences.fds =
      lane.fences.fds + (Engines.fdsOf submitted : Multiset Int) := by
  have hClosed : (lane.follow t fds submitted now).2 =
      (FenceWatch.judgeFrom fds now (patienceNs t) lane.firstSlot lane.fences.watched).2 := by
    unfold follow FenceWatch.judge
    simp only
    split <;> rfl
  have hAdded : ((submitted.filter fun w => decide (0 ≤ w.fd)).map
      fun w => { w with sinceNs := now }).map Watched.fd = Engines.fdsOf submitted := by
    unfold Engines.fdsOf
    rw [List.map_map, List.filter_map]
    rfl
  have hJudged := judgeFrom_fds fds now (patienceNs t) lane.fences.watched lane.firstSlot
  rw [hClosed, FenceWatch.fds, follow_watched, List.map_append, hAdded, ← Multiset.coe_add,
    ← add_assoc, hJudged]
  rfl

theorem reported_fences (lane : FloorLane A) (answer : Answer) :
    (lane.reported answer).fences = lane.fences := reported_frame.1

theorem ask_fences (t : Tuning) (lane : FloorLane A) (a : Asked) (now : Nat) :
    (lane.ask t a now).fences = lane.fences := by
  unfold ask
  simp only
  generalize (if FloorLane.floor { lane with owedMhz := a.owed } < a.step ∧
    a.currentMhz.getD 0 < a.step then FloorActuator.setFloor lane.actuator a.step a.answer
    else (false, lane.actuator)) = tried
  split
  · rfl
  · split <;> rfl

theorem releaseIfDue_fences (lane : FloorLane A) (now : Nat) (answer : Answer) :
    (lane.releaseIfDue now answer).fences = lane.fences := by
  unfold releaseIfDue
  split
  · rfl
  · split <;> rfl

end FloorLane

namespace Engines

/-- The fences both lanes watch. -/
def watches (e : Engines) : Multiset Int := e.vic.fences.fds + e.gpu.fences.fds

section Planning

variable {t : Tuning} {e : Engines} {now : Nat} {submitted : Bool} {i : Reading}

theorem liftCpu_frame (answer : Answer) :
    (e.liftCpu t answer now).2.vic = e.vic ∧ (e.liftCpu t answer now).2.gpu = e.gpu ∧
      (e.liftCpu t answer now).2.lastFrame = e.lastFrame := by
  unfold liftCpu
  simp only
  split <;> exact ⟨rfl, rfl, rfl⟩

theorem liftFirst_frame (f : Frame) (mergeReported : Bool) :
    (e.liftFirst t f now mergeReported i).2.vic = e.vic ∧
      (e.liftFirst t f now mergeReported i).2.gpu = e.gpu ∧
      (e.liftFirst t f now mergeReported i).2.lastFrame = e.lastFrame := by
  unfold liftFirst
  split
  · exact liftCpu_frame _
  · exact ⟨rfl, rfl, rfl⟩

/-- What a plan leaves of the lanes. -/
theorem decide_frame (f : Frame) (mergeReported : Bool) :
    (e.decide_ t f now mergeReported submitted i).vic =
        (if f.mergePlanned = false ∨ f.mergeReusePredicted = true ∨ i.powerSave = true ∨
            FloorActuator.usable e.vic.actuator = false then e.vic
          else e.vic.ask t (mergeAsked t i mergeReported) now) ∧
      (e.decide_ t f now mergeReported submitted i).gpu = e.gpu ∧
      (e.decide_ t f now mergeReported submitted i).lastFrame = f := by
  obtain ⟨hVic, hGpu, hLast⟩ :=
    @liftFirst_frame t { e with lastFrame := f } now i f mergeReported
  unfold decide_
  simp only
  by_cases hNone : f.mergePlanned = false ∨ f.mergeReusePredicted = true
  · rw [if_pos hNone, if_pos (by tauto)]
    exact ⟨rfl, rfl, rfl⟩
  rw [if_neg hNone]
  rw [hVic]
  by_cases hHeld : i.powerSave = true ∨ FloorActuator.usable e.vic.actuator = false
  · rw [if_pos hHeld, if_pos (by tauto)]
    exact ⟨hVic, hGpu, hLast⟩
  · have hAsks : ¬(f.mergePlanned = false ∨ f.mergeReusePredicted = true ∨ i.powerSave = true ∨
        FloorActuator.usable e.vic.actuator = false) := by tauto
    rw [if_neg hHeld, if_neg hAsks]
    split
    · obtain ⟨hVic', hGpu', hLast'⟩ := @liftCpu_frame t
        { (liftFirst t { e with lastFrame := f } f now mergeReported i).2 with
          vic := e.vic.ask t (mergeAsked t i mergeReported) now } now i.liftLast
      exact ⟨hVic', hGpu'.trans hGpu, hLast'.trans hLast⟩
    · exact ⟨rfl, hGpu, hLast⟩

end Planning

/-- A plan touches no fence. -/
theorem decide_watches (t : Tuning) (e : Engines) (f : Frame) (now : Nat)
    (mergeReported submitted : Bool) (i : Reading) :
    (e.decide_ t f now mergeReported submitted i).watches = e.watches := by
  obtain ⟨hVic, hGpu, -⟩ := @decide_frame t e now submitted i f mergeReported
  unfold watches
  rw [hVic, hGpu]
  split
  · rfl
  · rw [FloorLane.ask_fences]

theorem decideGpu_watches (t : Tuning) (e : Engines) (plan : GpuPlan) (now : Nat) (i : Reading) :
    (e.decideGpu t plan now i).watches = e.watches := by
  unfold decideGpu
  split
  · rfl
  split
  · rfl
  split
  · rfl
  · unfold watches
    rw [FloorLane.ask_fences]

/-- Dropping everything closes every fence watched. -/
theorem dropEverything_fds (e : Engines) (i : Reading) :
    ((e.dropEverything i).2 : Multiset Int) + (e.dropEverything i).1.watches = e.watches := by
  show ((e.vic.fences.watched.map Watched.fd ++ e.gpu.fences.watched.map Watched.fd : List Int) :
    Multiset Int) + (0 + 0) = _
  rw [add_zero, add_zero, ← Multiset.coe_add]
  rfl

/-- The reports of a round are watched, and what is done is closed. -/
theorem followed_fds (t : Tuning) (e : Engines) (mail : Mailbox) (fds : List PollFd) (now : Nat)
    (i : Reading) :
    ((e.followed t mail fds now i).2 : Multiset Int) + (e.followed t mail fds now i).1.watches =
      e.watches + (fdsOf mail.submitted + fdsOf mail.gpuSubmitted) := by
  unfold followed
  simp only
  set e₁ := if mail.submitted = [] then e
    else { e.dropCpu i.cpuReported with vic := e.vic.reported i.vicOwed } with he₁
  have hVicFences : e₁.vic.fences = e.vic.fences := by
    rw [he₁]
    split
    · rfl
    · exact FloorLane.reported_fences _ _
  have hGpu : e₁.gpu = e.gpu := by
    rw [he₁]
    split <;> rfl
  rw [hGpu]
  set gpu := if mail.gpuSubmitted = [] then e.gpu else e.gpu.reported i.gpuOwed with hReported
  have hGpuFences : gpu.fences = e.gpu.fences := by
    rw [hReported]
    split
    · rfl
    · exact FloorLane.reported_fences _ _
  have hVicFds := e₁.vic.follow_fds t fds mail.submitted now
  have hGpuFds := gpu.follow_fds t fds mail.gpuSubmitted now
  rw [hVicFences] at hVicFds
  rw [hGpuFences] at hGpuFds
  have hSum := congrArg₂ (· + ·) hVicFds hGpuFds
  unfold watches
  rw [← Multiset.coe_add, add_add_add_comm, hSum, add_add_add_comm]

theorem planned_watches (t : Tuning) (e : Engines) (mail : Mailbox) (now : Nat) (submitted : Bool)
    (i : Reading) : (e.planned t mail now submitted i).watches = e.watches := by
  have hFrame : (e.framePlanned t mail now submitted i).watches = e.watches := by
    unfold framePlanned
    cases mail.pending with
    | none => rfl
    | some f => exact decide_watches t e f now _ submitted i
  unfold planned
  cases mail.gpuPending with
  | none => exact hFrame
  | some plan => exact (decideGpu_watches t _ plan now i).trans hFrame

theorem letGo_watches (e : Engines) (now : Nat) (i : Reading) :
    (e.letGo now i).watches = e.watches := by
  unfold letGo
  simp only
  split
  · unfold watches dropCpu
    simp only
    rw [FloorLane.releaseIfDue_fences, FloorLane.releaseIfDue_fences]
  · unfold watches
    simp only
    rw [FloorLane.releaseIfDue_fences, FloorLane.releaseIfDue_fences]

/-- **A round closes what it does not watch on**, of what was watched and of
what the mail brought. -/
theorem handle_fds (t : Tuning) (e : Engines) (mail : Mailbox) (fds : List PollFd) (now : Nat)
    (submitted : Bool) (i : Reading) :
    ((e.handle t mail fds now submitted i).2 : Multiset Int) +
        (e.handle t mail fds now submitted i).1.watches =
      e.watches + (fdsOf mail.submitted + fdsOf mail.gpuSubmitted) := by
  unfold handle
  split
  · -- stopping, or a display going dark
    simp only
    rw [← Multiset.coe_add, ← Multiset.coe_add, add_assoc, dropEverything_fds, add_comm]
  · simp only
    rw [letGo_watches, planned_watches]
    exact followed_fds t e mail fds now i

end Engines

-- ---------------------------------------------------------------------------
-- What the governor holds
-- ---------------------------------------------------------------------------

namespace TegraGovernor

open Engines

/-- The fences of a mailbox, or of the mail taken out of it. -/
def Mail.fds (m : Mailbox) : Multiset Int :=
  (fdsOf m.submitted : Multiset Int) + fdsOf m.gpuSubmitted

/-- The fences of some calls. -/
def callFds (calls : List Call) : Multiset Int :=
  ((calls.flatMap Call.fds).filter fun fd => decide (0 ≤ fd) : List Int)

/-- The fences of the mail the thread has taken. -/
def takenFds : Thread → Multiset Int
  | .taken _ mail => Mail.fds mail
  | _ => 0

/-- The fences the governor holds. -/
def held (g : TegraGovernor) : Multiset Int :=
  callFds g.calls + Mail.fds g.mailbox + takenFds g.thread + g.engines.watches

/-- A call leaves its fence in the mailbox. -/
theorem deposit_fds (m : Mailbox) (now : Nat) (call : Call) :
    Mail.fds (m.deposit now call) = callFds [call] + Mail.fds m := by
  cases call with
  | framePlanned frame => simp [Mailbox.deposit, Mail.fds, callFds, Call.fds]
  | gpuPlanned plan => simp [Mailbox.deposit, Mail.fds, callFds, Call.fds]
  | mergeSubmitted seq fd =>
    unfold Mailbox.deposit Mail.fds callFds fdsOf
    simp only [List.map_append, List.filter_append, List.flatMap_cons, List.flatMap_nil, Call.fds,
      List.append_nil, List.map_cons, List.map_nil, ← Multiset.coe_add]
    rw [add_comm (((m.submitted.map Watched.fd).filter _ : List Int) : Multiset Int), add_assoc]
  | gpuSubmitted seq fd =>
    unfold Mailbox.deposit Mail.fds callFds fdsOf
    simp only [List.map_append, List.filter_append, List.flatMap_cons, List.flatMap_nil, Call.fds,
      List.append_nil, List.map_cons, List.map_nil, ← Multiset.coe_add]
    rw [← add_assoc, add_comm]

/-- One call is taken out of those under way. -/
theorem callFds_eraseIdx {calls : List Call} {k : Nat} {call : Call} (hCall : calls[k]? = some call) :
    callFds calls = callFds [call] + callFds (calls.eraseIdx k) := by
  have hPerm : calls.Perm (call :: calls.eraseIdx k) := by
    obtain ⟨hk, rfl⟩ := List.getElem?_eq_some_iff.mp hCall
    exact (List.getElem_cons_eraseIdx_perm hk).symm
  unfold callFds
  rw [Multiset.coe_add, Multiset.coe_eq_coe, ← List.filter_append, ← List.flatMap_append]
  exact (hPerm.flatMap_right _).filter _

theorem pollSet_watches (e : Engines) : (pollSet e).1.watches = e.watches := rfl

/-- A fence watched is held. -/
theorem mem_held_of_watched {g : TegraGovernor} {fd : Int}
    (hWatched : fd ∈ g.engines.vic.fences.watched.map Watched.fd ++
      g.engines.gpu.fences.watched.map Watched.fd) : fd ∈ g.held := by
  unfold held watches
  refine Multiset.mem_add.mpr (.inr (Multiset.mem_add.mpr ?_))
  rcases List.mem_append.mp hWatched with h | h
  · exact .inl h
  · exact .inr h

/-- **Every step is a step of the ledger**: what it closes, it held and holds
no more, and what it polls, it holds. -/
theorem step_ledger {t : Tuning} {g g' : TegraGovernor} {a : Action}
    (hStep : g.step t a = some g') : Ledger.run g.held (g.events t a) = some g'.held := by
  cases a with
  | enter call =>
    obtain ⟨-, ⟨hDead, rfl⟩ | ⟨hDead, rfl⟩⟩ := step_enter hStep
    · -- closed at the door
      simp only [events, hDead, if_true]
      rw [run_append, run_takes, Option.bind_some, run_drops]
    · simp only [events, hDead]
      rw [if_neg (by simp), run_takes]
      unfold held callFds
      rw [List.flatMap_append, List.filter_append, ← Multiset.coe_add]
      simp only [List.flatMap_cons, List.flatMap_nil, List.append_nil]
      congr 1
      abel
  | deposit k now =>
    obtain ⟨call, hCall, rfl⟩ := step_deposit hStep
    simp only [events, run_nil, held, deposit_fds, callFds_eraseIdx hCall]
    congr 1
    abel
  | powerMode mode =>
    obtain ⟨-, rfl⟩ := step_powerMode hStep
    simp only [events, run_nil, held]
    have hSame : Mail.fds (g.mailbox.setPower mode) = Mail.fds g.mailbox := by
      unfold Mailbox.setPower
      split <;> rfl
    rw [hSame]
  | poll due =>
    obtain ⟨hReady, rfl⟩ := step_poll hStep
    simp only [events]
    rw [run_uses fun fd => mem_held_of_watched]
    simp [held, takenFds, hReady, pollSet_watches]
  | pollFails =>
    obtain ⟨hReady, rfl⟩ := step_pollFails hStep
    simp only [events]
    rw [run_uses fun fd => mem_held_of_watched]
    simp [held, takenFds, hReady, pollSet_watches]
  | dropOut i =>
    obtain ⟨hFailed, rfl⟩ := step_dropOut hStep
    have hDropped := dropEverything_fds g.engines i
    have hHeld : g.held = ((g.engines.dropEverything i).2 : Multiset Int) +
        (callFds g.calls + Mail.fds g.mailbox + takenFds .gone +
          (g.engines.dropEverything i).1.watches) := by
      unfold held
      rw [← hDropped, hFailed]
      simp only [takenFds]
      abel
    rw [hHeld]
    exact run_drops _ _
  | take =>
    obtain ⟨fds, hPolled, rfl⟩ := step_take hStep
    have hEmpty : Mail.fds g.mailbox.taken = 0 := rfl
    simp only [events, run_nil, held, takenFds, hPolled, hEmpty]
    congr 1
    abel
  | handle now now_pos i =>
    obtain ⟨fds, mail, hTaken, rfl⟩ := step_handle hStep
    have hRound := handle_fds t g.engines mail fds now (!g.mailbox.submitted.isEmpty) i
    have hGone : ∀ stops : Bool, takenFds (if stops then .gone else .ready) = 0 := by
      intro stops
      cases stops <;> rfl
    simp only [events, hTaken]
    generalize g.engines.handle t mail fds now (!g.mailbox.submitted.isEmpty) i = after
      at hRound ⊢
    have hHeld : g.held = (after.2 : Multiset Int) +
        (callFds g.calls + Mail.fds g.mailbox + takenFds (if mail.stop then .gone else .ready) +
          after.1.watches) := by
      unfold held
      rw [hTaken, hGone, add_zero, add_left_comm (after.2 : Multiset Int), hRound]
      simp only [takenFds, Mail.fds]
      abel
    rw [hHeld]
    exact run_drops _ _
  | stop =>
    obtain ⟨-, -, rfl⟩ := step_stop hStep
    rfl
  | join =>
    obtain ⟨hJoined, rfl⟩ := step_join hStep
    simp only [events]
    have hHeld : g.held = ((g.engines.gpu.fences.dropAll.2 ++ g.engines.vic.fences.dropAll.2 ++
        (fdsOf g.mailbox.submitted ++ fdsOf g.mailbox.gpuSubmitted) : List Int) : Multiset Int) +
        callFds g.calls := by
      unfold held
      rw [hJoined.2.1, ← Multiset.coe_add, ← Multiset.coe_add, ← Multiset.coe_add]
      show callFds g.calls + (_ + _) + 0 + (g.engines.vic.fences.fds + g.engines.gpu.fences.fds) =
        g.engines.gpu.fences.fds + g.engines.vic.fences.fds + _ + callFds g.calls
      abel
    rw [hHeld, run_drops]
    unfold held
    rw [hJoined.2.1]
    show some (callFds g.calls) = some (callFds g.calls + 0 + 0 + 0)
    rw [add_zero, add_zero, add_zero]

/-- A governor being destroyed is called no more, and a destroyed one holds
nothing. -/
structure Ending (g : TegraGovernor) : Prop where
  noCalls : g.stopping = true → g.calls = []
  nothing : g.destroyed = true → g.stopping = true ∧ g.thread = .gone ∧ g.held = 0

theorem ending_init (vic gpu cpu : Bool) : Ending (init vic gpu cpu) where
  noCalls := by
    intro h
    cases h
  nothing := by
    intro h
    cases h

theorem ending_step {t : Tuning} {g g' : TegraGovernor} {a : Action} (hEnding : Ending g)
    (hStep : g.step t a = some g') : Ending g' := by
  have hAlive : g.thread ≠ .gone → g.destroyed = true → False := fun h hDestroyed =>
    h (hEnding.nothing hDestroyed).2.1
  have hOpen : g.stopping = false → g.destroyed = true → False := fun h hDestroyed => by
    rw [(hEnding.nothing hDestroyed).1] at h
    cases h
  cases a with
  | enter call =>
    obtain ⟨hStopping, ⟨-, rfl⟩ | ⟨-, rfl⟩⟩ := step_enter hStep
    · exact hEnding
    · exact ⟨fun h => by simp [hStopping] at h, fun h => (hOpen hStopping h).elim⟩
  | deposit k now =>
    obtain ⟨call, hCall, rfl⟩ := step_deposit hStep
    have hSome : g.stopping = true → False := fun h => by
      rw [hEnding.noCalls h] at hCall
      cases hCall
    exact ⟨fun h => (hSome h).elim, fun h => (hSome (hEnding.nothing h).1).elim⟩
  | powerMode mode =>
    obtain ⟨hStopping, rfl⟩ := step_powerMode hStep
    exact ⟨hEnding.noCalls, fun h => (hOpen hStopping h).elim⟩
  | poll due =>
    obtain ⟨hReady, rfl⟩ := step_poll hStep
    exact ⟨hEnding.noCalls, fun h => (hAlive (by simp [hReady]) h).elim⟩
  | pollFails =>
    obtain ⟨hReady, rfl⟩ := step_pollFails hStep
    exact ⟨hEnding.noCalls, fun h => (hAlive (by simp [hReady]) h).elim⟩
  | dropOut i =>
    obtain ⟨hFailed, rfl⟩ := step_dropOut hStep
    exact ⟨hEnding.noCalls, fun h => (hAlive (by simp [hFailed]) h).elim⟩
  | take =>
    obtain ⟨fds, hPolled, rfl⟩ := step_take hStep
    exact ⟨hEnding.noCalls, fun h => (hAlive (by simp [hPolled]) h).elim⟩
  | handle now now_pos i =>
    obtain ⟨fds, mail, hTaken, rfl⟩ := step_handle hStep
    exact ⟨hEnding.noCalls, fun h => (hAlive (by simp [hTaken]) h).elim⟩
  | stop =>
    obtain ⟨hStopping, hCalls, rfl⟩ := step_stop hStep
    exact ⟨fun _ => hCalls, fun h => (hOpen hStopping h).elim⟩
  | join =>
    obtain ⟨hJoined, rfl⟩ := step_join hStep
    refine ⟨hEnding.noCalls, fun _ => ⟨hJoined.1, hJoined.2.1, ?_⟩⟩
    unfold held
    rw [hJoined.2.1, hEnding.noCalls hJoined.1]
    rfl

-- ---------------------------------------------------------------------------
-- Closed once
-- ---------------------------------------------------------------------------

/-- The fences handed in over some actions. -/
def handedIn (actions : List Action) : List Int :=
  actions.flatMap fun
    | .enter call => call.fds
    | _ => []

/-- What the ledger takes is what is handed in. -/
theorem takes_trace {t : Tuning} {fd : Int} (hFd : 0 ≤ fd) {actions : List Action}
    {g g' : TegraGovernor} (hRun : (machine t).run g actions = some g') :
    Ledger.takes fd ((machine t).trace g actions) = (handedIn actions).count fd := by
  induction actions generalizing g with
  | nil => rfl
  | cons a actions ih =>
    obtain ⟨next, hStep, hRest⟩ := Runs.Machine.run_cons.mp hRun
    have hLater := ih hRest
    rw [Runs.Machine.trace_cons hStep]
    have hFirst : Ledger.takes fd ((machine t).events g a) = (handedIn [a]).count fd := by
      have hNone : ∀ fds : List Int, Ledger.takes fd (fds.map Ledger.Event.drop) = 0 := by
        intro fds
        exact List.count_eq_zero.mpr (by simp)
      have hUses : ∀ fds : List Int, Ledger.takes fd (fds.map Ledger.Event.use) = 0 := by
        intro fds
        exact List.count_eq_zero.mpr (by simp)
      have hTakes : ∀ fds : List Int,
          Ledger.takes fd ((fds.filter fun fd => decide (0 ≤ fd)).map Ledger.Event.take) =
            fds.count fd := by
        intro fds
        unfold Ledger.takes
        rw [List.count_map_of_injective _ _ fun _ _ h => Ledger.Event.take.inj h,
          List.count_filter (by simpa using hFd)]
      cases a with
      | enter call =>
        simp only [machine, events, handedIn, List.flatMap_cons, List.flatMap_nil, List.append_nil]
        split
        · rw [Ledger.takes, List.count_append]
          exact congrArg₂ (· + ·) (hTakes _) (hNone _)
        · exact hTakes _
      | poll due => exact hUses _
      | pollFails => exact hUses _
      | dropOut i => exact hNone _
      | handle now now_pos i =>
        simp only [machine, events]
        split
        · exact hNone _
        · rfl
      | join => exact hNone _
      | deposit k now => rfl
      | powerMode mode => rfl
      | take => rfl
      | stop => rfl
    have hSplit : handedIn (a :: actions) = handedIn [a] ++ handedIn actions := by
      simp [handedIn]
    rw [hSplit, List.count_append, ← hFirst, ← hLater, Ledger.takes, List.count_append]
    rfl

/-- **Closed exactly once.** In every order of the composer's calls and the
thread's rounds, a fence is polled or closed only while it has been handed in
more often than closed; and a destroyed governor has closed each as often as it
was handed in. -/
theorem fences_closed_once {t : Tuning} {vic gpu cpu : Bool} {actions : List Action}
    {g : TegraGovernor} (hRun : (machine t).run (init vic gpu cpu) actions = some g) :
    (∀ before e after fd, (machine t).trace (init vic gpu cpu) actions = before ++ e :: after →
      Ledger.Touches fd e → Ledger.drops fd before < Ledger.takes fd before) ∧
    (∀ fd, 0 ≤ fd → Ledger.takes fd ((machine t).trace (init vic gpu cpu) actions) =
      (handedIn actions).count fd) ∧
    (g.destroyed = true → ∀ fd, 0 ≤ fd →
      Ledger.drops fd ((machine t).trace (init vic gpu cpu) actions) =
        (handedIn actions).count fd) := by
  obtain ⟨hLedger, hEnding⟩ := Runs.Machine.run_history
    (I := fun h g => Ledger.run 0 h = some g.held ∧ Ending g) (m := machine t) (h := [])
    (fun h s a s' hI hStep => by
      refine ⟨?_, ending_step hI.2 hStep⟩
      rw [run_append, hI.1, Option.bind_some]
      exact step_ledger hStep)
    ⟨rfl, ending_init vic gpu cpu⟩ hRun
  rw [List.nil_append] at hLedger
  refine ⟨fun before e after fd hTrace hTouches => ?_, fun fd hFd => takes_trace hFd hRun,
    fun hDestroyed fd hFd => ?_⟩
  · rw [hTrace] at hLedger
    exact Ledger.held_of_touched hLedger hTouches
  · rw [(hEnding.nothing hDestroyed).2.2] at hLedger
    rw [Ledger.taken_eq_dropped hLedger fd]
    exact takes_trace hFd hRun

/-- A merge reported while the thread is at poll, and the governor destroyed
with its fence still watched. -/
def reportedThenStopped : List Action :=
  [.poll [], .enter (.mergeSubmitted 1 5), .deposit 0 1, .take, .handle 2 Nat.two_pos {},
    .poll [true], .take, .handle 4 (by decide) {}, .stop, .poll [true, false], .take,
    .handle 6 (by decide) {}, .join]

/-- Its fence is closed. -/
theorem fences_closed_once_stopped :
    ∃ g, (machine {}).run (init true true true) reportedThenStopped = some g ∧
      g.destroyed = true ∧
      Ledger.drops 5 ((machine {}).trace (init true true true) reportedThenStopped) = 1 :=
  ⟨_, rfl, rfl, (fences_closed_once rfl).2.2 rfl 5 (by decide)⟩

end TegraGovernor

end TegraHwc.Governor
