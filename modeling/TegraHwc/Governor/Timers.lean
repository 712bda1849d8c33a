import TegraHwc.Governor.FencesClosed
import Mathlib.Tactic.Linarith

/-!
# TegraHwc — the thread sleeps until something is due

The governor's thread polls with a timeout that runs to the next of its timers:
each lane's release and orphan times, the giving up of its fences, and the
processor's. A timer left in the past makes it spin. A lane's timers are let go
in the round that passes them only while its floor stands and no fence is in
flight; a round is *timely* where that is enough. The timeout is an `int` of
milliseconds, and a timer set too far ahead makes it negative, which is a sleep
without end: settings are *short* where none is set so far.

## Results

* `nextDueNs_quiet` — a lane is quiet when each of its timers is.
* `handled_quiet`   — a timely round leaves its lane quiet.
* `handled_near`    — a round by short settings sets no timer too far ahead.
* `timers_ahead`    — after every run of timely, tied rounds no timer is past,
  and the thread sleeps for good only with nothing raised.
* `timers_behind`   — a plan's orphan time passes while an older fence is in
  flight, and stays.
-/

namespace TegraHwc.Governor

open FloorActuator

-- ---------------------------------------------------------------------------
-- What is due
-- ---------------------------------------------------------------------------

/-- Nothing set, or nothing yet due. -/
def Ahead (when_ now : Nat) : Prop := when_ = 0 ∨ now < when_

instance (when_ now : Nat) : Decidable (Ahead when_ now) := inferInstanceAs (Decidable (_ ∨ _))

theorem consider_ahead {due when_ now : Nat} (hDue : Ahead due now) (hWhen : Ahead when_ now) :
    Ahead (consider due when_) now := by
  unfold consider
  split
  · exact hWhen
  · exact hDue

/-- No later than a time both are no later than. -/
theorem consider_le {due when_ limit : Nat} (hDue : due ≤ limit) (hWhen : when_ ≤ limit) :
    consider due when_ ≤ limit := by
  unfold consider
  split
  · exact hWhen
  · exact hDue

theorem consider_eq_zero {due when_ : Nat} : consider due when_ = 0 ↔ due = 0 ∧ when_ = 0 := by
  unfold consider
  split <;> omega

/-- The giving up of the fences is ahead when that of each is. -/
theorem nextGiveUpNs_ahead {f : FenceWatch} {patience now : Nat}
    (hEach : ∀ w ∈ f.watched, now < w.sinceNs + patience) :
    Ahead (f.nextGiveUpNs patience) now := by
  have hFold : ∀ (watched : List Watched) (earliest : Nat),
      (∀ w ∈ watched, now < w.sinceNs + patience) → Ahead earliest now →
      Ahead (watched.foldl (fun earliest w =>
        if earliest = 0 ∨ w.sinceNs + patience < earliest then w.sinceNs + patience
        else earliest) earliest) now := by
    intro watched
    induction watched with
    | nil => exact fun _ _ h => h
    | cons w rest ih =>
      intro earliest hWatched hEarliest
      refine ih _ (fun v hv => hWatched v (List.mem_cons_of_mem _ hv)) ?_
      beta_reduce
      split
      · exact .inr (hWatched w List.mem_cons_self)
      · exact hEarliest
  exact hFold f.watched 0 hEach (.inl rfl)

/-- The giving up of the fences comes no later than that of each. -/
theorem nextGiveUpNs_le {f : FenceWatch} {patience limit : Nat}
    (hEach : ∀ w ∈ f.watched, w.sinceNs + patience ≤ limit) : f.nextGiveUpNs patience ≤ limit := by
  have hFold : ∀ (watched : List Watched) (earliest : Nat),
      (∀ w ∈ watched, w.sinceNs + patience ≤ limit) → earliest ≤ limit →
      watched.foldl (fun earliest w =>
        if earliest = 0 ∨ w.sinceNs + patience < earliest then w.sinceNs + patience
        else earliest) earliest ≤ limit := by
    intro watched
    induction watched with
    | nil => exact fun _ _ h => h
    | cons w rest ih =>
      intro earliest hWatched hEarliest
      refine ih _ (fun v hv => hWatched v (List.mem_cons_of_mem _ hv)) ?_
      beta_reduce
      split
      · exact hWatched w List.mem_cons_self
      · exact hEarliest
  exact hFold f.watched 0 hEach (Nat.zero_le limit)

/-- With nothing to give up, nothing is watched. -/
theorem nextGiveUpNs_eq_zero {f : FenceWatch} {patience : Nat}
    (hSince : ∀ w ∈ f.watched, 0 < w.sinceNs) (hNone : f.nextGiveUpNs patience = 0) :
    f.watched = [] := by
  have hFold : ∀ (watched : List Watched) (earliest : Nat), earliest ≠ 0 →
      (∀ w ∈ watched, 0 < w.sinceNs) →
      watched.foldl (fun earliest w =>
        if earliest = 0 ∨ w.sinceNs + patience < earliest then w.sinceNs + patience
        else earliest) earliest ≠ 0 := by
    intro watched
    induction watched with
    | nil => exact fun _ h _ => h
    | cons w rest ih =>
      intro earliest hEarliest hWatched
      refine ih _ ?_ fun v hv => hWatched v (List.mem_cons_of_mem _ hv)
      have hw := hWatched w List.mem_cons_self
      beta_reduce
      split <;> omega
  cases hWatched : f.watched with
  | nil => rfl
  | cons w rest =>
    rw [hWatched] at hSince
    have hw := hSince w List.mem_cons_self
    unfold FenceWatch.nextGiveUpNs at hNone
    rw [hWatched, List.foldl_cons] at hNone
    simp only [true_or, if_true] at hNone
    exact absurd hNone (hFold rest _ (by omega)
      fun v hv => hSince v (List.mem_cons_of_mem _ hv))

-- ---------------------------------------------------------------------------
-- A lane's timers
-- ---------------------------------------------------------------------------

namespace FloorLane

variable {A : Type} [FloorActuator A]

/-- A fence of the lane is in flight once the round has judged them. -/
def InFlight (t : Tuning) (lane : FloorLane A) (r : Round) : Prop :=
  Waiting t lane r.fds r.now ∨ AnyFence r.submitted

/-- A timer stands for the lane's floor when the round comes to its plan: one
set before, or the hold of the last fence, just gone. -/
def TimerStands (t : Tuning) (lane : FloorLane A) (r : Round) : Prop :=
  lane.releaseDueNs ≠ 0 ∨ (r.submitted = [] ∧ lane.orphanDueNs ≠ 0) ∨
    (lane.fences.watched ≠ [] ∧ ¬InFlight t lane r)

/-- The actuator when the round comes to its plan. -/
def atPlan (lane : FloorLane A) (r : Round) : A :=
  if r.submitted = [] then lane.actuator else lane.onceOwed r.owedAnswer

/-- **A timely round.** No timer runs out while a fence is in flight, and no
write that fails takes a floor away from under a timer. -/
structure Timely (t : Tuning) (lane : FloorLane A) (r : Round) : Prop where
  patience : AnyFence r.submitted → 0 < t.fencePatienceMs
  release : InFlight t lane r → r.asked = none → Ahead lane.releaseDueNs r.now
  orphan : InFlight t lane r → r.asked = none → r.submitted = [] → Ahead lane.orphanDueNs r.now
  orphanTime : InFlight t lane r → ∀ a, r.asked = some a → a.reported = false → 0 < t.orphanMs
  owedKept : r.submitted ≠ [] → lane.floor ≠ 0 → lane.releaseDueNs ≠ 0 →
    floorMhz (lane.onceOwed r.owedAnswer) ≠ 0
  askedKept : TimerStands t lane r → ∀ a, r.asked = some a →
    floorMhz (lane.atPlan r) < a.step → a.currentMhz.getD 0 < a.step →
    floorMhz (lane.atPlan r) ≠ 0 → floorMhz (setFloor (lane.atPlan r) a.step a.answer).2 ≠ 0

instance (t : Tuning) (lane : FloorLane A) (r : Round) : Decidable (InFlight t lane r) :=
  inferInstanceAs (Decidable (_ ∨ _))

instance (t : Tuning) (lane : FloorLane A) (r : Round) : Decidable (TimerStands t lane r) :=
  inferInstanceAs (Decidable (_ ∨ _ ∨ _))

set_option synthInstance.maxSize 1000 in
instance (t : Tuning) (lane : FloorLane A) (r : Round) : Decidable (Timely t lane r) :=
  decidable_of_iff
    ((AnyFence r.submitted → 0 < t.fencePatienceMs) ∧
      (InFlight t lane r → r.asked = none → Ahead lane.releaseDueNs r.now) ∧
      (InFlight t lane r → r.asked = none → r.submitted = [] → Ahead lane.orphanDueNs r.now) ∧
      (InFlight t lane r → ∀ a ∈ r.asked, a.reported = false → 0 < t.orphanMs) ∧
      (r.submitted ≠ [] → lane.floor ≠ 0 → lane.releaseDueNs ≠ 0 →
        floorMhz (lane.onceOwed r.owedAnswer) ≠ 0) ∧
      (TimerStands t lane r → ∀ a ∈ r.asked,
        floorMhz (lane.atPlan r) < a.step → a.currentMhz.getD 0 < a.step →
        floorMhz (lane.atPlan r) ≠ 0 → floorMhz (setFloor (lane.atPlan r) a.step a.answer).2 ≠ 0))
    ⟨fun ⟨h₁, h₂, h₃, h₄, h₅, h₆⟩ => ⟨h₁, h₂, h₃, h₄, h₅, h₆⟩,
      fun ⟨h₁, h₂, h₃, h₄, h₅, h₆⟩ => ⟨h₁, h₂, h₃, h₄, h₅, h₆⟩⟩

instance (lane : FloorLane A) (r : Round) : Decidable (Tied lane r) :=
  inferInstanceAs (Decidable (_ → _ ∨ _ ∨ _ ∨ _ ∨ _))

/-- A lane's timers are kept: none stands for no floor, and fences are watched
since some time. -/
structure Kept (lane : FloorLane A) : Prop where
  still : lane.floor = 0 → lane.releaseDueNs = 0 ∧ lane.orphanDueNs = 0
  since : ∀ w ∈ lane.fences.watched, 0 < w.sinceNs

/-- Each of a lane's timers is ahead. -/
structure Quiet (t : Tuning) (lane : FloorLane A) (now : Nat) : Prop where
  release : Ahead lane.releaseDueNs now
  orphan : Ahead lane.orphanDueNs now
  giveUp : ∀ w ∈ lane.fences.watched, now < w.sinceNs + patienceNs t

variable {t : Tuning} {lane : FloorLane A} {now : Nat}

omit [FloorActuator A] in
/-- **A lane is quiet when each of its timers is.** -/
theorem nextDueNs_quiet (hQuiet : Quiet t lane now) : Ahead (lane.nextDueNs t) now :=
  consider_ahead (consider_ahead (consider_ahead (.inl rfl) hQuiet.release) hQuiet.orphan)
    (nextGiveUpNs_ahead hQuiet.giveUp)

/-- A lane with nothing due holds no floor. -/
theorem floor_of_nextDueNs (hKept : Kept lane) (hEnds : Ends lane) (hNone : lane.nextDueNs t = 0) :
    lane.floor = 0 := by
  unfold nextDueNs at hNone
  rw [consider_eq_zero, consider_eq_zero, consider_eq_zero] at hNone
  obtain ⟨⟨⟨-, hRelease⟩, hOrphan⟩, hGiveUp⟩ := hNone
  have hWatched := nextGiveUpNs_eq_zero hKept.since hGiveUp
  by_contra hStands
  rcases hEnds hStands with h | h | h
  · exact h hWatched
  · exact h hRelease
  · exact h hOrphan

/-- The fences a judging keeps are some of those watched, not yet given up. -/
theorem judgeFrom_kept {fds : List PollFd} {patience : Nat} {watched : List Watched} :
    ∀ (slot : Nat) (w : Watched), w ∈ (FenceWatch.judgeFrom fds now patience slot watched).1 →
      w ∈ watched ∧ now < w.sinceNs + patience := by
  induction watched with
  | nil =>
    intro slot w hw
    cases hw
  | cons v rest ih =>
    intro slot w hw
    unfold FenceWatch.judgeFrom at hw
    simp only at hw
    split at hw
    · obtain ⟨hMem, hAhead⟩ := ih _ w hw
      exact ⟨List.mem_cons_of_mem _ hMem, hAhead⟩
    · rename_i hKept
      rcases List.mem_cons.mp hw with rfl | hw
      · exact ⟨List.mem_cons_self, by omega⟩
      · obtain ⟨hMem, hAhead⟩ := ih _ w hw
        exact ⟨List.mem_cons_of_mem _ hMem, hAhead⟩

/-- The lane when the round comes to its plan. -/
def plannable (t : Tuning) (lane : FloorLane A) (r : Round) : FloorLane A :=
  ((if r.submitted = [] then lane else lane.reported r.owedAnswer).follow t r.fds r.submitted
    r.now).1

/-- What a round finds when it comes to its plan. -/
structure Plannable (t : Tuning) (lane : FloorLane A) (r : Round) (lane' : FloorLane A) :
    Prop where
  actuator : lane'.actuator = lane.atPlan r
  watched : lane'.fences.watched ≠ [] ↔ InFlight t lane r
  since : ∀ w ∈ lane'.fences.watched, 0 < w.sinceNs
  giveUp : ∀ w ∈ lane'.fences.watched, r.now < w.sinceNs + patienceNs t
  orphan : lane'.orphanDueNs = if r.submitted = [] then lane.orphanDueNs else 0
  /-- A fence in flight starts no hold. -/
  release : InFlight t lane r → lane'.releaseDueNs = lane.releaseDueNs
  unset : ¬TimerStands t lane r → lane'.releaseDueNs = 0 ∧ lane'.orphanDueNs = 0
  still : floorMhz (lane.atPlan r) = 0 → lane'.releaseDueNs = lane.releaseDueNs

theorem plannable_spec {r : Round} (hKept : Kept lane)
    (hPatience : AnyFence r.submitted → 0 < t.fencePatienceMs) :
    Plannable t lane r (lane.plannable t r) := by
  unfold plannable
  set before := if r.submitted = [] then lane else lane.reported r.owedAnswer with hBefore
  have hFrame : before.fences = lane.fences ∧ before.firstSlot = lane.firstSlot ∧
      before.releaseDueNs = lane.releaseDueNs ∧
      before.orphanDueNs = (if r.submitted = [] then lane.orphanDueNs else 0) ∧
      before.actuator = lane.atPlan r := by
    unfold atPlan
    rw [hBefore]
    split
    · exact ⟨rfl, rfl, rfl, rfl, rfl⟩
    · exact reported_frame
  obtain ⟨hFences, hSlot, hRelease, hOrphan, hActuator⟩ := hFrame
  obtain ⟨hActuator', hOrphan', -⟩ := @follow_frame A _ t before r.fds r.submitted r.now
  have hWaiting : Waiting t before r.fds r.now ↔ Waiting t lane r.fds r.now := by
    unfold Waiting
    rw [hFences, hSlot]
  have hReleaseDue := @follow_releaseDueNs A _ t before r.fds r.submitted r.now
  rw [hFences, hRelease] at hReleaseDue
  have hEach : ∀ w ∈ (before.follow t r.fds r.submitted r.now).1.fences.watched,
      0 < w.sinceNs ∧ r.now < w.sinceNs + patienceNs t := by
    intro w hw
    rw [follow_watched, hFences, hSlot] at hw
    rcases List.mem_append.mp hw with hw | hw
    · obtain ⟨hMem, hAhead⟩ := judgeFrom_kept _ w hw
      exact ⟨hKept.since w hMem, hAhead⟩
    · obtain ⟨v, hv, rfl⟩ := List.mem_map.mp hw
      obtain ⟨hv, hFd⟩ := List.mem_filter.mp hv
      have hPos := hPatience ⟨v, hv, by simpa using hFd⟩
      have hNow := r.now_pos
      refine ⟨hNow, ?_⟩
      unfold patienceNs nsPerMs
      simp only
      omega
  refine ⟨hActuator'.trans hActuator, ?_, fun w hw => (hEach w hw).1, fun w hw => (hEach w hw).2,
    hOrphan'.trans hOrphan, fun hFlight => ?_, fun hNone => ?_, fun hNoFloor => ?_⟩
  · rw [follow_watched_iff, hWaiting]
    rfl
  · rw [hReleaseDue, if_neg]
    rintro ⟨-, hNotWaiting, hNoFence, -⟩
    rcases hFlight with h | h
    · exact hNotWaiting (hWaiting.mpr h)
    · exact hNoFence h
  · unfold TimerStands at hNone
    simp only [not_or, not_and, not_not] at hNone
    obtain ⟨hNoRelease, hNoOrphan, hNoHold⟩ := hNone
    constructor
    · rw [hReleaseDue, if_neg, hNoRelease]
      rintro ⟨hWatched, hNotWaiting, hNoFence, -⟩
      rcases hNoHold hWatched with h | h
      · exact hNotWaiting (hWaiting.mpr h)
      · exact hNoFence h
    · rw [hOrphan', hOrphan]
      split
      · rename_i hNothing
        exact hNoOrphan hNothing
      · rfl
  · rw [hReleaseDue, if_neg]
    rintro ⟨-, -, -, hStands, -⟩
    unfold floor at hStands
    rw [hActuator] at hStands
    exact hStands hNoFloor

/-- What a plan leaves that asks of the lane. -/
theorem ask_cases (t : Tuning) (lane : FloorLane A) (a : Asked) (now : Nat) :
    ((lane.ask t a now).floor = 0 ∧ (lane.ask t a now).releaseDueNs = lane.releaseDueNs ∧
      (lane.ask t a now).orphanDueNs = lane.orphanDueNs ∧
      (lane.floor ≠ 0 → lane.floor < a.step ∧ a.currentMhz.getD 0 < a.step ∧
        floorMhz (setFloor lane.actuator a.step a.answer).2 = 0)) ∨
    ((lane.ask t a now).floor ≠ 0 ∧ a.reported = false ∧ (lane.ask t a now).releaseDueNs = 0 ∧
      (lane.ask t a now).orphanDueNs = now + t.orphanMs * nsPerMs) ∨
    ((lane.ask t a now).floor ≠ 0 ∧ a.reported = true ∧ (lane.ask t a now).orphanDueNs = 0 ∧
      (lane.ask t a now).releaseDueNs =
        if lane.fences.watched = [] then now + t.holdMs * nsPerMs else 0) := by
  have hFloor : FloorLane.floor { lane with owedMhz := a.owed } = lane.floor := rfl
  unfold ask
  simp only [hFloor]
  generalize hTried : (if lane.floor < a.step ∧ a.currentMhz.getD 0 < a.step then
    setFloor lane.actuator a.step a.answer else (false, lane.actuator)) = tried
  obtain ⟨raised, actuator⟩ := tried
  simp only
  -- a floor that was raised stands at the step asked
  have hRaised : raised = true → floorMhz actuator ≠ 0 := by
    intro hTrue
    split at hTried
    · rename_i hUp
      have hTaken := setFloor_taken lane.actuator a.step a.answer (by rw [hTried, hTrue])
      rw [hTried] at hTaken
      simp only at hTaken
      omega
    · rw [← (Prod.mk.inj hTried).1] at hTrue
      cases hTrue
  split
  · rename_i hNoFloor
    obtain ⟨hNotRaised, hZero⟩ := hNoFloor
    refine .inl ⟨hZero, rfl, rfl, fun hStood => ?_⟩
    split at hTried
    · rename_i hUp
      rw [hTried]
      exact ⟨hUp.1, hUp.2, hZero⟩
    · rw [← (Prod.mk.inj hTried).2] at hZero
      exact absurd hZero hStood
  · rename_i hFloorStands
    have hStands : floorMhz actuator ≠ 0 := by
      cases raised with
      | true => exact hRaised rfl
      | false => exact fun hZero => hFloorStands ⟨rfl, hZero⟩
    split
    · rename_i hAhead
      exact .inr (.inl ⟨hStands, hAhead, rfl, rfl⟩)
    · rename_i hGone
      exact .inr (.inr ⟨hStands, by simpa using hGone, rfl, rfl⟩)

/-- What a plan finds and leaves of a lane, before anything is let go. -/
structure Settled (t : Tuning) (lane : FloorLane A) (now : Nat) : Prop where
  kept : Kept lane
  giveUp : ∀ w ∈ lane.fences.watched, now < w.sinceNs + patienceNs t
  /-- While a fence is in flight the timers are ahead. -/
  inFlight : lane.fences.watched ≠ [] → Ahead lane.releaseDueNs now ∧ Ahead lane.orphanDueNs now

/-- **A lane settled is quiet once what is due is let go.** -/
theorem releaseIfDue_quiet {answer : Answer} (hSettled : Settled t lane now) :
    Quiet t (lane.releaseIfDue now answer) now ∧ Kept (lane.releaseIfDue now answer) := by
  unfold releaseIfDue
  split
  · rename_i hNot
    refine ⟨?_, hSettled.kept⟩
    rcases hNot with hNoFloor | hWatched
    · obtain ⟨hRelease, hOrphan⟩ := hSettled.kept.still hNoFloor
      exact ⟨.inl hRelease, .inl hOrphan, hSettled.giveUp⟩
    · obtain ⟨hRelease, hOrphan⟩ := hSettled.inFlight hWatched
      exact ⟨hRelease, hOrphan, hSettled.giveUp⟩
  · split
    · exact ⟨⟨.inl rfl, .inl rfl, hSettled.giveUp⟩, ⟨fun _ => ⟨rfl, rfl⟩, hSettled.kept.since⟩⟩
    · rename_i hNotDue
      simp only [not_or, not_and, Nat.not_le] at hNotDue
      refine ⟨⟨?_, ?_, hSettled.giveUp⟩, hSettled.kept⟩
      · by_cases h : lane.releaseDueNs = 0
        · exact .inl h
        · exact .inr (hNotDue.1 h)
      · by_cases h : lane.orphanDueNs = 0
        · exact .inl h
        · exact .inr (hNotDue.2 h)

/-- The fences a plan leaves are those it found. -/
theorem ask_watched (t : Tuning) (lane : FloorLane A) (a : Asked) (now : Nat) :
    (lane.ask t a now).fences.watched = lane.fences.watched := by
  rw [ask_fences]

/-- A round is planned for, a floor asked or not, and let go of where due. -/
theorem handled_eq (t : Tuning) (lane : FloorLane A) (r : Round) :
    lane.handled t r =
      (match r.asked with
        | none => lane.plannable t r
        | some a => (lane.plannable t r).ask t a r.now).releaseIfDue r.now r.releaseAnswer := rfl

/-- **A timely round leaves its lane quiet.** -/
theorem handled_quiet {r : Round} (hKept : Kept lane) (hTimely : Timely t lane r) :
    Quiet t (lane.handled t r) r.now ∧ Kept (lane.handled t r) := by
  have hPlan := plannable_spec hKept hTimely.patience
  have hStill : floorMhz (lane.atPlan r) = 0 →
      (lane.plannable t r).releaseDueNs = 0 ∧ (lane.plannable t r).orphanDueNs = 0 := by
    intro hNoFloor
    rw [hPlan.still hNoFloor, hPlan.orphan]
    unfold atPlan at hNoFloor
    split at hNoFloor
    · rename_i hNothing
      rw [if_pos hNothing]
      exact hKept.still hNoFloor
    · rename_i hReported
      rw [if_neg hReported]
      refine ⟨?_, rfl⟩
      by_contra hSet
      have hStood : lane.floor ≠ 0 := fun h => hSet (hKept.still h).1
      exact hTimely.owedKept hReported hStood hSet hNoFloor
  rw [handled_eq]
  generalize lane.plannable t r = lane' at hPlan hStill ⊢
  apply releaseIfDue_quiet
  have hActuator : lane'.floor = floorMhz (lane.atPlan r) := by
    unfold floor
    rw [hPlan.actuator]
  cases hAsked : r.asked with
  | none =>
    simp only
    refine ⟨⟨fun hNoFloor => hStill (hActuator ▸ hNoFloor), hPlan.since⟩, hPlan.giveUp,
      fun hWatched => ?_⟩
    have hFlight := hPlan.watched.mp hWatched
    rw [hPlan.release hFlight, hPlan.orphan]
    refine ⟨hTimely.release hFlight hAsked, ?_⟩
    split
    · rename_i hNothing
      exact hTimely.orphan hFlight hAsked hNothing
    · exact .inl rfl
  | some a =>
    simp only
    have hWatched := ask_watched t lane' a r.now
    rcases ask_cases t lane' a r.now with ⟨hNoFloor, hRelease, hOrphan, hLost⟩ |
      ⟨hFloor, hAhead, hRelease, hOrphan⟩ | ⟨hFloor, hGone, hOrphan, hRelease⟩
    · -- no floor stands, and none is lost from under a timer
      have hUnset : lane'.releaseDueNs = 0 ∧ lane'.orphanDueNs = 0 := by
        by_cases hStood : floorMhz (lane.atPlan r) = 0
        · exact hStill hStood
        · obtain ⟨hUp, hFaster, hZero⟩ := hLost (by rwa [hActuator])
          rw [hActuator] at hUp
          rw [hPlan.actuator] at hZero
          exact hPlan.unset fun hStands =>
            hTimely.askedKept hStands a hAsked hUp hFaster hStood hZero
      refine ⟨⟨fun _ => ?_, by rw [hWatched]; exact hPlan.since⟩,
        by rw [hWatched]; exact hPlan.giveUp, fun _ => ?_⟩
      · rw [hRelease, hOrphan]
        exact hUnset
      · rw [hRelease, hOrphan]
        exact ⟨.inl hUnset.1, .inl hUnset.2⟩
    · refine ⟨⟨fun h => absurd h hFloor, by rw [hWatched]; exact hPlan.since⟩,
        by rw [hWatched]; exact hPlan.giveUp, fun hSome => ?_⟩
      rw [hWatched] at hSome
      have hTime := hTimely.orphanTime (hPlan.watched.mp hSome) a hAsked hAhead
      rw [hRelease, hOrphan]
      refine ⟨.inl rfl, .inr ?_⟩
      unfold nsPerMs
      omega
    · refine ⟨⟨fun h => absurd h hFloor, by rw [hWatched]; exact hPlan.since⟩,
        by rw [hWatched]; exact hPlan.giveUp, fun hSome => ?_⟩
      rw [hWatched] at hSome
      rw [hRelease, hOrphan, if_neg hSome]
      exact ⟨.inl rfl, .inl rfl⟩

/-- Dropping everything leaves nothing due. -/
theorem dropAll_quiet (t : Tuning) (lane : FloorLane A) (answer : Answer) (now : Nat) :
    Quiet t (lane.dropAll answer).1 now ∧ Kept (lane.dropAll answer).1 :=
  ⟨⟨.inl rfl, .inl rfl, fun _ hw => (nomatch hw)⟩,
    ⟨fun _ => ⟨rfl, rfl⟩, fun _ hw => (nomatch hw)⟩⟩

-- ---------------------------------------------------------------------------
-- How far ahead a lane's timers are set
-- ---------------------------------------------------------------------------

/-- None of a lane's timers is set for later than some time. -/
structure Near (t : Tuning) (lane : FloorLane A) (limit : Nat) : Prop where
  release : lane.releaseDueNs ≤ limit
  orphan : lane.orphanDueNs ≤ limit
  giveUp : ∀ w ∈ lane.fences.watched, w.sinceNs + patienceNs t ≤ limit

omit [FloorActuator A] in
theorem Near.later {limit limit' : Nat} (hNear : Near t lane limit) (hLe : limit ≤ limit') :
    Near t lane limit' :=
  ⟨hNear.release.trans hLe, hNear.orphan.trans hLe, fun w hw => (hNear.giveUp w hw).trans hLe⟩

omit [FloorActuator A] in
theorem nextDueNs_le {limit : Nat} (hNear : Near t lane limit) : lane.nextDueNs t ≤ limit :=
  consider_le (consider_le (consider_le (Nat.zero_le limit) hNear.release) hNear.orphan)
    (nextGiveUpNs_le hNear.giveUp)

/-- The milliseconds of each setting a timer is set by fit an `int`. -/
structure Short (t : Tuning) : Prop where
  hold : t.holdMs < 2 ^ 31
  orphan : t.orphanMs < 2 ^ 31
  patience : t.fencePatienceMs < 2 ^ 31
  cap : t.cpuCapMs < 2 ^ 31

instance (t : Tuning) : Decidable (Short t) :=
  decidable_of_iff (t.holdMs < 2 ^ 31 ∧ t.orphanMs < 2 ^ 31 ∧ t.fencePatienceMs < 2 ^ 31 ∧
      t.cpuCapMs < 2 ^ 31)
    ⟨fun ⟨h₁, h₂, h₃, h₄⟩ => ⟨h₁, h₂, h₃, h₄⟩, fun ⟨h₁, h₂, h₃, h₄⟩ => ⟨h₁, h₂, h₃, h₄⟩⟩

/-- The longest an `int` of milliseconds reaches. -/
def longest : Nat := (2 ^ 31 - 1) * nsPerMs

/-- A timer set from a time by so many milliseconds. -/
theorem set_near {ms : Nat} (hShort : ms < 2 ^ 31) (now : Nat) :
    now + ms * nsPerMs ≤ now + longest := by
  have hMs : ms ≤ 2 ^ 31 - 1 := by omega
  exact Nat.add_le_add_left (Nat.mul_le_mul_right nsPerMs hMs) now

/-- The milliseconds to a timer set no further ahead fit an `int`. -/
theorem ms_fit {due now : Nat} (hDue : due ≤ now + longest) :
    0 ≤ MachineNumbers.int32 (((due - now + nsPerMs - 1) / nsPerMs : Nat) : Int) := by
  unfold longest at hDue
  have hFit : (due - now + nsPerMs - 1) / nsPerMs < 2 ^ 31 := by
    rw [Nat.div_lt_iff_lt_mul (by decide)]
    unfold nsPerMs at hDue ⊢
    omega
  generalize (due - now + nsPerMs - 1) / nsPerMs = ms at hFit ⊢
  rw [MachineNumbers.int32_of_fit (by omega) (by omega)]
  exact Int.natCast_nonneg ms

theorem plannable_near {r : Round} (hShort : Short t) (hNear : Near t lane (r.now + longest)) :
    Near t (lane.plannable t r) (r.now + longest) := by
  have hBefore : Near t (if r.submitted = [] then lane else lane.reported r.owedAnswer)
      (r.now + longest) := by
    split
    · exact hNear
    · obtain ⟨hFences, -, hRelease, hOrphan, -⟩ := @reported_frame A _ lane r.owedAnswer
      refine ⟨hRelease ▸ hNear.release, hOrphan ▸ Nat.zero_le _, ?_⟩
      rw [hFences]
      exact hNear.giveUp
  unfold plannable
  generalize (if r.submitted = [] then lane else lane.reported r.owedAnswer) = before at hBefore ⊢
  obtain ⟨-, hOrphan, -⟩ := @follow_frame A _ t before r.fds r.submitted r.now
  refine ⟨?_, hOrphan ▸ hBefore.orphan, fun w hw => ?_⟩
  · rw [follow_releaseDueNs]
    split
    · exact set_near hShort.hold r.now
    · exact hBefore.release
  · rw [follow_watched] at hw
    rcases List.mem_append.mp hw with hw | hw
    · exact hBefore.giveUp w (judgeFrom_kept _ w hw).1
    · obtain ⟨v, -, rfl⟩ := List.mem_map.mp hw
      exact set_near hShort.patience r.now

theorem ask_near {a : Asked} (hShort : Short t) (hNear : Near t lane (now + longest)) :
    Near t (lane.ask t a now) (now + longest) := by
  have hGiveUp : ∀ w ∈ (lane.ask t a now).fences.watched,
      w.sinceNs + patienceNs t ≤ now + longest := by
    rw [ask_watched]
    exact hNear.giveUp
  rcases ask_cases t lane a now with ⟨-, hRelease, hOrphan, -⟩ | ⟨-, -, hRelease, hOrphan⟩ |
    ⟨-, -, hOrphan, hRelease⟩
  · exact ⟨hRelease.le.trans hNear.release, hOrphan.le.trans hNear.orphan, hGiveUp⟩
  · exact ⟨hRelease.le.trans (Nat.zero_le _), hOrphan.le.trans (set_near hShort.orphan now),
      hGiveUp⟩
  · refine ⟨?_, hOrphan.le.trans (Nat.zero_le _), hGiveUp⟩
    rw [hRelease]
    split
    · exact set_near hShort.hold now
    · exact Nat.zero_le _

theorem releaseIfDue_near {answer : Answer} {limit : Nat} (hNear : Near t lane limit) :
    Near t (lane.releaseIfDue now answer) limit := by
  unfold releaseIfDue
  split
  · exact hNear
  · split
    · exact ⟨Nat.zero_le _, Nat.zero_le _, hNear.giveUp⟩
    · exact hNear

/-- **A round by short settings sets no timer too far ahead.** -/
theorem handled_near {r : Round} (hShort : Short t) (hNear : Near t lane (r.now + longest)) :
    Near t (lane.handled t r) (r.now + longest) := by
  rw [handled_eq]
  have hPlan := plannable_near hShort hNear
  apply releaseIfDue_near
  cases r.asked with
  | none => exact hPlan
  | some a => exact ask_near hShort hPlan

/-- Dropping everything leaves nothing set. -/
theorem dropAll_near (t : Tuning) (lane : FloorLane A) (answer : Answer) (limit : Nat) :
    Near t (lane.dropAll answer).1 limit :=
  ⟨Nat.zero_le _, Nat.zero_le _, fun _ hw => nomatch hw⟩

end FloorLane

-- ---------------------------------------------------------------------------
-- The lanes' rounds
-- ---------------------------------------------------------------------------

namespace Engines

open FloorLane

/-- What the frame's plan asks of the engine's lane, if it does; `e` is as the
plan finds it. -/
def vicAsked (t : Tuning) (e : Engines) (mail : Mailbox) (i : Reading) : Option Asked :=
  match mail.pending with
  | none => none
  | some f =>
    if f.mergePlanned = false ∨ f.mergeReusePredicted = true ∨ i.powerSave = true ∨
        usable e.vic.actuator = false then none
    else some (mergeAsked t i (e.vic.hasReported f.seq))

/-- What the drawing's plan asks of the GPU's lane, if it does. -/
def gpuAsked (t : Tuning) (e : Engines) (mail : Mailbox) (i : Reading) : Option Asked :=
  match mail.gpuPending with
  | none => none
  | some plan =>
    if t.gpuBoost = 0 ∨ usable e.gpu.actuator = false ∨
        (mail.pending.getD e.lastFrame).seq ≠ plan.seq ∨ i.powerSave = true then none
    else some { step := i.gpuStepMhz, reported := e.gpu.hasReported plan.seq
                currentMhz := i.gpuMhz, answer := i.gpuAsked }

/-- A round of the thread as the engine's lane sees it. -/
def vicRound (t : Tuning) (e : Engines) (mail : Mailbox) (fds : List PollFd) (now : Nat)
    (now_pos : 0 < now) (i : Reading) : Round where
  now := now
  now_pos := now_pos
  fds := fds
  submitted := mail.submitted
  asked := vicAsked t (e.followed t mail fds now i).1 mail i
  owedAnswer := i.vicOwed
  releaseAnswer := i.vicReleased

/-- A round of the thread as the GPU's lane sees it. -/
def gpuRound (t : Tuning) (e : Engines) (mail : Mailbox) (fds : List PollFd) (now : Nat)
    (now_pos : 0 < now) (i : Reading) : Round where
  now := now
  now_pos := now_pos
  fds := fds
  submitted := mail.gpuSubmitted
  asked := gpuAsked t (e.followed t mail fds now i).1 mail i
  owedAnswer := i.gpuOwed
  releaseAnswer := i.gpuReleased

variable {t : Tuning} {e : Engines} {mail : Mailbox} {fds : List PollFd} {now : Nat}
  {submitted : Bool} {i : Reading}

theorem followed_vic :
    (e.followed t mail fds now i).1.vic =
      ((if mail.submitted = [] then e.vic else e.vic.reported i.vicOwed).follow t fds
        mail.submitted now).1 := by
  unfold followed
  simp only
  split <;> rfl

theorem followed_gpu :
    (e.followed t mail fds now i).1.gpu =
      ((if mail.gpuSubmitted = [] then e.gpu else e.gpu.reported i.gpuOwed).follow t fds
        mail.gpuSubmitted now).1 := by
  unfold followed
  simp only
  by_cases h : mail.submitted = []
  · rw [if_pos h]
  · rw [if_neg h]
    rfl

/-- What the plans of a round leave of the lanes. -/
theorem planned_lanes :
    (e.planned t mail now submitted i).vic =
        (match vicAsked t e mail i with
          | none => e.vic
          | some a => e.vic.ask t a now) ∧
      (e.planned t mail now submitted i).gpu =
        (match gpuAsked t e mail i with
          | none => e.gpu
          | some a => e.gpu.ask t a now) := by
  have hGpu : ∀ (e' : Engines) (plan : GpuPlan), (e'.decideGpu t plan now i).vic = e'.vic ∧
      (e'.decideGpu t plan now i).gpu =
        if t.gpuBoost = 0 ∨ usable e'.gpu.actuator = false ∨ e'.lastFrame.seq ≠ plan.seq ∨
          i.powerSave = true then e'.gpu
        else e'.gpu.ask t { step := i.gpuStepMhz, reported := e'.gpu.hasReported plan.seq
                            currentMhz := i.gpuMhz, answer := i.gpuAsked } now := by
    intro e' plan
    unfold decideGpu
    by_cases hOff : t.gpuBoost = 0 ∨ usable e'.gpu.actuator = false
    · rw [if_pos hOff, if_pos (by tauto)]
      exact ⟨rfl, rfl⟩
    by_cases hOther : e'.lastFrame.seq ≠ plan.seq
    · rw [if_neg hOff, if_pos hOther, if_pos (by tauto)]
      exact ⟨rfl, rfl⟩
    by_cases hSave : i.powerSave = true
    · rw [if_neg hOff, if_neg hOther, if_pos hSave, if_pos (by tauto)]
      exact ⟨rfl, rfl⟩
    · rw [if_neg hOff, if_neg hOther, if_neg hSave, if_neg (by tauto)]
      exact ⟨rfl, rfl⟩
  have hDecided : ((e.framePlanned t mail now submitted i).vic = match vicAsked t e mail i with
        | none => e.vic
        | some a => e.vic.ask t a now) ∧
      (e.framePlanned t mail now submitted i).gpu = e.gpu ∧
      (e.framePlanned t mail now submitted i).lastFrame = mail.pending.getD e.lastFrame := by
    unfold vicAsked framePlanned
    cases mail.pending with
    | none => exact ⟨rfl, rfl, rfl⟩
    | some f =>
      obtain ⟨hVic, hGpu', hLast⟩ := @decide_frame t e now submitted i f (e.vic.hasReported f.seq)
      simp only
      refine ⟨?_, hGpu', hLast⟩
      rw [hVic]
      split <;> rfl
  obtain ⟨hVic, hGpu', hLast⟩ := hDecided
  unfold planned gpuAsked
  cases mail.gpuPending with
  | none => exact ⟨hVic, hGpu'⟩
  | some plan =>
    obtain ⟨hSame, hAsked⟩ := hGpu (e.framePlanned t mail now submitted i) plan
    simp only
    refine ⟨hSame.trans hVic, ?_⟩
    rw [hAsked, hGpu', hLast]
    split <;> rfl

/-- **A round of the thread is a round of each lane.** -/
theorem handle_lanes (now_pos : 0 < now) (hOn : ¬(mail.stop = true ∨ mail.power ≠ .on)) :
    (e.handle t mail fds now submitted i).1.vic =
        e.vic.handled t (vicRound t e mail fds now now_pos i) ∧
      (e.handle t mail fds now submitted i).1.gpu =
        e.gpu.handled t (gpuRound t e mail fds now now_pos i) := by
  obtain ⟨hVic, hGpu⟩ := @planned_lanes t (e.followed t mail fds now i).1 mail now submitted i
  have hLetGo : ∀ e' : Engines, (e'.letGo now i).vic = e'.vic.releaseIfDue now i.vicReleased ∧
      (e'.letGo now i).gpu = e'.gpu.releaseIfDue now i.gpuReleased := by
    intro e'
    unfold letGo
    simp only
    split <;> exact ⟨rfl, rfl⟩
  unfold handle
  rw [if_neg hOn]
  simp only
  obtain ⟨hVicGo, hGpuGo⟩ :=
    hLetGo ((e.followed t mail fds now i).1.planned t mail now submitted i)
  rw [hVicGo, hGpuGo, hVic, hGpu, followed_vic, followed_gpu]
  exact ⟨rfl, rfl⟩

-- ---------------------------------------------------------------------------
-- The processor
-- ---------------------------------------------------------------------------

/-- A processor lifted is lifted until some time, and none is set for later than some. -/
structure CpuKept (limit : Nat) (e : Engines) : Prop where
  since : e.cpu.lifted = true → e.cpuUntilNs ≠ 0
  near : e.cpuUntilNs ≤ limit

theorem CpuKept.later {limit limit' : Nat} (hKept : CpuKept limit e) (hLe : limit ≤ limit') :
    CpuKept limit' e :=
  ⟨hKept.since, hKept.near.trans hLe⟩

theorem liftCpu_kept {answer : Answer} (hShort : Short t) (now_pos : 0 < now)
    (hKept : CpuKept (now + longest) e) :
    CpuKept (now + longest) (e.liftCpu t answer now).2 := by
  unfold liftCpu CpuFloor.lift CpuFloor.write
  simp only
  by_cases hOpen : e.cpu.isOpen = false
  · simp only [hOpen, if_true]
    exact ⟨hKept.since, hKept.near⟩
  · cases answer with
    | taken =>
      simp only [hOpen]
      refine ⟨fun _ => ?_, set_near hShort.cap now⟩
      show now + t.cpuCapMs * nsPerMs ≠ 0
      omega
    | refused =>
      simp only [hOpen]
      exact ⟨nofun, hKept.near⟩
    | failed =>
      simp only [hOpen]
      exact ⟨nofun, hKept.near⟩

theorem drop_lifted (c : CpuFloor) (answer : Answer) : (c.drop answer).lifted = false := by
  unfold CpuFloor.drop CpuFloor.write
  cases hLifted : c.lifted with
  | false => simp [hLifted]
  | true => cases hOpen : c.isOpen <;> cases answer <;> simp

theorem dropCpu_kept (limit : Nat) (e : Engines) (answer : Answer) :
    CpuKept limit (e.dropCpu answer) := by
  refine ⟨fun h => ?_, Nat.zero_le limit⟩
  rw [dropCpu, drop_lifted] at h
  cases h

theorem decide_kept (f : Frame) (mergeReported : Bool) (hShort : Short t) (now_pos : 0 < now)
    (hKept : CpuKept (now + longest) e) :
    CpuKept (now + longest) (e.decide_ t f now mergeReported submitted i) := by
  have hFirst : CpuKept (now + longest)
      (liftFirst t { e with lastFrame := f } f now mergeReported i).2 := by
    unfold liftFirst
    split
    · exact liftCpu_kept hShort now_pos ⟨hKept.since, hKept.near⟩
    · exact ⟨hKept.since, hKept.near⟩
  unfold decide_
  simp only
  split
  · exact ⟨hKept.since, hKept.near⟩
  split
  · exact hFirst
  split
  · exact liftCpu_kept hShort now_pos ⟨hFirst.since, hFirst.near⟩
  · exact ⟨hFirst.since, hFirst.near⟩

theorem decideGpu_cpu (e : Engines) (plan : GpuPlan) :
    (e.decideGpu t plan now i).cpu = e.cpu ∧
      (e.decideGpu t plan now i).cpuUntilNs = e.cpuUntilNs := by
  unfold decideGpu
  split
  · exact ⟨rfl, rfl⟩
  split
  · exact ⟨rfl, rfl⟩
  split <;> exact ⟨rfl, rfl⟩

/-- **A round lets the processor go when it is due**, keeps the time of any lift it
leaves, and sets none too far ahead. -/
theorem handle_cpu (hShort : Short t) (now_pos : 0 < now) (hKept : CpuKept (now + longest) e) :
    CpuKept (now + longest) (e.handle t mail fds now submitted i).1 ∧
      Ahead (e.handle t mail fds now submitted i).1.cpuUntilNs now := by
  have hFollowed : CpuKept (now + longest) (e.followed t mail fds now i).1 := by
    unfold followed
    simp only
    split
    · exact ⟨hKept.since, hKept.near⟩
    · have hDropped := dropCpu_kept (now + longest) e i.cpuReported
      exact ⟨hDropped.since, hDropped.near⟩
  have hPlanned : CpuKept (now + longest)
      ((e.followed t mail fds now i).1.planned t mail now submitted i) := by
    have hDecided : ∀ e' : Engines, CpuKept (now + longest) e' →
        CpuKept (now + longest) (e'.framePlanned t mail now submitted i) := by
      intro e' he'
      unfold framePlanned
      cases mail.pending with
      | none => exact he'
      | some f => exact decide_kept f _ hShort now_pos he'
    unfold planned
    cases mail.gpuPending with
    | none => exact hDecided _ hFollowed
    | some plan =>
      have hFrame := hDecided _ hFollowed
      refine ⟨?_, ?_⟩
      · simp only
        rw [(decideGpu_cpu _ plan).1, (decideGpu_cpu _ plan).2]
        exact hFrame.since
      · simp only
        rw [(decideGpu_cpu _ plan).2]
        exact hFrame.near
  have hLetGo : ∀ e' : Engines, CpuKept (now + longest) e' →
      CpuKept (now + longest) (e'.letGo now i) ∧ Ahead (e'.letGo now i).cpuUntilNs now := by
    intro e' he'
    unfold letGo
    simp only
    split
    · exact ⟨dropCpu_kept _ _ _, .inl rfl⟩
    · rename_i hNotDue
      refine ⟨⟨he'.since, he'.near⟩, ?_⟩
      unfold Ahead
      simp only at hNotDue ⊢
      omega
  unfold handle
  split
  · exact ⟨dropCpu_kept _ _ _, .inl rfl⟩
  · exact hLetGo _ hPlanned

end Engines

-- ---------------------------------------------------------------------------
-- Every round
-- ---------------------------------------------------------------------------

namespace TegraGovernor

open Engines FloorLane

/-- A round by short settings, no earlier than the last, is timely and tied for both
lanes. -/
def TimelyAction (t : Tuning) (g : TegraGovernor) : Action → Prop
  | .handle now now_pos i =>
    match g.thread with
    | .taken fds mail =>
      ¬(mail.stop = true ∨ mail.power ≠ .on) →
        (Short t ∧ ∀ last ∈ g.lastRound, last ≤ now) ∧
        (Timely t g.engines.vic (vicRound t g.engines mail fds now now_pos i) ∧
          Tied g.engines.vic (vicRound t g.engines mail fds now now_pos i)) ∧
        Timely t g.engines.gpu (gpuRound t g.engines mail fds now now_pos i) ∧
          Tied g.engines.gpu (gpuRound t g.engines mail fds now now_pos i)
    | _ => True
  | _ => True

/-- The thread never spins: what the last round left is ahead of it, and a
sleep without end, from that round on, is with nothing raised. -/
structure Sleeps (t : Tuning) (g : TegraGovernor) : Prop where
  vic : ∀ now, g.lastRound = some now → Ahead (g.engines.vic.nextDueNs t) now
  gpu : ∀ now, g.lastRound = some now → Ahead (g.engines.gpu.nextDueNs t) now
  cpu : ∀ now, g.lastRound = some now → Ahead g.engines.cpuUntilNs now
  timeout : ∀ now, (∀ last ∈ g.lastRound, last ≤ now) → g.engines.timeoutMs t now < 0 →
    g.engines.vic.floor = 0 ∧ g.engines.gpu.floor = 0 ∧ g.engines.cpu.lifted = false

/-- The latest a timer may be set for after the last round; before the first none is. -/
def horizon (g : TegraGovernor) : Nat :=
  match g.lastRound with
  | none => 0
  | some last => last + longest

/-- What every timely run keeps. -/
structure OnTime (t : Tuning) (g : TegraGovernor) : Prop where
  vicKept : Kept g.engines.vic
  vicEnds : Ends g.engines.vic
  gpuKept : Kept g.engines.gpu
  gpuEnds : Ends g.engines.gpu
  vicNear : Near t g.engines.vic (horizon g)
  gpuNear : Near t g.engines.gpu (horizon g)
  cpuKept : CpuKept (horizon g) g.engines
  quiet : ∀ now, g.lastRound = some now →
    Quiet t g.engines.vic now ∧ Quiet t g.engines.gpu now ∧ Ahead g.engines.cpuUntilNs now
  /-- Nothing stands after the thread. -/
  gone : g.thread = .gone → g.engines.vic.floor = 0 ∧ g.engines.gpu.floor = 0

variable {t : Tuning} {g g' : TegraGovernor}

theorem sleeps_of_onTime (h : OnTime t g) : Sleeps t g where
  vic now hRound := nextDueNs_quiet (h.quiet now hRound).1
  gpu now hRound := nextDueNs_quiet (h.quiet now hRound).2.1
  cpu now hRound := (h.quiet now hRound).2.2
  timeout := by
    intro now hLater hNever
    have hLimit : horizon g ≤ now + longest := by
      unfold horizon
      cases hRound : g.lastRound with
      | none => exact Nat.zero_le _
      | some last => exact Nat.add_le_add_right (hLater last hRound) longest
    have hDue : consider (consider (consider 0 g.engines.cpuUntilNs)
        (g.engines.vic.nextDueNs t)) (g.engines.gpu.nextDueNs t) ≤ now + longest :=
      (consider_le (consider_le (consider_le (Nat.zero_le _) h.cpuKept.near)
        (nextDueNs_le h.vicNear)) (nextDueNs_le h.gpuNear)).trans hLimit
    unfold timeoutMs at hNever
    simp only at hNever
    split at hNever
    · rename_i hNone
      rw [consider_eq_zero, consider_eq_zero, consider_eq_zero] at hNone
      obtain ⟨⟨⟨-, hCpu⟩, hVic⟩, hGpu⟩ := hNone
      refine ⟨floor_of_nextDueNs h.vicKept h.vicEnds hVic,
        floor_of_nextDueNs h.gpuKept h.gpuEnds hGpu, ?_⟩
      exact Bool.eq_false_iff.mpr fun hLifted => h.cpuKept.since hLifted hCpu
    split at hNever
    · cases hNever
    · exact absurd hNever (not_lt.mpr (ms_fit hDue))

theorem onTime_init (vic gpu cpu : Bool) : OnTime t (init vic gpu cpu) where
  vicKept := ⟨fun _ => ⟨rfl, rfl⟩, fun _ hw => (nomatch hw)⟩
  vicEnds := fun h => absurd rfl h
  gpuKept := ⟨fun _ => ⟨rfl, rfl⟩, fun _ hw => (nomatch hw)⟩
  gpuEnds := fun h => absurd rfl h
  vicNear := ⟨Nat.zero_le _, Nat.zero_le _, fun _ hw => (nomatch hw)⟩
  gpuNear := ⟨Nat.zero_le _, Nat.zero_le _, fun _ hw => (nomatch hw)⟩
  cpuKept := ⟨nofun, Nat.zero_le _⟩
  quiet := by
    intro now h
    cases h
  gone := by
    intro h
    cases h

/-- What leaves the engines, the thread and its last round alone leaves all on
time. -/
theorem onTime_of_same (h : OnTime t g) (hEngines : g'.engines = g.engines)
    (hThread : g'.thread = .gone → g.thread = .gone) (hRound : g'.lastRound = g.lastRound) :
    OnTime t g' where
  vicKept := hEngines ▸ h.vicKept
  vicEnds := hEngines ▸ h.vicEnds
  gpuKept := hEngines ▸ h.gpuKept
  gpuEnds := hEngines ▸ h.gpuEnds
  vicNear := by
    unfold horizon
    rw [hEngines, hRound]
    exact h.vicNear
  gpuNear := by
    unfold horizon
    rw [hEngines, hRound]
    exact h.gpuNear
  cpuKept := by
    unfold horizon
    rw [hEngines, hRound]
    exact h.cpuKept
  quiet := by
    rw [hEngines, hRound]
    exact h.quiet
  gone := by
    rw [hEngines]
    exact fun hGone => h.gone (hThread hGone)

/-- The slots of the poll set are no concern of the timers. -/
theorem onTime_pollSet (h : OnTime t g) : OnTime t { g with engines := (pollSet g.engines).1 } where
  vicKept := ⟨h.vicKept.still, h.vicKept.since⟩
  vicEnds := h.vicEnds
  gpuKept := ⟨h.gpuKept.still, h.gpuKept.since⟩
  gpuEnds := h.gpuEnds
  vicNear := ⟨h.vicNear.release, h.vicNear.orphan, h.vicNear.giveUp⟩
  gpuNear := ⟨h.gpuNear.release, h.gpuNear.orphan, h.gpuNear.giveUp⟩
  cpuKept := ⟨h.cpuKept.since, h.cpuKept.near⟩
  quiet := by
    intro now hRound
    obtain ⟨hVic, hGpu, hCpu⟩ := h.quiet now hRound
    exact ⟨⟨hVic.release, hVic.orphan, hVic.giveUp⟩, ⟨hGpu.release, hGpu.orphan, hGpu.giveUp⟩, hCpu⟩
  gone := h.gone

/-- With everything dropped all is on time. -/
theorem onTime_dropped {e : Engines} {i : Reading} (hEngines : g.engines = (e.dropEverything i).1) :
    OnTime t g := by
  have hVic := fun now => dropAll_quiet t e.vic i.vicReleased now
  have hGpu := fun now => dropAll_quiet t e.gpu i.gpuReleased now
  refine ⟨?_, ?_, ?_, ?_, ?_, ?_, ?_, fun now _ => ?_, fun _ => ?_⟩
  all_goals rw [hEngines]
  · exact (hVic 0).2
  · exact dropAll_ends
  · exact (hGpu 0).2
  · exact dropAll_ends
  · exact dropAll_near t e.vic i.vicReleased _
  · exact dropAll_near t e.gpu i.gpuReleased _
  · exact dropCpu_kept _ _ _
  · exact ⟨(hVic now).1, (hGpu now).1, .inl rfl⟩
  · exact ⟨floorMhz_release e.vic.actuator _, floorMhz_release e.gpu.actuator _⟩

/-- **A timely, tied round leaves all on time.** -/
theorem onTime_handle {mail : Mailbox} {fds : List PollFd} {now : Nat} {now_pos : 0 < now}
    {i : Reading} (h : OnTime t g) (hThread : g.thread = .taken fds mail)
    (hTimely : TimelyAction t g (.handle now now_pos i)) :
    OnTime t { g with
      engines := (g.engines.handle t mail fds now (!g.mailbox.submitted.isEmpty) i).1
      thread := if mail.stop then .gone else .ready
      lastRound := some now } := by
  by_cases hOn : mail.stop = true ∨ mail.power ≠ .on
  · refine @onTime_dropped t _ g.engines i ?_
    unfold handle
    rw [if_pos hOn]
  · simp only [TimelyAction, hThread] at hTimely
    obtain ⟨⟨hShort, hLater⟩, ⟨hVicTimely, hVicTied⟩, hGpuTimely, hGpuTied⟩ := hTimely hOn
    have hLimit : horizon g ≤ now + longest := by
      unfold horizon
      cases hRound : g.lastRound with
      | none => exact Nat.zero_le _
      | some last => exact Nat.add_le_add_right (hLater last hRound) longest
    obtain ⟨hVic, hGpu⟩ := @handle_lanes t g.engines mail fds now (!g.mailbox.submitted.isEmpty) i
      now_pos hOn
    obtain ⟨hVicQuiet, hVicKept⟩ := handled_quiet h.vicKept hVicTimely
    obtain ⟨hGpuQuiet, hGpuKept⟩ := handled_quiet h.gpuKept hGpuTimely
    have hVicEnds := (@handled_ends_iff _ _ t _ _ h.vicEnds).mpr hVicTied
    have hGpuEnds := (@handled_ends_iff _ _ t _ _ h.gpuEnds).mpr hGpuTied
    have hVicNear := @handled_near _ _ t _ (vicRound t g.engines mail fds now now_pos i) hShort
      (h.vicNear.later hLimit)
    have hGpuNear := @handled_near _ _ t _ (gpuRound t g.engines mail fds now now_pos i) hShort
      (h.gpuNear.later hLimit)
    obtain ⟨hCpuKept, hCpu⟩ := @handle_cpu t g.engines mail fds now (!g.mailbox.submitted.isEmpty) i
      hShort now_pos (h.cpuKept.later hLimit)
    rw [← hVic] at hVicQuiet hVicKept hVicEnds hVicNear
    rw [← hGpu] at hGpuQuiet hGpuKept hGpuEnds hGpuNear
    refine ⟨hVicKept, hVicEnds, hGpuKept, hGpuEnds, hVicNear, hGpuNear, hCpuKept,
      fun now' hRound => ?_, fun hGone => ?_⟩
    · obtain rfl := Option.some.inj hRound
      exact ⟨hVicQuiet, hGpuQuiet, hCpu⟩
    · simp only [not_or] at hOn
      simp only [hOn.1] at hGone
      cases hGone

/-- A destroyed governor's watches are empty, and nothing stands. -/
theorem onTime_join (h : OnTime t g) (hGone : g.thread = .gone) (mailbox : Mailbox) :
    OnTime t { g with
      mailbox := mailbox
      engines := { g.engines with
        vic := { g.engines.vic with fences := g.engines.vic.fences.dropAll.1 }
        gpu := { g.engines.gpu with fences := g.engines.gpu.fences.dropAll.1 } }
      destroyed := true } where
  vicKept := ⟨h.vicKept.still, fun _ hw => (nomatch hw)⟩
  vicEnds := fun hStands => absurd (h.gone hGone).1 hStands
  gpuKept := ⟨h.gpuKept.still, fun _ hw => (nomatch hw)⟩
  gpuEnds := fun hStands => absurd (h.gone hGone).2 hStands
  vicNear := ⟨h.vicNear.release, h.vicNear.orphan, fun _ hw => (nomatch hw)⟩
  gpuNear := ⟨h.gpuNear.release, h.gpuNear.orphan, fun _ hw => (nomatch hw)⟩
  cpuKept := ⟨h.cpuKept.since, h.cpuKept.near⟩
  quiet := by
    intro now hRound
    obtain ⟨hVic, hGpu, hCpu⟩ := h.quiet now hRound
    exact ⟨⟨hVic.release, hVic.orphan, fun _ hw => (nomatch hw)⟩,
      ⟨hGpu.release, hGpu.orphan, fun _ hw => (nomatch hw)⟩, hCpu⟩
  gone := fun _ => h.gone hGone

theorem onTime_step {a : Action} (h : OnTime t g) (hTimely : TimelyAction t g a)
    (hStep : g.step t a = some g') : OnTime t g' := by
  cases a with
  | enter call =>
    obtain ⟨-, ⟨-, rfl⟩ | ⟨-, rfl⟩⟩ := step_enter hStep
    all_goals exact onTime_of_same h rfl id rfl
  | deposit k now =>
    obtain ⟨call, -, rfl⟩ := step_deposit hStep
    exact onTime_of_same h rfl id rfl
  | powerMode mode =>
    obtain ⟨-, rfl⟩ := step_powerMode hStep
    exact onTime_of_same h rfl id rfl
  | poll due =>
    obtain ⟨-, rfl⟩ := step_poll hStep
    exact onTime_of_same (onTime_pollSet h) rfl (fun h => by cases h) rfl
  | pollFails =>
    obtain ⟨-, rfl⟩ := step_pollFails hStep
    exact onTime_of_same (onTime_pollSet h) rfl (fun h => by cases h) rfl
  | dropOut i =>
    obtain ⟨-, rfl⟩ := step_dropOut hStep
    exact onTime_dropped rfl
  | take =>
    obtain ⟨fds, -, rfl⟩ := step_take hStep
    exact onTime_of_same h rfl (fun h => by cases h) rfl
  | handle now now_pos i =>
    obtain ⟨fds, mail, hThread, rfl⟩ := step_handle hStep
    exact onTime_handle h hThread hTimely
  | stop =>
    obtain ⟨-, -, rfl⟩ := step_stop hStep
    exact onTime_of_same h rfl id rfl
  | join =>
    obtain ⟨hJoined, rfl⟩ := step_join hStep
    exact onTime_join h hJoined.2.1 _

/-- **The thread never spins.** After every run of timely, tied rounds, in any
order with the composer's calls, what the last round left is ahead of it, and
the thread sleeps for good only with nothing raised. -/
theorem timers_ahead {vic gpu cpu : Bool} {actions : List Action}
    (hTimely : (machine t).Meets (TimelyAction t) (init vic gpu cpu) actions)
    (hRun : (machine t).run (init vic gpu cpu) actions = some g) : Sleeps t g :=
  sleeps_of_onTime (Runs.Machine.run_of_meets (m := machine t) (I := OnTime t)
    (fun _ _ _ h hC hStep => onTime_step h hC hStep) (onTime_init vic gpu cpu) hTimely hRun)

/-- A frame planned with a merge, and the round that plans it. -/
def framePlan (seq now : Nat) (now_pos : 0 < now) : List Action :=
  [.enter (.framePlanned { seq := seq, mergePlanned := true }), .deposit 0 now, .poll [], .take,
    .handle now now_pos { mergeStepMhz := 400 }]

/-- Its merge reported with a fence, and the round that takes it on. -/
def mergeReport (seq : Nat) (fd : Int) (now : Nat) (now_pos : 0 < now) : List Action :=
  [.enter (.mergeSubmitted seq fd), .deposit 0 now, .poll [], .take, .handle now now_pos {}]

/-- A plan and its report leave the thread asleep until the fence or its
giving up. -/
theorem timers_ahead_reported :
    ∃ g, (machine {}).run (init true true true)
        (framePlan 1 1 (by decide) ++ mergeReport 1 5 2 (by decide)) = some g ∧
      g.engines.vic.floor = 400 ∧ Sleeps {} g := by
  refine ⟨_, rfl, rfl, @timers_ahead {} _ true true true
    (framePlan 1 1 (by decide) ++ mergeReport 1 5 2 (by decide)) ?_ rfl⟩
  refine ⟨trivial, trivial, trivial, trivial, fun _ => by decide, trivial, trivial, trivial,
    trivial, fun _ => by decide, trivial⟩

/-- The next frame is planned while the fence of the one before is in flight,
and its merge is not reported by its orphan time. -/
def overtaken : List Action :=
  framePlan 1 1 Nat.one_pos ++ mergeReport 1 5 2 Nat.two_pos ++ framePlan 2 3 (by decide) ++
    [.poll [], .take, .handle 100000003 (by decide) {}]

/-- **A timer left behind.** The orphan time has passed, and with the fence in
flight nothing lets it go: the thread's next poll does not sleep. -/
theorem timers_behind :
    ¬∀ (t : Tuning) (vic gpu cpu : Bool) (actions : List Action) (g : TegraGovernor),
      (machine t).run (init vic gpu cpu) actions = some g → Sleeps t g := by
  intro h
  have hSleeps := h {} true true true overtaken _ rfl
  have hAhead := hSleeps.vic 100000003 rfl
  revert hAhead
  unfold Ahead
  decide

end TegraGovernor

end TegraHwc.Governor
