import Mathlib.Data.Int.Order.Basic
import Mathlib.Data.List.Basic
import TegraHwc.Lib.Runs

/-!
# TegraHwc — the wait for a blank

`waitForVSync` and `stop` of `tegra/TegraVSyncSource.cpp`. What comes out of the
control node comes in its order, each thing at its time; a poll sleeps till the
next of them or till its timeout ends, and time passes nowhere else in a call. A
signal, trouble on the node and a failed read end a wait alike, and are one.

Every poll of a wait that trusts its grant has the whole timeout before it: an
event that is no answer, another head's or a stale one, starts the timeout anew.

## Results

* `look_spec`      — what a wait finds, whether it sleeps, and what it remembers.
* `timely_iff`     — when a wait that may sleep is over within one timeout.
* `paid_once_iff`  — when the timeout is paid once, over every run.
-/

namespace TegraHwc

open Runs

/-- What `periodFor` reads of `mNative`. -/
structure NativeMode where
  clock : UInt32
  vdisplay : UInt16
  vsyncStart : UInt16
  vtotal : UInt16
  htotal : UInt16
  deriving DecidableEq, Repr

namespace TegraVSyncSource

/-- `kWaitTimeoutMs`, in nanoseconds. -/
def kWaitTimeoutNs : Int := 166000000

def kStaleNs : Int := 50000000

/-- `DcControl::EventType`. -/
inductive EventType where
  | unknown
  | vBlank
  | hotplug
  deriving DecidableEq, Repr

/-- `DcControl::Event`. -/
structure Event where
  type : EventType := .unknown
  handle : UInt32 := 0
  timestampNs : Int := 0
  actVfp : UInt32 := 0
  deriving DecidableEq, Repr

/-- The event is a blank of the head, not too old at `now` to answer a wait. -/
def Event.fresh (e : Event) (headHandle : UInt32) (now : Int) : Bool :=
  decide (e.type = .vBlank) && decide (e.handle = headHandle) &&
    !(decide (e.timestampNs ≠ 0) && decide (e.timestampNs < now - kStaleNs))

/-- When a blank happened, as told at `now`, and the porch its frame ran with. -/
def Event.dated (e : Event) (now : Int) : Int × UInt32 :=
  (if e.timestampNs ≠ 0 then e.timestampNs else now, e.actVfp)

/-- Something to be had of the control node from `time` on: an event, or what ends
a wait that has no blank yet. -/
structure Arrival where
  time : Int
  what : Except Int Event

/-- What it tells a wait that reads it at `now`: none but for a fresh blank. -/
def Arrival.blank (a : Arrival) (headHandle : UInt32) (now : Int) : Option (Int × UInt32) :=
  match a.what with
  | .ok e => if e.fresh headHandle now then some (e.dated now) else none
  | .error _ => none

/-- It is no failure. -/
def Arrival.isEvent (a : Arrival) : Bool :=
  match a.what with
  | .ok _ => true
  | .error _ => false

/-- How the loop of a wait ends: the blank found, or else what it fails with. -/
structure Look where
  found : Option (Int × UInt32)
  err : Int := 0
  reporting : Bool
  timedOutWhileGranted : Bool
  now : Int
  coming : List Arrival

/-- `ETIMEDOUT`. -/
def ETIMEDOUT : Int := 110

/-- The end of a loop whose poll has come up empty at `now`. -/
def quiet (found : Option (Int × UInt32)) (reporting timedOutWhileGranted : Bool) (now : Int)
    (coming : List Arrival) : Look :=
  if found.isSome then
    { found := found, reporting := reporting, timedOutWhileGranted := timedOutWhileGranted,
      now := now, coming := coming }
  else
    { found := none, err := -ETIMEDOUT, reporting := false,
      timedOutWhileGranted := timedOutWhileGranted || reporting, now := now, coming := coming }

/-- How long a poll may sleep. -/
def pollTimeout (found : Option (Int × UInt32)) (reporting : Bool) : Int :=
  if found.isSome || !reporting then 0 else kWaitTimeoutNs

/-- The loop of `waitForVSync`, with the blank last found. -/
def look (headHandle : UInt32) (found : Option (Int × UInt32))
    (reporting timedOutWhileGranted : Bool) (now : Int) : List Arrival → Look
  | [] => quiet found reporting timedOutWhileGranted (now + pollTimeout found reporting) []
  | a :: coming =>
    if now + pollTimeout found reporting < a.time then
      quiet found reporting timedOutWhileGranted (now + pollTimeout found reporting) (a :: coming)
    else
      let now := max now a.time
      match a.what with
      | .error err =>
        { found := found, err := err, reporting := reporting,
          timedOutWhileGranted := timedOutWhileGranted, now := now, coming := coming }
      | .ok e =>
        if e.fresh headHandle now then
          look headHandle (some (e.dated now)) true false now coming
        else look headHandle found reporting timedOutWhileGranted now coming

/-- `discardQueued`. -/
def discardQueued (now : Int) : List Arrival → List Arrival
  | [] => []
  | a :: coming =>
    if now < a.time then a :: coming
    else
      match a.what with
      | .error _ => coming
      | .ok _ => discardQueued now coming

end TegraVSyncSource

/-- `TegraVSyncSource`, the clock, and what is still to come out of the node. `spent`,
how long waits have slept since the last that saw a blank, is kept beside the code's
own. -/
structure TegraVSyncSource where
  headHandle : UInt32
  native : NativeMode
  now : Int
  coming : List TegraVSyncSource.Arrival
  porchReported : Bool := false
  reporting : Bool := false
  timedOutWhileGranted : Bool := false
  spent : Int := 0

namespace TegraVSyncSource

/-- `periodFor`. -/
def periodFor (s : TegraVSyncSource) (actVfp : UInt32) : Int :=
  if s.native.clock = 0 then 0
  else
    let nativeVfp : UInt32 := s.native.vsyncStart.toUInt32 - s.native.vdisplay.toUInt32
    let lines : UInt64 := s.native.vtotal.toUInt64 - nativeVfp.toUInt64 +
      (if actVfp ≠ 0 then actVfp else nativeVfp).toUInt64
    (s.native.htotal.toUInt64 * lines * 1000000 / s.native.clock.toUInt64).toInt64.toInt

/-- What a wait tells of the blank it found: when, and how long its frame took. -/
def told (s : TegraVSyncSource) (blank : Int × UInt32) : Int × Int :=
  (blank.1, if s.porchReported || decide (blank.2 ≠ 0) then s.periodFor blank.2 else 0)

/-- Whether a wait worth its timeout begins, the request answered `granted`. -/
def trusts (s : TegraVSyncSource) (granted : Bool) : Bool :=
  s.reporting || (granted && !s.timedOutWhileGranted)

/-- How a wait's loop ends. -/
def looked (s : TegraVSyncSource) (granted : Bool) : Look :=
  look s.headHandle none (s.trusts granted) s.timedOutWhileGranted s.now s.coming

/-- `waitForVSync`. -/
def waitForVSync (s : TegraVSyncSource) (granted : Bool) :
    Except Int (Int × Int) × TegraVSyncSource :=
  let l := s.looked granted
  let s' := { s with
    now := l.now
    coming := l.coming
    reporting := l.reporting
    timedOutWhileGranted := l.timedOutWhileGranted }
  match l.found with
  | none => (.error l.err, { s' with spent := s.spent + (l.now - s.now) })
  | some blank =>
    (.ok (s.told blank),
      { s' with porchReported := s.porchReported || decide (blank.2 ≠ 0), spent := 0 })

/-- `stop`. -/
def stop (s : TegraVSyncSource) : TegraVSyncSource :=
  { s with reporting := false, coming := discardQueued s.now s.coming }

/-- A call, with the head's answer to the request of a wait. -/
inductive Op where
  | waitForVSync (granted : Bool)
  | stop
  deriving DecidableEq, Repr

/-- A call, and how long after the last one. -/
structure Action where
  pause : Nat
  op : Op
  deriving DecidableEq, Repr

/-- Time goes on to a call. -/
def later (s : TegraVSyncSource) (pause : Nat) : TegraVSyncSource := { s with now := s.now + pause }

/-- What the newest fresh blank of the head queued at `now` tells. -/
def newest (headHandle : UInt32) (now : Int) (coming : List Arrival) : Option (Int × UInt32) :=
  (coming.filterMap fun a => if a.time ≤ now then a.blank headHandle now else none).getLast?

/-- What is told of a wait: its answer, how long it slept, how long the waits have
slept since the last one before it that saw a blank, and what it would tell of the
newest fresh blank queued as it ended. -/
structure Report where
  answer : Option (Int × Int)
  slept : Int
  together : Int
  newest : Option (Int × Int)
  deriving DecidableEq, Repr

/-- The report of a wait. -/
def report (s : TegraVSyncSource) (granted : Bool) : Report where
  answer := (s.waitForVSync granted).1.toOption
  slept := (s.looked granted).now - s.now
  together := s.spent + ((s.looked granted).now - s.now)
  newest := (newest s.headHandle (s.looked granted).now s.coming).map s.told

/-- The source, called. -/
def machine : Machine TegraVSyncSource Action Report where
  step s a := some <|
    match a.op with
    | .waitForVSync granted => ((s.later a.pause).waitForVSync granted).2
    | .stop => (s.later a.pause).stop
  events s a :=
    match a.op with
    | .waitForVSync granted => [(s.later a.pause).report granted]
    | .stop => []

/-- What comes out of the control node: events, each in its turn. -/
structure Stream where
  arrivals : List Arrival
  inOrder : arrivals.Pairwise fun a b => a.time ≤ b.time
  events : ∀ a ∈ arrivals, a.isEvent = true

/-- A wait that sees no blank is over within one timeout, the waits since the last
blank sleep one timeout together, and the newest blank is the answer. -/
structure Report.Paid (r : Report) : Prop where
  alone : r.answer = none → r.slept ≤ kWaitTimeoutNs
  together : r.together ≤ kWaitTimeoutNs
  newest : r.answer = r.newest

/-- A wait begun at `now` has its answer within one timeout, or nothing at all
arrives in it. -/
def Timely (headHandle : UInt32) (now : Int) (coming : List Arrival) : Prop :=
  (∃ a ∈ coming, a.time ≤ now + kWaitTimeoutNs ∧
      (a.blank headHandle (max now a.time)).isSome = true) ∨
    ∀ a ∈ coming, a.time ≤ now + kWaitTimeoutNs → a.time ≤ now

/-- A wait that may sleep is timely. -/
def Undisturbed (s : TegraVSyncSource) (a : Action) : Prop :=
  match a.op with
  | .waitForVSync granted =>
    s.trusts granted = true → Timely s.headHandle (s.now + a.pause) s.coming
  | .stop => True

-- ---------------------------------------------------------------------------
-- The loop
-- ---------------------------------------------------------------------------

variable {headHandle : UInt32} {found : Option (Int × UInt32)} {reporting timedOut : Bool}
  {now later_ : Int} {coming : List Arrival} {a : Arrival} {e : Event}

/-- A blank too old to answer does not get younger. -/
theorem not_fresh_later (hOld : e.fresh headHandle now = false) (hLater : now ≤ later_) :
    e.fresh headHandle later_ = false := by
  unfold Event.fresh at *
  revert hOld
  simp only [Bool.and_eq_false_iff, Bool.not_eq_false', Bool.and_eq_true, decide_eq_true_eq,
    decide_eq_false_iff_not]
  rintro (hOther | ⟨hDated, hStale⟩)
  · exact Or.inl hOther
  · exact Or.inr ⟨hDated, by omega⟩

/-- Nothing is queued of what all comes later. -/
theorem newest_eq_none (hLater : ∀ a ∈ coming, now < a.time) :
    newest headHandle now coming = none := by
  unfold newest
  rw [List.getLast?_eq_none_iff, List.filterMap_eq_nil_iff]
  intro a ha
  rw [if_neg (by have := hLater a ha; omega)]

/-- A wait's newest blank, by the first that comes. -/
theorem newest_cons (hQueued : a.time ≤ now) : newest headHandle now (a :: coming) =
    (newest headHandle now coming).or (a.blank headHandle now) := by
  unfold newest
  rw [List.filterMap_cons, if_pos hQueued]
  cases a.blank headHandle now with
  | none => simp
  | some blank => simp [List.getLast?_cons, Option.or_some]

/-- What the loop leaves, of what it began with. -/
structure Looked (headHandle : UInt32) (found : Option (Int × UInt32)) (reporting timedOut : Bool)
    (now : Int) (coming : List Arrival) (l : Look) : Prop where
  later : now ≤ l.now
  still : found.isSome = true ∨ reporting = false → l.now = now
  newest : l.found = (newest headHandle l.now coming).or found
  seen : l.found.isSome = true → l.reporting = true ∧ l.timedOutWhileGranted = false
  empty : l.found = none → l.reporting = false ∧ l.timedOutWhileGranted = (timedOut || reporting)
  suffix : l.coming <:+ coming

/-- A poll that comes up empty ends the loop as `Looked` says. -/
theorem looked_empty (hFound : found.isSome = true → reporting = true ∧ timedOut = false)
    (hLater : ∀ a ∈ coming, now + pollTimeout found reporting < a.time) :
    Looked headHandle found reporting timedOut now coming
      (quiet found reporting timedOut (now + pollTimeout found reporting) coming) := by
  have hNone := @newest_eq_none headHandle _ _ hLater
  have hSleeps : 0 ≤ pollTimeout found reporting := by
    unfold pollTimeout
    split <;> decide
  have hStill : found.isSome = true ∨ reporting = false → pollTimeout found reporting = 0 := by
    intro h
    unfold pollTimeout
    rw [if_pos (by simpa using h)]
  have hNow : ∀ ended, (quiet found reporting timedOut ended coming).now = ended := by
    cases found <;> exact fun _ => rfl
  refine ⟨?_, fun h => ?_, ?_, ?_, ?_, ?_⟩
  · rw [hNow]
    omega
  · rw [hNow, hStill h]
    exact Int.add_zero now
  · rw [hNow, hNone]
    cases found <;> rfl
  · cases found with
    | none => exact fun h => (nomatch h)
    | some blank => exact fun _ => hFound rfl
  · cases found with
    | none => exact fun _ => ⟨rfl, rfl⟩
    | some blank => exact fun h => (nomatch h)
  · cases found <;> exact List.suffix_rfl

/-- A poll that may not sleep finds what is there already. -/
theorem max_eq_now {time : Int} (h : found.isSome = true ∨ reporting = false)
    (hInTime : ¬now + pollTimeout found reporting < time) : max now time = now := by
  unfold pollTimeout at hInTime
  rw [if_pos (by simpa using h)] at hInTime
  omega

/-- **The loop**, whatever comes: it answers the newest blank queued as it ends. -/
theorem look_spec (hFound : found.isSome = true → reporting = true ∧ timedOut = false)
    (hOrder : coming.Pairwise fun a b => a.time ≤ b.time)
    (hEvents : ∀ a ∈ coming, a.isEvent = true) :
    Looked headHandle found reporting timedOut now coming
      (look headHandle found reporting timedOut now coming) := by
  induction coming generalizing found reporting timedOut now with
  | nil => exact looked_empty hFound (by simp)
  | cons a coming ih =>
    obtain ⟨hFirst, hRest⟩ := List.pairwise_cons.mp hOrder
    obtain ⟨hEvent, hEventsRest⟩ := List.forall_mem_cons.mp hEvents
    rw [look]
    split
    · rename_i hLate
      refine looked_empty hFound fun b hb => ?_
      rcases List.mem_cons.mp hb with rfl | hb
      · exact hLate
      · have := hFirst b hb
        omega
    rename_i hInTime
    have hStays := fun h => @max_eq_now found reporting _ _ h hInTime
    have hReached : a.time ≤ max now a.time := le_max_right now a.time
    split
    · rename_i err hWhat
      simp [Arrival.isEvent, hWhat] at hEvent
    rename_i e hWhat
    simp only
    split
    · rename_i hFresh
      have hBlank : a.blank headHandle (max now a.time) = some (e.dated (max now a.time)) := by
        unfold Arrival.blank
        rw [hWhat]
        exact if_pos hFresh
      obtain ⟨hLater, hStill, hNewest, hSeen, hEmpty, hSuffix⟩ :=
        @ih (some (e.dated (max now a.time))) true false (max now a.time) (fun _ => ⟨rfl, rfl⟩)
          hRest hEventsRest
      have hNow := hStill (Or.inl rfl)
      refine ⟨Int.le_trans (le_max_left now a.time) hLater, fun h => hNow.trans (hStays h), ?_,
        hSeen, fun h => ?_, hSuffix.trans (List.suffix_cons a coming)⟩
      · rw [hNewest, hNow, newest_cons hReached, hBlank]
        cases newest headHandle (max now a.time) coming <;> rfl
      · rw [hNewest] at h
        simp at h
    · rename_i hStale
      obtain ⟨hLater, hStill, hNewest, hSeen, hEmpty, hSuffix⟩ := @ih found reporting timedOut
        (max now a.time) hFound hRest hEventsRest
      refine ⟨Int.le_trans (le_max_left now a.time) hLater,
        fun h => (hStill h).trans (hStays h), ?_, hSeen, hEmpty, hSuffix.trans (List.suffix_cons a coming)⟩
      have hNone : ∀ later_, max now a.time ≤ later_ → a.blank headHandle later_ = none := by
        intro later_ h
        unfold Arrival.blank
        rw [hWhat]
        exact if_neg (by simp [not_fresh_later ((Bool.not_eq_true _).mp hStale) h])
      rw [newest_cons (Int.le_trans hReached hLater), hNone _ hLater, Option.or_none]
      exact hNewest

-- ---------------------------------------------------------------------------
-- How long a wait sleeps
-- ---------------------------------------------------------------------------

/-- Nothing arrives by the deadline of a wait begun at `began` when the first thing
to come does not. -/
theorem none_within {began : Int} (hFirst : ∀ b ∈ coming, a.time ≤ b.time)
    (hLate : ¬a.time ≤ began + kWaitTimeoutNs) :
    ∀ b ∈ a :: coming, ¬b.time ≤ began + kWaitTimeoutNs := by
  intro b hb
  rcases List.mem_cons.mp hb with rfl | hb
  · exact hLate
  · have := hFirst b hb
    omega

/-- The deadline of a wait begun at `began` that has read what came till `now`. -/
theorem within_iff {began : Int} (hBegan : began ≤ now) (hEnds : now ≤ began + kWaitTimeoutNs)
    (hAhead : now = began ∨ ∀ a ∈ coming, now ≤ a.time)
    (hOrder : coming.Pairwise fun a b => a.time ≤ b.time)
    (hEvents : ∀ a ∈ coming, a.isEvent = true) :
    (look headHandle none true timedOut now coming).now ≤ began + kWaitTimeoutNs ↔
      (∃ a ∈ coming, a.time ≤ began + kWaitTimeoutNs ∧
          (a.blank headHandle (max began a.time)).isSome = true) ∨
        now = began ∧ ∀ a ∈ coming, a.time ≤ began + kWaitTimeoutNs → a.time ≤ began := by
  have hSleep : pollTimeout none true = kWaitTimeoutNs := rfl
  induction coming generalizing now with
  | nil =>
    have hEmpty : (look headHandle none true timedOut now []).now = now + kWaitTimeoutNs := rfl
    rw [hEmpty]
    simp only [List.not_mem_nil, false_and, exists_false, false_or, false_imp_iff, implies_true,
      and_true]
    omega
  | cons a coming ih =>
    obtain ⟨hFirst, hRest⟩ := List.pairwise_cons.mp hOrder
    obtain ⟨hEvent, hEventsRest⟩ := List.forall_mem_cons.mp hEvents
    rw [look, hSleep]
    split
    · rename_i hLate
      have hNone := @none_within _ _ began hFirst (by omega)
      have hEmpty : (quiet none true timedOut (now + kWaitTimeoutNs)
          (a :: coming)).now = now + kWaitTimeoutNs := rfl
      rw [hEmpty]
      constructor
      · intro h
        exact Or.inr ⟨by omega, fun b hb h => absurd h (hNone b hb)⟩
      · rintro (⟨b, hb, hIn, -⟩ | ⟨rfl, -⟩)
        · exact absurd hIn (hNone b hb)
        · exact Int.le_refl _
    rename_i hInTime
    have hRead : max began a.time = max now a.time := by
      rcases hAhead with rfl | hAhead
      · rfl
      · have := hAhead a (by simp)
        omega
    have hLater := fun found reporting timedOut hFound =>
      (@look_spec headHandle found reporting timedOut (max now a.time) coming hFound hRest
        hEventsRest)
    simp only
    split
    · rename_i err hWhat
      simp [Arrival.isEvent, hWhat] at hEvent
    rename_i e hWhat
    split
    · rename_i hFresh
      have hBlank : (a.blank headHandle (max began a.time)).isSome = true := by
        unfold Arrival.blank
        rw [hWhat, hRead]
        simp [hFresh]
      rw [(hLater (some (e.dated (max now a.time))) true false (fun _ => ⟨rfl, rfl⟩)).still
        (Or.inl rfl)]
      constructor
      · intro h
        exact Or.inl ⟨a, by simp, Int.le_trans (le_max_right now a.time) h, hBlank⟩
      · intro h
        refine max_le hEnds ?_
        by_contra hLate
        rcases h with ⟨b, hb, hIn, -⟩ | ⟨hStart, -⟩
        · exact none_within hFirst hLate b hb hIn
        · omega
    · rename_i hStale
      have hBlank : (a.blank headHandle (max began a.time)).isSome = false := by
        unfold Arrival.blank
        rw [hWhat, hRead]
        simp [hStale]
      by_cases hReach : a.time ≤ began + kWaitTimeoutNs
      · have hAheadRest : max now a.time = began ∨ ∀ b ∈ coming, max now a.time ≤ b.time := by
          by_cases hNow : max now a.time = began
          · exact Or.inl hNow
          · refine Or.inr fun b hb => max_le ?_ (hFirst b hb)
            rcases hAhead with rfl | hAhead
            · have := hFirst b hb
              omega
            · exact hAhead b (by simp [hb])
        have hTail := ih (Int.le_trans hBegan (le_max_left now a.time)) (max_le hEnds hReach)
          hAheadRest hRest hEventsRest
        refine hTail.trans ?_
        rw [List.exists_mem_cons_iff, List.forall_mem_cons]
        simp only [hBlank, Bool.false_eq_true, and_false, false_or]
        refine or_congr_right ?_
        constructor
        · rintro ⟨hNow, hAll⟩
          exact ⟨by omega, fun _ => by omega, hAll⟩
        · rintro ⟨hNow, hHere, hAll⟩
          exact ⟨le_antisymm (max_le (Int.le_of_eq hNow) (hHere hReach))
            (Int.le_trans hBegan (le_max_left now a.time)), hAll⟩
      · have hNone := none_within hFirst hReach
        constructor
        · intro h
          have := (hLater none true timedOut (fun h => (nomatch h))).later
          omega
        · rintro (⟨b, hb, hIn, -⟩ | ⟨hStart, -⟩)
          · exact absurd hIn (hNone b hb)
          · omega

/-- **When a wait that may sleep is over within one timeout.** -/
theorem timely_iff (hOrder : coming.Pairwise fun a b => a.time ≤ b.time)
    (hEvents : ∀ a ∈ coming, a.isEvent = true) :
    (look headHandle none true timedOut now coming).now - now ≤ kWaitTimeoutNs ↔
      Timely headHandle now coming := by
  have hWithin := @within_iff headHandle timedOut now coming now (Int.le_refl now)
    (Int.le_add_of_nonneg_right (by decide)) (Or.inl rfl) hOrder hEvents
  rw [eq_self, true_and] at hWithin
  unfold Timely
  rw [← hWithin]
  omega

theorem discardQueued_suffix : discardQueued now coming <:+ coming := by
  induction coming with
  | nil => exact List.suffix_rfl
  | cons a coming ih =>
    unfold discardQueued
    split
    · exact List.suffix_rfl
    split
    · exact List.suffix_cons a coming
    · exact ih.trans (List.suffix_cons a coming)

-- ---------------------------------------------------------------------------
-- What every call keeps
-- ---------------------------------------------------------------------------

variable {s s' : TegraVSyncSource} {granted : Bool} {action : Action}

/-- What is kept while the waits are undisturbed: a timeout slept through is the only
one, and no grant is trusted after it. -/
structure Kept (s : TegraVSyncSource) : Prop where
  inOrder : s.coming.Pairwise fun a b => a.time ≤ b.time
  events : ∀ a ∈ s.coming, a.isEvent = true
  once : s.spent = 0 ∨
    s.reporting = false ∧ s.timedOutWhileGranted = true ∧ 0 ≤ s.spent ∧ s.spent ≤ kWaitTimeoutNs

theorem kept_suffix {coming : List Arrival} (hKept : Kept s) (hSuffix : coming <:+ s.coming) :
    coming.Pairwise (fun a b => a.time ≤ b.time) ∧ ∀ a ∈ coming, a.isEvent = true :=
  ⟨hKept.inOrder.sublist hSuffix.sublist, fun a ha => hKept.events a (hSuffix.subset ha)⟩

theorem looked_spec (hKept : Kept s) : Looked s.headHandle none (s.trusts granted)
    s.timedOutWhileGranted s.now s.coming (s.looked granted) :=
  look_spec (fun h => (nomatch h)) hKept.inOrder hKept.events

/-- What a wait that finds no blank leaves. -/
theorem waitForVSync_none (hFound : (s.looked granted).found = none) :
    s.waitForVSync granted = (.error (s.looked granted).err,
      { s with
        now := (s.looked granted).now
        coming := (s.looked granted).coming
        reporting := (s.looked granted).reporting
        timedOutWhileGranted := (s.looked granted).timedOutWhileGranted
        spent := s.spent + ((s.looked granted).now - s.now) }) := by
  unfold waitForVSync
  simp only [hFound]

/-- What a wait that finds one leaves. -/
theorem waitForVSync_some {blank : Int × UInt32} (hFound : (s.looked granted).found = some blank) :
    s.waitForVSync granted = (.ok (s.told blank),
      { s with
        now := (s.looked granted).now
        coming := (s.looked granted).coming
        porchReported := s.porchReported || decide (blank.2 ≠ 0)
        reporting := (s.looked granted).reporting
        timedOutWhileGranted := (s.looked granted).timedOutWhileGranted
        spent := 0 }) := by
  unfold waitForVSync
  simp only [hFound]

/-- A wait worth its timeout has nothing spent before it. -/
theorem spent_of_trusts (hKept : Kept s) (hTrusts : s.trusts granted = true) : s.spent = 0 := by
  rcases hKept.once with hNone | ⟨hSilent, hOut, -⟩
  · exact hNone
  · simp [trusts, hSilent, hOut] at hTrusts

/-- A wait that only looks does not sleep. -/
theorem looked_still (hKept : Kept s) (hTrusts : s.trusts granted = false) :
    (s.looked granted).now = s.now :=
  (looked_spec hKept).still (Or.inr hTrusts)

/-- The timeouts bound what is spent. -/
theorem spent_le (hKept : Kept s) : s.spent ≤ kWaitTimeoutNs := by
  rcases hKept.once with hNone | ⟨-, -, -, hSpent⟩
  · rw [hNone]
    decide
  · exact hSpent

/-- A wait tells of the newest fresh blank queued as it ends, and of none but where
there is none. -/
theorem answer_eq_newest (hKept : Kept s) :
    (s.report granted).answer = (s.report granted).newest := by
  have hFound := (@looked_spec _ granted hKept).newest
  rw [Option.or_none] at hFound
  unfold report
  simp only [← hFound]
  cases hIs : (s.looked granted).found with
  | none =>
    rw [waitForVSync_none hIs]
    rfl
  | some blank =>
    rw [waitForVSync_some hIs]
    rfl

/-- **A wait pays the timeout once** just where it is undisturbed. -/
theorem report_paid_iff (hKept : Kept s) : (s.report granted).Paid ↔
    (s.trusts granted = true → Timely s.headHandle s.now s.coming) := by
  cases hTrusts : s.trusts granted with
  | false =>
    have hStill := looked_still hKept hTrusts
    have hSlept : (s.report granted).slept = 0 := by
      unfold report
      rw [hStill]
      exact Int.sub_self _
    have hTogether : (s.report granted).together = s.spent := by
      unfold report
      rw [hStill]
      simp
    refine iff_of_true ⟨fun _ => ?_, ?_, answer_eq_newest hKept⟩ (fun h => (nomatch h))
    · rw [hSlept]
      decide
    · rw [hTogether]
      exact spent_le hKept
  | true =>
    have hTogether : (s.report granted).together = (s.report granted).slept := by
      unfold report
      rw [spent_of_trusts hKept hTrusts]
      exact Int.zero_add _
    have hTimely : (s.report granted).slept ≤ kWaitTimeoutNs ↔
        Timely s.headHandle s.now s.coming := by
      unfold report looked
      rw [hTrusts]
      exact timely_iff hKept.inOrder hKept.events
    rw [← hTimely]
    exact ⟨fun h _ => hTogether ▸ h.together, fun hUndisturbed =>
      have h := hUndisturbed rfl
      ⟨fun _ => h, hTogether.symm ▸ h, answer_eq_newest hKept⟩⟩

theorem kept_later {pause : Nat} (hKept : Kept s) : Kept (s.later pause) :=
  ⟨hKept.inOrder, hKept.events, hKept.once⟩

theorem kept_stop (hKept : Kept s) : Kept s.stop := by
  obtain ⟨hOrder, hEvents⟩ := kept_suffix hKept (@discardQueued_suffix s.now _)
  refine ⟨hOrder, hEvents, ?_⟩
  rcases hKept.once with hNone | ⟨-, hOut, hSpent⟩
  · exact Or.inl hNone
  · exact Or.inr ⟨rfl, hOut, hSpent⟩

/-- **A wait that is undisturbed** leaves no grant to be trusted once it has slept. -/
theorem kept_waitForVSync (hKept : Kept s)
    (hTimely : s.trusts granted = true → Timely s.headHandle s.now s.coming) :
    Kept (s.waitForVSync granted).2 := by
  have hPaid := (report_paid_iff hKept).mpr hTimely
  obtain ⟨hLater, -, -, hSeen, hEmpty, hSuffix⟩ := @looked_spec _ granted hKept
  obtain ⟨hOrder, hEvents⟩ := kept_suffix hKept hSuffix
  cases hFound : (s.looked granted).found with
  | some blank =>
    rw [waitForVSync_some hFound]
    exact ⟨hOrder, hEvents, Or.inl rfl⟩
  | none =>
    obtain ⟨hSilent, hOut⟩ := hEmpty hFound
    rw [waitForVSync_none hFound]
    refine ⟨hOrder, hEvents, ?_⟩
    cases hTrusts : s.trusts granted with
    | false =>
      have hSame : s.spent + ((s.looked granted).now - s.now) = s.spent := by
        rw [looked_still hKept hTrusts]
        omega
      simp only [hSame]
      rcases hKept.once with hNone | ⟨-, hAlready, hSpent⟩
      · exact Or.inl hNone
      · exact Or.inr ⟨hSilent, by simp [hOut, hAlready], hSpent⟩
    | true =>
      refine Or.inr ⟨hSilent, by simp [hOut, hTrusts], ?_, hPaid.together⟩
      have := spent_of_trusts hKept hTrusts
      simp only
      omega

theorem kept_step (hKept : Kept s) (hMeets : s.Undisturbed action)
    (hStep : machine.step s action = some s') : Kept s' := by
  obtain ⟨pause, op⟩ := action
  obtain rfl := Option.some.inj hStep
  cases op with
  | waitForVSync granted => exact kept_waitForVSync (kept_later hKept) hMeets
  | stop => exact kept_stop (kept_later hKept)

theorem paid_iff (hKept : Kept s) :
    (∀ r ∈ machine.events s action, r.Paid) ↔ s.Undisturbed action := by
  obtain ⟨pause, op⟩ := action
  cases op with
  | waitForVSync granted =>
    exact List.forall_mem_singleton.trans (report_paid_iff (kept_later hKept))
  | stop => exact iff_of_true (fun _ h => (nomatch h)) trivial

/-- **The timeout is paid once** in a run of waits and stops, whatever comes out of
the node, just where each wait that may sleep has its answer within one timeout, or
nothing at all arrives in it. -/
theorem paid_once_iff (headHandle : UInt32) (native : NativeMode) (stream : Stream)
    (actions : List Action) :
    (∀ r ∈ machine.trace ⟨headHandle, native, 0, stream.arrivals, false, false, false, 0⟩ actions,
        r.Paid) ↔
      machine.Meets Undisturbed ⟨headHandle, native, 0, stream.arrivals, false, false, false, 0⟩
        actions :=
  Machine.trace_iff_meets_of_total (I := Kept) (fun _ _ => ⟨_, rfl⟩)
    (fun _ _ _ hKept hMeets hStep => kept_step hKept hMeets hStep) (fun _ _ => paid_iff)
    ⟨stream.inOrder, stream.events, Or.inl rfl⟩ actions

/-- A node that has two events of another head's, 100 ms apart, and nothing else. -/
def otherHead : Stream where
  arrivals := [⟨100000000, .ok { type := .vBlank, handle := 1 }⟩,
    ⟨200000000, .ok { type := .vBlank, handle := 1 }⟩]
  inOrder := by decide
  events := by decide

/-- A panel of 1200 by 1920 at 60 Hz. -/
def panel : NativeMode where
  clock := 154200
  vdisplay := 1920
  vsyncStart := 1926
  vtotal := 1945
  htotal := 1322

/-- A wait of 366 ms, with no blank seen. -/
theorem timeout_paid_anew :
    ¬∀ r ∈ machine.trace ⟨0, panel, 0, otherHead.arrivals, false, false, false, 0⟩
        [⟨0, .waitForVSync true⟩],
      r.answer = none → r.slept ≤ kWaitTimeoutNs := by
  decide

end TegraVSyncSource

end TegraHwc
