import Mathlib.Algebra.Order.Ring.Int
import TegraHwc.Display.VSyncWorker

/-!
# TegraHwc — the rate the framework was told, and the rate the panel runs at

A config of the panel is its own timing or the same with the porch stretched
(`tegra/TegraConnector.h`). `hwc/HwcDisplay.cpp` keeps which config is in force and
which is staged, `tegra/TegraAtomicStateManager.cpp` which porch it last asked for, the
head which porch it runs, and the vsync worker which period it tells. A change goes
through all four, by a mode set or with a frame, and any of its calls may fail; blanking
takes the head's porch away.

What the kernel answers comes with each call. A mode set may carry no composition: no
plane took the picture it was to show.

## Results

* `slowed_spec`      — the slow rate is the same timing with the longer porch.
* `execute_asked`    — what a commit leaves asked of the head.
* `setConfig_bare`   — a mode set without a picture is answered as made, and asks the
  head for nothing.
* `panel_runs_as_told` — in every run whose mode sets carry a picture, a lit panel runs
  the config in force, and the period told is its period, or becomes it.
-/

namespace TegraHwc

open Runs

-- ---------------------------------------------------------------------------
-- The panel's two rates
-- ---------------------------------------------------------------------------

/-- `drmModeModeInfo`, as far as a rate goes. -/
structure PanelMode where
  vdisplay : Nat
  vsyncStart : Nat
  vsyncEnd : Nat
  vtotal : Nat
  htotal : Nat := 0
  clock : Nat := 0
  vrefresh : Nat := 0
  deriving DecidableEq, Repr

namespace PanelMode

/-- `kSlowVfp`. -/
def kSlowVfp : Nat := 2086

/-- A difference of two lines, as a word. -/
def lines (later earlier : Nat) : Nat := (later + 2 ^ 32 - earlier) % 2 ^ 32

/-- The vertical front porch. -/
def vfp (mode : PanelMode) : Nat := lines mode.vsyncStart mode.vdisplay

/-- `porchFor`. -/
def porchFor (mode native : PanelMode) : Nat :=
  if mode.vfp = native.vfp then 0 else mode.vfp

/-- `slowed`. -/
def slowed (native : PanelMode) : PanelMode :=
  let pulse := lines native.vsyncEnd native.vsyncStart
  let back := lines native.vtotal native.vsyncEnd
  let vsyncStart := (native.vdisplay + kSlowVfp) % 2 ^ 16
  let vsyncEnd := (vsyncStart + pulse) % 2 ^ 16
  let vtotal := (vsyncEnd + back) % 2 ^ 16
  let pixels := native.htotal * vtotal
  { native with
    vsyncStart
    vsyncEnd
    vtotal
    vrefresh :=
      if native.clock ≠ 0 ∧ pixels ≠ 0 then (native.clock * 1000 + pixels / 2) / pixels
      else native.vrefresh / 2 }

/-- A timing with its lines in order, and room for the stretch. -/
structure Ordered (mode : PanelMode) : Prop where
  start : mode.vdisplay ≤ mode.vsyncStart
  pulse : mode.vsyncStart ≤ mode.vsyncEnd
  back : mode.vsyncEnd ≤ mode.vtotal
  word : mode.vtotal < 2 ^ 16
  room : mode.vdisplay + kSlowVfp + (mode.vtotal - mode.vsyncStart) < 2 ^ 16

/-- **The slow rate is the same timing with the longer porch**: the pulse, the back
porch, the lines shown and the clock are the panel's own. -/
theorem slowed_spec {native : PanelMode} (h : native.Ordered) :
    (slowed native).vfp = kSlowVfp ∧
      (slowed native).vsyncEnd - (slowed native).vsyncStart = native.vsyncEnd - native.vsyncStart ∧
        (slowed native).vtotal - (slowed native).vsyncEnd = native.vtotal - native.vsyncEnd ∧
          native.vfp + (slowed native).vtotal = native.vtotal + kSlowVfp := by
  obtain ⟨hStart, hPulse, hBack, hWord, hRoom⟩ := h
  have hLines : ∀ later earlier : Nat, earlier ≤ later → later < 2 ^ 16 →
      lines later earlier = later - earlier := by
    intro later earlier hLess hShort
    unfold lines
    omega
  have hSlow : kSlowVfp = 2086 := rfl
  have hStretched : (native.vdisplay + kSlowVfp) % 2 ^ 16 = native.vdisplay + kSlowVfp := by
    omega
  have hPorch : native.vfp = native.vsyncStart - native.vdisplay :=
    hLines _ _ hStart (by omega)
  have hPulseLines := hLines native.vsyncEnd native.vsyncStart hPulse (by omega)
  have hBackLines := hLines native.vtotal native.vsyncEnd hBack (by omega)
  have hLonger := hLines (native.vdisplay + kSlowVfp) native.vdisplay (by omega) (by omega)
  simp only [vfp, slowed, hPulseLines, hBackLines, hStretched, hLonger] at hPorch ⊢
  omega

end PanelMode

-- ---------------------------------------------------------------------------
-- The manager and the head
-- ---------------------------------------------------------------------------

/-- What the kernel and the planes answer a commit: a plane took the picture, a request
was made of it, the panel was blanked or lit as asked, the frame flipped, and the head
took the porch asked as it was lit, and the one asked with the frame. -/
structure Answers where
  pictured : Bool := true
  made : Bool := true
  powered : Bool := true
  flipped : Bool := true
  takenLit : Bool := true
  taken : Bool := true
  deriving DecidableEq, Repr

/-- `TegraAtomicStateManager`, as far as the rate goes, and the porch its head runs. -/
structure RateManager where
  active : Bool := true
  porch : Nat := 0
  vfp : Nat := 0
  deriving DecidableEq, Repr

namespace RateManager

/-- `setActiveVfp`. -/
def setActiveVfp (m : RateManager) (taken : Bool) (vfp : Nat) : RateManager :=
  if taken then { m with vfp } else m

/-- `SetPowered`: blanking puts the panel's own porch back. -/
def setPowered (m : RateManager) (powered : Bool) (a : Answers) : Bool × RateManager :=
  if m.active = powered ∧ powered = false then (true, m)
  else if !a.powered then (false, m)
  else
    let m := { m with active := powered, vfp := if powered then m.vfp else 0 }
    (true, if powered && decide (m.porch ≠ 0) then m.setActiveVfp a.takenLit m.porch else m)

/-- The rate, with the frame that carried it. -/
def setRate (m : RateManager) (native : PanelMode) (a : Answers) : Option PanelMode → RateManager
  | none => m
  | some mode =>
    { m with porch := mode.porchFor native }.setActiveVfp a.taken (mode.porchFor native)

/-- `Execute`: the panel is lit first; a commit of no frame ends there. -/
def execute (m : RateManager) (native : PanelMode) (powerMode : Option Bool) (composed : Bool)
    (mode : Option PanelMode) (a : Answers) : Bool × RateManager :=
  let (lit, m) := if powerMode = some true then m.setPowered true a else (true, m)
  if !lit then (false, m)
  else if !composed then
    if powerMode = some false then m.setPowered false a else (true, m)
  else if !a.flipped then (false, m)
  else (true, m.setRate native a mode)

end RateManager

-- ---------------------------------------------------------------------------
-- The display
-- ---------------------------------------------------------------------------

/-- `HwcDisplayConfig`, as far as the rate goes. -/
structure RateMode where
  groupId : Nat
  mode : PanelMode
  deriving DecidableEq, Repr

/-- What is fixed of a display: the panel's own timing, whether the kernel stretches its
porch, and the configs made of its modes. -/
structure RateConfig where
  native : PanelMode
  stretchable : Bool
  periodNs : PanelMode → Nat
  getConfig : Nat → Option RateMode
  fromModes : ∀ id m, getConfig id = some m →
    m.mode = native ∨ stretchable = true ∧ m.mode = native.slowed
  period : ∀ id m, getConfig id = some m → 0 < periodNs m.mode

/-- `modes_`. -/
def RateConfig.modes (c : RateConfig) : List PanelMode :=
  c.native :: if c.stretchable then [c.native.slowed] else []

/-- A config as its worker knows it. -/
def RateConfig.vsyncMode (c : RateConfig) (m : RateMode) : VSyncMode where
  groupId := m.groupId
  periodNs := c.periodNs m.mode

/-- The stretches of a call, one after another. -/
def VSyncWorker.does (w : VSyncWorker) (todo : List Critical) : VSyncWorker :=
  todo.foldl enter w

/-- `HwcDisplay`, as far as the rate goes, over its manager and its worker. -/
structure RateDisplay where
  activeConfigId : Nat
  staged : Option (Nat × Int) := none
  manager : RateManager := {}
  worker : VSyncWorker := {}
  deriving DecidableEq, Repr

/-- What is asked of a display: a config for now, one for later, a frame, light, or to
be told of the blanks; and a blank. -/
inductive RateCall where
  | setConfig (config : Nat) (a : Answers)
  | queueConfig (config : Nat) (changeTime : Int) (fenceTime : Option Int)
  | present (now : Int) (a : Answers)
  | setPowerMode (on : Bool) (a : Answers)
  | setVsyncCallbacksEnabled (enabled : Bool)
  | blank (timestamp ranPeriodNs : Int)
  deriving DecidableEq, Repr

namespace RateDisplay

variable (c : RateConfig)

/-- `ExecuteAtomicCommit`: a request for a mode the panel does not run is not made. -/
def commit (s : RateDisplay) (powerMode : Option Bool) (composed : Bool) (mode : Option PanelMode)
    (a : Answers) : Bool × RateDisplay :=
  if mode.any fun wanted => !decide (wanted ∈ c.modes) then (false, s)
  else if !a.made then (false, s)
  else
    let (done, manager) := s.manager.execute c.native powerMode composed mode a
    (done, { s with manager })

/-- `SetConfig`. -/
def setConfig (s : RateDisplay) (config : Nat) (a : Answers) : Bool × RateDisplay :=
  match c.getConfig config with
  | none => (false, s)
  | some new =>
    let (done, s) := s.commit c (some true) a.pictured (some new.mode) a
    if !done then (false, s)
    else
      (true,
        { s with
          activeConfigId := config
          staged := none
          worker := s.worker.does [.setVsyncPeriodNs (c.periodNs new.mode)] })

/-- `QueueConfig`: a change within the group is staged for its time. -/
def queueConfig (s : RateDisplay) (config : Nat) (changeTime : Int) (fenceTime : Option Int) :
    RateDisplay :=
  match c.getConfig config, c.getConfig s.activeConfigId with
  | some new, some current =>
    if current.groupId ≠ new.groupId then s
    else
      { s with
        staged := some (config, changeTime)
        worker := s.worker.does
          (.getNextVsyncTimestamp fenceTime :: VSyncDisplay.setVsyncTimestampTracking true) }
  | _, _ => s

/-- `GetLastRequestedConfig`, by its id. -/
def lastRequested (s : RateDisplay) : Nat := (s.staged.map Prod.fst).getD s.activeConfigId

/-- The config a frame carries: the one staged, once it is due. -/
def dueConfig (s : RateDisplay) (now : Int) : Option Nat :=
  (s.staged.filter fun change => decide (change.2 ≤ now)).map Prod.fst

/-- `CommitStagedComposition` of a frame with layers: with it goes the change that is
due. -/
def present (s : RateDisplay) (now : Int) (a : Answers) : Bool × RateDisplay :=
  match s.dueConfig now with
  | none => s.commit c none true none a
  | some config =>
    match c.getConfig config with
    | none => (false, s)
    | some new =>
      let (done, s) := s.commit c none true (some new.mode) a
      if !done then (false, s)
      else
        (true,
          { s with
            activeConfigId := config
            staged := none
            worker := s.worker.does (VSyncDisplay.applyCommitChanges (c.vsyncMode new) true) })

/-- `SetPowerMode`: a head that is not active is configured before it is lit. -/
def setPowerMode (s : RateDisplay) (on : Bool) (a : Answers) : Bool × RateDisplay :=
  let (configured, s) :=
    if on && !s.manager.active && (c.getConfig s.lastRequested).isSome then
      s.setConfig c s.lastRequested a
    else (true, s)
  if !configured then (false, s)
  else
    let (done, s) := s.commit c (some on) false none a
    if !done && !on then (false, s)
    else (true, { s with worker := s.worker.does [.setDisplayOn on, .updateVSyncControl] })

/-- A call, or a blank the worker reads. -/
def step (s : RateDisplay) : RateCall → Option RateDisplay
  | .setConfig config a => some (s.setConfig c config a).2
  | .queueConfig config changeTime fenceTime =>
    some (s.queueConfig c config changeTime fenceTime)
  | .present now a => some (s.present c now a).2
  | .setPowerMode on a => some (s.setPowerMode c on a).2
  | .setVsyncCallbacksEnabled enabled =>
    some
      { s with worker := s.worker.does [.setTimestampCallback enabled, .updateVSyncControl] }
  | .blank timestamp ranPeriodNs =>
    some { s with worker := s.worker.takeBlank timestamp ranPeriodNs }

/-- The display and its callers. -/
def machine : Machine RateDisplay RateCall Unit where
  step := step c
  events := fun _ _ => []

end RateDisplay

-- ---------------------------------------------------------------------------
-- What the head is left asked
-- ---------------------------------------------------------------------------

namespace RateManager

variable {m : RateManager} {native : PanelMode} {a : Answers}

/-- The head runs the porch last asked for; in the dark it may run the panel's own. -/
def Runs (m : RateManager) : Prop := m.vfp = m.porch ∨ m.active = false ∧ m.vfp = 0

theorem Runs.lit (h : m.Runs) (hActive : m.active = true) : m.vfp = m.porch := by
  obtain hSame | ⟨hDark, -⟩ := h
  · exact hSame
  · rw [hActive] at hDark
    cases hDark

/-- A panel lit or darkened runs what was asked of it before. -/
theorem setPowered_runs (h : m.Runs) (powered : Bool) (hTakes : a.takenLit = true ∨ m.porch = 0) :
    (m.setPowered powered a).2.porch = m.porch ∧ (m.setPowered powered a).2.Runs := by
  unfold setPowered
  split
  · exact ⟨rfl, h⟩
  split
  · exact ⟨rfl, h⟩
  by_cases hPorch : m.porch = 0
  · have hOwn : m.vfp = 0 := by
      obtain hSame | ⟨-, hOwn⟩ := h
      · exact hSame.trans hPorch
      · exact hOwn
    simp only [hPorch, ne_eq, not_true_eq_false, decide_false, Bool.and_false, Bool.false_eq_true,
      if_false]
    refine ⟨trivial, .inl ?_⟩
    show (if powered = true then m.vfp else 0) = 0
    rw [hOwn, ite_self]
  · have hTaken : a.takenLit = true := hTakes.resolve_right hPorch
    cases powered with
    | true =>
      simp only [setActiveVfp, hTaken, hPorch, ne_eq, not_false_eq_true, decide_true, Bool.and_self,
        if_true]
      exact ⟨trivial, .inl rfl⟩
    | false =>
      simp only [Bool.false_and, Bool.false_eq_true, if_false]
      exact ⟨trivial, .inr ⟨rfl, rfl⟩⟩

/-- A rate that goes up with a frame is what the head runs. -/
theorem setRate_runs (h : m.Runs) (mode : Option PanelMode)
    (hTakes : a.taken = true ∨ m.porch = 0 ∧ ∀ wanted, mode = some wanted →
      wanted.porchFor native = 0) :
    (m.setRate native a mode).porch = (mode.map fun wanted => wanted.porchFor native).getD m.porch ∧
      (m.setRate native a mode).Runs := by
  cases mode with
  | none => exact ⟨rfl, h⟩
  | some wanted =>
    have hAsked : a.taken = true ∨ m.porch = 0 ∧ wanted.porchFor native = 0 :=
      hTakes.imp_right fun hOwn => ⟨hOwn.1, hOwn.2 wanted rfl⟩
    rw [setRate, Option.map_some, Option.getD_some]
    generalize wanted.porchFor native = porch at hAsked ⊢
    unfold setActiveVfp
    by_cases hTaken : a.taken = true
    · rw [if_pos hTaken]
      exact ⟨rfl, .inl rfl⟩
    · rw [if_neg hTaken]
      obtain ⟨hOwn, hNone⟩ := hAsked.resolve_left hTaken
      refine ⟨rfl, ?_⟩
      obtain hSame | hDark := h
      · exact .inl (hSame.trans (hOwn.trans hNone.symm))
      · exact .inr hDark

/-- **What a commit leaves asked of the head**: the rate its frame carried, if it put
one up; and that is what the head runs. -/
theorem execute_asked (h : m.Runs) (powerMode : Option Bool) (composed : Bool)
    (mode : Option PanelMode)
    (hTakes : (a.takenLit = true ∧ a.taken = true) ∨ m.porch = 0 ∧ ∀ wanted, mode = some wanted →
      wanted.porchFor native = 0) :
    (m.execute native powerMode composed mode a).2.Runs ∧
      (m.execute native powerMode composed mode a).2.porch =
        if (m.execute native powerMode composed mode a).1 = true ∧ composed = true then
          (mode.map fun wanted => wanted.porchFor native).getD m.porch
        else m.porch := by
  have hLitTakes : a.takenLit = true ∨ m.porch = 0 := hTakes.imp And.left And.left
  obtain ⟨lit, m', hLit, hPorch, hRuns⟩ : ∃ lit m',
      (if powerMode = some true then m.setPowered true a else (true, m)) = (lit, m') ∧
        m'.porch = m.porch ∧ m'.Runs := by
    by_cases hOn : powerMode = some true
    · exact ⟨_, _, if_pos hOn, setPowered_runs h true hLitTakes⟩
    · exact ⟨_, _, if_neg hOn, rfl, h⟩
  unfold execute
  simp only [hLit]
  cases lit with
  | false => exact ⟨hRuns, hPorch⟩
  | true =>
    cases composed with
    | false =>
      simp only [Bool.not_true, Bool.not_false, Bool.false_eq_true, if_false, if_true, and_false]
      split
      · rw [← hPorch] at hLitTakes ⊢
        exact (setPowered_runs hRuns false hLitTakes).symm
      · exact ⟨hRuns, hPorch⟩
    | true =>
      cases hFlipped : a.flipped with
      | false => exact ⟨hRuns, hPorch⟩
      | true =>
        simp only [Bool.not_true, Bool.false_eq_true, if_false, and_self, if_true]
        rw [← hPorch] at hTakes ⊢
        exact (setRate_runs hRuns mode (hTakes.imp_left And.right)).symm

end RateManager

-- ---------------------------------------------------------------------------
-- What is kept of the rates
-- ---------------------------------------------------------------------------

/-- A stretch that sets the period told, or the one expected. -/
def Critical.namesPeriod : Critical → Bool
  | .setVsyncPeriodNs _ => true
  | .expectVsyncPeriodNs _ => true
  | _ => false

/-- The period a worker tells, or is to tell. -/
def VSyncWorker.target (w : VSyncWorker) : Nat :=
  if w.expectedPeriodNs = 0 then w.vsyncPeriodNs else w.expectedPeriodNs

namespace VSyncWorker

theorem target_set (w : VSyncWorker) (period : Nat) :
    (w.does [.setVsyncPeriodNs period]).target = period := by
  simp [does, enter, target]

theorem target_expect (w : VSyncWorker) {period : Nat} (hPeriod : 0 < period) :
    (w.enter (.expectVsyncPeriodNs period)).target = period := by
  by_cases hSame : period = w.vsyncPeriodNs
  · simp [enter, target, hSame]
  · simp [enter, target, hSame, Nat.pos_iff_ne_zero.mp hPeriod]

/-- A change applied is expected, whatever was told before. -/
theorem target_applied (w : VSyncWorker) (mode : VSyncMode) (hPeriod : 0 < mode.periodNs) :
    (w.does (VSyncDisplay.applyCommitChanges mode true)).target = mode.periodNs :=
  target_expect _ hPeriod

/-- A stretch that names no period moves none. -/
theorem target_enter (w : VSyncWorker) {critical : Critical}
    (hNone : critical.namesPeriod = false) : (w.enter critical).target = w.target := by
  cases critical with
  | setVsyncPeriodNs period => cases hNone
  | expectVsyncPeriodNs period => cases hNone
  | getNextVsyncTimestamp fenceTime =>
    show (w.updateLastVsyncTimeWithPresentTime fenceTime).target = w.target
    unfold updateLastVsyncTimeWithPresentTime
    split
    · rfl
    · generalize (if w.lastPresentFence = true then fenceTime else none) = fence
      simp only
      split
      · rfl
      · rfl
  | _ => rfl

/-- Nor does a call of such stretches. -/
theorem target_does (w : VSyncWorker) (todo : List Critical)
    (hNone : ∀ critical ∈ todo, critical.namesPeriod = false) :
    (w.does todo).target = w.target := by
  induction todo generalizing w with
  | nil => rfl
  | cons critical todo ih =>
    obtain ⟨hHead, hTail⟩ := List.forall_mem_cons.mp hNone
    exact (ih (w.enter critical) hTail).trans (target_enter w hHead)

/-- A blank may move the period told to the one expected, and no further. -/
theorem target_takeBlank (w : VSyncWorker) (timestamp ranPeriodNs : Int) :
    (w.takeBlank timestamp ranPeriodNs).target = w.target := by
  unfold takeBlank
  split
  · by_cases hTook : (decide (w.expectedPeriodNs ≠ 0) && w.tookHold timestamp ranPeriodNs) = true
    · have hPending : w.expectedPeriodNs ≠ 0 := by
        rw [Bool.and_eq_true, decide_eq_true_iff] at hTook
        exact hTook.1
      simp only [target, hTook, if_true, if_neg hPending]
    · simp only [target, hTook, Bool.false_eq_true, if_false]
  · rfl

end VSyncWorker

namespace RateConfig

variable (c : RateConfig)

/-- The porch a config's rate asks for. -/
def porchOf (m : RateMode) : Nat := m.mode.porchFor c.native

theorem porchFor_native (native : PanelMode) : native.porchFor native = 0 := if_pos rfl

/-- A kernel that stretches no porch is asked for none. -/
theorem porchOf_unstretched {c : RateConfig} (hNot : c.stretchable = false) {id : Nat}
    {m : RateMode} (hConfig : c.getConfig id = some m) : c.porchOf m = 0 := by
  obtain hOwn | ⟨hStretch, -⟩ := c.fromModes id m hConfig
  · rw [porchOf, hOwn, porchFor_native]
  · rw [hNot] at hStretch
    cases hStretch

/-- Every config is of a mode the panel runs. -/
theorem mem_modes {c : RateConfig} {id : Nat} {m : RateMode}
    (hConfig : c.getConfig id = some m) : m.mode ∈ c.modes := by
  unfold modes
  obtain hOwn | ⟨hStretch, hSlow⟩ := c.fromModes id m hConfig
  · rw [hOwn]
    exact List.mem_cons_self
  · rw [hSlow, if_pos hStretch]
    exact List.mem_cons_of_mem _ List.mem_cons_self

end RateConfig

namespace RateDisplay

variable {c : RateConfig} {s s' : RateDisplay} {a : Answers}

/-- What holds while every rate asked of the head is taken: the head runs the config in
force, its period is told or about to be, and a change staged is within its group. -/
structure Told (c : RateConfig) (s : RateDisplay) : Prop where
  inForce : ∃ current, c.getConfig s.activeConfigId = some current ∧
    s.manager.porch = c.porchOf current ∧ s.worker.target = c.periodNs current.mode ∧
      ∀ change, s.staged = some change → ∃ new, c.getConfig change.1 = some new ∧
        new.groupId = current.groupId
  runs : s.manager.Runs

/-- A head that stretches its porch takes the one it is asked for. -/
def Takes (c : RateConfig) (a : Answers) : Prop :=
  c.stretchable = true → a.takenLit = true ∧ a.taken = true

/-- A call whose rates the head takes; and a mode set finds a plane for its picture. -/
def Answered (c : RateConfig) : RateCall → Prop
  | .setConfig _ a => a.pictured = true ∧ Takes c a
  | .setPowerMode _ a => a.pictured = true ∧ Takes c a
  | .present _ a => Takes c a
  | _ => True

/-- What a commit may do: nothing, or what the manager makes of it. -/
theorem commit_cases (powerMode : Option Bool) (composed : Bool) (mode : Option PanelMode) :
    s.commit c powerMode composed mode a = (false, s) ∨
      s.commit c powerMode composed mode a =
        ((s.manager.execute c.native powerMode composed mode a).1,
          { s with manager := (s.manager.execute c.native powerMode composed mode a).2 }) := by
  unfold commit
  split
  · exact .inl rfl
  split
  · exact .inl rfl
  · exact .inr rfl

/-- What a commit leaves: the manager as it was asked, or with the rate of the frame that
went up. -/
theorem commit_spec (hRuns : s.manager.Runs) (powerMode : Option Bool) (composed : Bool)
    {mode : Option PanelMode}
    (hTakes : (a.takenLit = true ∧ a.taken = true) ∨ s.manager.porch = 0 ∧
      ∀ wanted : PanelMode, mode = some wanted → wanted.porchFor c.native = 0) :
    ∃ done manager, s.commit c powerMode composed mode a = (done, { s with manager }) ∧
      manager.Runs ∧
        (done = true → composed = true → ∀ wanted, mode = some wanted →
          manager.porch = wanted.porchFor c.native) ∧
          ((done = false ∨ composed = false ∨ mode = none) → manager.porch = s.manager.porch) := by
  rcases commit_cases (c := c) (s := s) (a := a) powerMode composed mode with hEq | hEq
  · refine ⟨false, s.manager, hEq, hRuns, ?_, fun _ => rfl⟩
    intro hDone
    cases hDone
  · obtain ⟨hNext, hPorch⟩ := RateManager.execute_asked hRuns powerMode composed mode hTakes
    refine ⟨_, _, hEq, hNext, fun hDone hComposed wanted hMode => ?_, fun hNot => ?_⟩
    · rw [hPorch, if_pos ⟨hDone, hComposed⟩, hMode, Option.map_some, Option.getD_some]
    · rw [hPorch]
      obtain hFailed | hBare | hNone := hNot
      · rw [if_neg fun hBoth => absurd (hFailed.symm.trans hBoth.1) Bool.false_ne_true]
      · rw [if_neg fun hBoth => absurd (hBare.symm.trans hBoth.2) Bool.false_ne_true]
      · rw [hNone, Option.map_none, Option.getD_none, ite_self]

/-- What a mode set may do: there is no such config, the commit fails, or the config is
in force. -/
theorem setConfig_cases (config : Nat) :
    (c.getConfig config = none ∧ s.setConfig c config a = (false, s)) ∨
      ∃ new done t, c.getConfig config = some new ∧
        s.commit c (some true) a.pictured (some new.mode) a = (done, t) ∧
          s.setConfig c config a = (done, if done then
            { t with
              activeConfigId := config
              staged := none
              worker := t.worker.does [.setVsyncPeriodNs (c.periodNs new.mode)] }
            else t) := by
  unfold setConfig
  cases hConfig : c.getConfig config with
  | none => exact .inl ⟨rfl, rfl⟩
  | some new =>
    rcases hCommit : s.commit c (some true) a.pictured (some new.mode) a with ⟨done, t⟩
    refine .inr ⟨new, done, t, rfl, hCommit, ?_⟩
    simp only [hCommit]
    cases done with
    | false => rfl
    | true => rfl

/-- What a frame may do: no change is due, the one due is of no config, the commit fails,
or the change is made. -/
theorem present_cases (now : Int) :
    (s.dueConfig now = none ∧ s.present c now a = s.commit c none true none a) ∨
      s.present c now a = (false, s) ∨
        ∃ config new done t, s.dueConfig now = some config ∧ c.getConfig config = some new ∧
          s.commit c none true (some new.mode) a = (done, t) ∧
            s.present c now a = (done, if done then
              { t with
                activeConfigId := config
                staged := none
                worker := t.worker.does (VSyncDisplay.applyCommitChanges (c.vsyncMode new) true) }
              else t) := by
  unfold present
  cases hDue : s.dueConfig now with
  | none => exact .inl ⟨rfl, rfl⟩
  | some config =>
    cases hConfig : c.getConfig config with
    | none =>
      refine .inr (.inl ?_)
      simp only [hConfig]
    | some new =>
      rcases hCommit : s.commit c none true (some new.mode) a with ⟨done, t⟩
      refine .inr (.inr ⟨config, new, done, t, rfl, hConfig, hCommit, ?_⟩)
      simp only [hConfig, hCommit]
      cases done with
      | false => rfl
      | true => rfl

/-- What a head is asked that takes it, or that is asked for nothing. -/
theorem takes_of (hTakes : Takes c a) (hTold : Told c s) {id : Nat} {new : RateMode}
    (hConfig : c.getConfig id = some new) :
    (a.takenLit = true ∧ a.taken = true) ∨ s.manager.porch = 0 ∧
      ∀ wanted : PanelMode, some new.mode = some wanted → wanted.porchFor c.native = 0 := by
  cases hStretch : c.stretchable with
  | true => exact .inl (hTakes hStretch)
  | false =>
    obtain ⟨current, hCurrent, hPorch, -⟩ := hTold.inForce
    refine .inr ⟨hPorch.trans (RateConfig.porchOf_unstretched hStretch hCurrent), ?_⟩
    intro wanted hWanted
    obtain rfl := Option.some.inj hWanted
    exact RateConfig.porchOf_unstretched hStretch hConfig

/-- The same, of a commit that carries no rate. -/
theorem takes_none (hTakes : Takes c a) (hTold : Told c s) :
    (a.takenLit = true ∧ a.taken = true) ∨ s.manager.porch = 0 ∧
      ∀ wanted : PanelMode, none = some wanted → wanted.porchFor c.native = 0 := by
  obtain ⟨current, hCurrent, -⟩ := hTold.inForce
  refine (takes_of hTakes hTold hCurrent).imp_right fun hOwn => ⟨hOwn.1, ?_⟩
  intro wanted hNone
  cases hNone

/-- A commit that changes no rate changes nothing that was told. -/
theorem Told.commit_kept (h : Told c s) {manager : RateManager} (hRuns : manager.Runs)
    (hPorch : manager.porch = s.manager.porch) : Told c { s with manager } where
  inForce := by
    obtain ⟨current, hCurrent, hAsked, hRest⟩ := h.inForce
    exact ⟨current, hCurrent, hPorch.trans hAsked, hRest⟩
  runs := hRuns

/-- A worker that names no other period was told nothing else. -/
theorem Told.worker_kept (h : Told c s) {worker : VSyncWorker}
    (hTarget : worker.target = s.worker.target) : Told c { s with worker } where
  inForce := by
    obtain ⟨current, hCurrent, hAsked, hPeriod, hStaged⟩ := h.inForce
    exact ⟨current, hCurrent, hAsked, hTarget.trans hPeriod, hStaged⟩
  runs := h.runs

/-- **A mode set that carries its picture**, answered as made, has its config in force. -/
theorem setConfig_inForce (hRuns : s.manager.Runs) {config : Nat} (hPictured : a.pictured = true)
    (hTakes : ∀ new, c.getConfig config = some new → (a.takenLit = true ∧ a.taken = true) ∨
      s.manager.porch = 0 ∧
        ∀ wanted : PanelMode, some new.mode = some wanted → wanted.porchFor c.native = 0)
    (hDone : (s.setConfig c config a).1 = true) : Told c (s.setConfig c config a).2 := by
  rcases setConfig_cases (c := c) (s := s) (a := a) config with ⟨-, hEq⟩ |
    ⟨new, done, t, hConfig, hCommit, hEq⟩
  · rw [hEq] at hDone
    cases hDone
  · obtain ⟨done', manager, hAfter, hNext, hCarried, -⟩ := commit_spec (c := c) (a := a) hRuns
      (some true) a.pictured (hTakes new hConfig)
    obtain ⟨rfl, rfl⟩ := Prod.mk.inj (hCommit.symm.trans hAfter)
    rw [hEq] at hDone ⊢
    obtain rfl : done = true := hDone
    refine ⟨⟨new, hConfig, hCarried rfl hPictured _ rfl, VSyncWorker.target_set _ _, ?_⟩, hNext⟩
    intro change hNone
    cases hNone

/-- And one that fails leaves what was. -/
theorem setConfig_told (h : Told c s) (config : Nat) (hPictured : a.pictured = true)
    (hTakes : Takes c a) : Told c (s.setConfig c config a).2 := by
  cases hDone : (s.setConfig c config a).1 with
  | true =>
    exact setConfig_inForce h.runs hPictured (fun new hConfig => takes_of hTakes h hConfig) hDone
  | false =>
    rcases setConfig_cases (c := c) (s := s) (a := a) config with ⟨-, hEq⟩ |
      ⟨new, done, t, hConfig, hCommit, hEq⟩
    · rw [hEq]
      exact h
    · obtain ⟨done', manager, hAfter, hRuns, -, hKept⟩ := commit_spec (c := c) (a := a) h.runs
        (some true) a.pictured (takes_of hTakes h hConfig)
      obtain ⟨rfl, rfl⟩ := Prod.mk.inj (hCommit.symm.trans hAfter)
      rw [hEq] at hDone ⊢
      obtain rfl : done = false := hDone
      exact h.commit_kept hRuns (hKept (.inl rfl))

/-- **A mode set without a picture is answered as made**: its config is the one in force
and its period is told, and the head is left the porch it was last asked for. -/
theorem setConfig_bare {config : Nat} {new : RateMode} (hConfig : c.getConfig config = some new)
    (hBare : a.pictured = false) (hMade : a.made = true) (hPowered : a.powered = true) :
    (s.setConfig c config a).1 = true ∧ (s.setConfig c config a).2.activeConfigId = config ∧
      (s.setConfig c config a).2.worker.target = c.periodNs new.mode ∧
        (s.setConfig c config a).2.manager.porch = s.manager.porch := by
  have hCommit : ∃ manager, s.commit c (some true) a.pictured (some new.mode) a =
      (true, { s with manager }) ∧ manager.porch = s.manager.porch := by
    have hPorch : ∃ manager, s.manager.setPowered true a = (true, manager) ∧
        manager.porch = s.manager.porch := by
      unfold RateManager.setPowered RateManager.setActiveVfp
      simp only [hPowered, Bool.true_eq_false, and_false, if_false, Bool.not_true,
        Bool.false_eq_true, if_true, Bool.true_and]
      refine ⟨_, rfl, ?_⟩
      split
      · split
        · rfl
        · rfl
      · rfl
    obtain ⟨manager, hLit, hKept⟩ := hPorch
    refine ⟨manager, ?_, hKept⟩
    unfold commit RateManager.execute
    simp [RateConfig.mem_modes hConfig, hMade, hBare, hLit]
  obtain ⟨manager, hAfter, hKept⟩ := hCommit
  have hSet : s.setConfig c config a = (true,
      { s with
        activeConfigId := config
        staged := none
        manager
        worker := s.worker.does [.setVsyncPeriodNs (c.periodNs new.mode)] }) := by
    unfold setConfig
    simp only [hConfig, hAfter]
    rfl
  rw [hSet]
  exact ⟨rfl, rfl, VSyncWorker.target_set _ _, hKept⟩

/-- **A frame that goes up** brings the change that is due with it. -/
theorem present_told (h : Told c s) (now : Int) (hTakes : Takes c a) :
    Told c (s.present c now a).2 := by
  rcases present_cases (c := c) (s := s) (a := a) now with ⟨-, hEq⟩ | hEq |
    ⟨config, new, done, t, -, hConfig, hCommit, hEq⟩
  · obtain ⟨done, manager, hAfter, hRuns, -, hKept⟩ := commit_spec (c := c) (a := a) h.runs none
      true (takes_none hTakes h)
    rw [hEq, hAfter]
    exact h.commit_kept hRuns (hKept (.inr (.inr rfl)))
  · rw [hEq]
    exact h
  · obtain ⟨done', manager, hAfter, hRuns, hCarried, hKept⟩ := commit_spec (c := c) (a := a) h.runs
      none true (takes_of hTakes h hConfig)
    obtain ⟨rfl, rfl⟩ := Prod.mk.inj (hCommit.symm.trans hAfter)
    rw [hEq]
    cases done with
    | false => exact h.commit_kept hRuns (hKept (.inl rfl))
    | true =>
      have hTarget := VSyncWorker.target_applied s.worker (c.vsyncMode new)
        (c.period _ _ hConfig)
      refine ⟨⟨new, hConfig, hCarried rfl rfl _ rfl, hTarget, ?_⟩, hRuns⟩
      intro change hNone
      cases hNone

/-- Light and dark change nothing that was told. -/
theorem light_told (h : Told c s) (on : Bool) (hTakes : Takes c a) :
    Told c (s.commit c (some on) false none a).2 := by
  obtain ⟨done, manager, hAfter, hRuns, -, hKept⟩ := commit_spec (c := c) (a := a) h.runs (some on)
    false (takes_none hTakes h)
  rw [hAfter]
  exact h.commit_kept hRuns (hKept (.inr (.inl rfl)))

/-- A change of power sets the config last asked for, and lights the panel. -/
theorem setPowerMode_told (h : Told c s) (on : Bool) (hPictured : a.pictured = true)
    (hTakes : Takes c a) : Told c (s.setPowerMode c on a).2 := by
  have hConfigured : ∃ configured t, (if on && !s.manager.active &&
      (c.getConfig s.lastRequested).isSome then s.setConfig c s.lastRequested a else (true, s)) =
        (configured, t) ∧ Told c t := by
    by_cases hDark : (on && !s.manager.active && (c.getConfig s.lastRequested).isSome) = true
    · exact ⟨_, _, if_pos hDark, setConfig_told h _ hPictured hTakes⟩
    · exact ⟨_, _, if_neg hDark, h⟩
  obtain ⟨configured, t, hEq, hTold⟩ := hConfigured
  unfold setPowerMode
  rw [hEq]
  cases configured with
  | false => exact hTold
  | true =>
    have hLight := light_told hTold on hTakes
    simp only [Bool.not_true, Bool.false_eq_true, if_false]
    split
    · exact hLight
    · exact hLight.worker_kept (VSyncWorker.target_does _ _ (by simp [Critical.namesPeriod]))

/-- A change queued is within the group of the config in force. -/
theorem queueConfig_told (h : Told c s) (config : Nat) (changeTime : Int)
    (fenceTime : Option Int) : Told c (s.queueConfig c config changeTime fenceTime) := by
  obtain ⟨current, hCurrent, hAsked, hPeriod, hStaged⟩ := h.inForce
  unfold queueConfig
  rw [hCurrent]
  cases hConfig : c.getConfig config with
  | none => exact h
  | some new =>
    simp only
    split
    · exact h
    · rename_i hGroup
      have hTracked := h.worker_kept (VSyncWorker.target_does s.worker
        (.getNextVsyncTimestamp fenceTime :: VSyncDisplay.setVsyncTimestampTracking true)
        (by simp [VSyncDisplay.setVsyncTimestampTracking, Critical.namesPeriod]))
      obtain ⟨current', hCurrent', hAsked', hPeriod', -⟩ := hTracked.inForce
      obtain rfl := Option.some.inj (hCurrent.symm.trans hCurrent')
      refine ⟨⟨current, hCurrent, hAsked, hPeriod', fun change hChange => ?_⟩, h.runs⟩
      obtain rfl := Option.some.inj hChange
      exact ⟨new, hConfig, (not_not.mp hGroup).symm⟩

/-- **Every call keeps what was told.** -/
theorem step_told (h : Told c s) {call : RateCall} (hAnswered : Answered c call)
    (hStep : s.step c call = some s') : Told c s' := by
  cases call with
  | setConfig config a =>
    obtain rfl := Option.some.inj hStep
    exact setConfig_told h config hAnswered.1 hAnswered.2
  | queueConfig config changeTime fenceTime =>
    obtain rfl := Option.some.inj hStep
    exact queueConfig_told h config changeTime fenceTime
  | present now a =>
    obtain rfl := Option.some.inj hStep
    exact present_told h now hAnswered
  | setPowerMode on a =>
    obtain rfl := Option.some.inj hStep
    exact setPowerMode_told h on hAnswered.1 hAnswered.2
  | setVsyncCallbacksEnabled enabled =>
    obtain rfl := Option.some.inj hStep
    exact h.worker_kept (VSyncWorker.target_does _ _ (by simp [Critical.namesPeriod]))
  | blank timestamp ranPeriodNs =>
    obtain rfl := Option.some.inj hStep
    exact h.worker_kept (VSyncWorker.target_takeBlank _ _ _)

/-- A change that is due goes with the first frame that goes up. -/
theorem present_due {now : Int} {config : Nat} {new : RateMode}
    (hDue : s.dueConfig now = some config) (hConfig : c.getConfig config = some new)
    (hMade : a.made = true) (hFlipped : a.flipped = true) :
    (s.present c now a).1 = true ∧ (s.present c now a).2.activeConfigId = config ∧
      (s.present c now a).2.staged = none := by
  have hCommit : ∃ manager,
      s.commit c none true (some new.mode) a = (true, { s with manager }) := by
    unfold commit RateManager.execute
    simp [RateConfig.mem_modes hConfig, hMade, hFlipped]
  obtain ⟨manager, hAfter⟩ := hCommit
  unfold present
  simp only [hDue, hConfig, hAfter, Bool.not_true, Bool.false_eq_true, if_false, and_self]

/-- **The panel runs as told**: after a mode set that goes through, in every run of mode
sets with a picture, changes queued and made, light, dark and blanks, whatever fails
among them, there is a config in force; a lit panel runs its porch; the period told is
its period, or the one expected is; what was last asked for is a config of its group;
and a change that is due is made by the first frame that goes up. -/
theorem panel_runs_as_told (c : RateConfig) {fake config : Nat} {first : Answers}
    {s₀ s : RateDisplay} {calls : List RateCall}
    (hFirst : setConfig c { activeConfigId := fake } config first = (true, s₀))
    (hPictured : first.pictured = true) (hTakes : Takes c first)
    (hAnswered : ∀ call ∈ calls, Answered c call) (hRun : (machine c).run s₀ calls = some s) :
    ∃ current, c.getConfig s.activeConfigId = some current ∧
      (s.manager.active = true → s.manager.vfp = current.mode.porchFor c.native) ∧
        s.worker.target = c.periodNs current.mode ∧
          (∃ asked, c.getConfig s.lastRequested = some asked ∧ asked.groupId = current.groupId) ∧
            ∀ now due a, s.dueConfig now = some due → a.made = true → a.flipped = true →
              (s.present c now a).1 = true ∧ (s.present c now a).2.activeConfigId = due ∧
                (s.present c now a).2.lastRequested = due := by
  have hStart : Told c s₀ := by
    have hAsked : ∀ new, c.getConfig config = some new →
        (first.takenLit = true ∧ first.taken = true) ∨ (0 : Nat) = 0 ∧
          ∀ wanted : PanelMode, some new.mode = some wanted → wanted.porchFor c.native = 0 := by
      intro new hConfig
      cases hStretch : c.stretchable with
      | true => exact .inl (hTakes hStretch)
      | false =>
        refine .inr ⟨rfl, fun wanted hWanted => ?_⟩
        obtain rfl := Option.some.inj hWanted
        exact RateConfig.porchOf_unstretched hStretch hConfig
    have hInForce := setConfig_inForce (c := c) (s := { activeConfigId := fake }) (.inl rfl)
      hPictured hAsked (by rw [hFirst])
    rwa [hFirst] at hInForce
  have hTold : Told c s := Machine.run_of_meets (I := Told c)
    (fun t call t' hI hC hStep => step_told hI hC hStep) hStart
    (Machine.meets_of_forall hAnswered s₀) hRun
  obtain ⟨current, hCurrent, hAsked, hPeriod, hStaged⟩ := hTold.inForce
  have hLast : ∃ asked, c.getConfig s.lastRequested = some asked ∧
      asked.groupId = current.groupId := by
    unfold lastRequested
    cases hChange : s.staged with
    | none => exact ⟨current, hCurrent, rfl⟩
    | some change => exact hStaged change hChange
  refine ⟨current, hCurrent, fun hLit => (hTold.runs.lit hLit).trans hAsked, hPeriod, hLast, ?_⟩
  intro now due a hDue hMade hFlipped
  have hIs : ∃ new, c.getConfig due = some new := by
    unfold dueConfig at hDue
    obtain ⟨change, hChange, hSame⟩ := Option.map_eq_some_iff.mp hDue
    obtain ⟨new, hNew, -⟩ := hStaged change (Option.filter_eq_some_iff.mp hChange).1
    exact ⟨new, hSame ▸ hNew⟩
  obtain ⟨new, hNew⟩ := hIs
  obtain ⟨hDone, hActive, hNone⟩ := present_due (c := c) (a := a) hDue hNew hMade hFlipped
  refine ⟨hDone, hActive, ?_⟩
  rw [lastRequested, hNone]
  exact hActive

/-- A panel's own timing. -/
def sixtyHertz : PanelMode where
  vdisplay := 2048
  vsyncStart := 2074
  vsyncEnd := 2076
  vtotal := 2086

/-- A panel of two rates, and their periods. -/
def twoRates : RateConfig where
  native := sixtyHertz
  stretchable := true
  periodNs mode := if mode.vtotal = 2086 then 16666666 else 33333333
  getConfig id :=
    if id = 1 then some ⟨0, sixtyHertz⟩
    else if id = 2 then some ⟨0, sixtyHertz.slowed⟩
    else none
  fromModes id m hConfig := by
    split at hConfig
    · exact .inl (Option.some.inj hConfig ▸ rfl)
    · split at hConfig
      · exact .inr ⟨rfl, Option.some.inj hConfig ▸ rfl⟩
      · cases hConfig
  period id m _ := by
    split
    · decide
    · decide

/-- A change queued and made, a night, and the morning after: the panel is lit at the
rate last asked for. -/
theorem panel_runs_as_told_slow :
    ∃ s, (machine twoRates).run (setConfig twoRates { activeConfigId := 0 } 1 {}).2
      [.queueConfig 2 5 none, .present 5 {}, .setPowerMode false {}, .setPowerMode true {}] =
        some s ∧ s.manager.vfp = 2086 ∧ s.worker.target = 33333333 := by
  obtain ⟨s, hRun⟩ := Machine.run_of_total (m := machine twoRates)
    (fun t call => by cases call <;> exact ⟨_, rfl⟩)
    (setConfig twoRates { activeConfigId := 0 } 1 {}).2
    [.queueConfig 2 5 none, .present 5 {}, .setPowerMode false {}, .setPowerMode true {}]
  have hEnd : ((machine twoRates).run (setConfig twoRates { activeConfigId := 0 } 1 {}).2
      [.queueConfig 2 5 none, .present 5 {}, .setPowerMode false {}, .setPowerMode true {}]).map
        (fun s => (s.activeConfigId, s.manager.active)) = some (2, true) := by
    decide
  rw [hRun] at hEnd
  obtain ⟨hActive, hLit⟩ := Prod.mk.inj (Option.some.inj hEnd)
  have hFirst : setConfig twoRates { activeConfigId := 0 } 1 {} =
      (true, (setConfig twoRates { activeConfigId := 0 } 1 {}).2) := rfl
  obtain ⟨current, hCurrent, hVfp, hPeriod, -⟩ := panel_runs_as_told twoRates hFirst rfl
    (fun _ => ⟨rfl, rfl⟩) (by simp [Answered, Takes]) hRun
  rw [hActive] at hCurrent
  obtain rfl := Option.some.inj hCurrent
  exact ⟨s, hRun, (hVfp hLit).trans (by decide), hPeriod.trans (by decide)⟩

end RateDisplay

end TegraHwc
