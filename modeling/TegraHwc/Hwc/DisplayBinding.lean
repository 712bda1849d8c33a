import Mathlib.Algebra.Order.Ring.Int
import Mathlib.Data.List.AList
import Mathlib.Data.List.ReduceOption
import Mathlib.Data.List.Sort
import Mathlib.Tactic.Common
import TegraHwc.Lib.Runs

/-!
# TegraHwc — displays and the pipelines that drive them

`Hwc::Init`, `FinalizeDisplayBinding`, `BindDisplay`, `UnbindDisplay` and the virtual
displays of `hwc/Hwc.cpp`, with `SetPipeline` of `hwc/HwcDisplay.cpp`. A pipeline is
its address, which `display_handles_` is ordered by; a display is what binding reads
of it. What `Init` of a display answers, each time it is tried, and what hardware
there is are each call's to say. `last_display_handle_` is not run to its end; what
is asked of content protection changes none of this.

Beside the maps stands the history of the handles: which were given to a display, and
which were taken back.

## Results

* `driver_setPipeline`, `driver_give`, `driver_remove` — what drives which display
  after a change to one.
* `bindDisplay_fallen` — a display that does not come up is left with a record of a
  pipeline it does not hold.
-/

namespace TegraHwc

open Runs

namespace Hwc

/-- `DisplayHandle`. -/
abbrev DisplayHandle := Int

/-- A `DisplayPipeline`, by its address. -/
abbrev Pipeline := Nat

/-- `kPrimaryDisplay`. -/
def kPrimaryDisplay : DisplayHandle := 0

/-- `DisplayStatus`, as it is scheduled here. -/
inductive DisplayStatus where
  | kDisconnected
  | kConnected
  deriving DecidableEq, Repr

/-- `HwcDisplay`, as far as binding goes. -/
structure Display where
  isVirtual : Bool
  pipeline : Option Pipeline := none
  deriving DecidableEq, Repr

/-- `HwcDisplay::IsInHeadlessMode`. -/
def Display.isInHeadlessMode (d : Display) : Bool := d.pipeline.isNone

/-- What the `Init` of a display answers, the first time and at each retry. -/
abbrev Inits := Nat → Bool

/-- The retries of `SetPipeline`. -/
def mostRetries : Nat := 3

/-- `Init` takes at once, or at one of the retries. -/
def comesUp (inits : Inits) : Bool :=
  inits 0 || (List.range mostRetries).any fun attempt => inits (attempt + 1)

/-- A handle is given to a display, or taken back from one. -/
inductive Turn where
  | given (handle : DisplayHandle)
  | removed (handle : DisplayHandle)
  deriving DecidableEq, Repr

end Hwc

open Hwc in
/-- `Hwc`: the displays, the record of which pipeline was given to which, and those
to be removed. The history is not the code's. -/
structure Hwc where
  displays : AList (fun _ : DisplayHandle => Display) := ∅
  displayHandles : AList (fun _ : Pipeline => DisplayHandle) := ∅
  displaysForRemoval : List DisplayHandle := []
  lastDisplayHandle : DisplayHandle := kPrimaryDisplay
  hotplugEvents : AList (fun _ : DisplayHandle => DisplayStatus) := ∅
  history : List Turn := []

namespace Hwc

-- ---------------------------------------------------------------------------
-- The operations
-- ---------------------------------------------------------------------------

/-- `ScheduleHotplugEvent`: the last news of each display. -/
def scheduleHotplugEvent (s : Hwc) (handle : DisplayHandle) (status : DisplayStatus) : Hwc :=
  { s with hotplugEvents := s.hotplugEvents.insert handle status }

/-- `displays_[handle] = std::make_unique<HwcDisplay>(handle, is_virtual, this)`. -/
def give (s : Hwc) (handle : DisplayHandle) (isVirtual : Bool) : Hwc :=
  { s with
    displays := s.displays.insert handle { isVirtual := isVirtual }
    history := s.history ++ [.given handle] }

/-- `displays_.erase(handle)`. -/
def remove (s : Hwc) (handle : DisplayHandle) : Hwc :=
  { s with
    displays := s.displays.erase handle
    history := s.history ++ [.removed handle] }

/-- The pipeline a display is left with by `SetPipeline`: one it does not come up
with, at once or after the retries, is let go. -/
def settled (pipeline : Option Pipeline) (inits : Inits) : Option Pipeline :=
  if comesUp inits then pipeline else none

/-- The news of a display given a pipeline, or none. The primary is announced
whatever becomes of it. -/
def newsOf (handle : DisplayHandle) (pipeline : Option Pipeline) (inits : Inits) :
    DisplayStatus :=
  if handle = kPrimaryDisplay then .kConnected
  else if pipeline.isSome && comesUp inits then .kConnected
  else .kDisconnected

/-- `displays_[handle]->SetPipeline(pipeline)`. -/
def setPipeline (s : Hwc) (handle : DisplayHandle) (pipeline : Option Pipeline)
    (inits : Inits := fun _ => true) : Hwc :=
  match s.displays.lookup handle with
  | none => s
  | some d =>
    { s with
      displays := s.displays.insert handle
        { d with pipeline := settled pipeline inits } }.scheduleHotplugEvent handle
      (newsOf handle pipeline inits)

/-- The primary display is there, and driven. -/
def primaryDriven (s : Hwc) : Bool :=
  match s.displays.lookup kPrimaryDisplay with
  | none => false
  | some d => !d.isInHeadlessMode

/-- The handle `BindDisplay` gives, counted in 64 bits and kept in 32, and the count
after. -/
def nextHandle (s : Hwc) : DisplayHandle × DisplayHandle :=
  if s.primaryDriven then
    ((s.lastDisplayHandle + 1) % 2 ^ 32, s.lastDisplayHandle + 1)
  else (kPrimaryDisplay, s.lastDisplayHandle)

/-- `BindDisplay`, of a pipeline to the display of a handle. -/
def attach (s : Hwc) (pipeline : Pipeline) (handle : DisplayHandle) (inits : Inits) : Hwc :=
  let s := if handle ∈ s.displays then s else s.give handle false
  let s := s.setPipeline handle (some pipeline) inits
  { s with displayHandles := s.displayHandles.insert pipeline handle }

/-- `Hwc::BindDisplay`. -/
def bindDisplay (s : Hwc) (pipeline : Pipeline) (inits : Inits) : Bool × Hwc :=
  if pipeline ∈ s.displayHandles then (false, s)
  else
    let (handle, last) := s.nextHandle
    (true, { s with lastDisplayHandle := last }.attach pipeline handle inits)

/-- `Hwc::UnbindDisplay`. -/
def unbindDisplay (s : Hwc) (pipeline : Pipeline) : Bool × Hwc :=
  match s.displayHandles.lookup pipeline with
  | none => (false, s)
  | some handle =>
    let s := { s with displayHandles := s.displayHandles.erase pipeline }
    if handle ∉ s.displays then (false, s)
    else
      let s := s.setPipeline handle none
      (true,
        if handle = kPrimaryDisplay then s
        else { s with displaysForRemoval := s.displaysForRemoval ++ [handle] })

/-- The primary display is made where there is none. -/
def ensurePrimary (s : Hwc) : Hwc :=
  if kPrimaryDisplay ∈ s.displays then s
  else (s.give kPrimaryDisplay false).setPipeline kPrimaryDisplay none

/-- A primary that is not driven takes the first pipeline of the record. -/
def reattach (s : Hwc) (inits : Inits) : Hwc :=
  match s.displayHandles.keys.min? with
  | none => s
  | some pipeline =>
    if s.primaryDriven then s
    else ((s.unbindDisplay pipeline).2.bindDisplay pipeline inits).2

/-- The displays put up for removal go. -/
def removeAll (s : Hwc) : Hwc :=
  { s.displaysForRemoval.foldl remove s with displaysForRemoval := [] }

/-- `Hwc::FinalizeDisplayBinding`. -/
def finalizeDisplayBinding (s : Hwc) (inits : Inits) : Hwc :=
  (s.ensurePrimary.reattach inits).removeAll

/-- `virtual_pipeline`: nothing here takes a virtual display. -/
def virtualPipeline : Option Pipeline := none

/-- `Hwc::CreateVirtualDisplay`. -/
def createVirtualDisplay (s : Hwc) (inits : Inits) : Option DisplayHandle × Hwc :=
  match virtualPipeline with
  | none => (none, s)
  | some pipeline =>
    let handle := s.lastDisplayHandle + 1
    let s := { s with lastDisplayHandle := handle }
    (some handle, (s.give handle true).setPipeline handle (some pipeline) inits)

/-- `Hwc::DestroyVirtualDisplay`. -/
def destroyVirtualDisplay (s : Hwc) (handle : DisplayHandle) : Bool × Hwc :=
  match s.displays.lookup handle with
  | none => (false, s)
  | some d =>
    if d.isVirtual then (true, (s.setPipeline handle none).remove handle)
    else (false, s)

/-- What `Init` finds: no device, none whose buffers can be read, or a pipeline for
each connector, where one can be built. -/
inductive Hardware where
  | none
  | unreadable
  | found (connectors : List (Option (Pipeline × Inits)))

/-- The loop of `Init` over the connectors. -/
def attachAll (s : Hwc) (connectors : List (Option (Pipeline × Inits))) : Hwc :=
  connectors.foldl (fun s connector =>
    match connector with
    | none => s
    | some (pipeline, inits) => (s.bindDisplay pipeline inits).2) s

/-- `Init` lets go of every pipeline of the record. -/
def detachAll (s : Hwc) : Hwc :=
  (s.displayHandles.keys.insertionSort (· ≤ ·)).foldl (fun s p => (s.unbindDisplay p).2) s

/-- `Hwc::Init`; `again` is what the primary's `Init` answers where `Init` of the
composer reattaches. -/
def init (s : Hwc) (hardware : Hardware) (again : Inits) : Bool × Hwc :=
  let s := s.detachAll.finalizeDisplayBinding again
  match hardware with
  | .none => (false, s)
  | .unreadable => (false, s)
  | .found connectors => (true, (s.attachAll connectors).finalizeDisplayBinding again)

/-- What is asked of the composer. -/
inductive Action where
  | init (hardware : Hardware) (again : Inits)
  | bindDisplay (pipeline : Pipeline) (inits : Inits)
  | unbindDisplay (pipeline : Pipeline)
  | createVirtualDisplay (inits : Inits)
  | destroyVirtualDisplay (handle : DisplayHandle)
  | finalizeDisplayBinding (again : Inits)

/-- The composer after it. -/
def step (s : Hwc) : Action → Hwc
  | .init hardware again => (s.init hardware again).2
  | .bindDisplay pipeline inits => (s.bindDisplay pipeline inits).2
  | .unbindDisplay pipeline => (s.unbindDisplay pipeline).2
  | .createVirtualDisplay inits => (s.createVirtualDisplay inits).2
  | .destroyVirtualDisplay handle => (s.destroyVirtualDisplay handle).2
  | .finalizeDisplayBinding again => s.finalizeDisplayBinding again

/-- An action that ends a cycle of attaching and detaching. -/
def Action.endsCycle : Action → Bool
  | .init .. | .finalizeDisplayBinding _ => true
  | .bindDisplay .. | .unbindDisplay _ | .createVirtualDisplay _ | .destroyVirtualDisplay _ => false

/-- The composer; what is told of a run is what it is at the end of each cycle. -/
def machine : Machine Hwc Action Hwc where
  step s a := some (s.step a)
  events s a := if a.endsCycle then [s.step a] else []

-- ---------------------------------------------------------------------------
-- What is paired
-- ---------------------------------------------------------------------------

/-- The pipeline that drives the display of a handle. -/
def driver (s : Hwc) (handle : DisplayHandle) : Option Pipeline :=
  (s.displays.lookup handle).bind Display.pipeline

/-- Displays and pipelines are paired, and no display is left for removal. -/
structure Paired (s : Hwc) : Prop where
  primary : kPrimaryDisplay ∈ s.displays
  headless : s.driver kPrimaryDisplay = none → ∀ p, p ∉ s.displayHandles
  apart : ∀ p q handle, s.displayHandles.lookup p = some handle →
    s.displayHandles.lookup q = some handle → p = q
  held : ∀ handle d, s.displays.lookup handle = some d → d.isVirtual = false →
    handle ≠ kPrimaryDisplay →
      ∃ p, d.pipeline = some p ∧ s.displayHandles.lookup p = some handle
  noneLeft : s.displaysForRemoval = []

/-- A handle taken back is not given again. -/
def Fresh (before : List Turn) : Turn → Prop
  | .given handle => .removed handle ∉ before
  | .removed _ => True

-- ---------------------------------------------------------------------------
-- What the operations do to the maps
-- ---------------------------------------------------------------------------

variable {s : Hwc} {handle other : DisplayHandle} {p : Pipeline} {inits : Inits}

theorem driver_of_notMem (hNot : handle ∉ s.displays) : s.driver handle = none := by
  rw [driver, AList.lookup_eq_none.mpr hNot, Option.bind_none]

theorem mem_of_driver (hDriver : s.driver handle = some p) : handle ∈ s.displays := by
  by_contra hNot
  rw [driver_of_notMem hNot] at hDriver
  cases hDriver

theorem primaryDriven_eq : s.primaryDriven = (s.driver kPrimaryDisplay).isSome := by
  unfold primaryDriven driver
  cases s.displays.lookup kPrimaryDisplay with
  | none => rfl
  | some d => cases hPipeline : d.pipeline <;> simp [Display.isInHeadlessMode, hPipeline]

theorem driver_give {isVirtual : Bool} :
    (s.give handle isVirtual).driver other = if other = handle then none else s.driver other := by
  unfold driver give
  by_cases hEq : other = handle
  · subst hEq
    simp
  · rw [if_neg hEq, AList.lookup_insert_ne hEq]

theorem driver_setPipeline {pipeline : Option Pipeline} (hMem : handle ∈ s.displays) :
    (s.setPipeline handle pipeline inits).driver other =
      if other = handle then settled pipeline inits else s.driver other := by
  obtain ⟨d, hd⟩ := Option.isSome_iff_exists.mp (AList.lookup_isSome.mpr hMem)
  unfold driver setPipeline
  rw [hd]
  show ((s.displays.insert handle _).lookup other).bind _ = _
  by_cases hEq : other = handle
  · subst hEq
    simp
  · rw [if_neg hEq, AList.lookup_insert_ne hEq]

theorem driver_remove :
    (s.remove handle).driver other = if other = handle then none else s.driver other := by
  unfold driver remove
  by_cases hEq : other = handle
  · subst hEq
    simp
  · rw [if_neg hEq, AList.lookup_erase_ne hEq]

theorem mem_setPipeline {pipeline : Option Pipeline} :
    other ∈ (s.setPipeline handle pipeline inits).displays ↔ other ∈ s.displays := by
  unfold setPipeline
  cases hd : s.displays.lookup handle with
  | none => rfl
  | some d =>
    have hMem : handle ∈ s.displays := AList.lookup_isSome.mp (by rw [hd]; rfl)
    show other ∈ s.displays.insert handle _ ↔ _
    rw [AList.mem_insert]
    constructor
    · rintro (rfl | hOther)
      · exact hMem
      · exact hOther
    · exact .inr

/-- What a display is given changes nothing beside the displays and the news. -/
theorem setPipeline_frame (s : Hwc) (handle : DisplayHandle) (pipeline : Option Pipeline)
    (inits : Inits) :
    (s.setPipeline handle pipeline inits).displayHandles = s.displayHandles ∧
      (s.setPipeline handle pipeline inits).displaysForRemoval = s.displaysForRemoval ∧
      (s.setPipeline handle pipeline inits).lastDisplayHandle = s.lastDisplayHandle ∧
      (s.setPipeline handle pipeline inits).history = s.history := by
  unfold setPipeline
  cases s.displays.lookup handle <;> exact ⟨rfl, rfl, rfl, rfl⟩

theorem lookup_insert_or {displays : AList (fun _ : DisplayHandle => Display)} {e d : Display}
    (hd : (displays.insert handle e).lookup other = some d) :
    d = e ∨ displays.lookup other = some d := by
  by_cases hEq : other = handle
  · subst hEq
    rw [AList.lookup_insert] at hd
    exact .inl (Option.some.inj hd).symm
  · rw [AList.lookup_insert_ne hEq] at hd
    exact .inr hd

/-- A display keeps its kind. -/
theorem setPipeline_physical {pipeline : Option Pipeline}
    (hPhysical : ∀ handle d, s.displays.lookup handle = some d → d.isVirtual = false) :
    ∀ other d, (s.setPipeline handle pipeline inits).displays.lookup other = some d →
      d.isVirtual = false := by
  intro other d hd
  unfold setPipeline at hd
  cases hOld : s.displays.lookup handle with
  | none =>
    rw [hOld] at hd
    exact hPhysical other d hd
  | some old =>
    rw [hOld] at hd
    rcases lookup_insert_or hd with rfl | hd
    · exact hPhysical handle old hOld
    · exact hPhysical other d hd

theorem give_physical
    (hPhysical : ∀ handle d, s.displays.lookup handle = some d → d.isVirtual = false) :
    ∀ other d, (s.give handle false).displays.lookup other = some d → d.isVirtual = false := by
  intro other d hd
  rcases lookup_insert_or hd with rfl | hd
  · rfl
  · exact hPhysical other d hd

theorem remove_physical
    (hPhysical : ∀ handle d, s.displays.lookup handle = some d → d.isVirtual = false) :
    ∀ other d, (s.remove handle).displays.lookup other = some d → d.isVirtual = false := by
  intro other d hd
  change (s.displays.erase handle).lookup other = some d at hd
  by_cases hEq : other = handle
  · subst hEq
    rw [AList.lookup_erase] at hd
    cases hd
  · rw [AList.lookup_erase_ne hEq] at hd
    exact hPhysical other d hd

theorem driver_attach :
    (s.attach p handle inits).driver other =
      if other = handle then settled (some p) inits else s.driver other := by
  show ((if handle ∈ s.displays then s else s.give handle false).setPipeline handle
    (some p) inits).driver other = _
  by_cases hMem : handle ∈ s.displays
  · rw [if_pos hMem, driver_setPipeline hMem]
  · have hGiven : handle ∈ (s.give handle false).displays := by simp [give]
    rw [if_neg hMem, driver_setPipeline hGiven, driver_give]
    split <;> rfl

theorem mem_attach :
    other ∈ (s.attach p handle inits).displays ↔ other = handle ∨ other ∈ s.displays := by
  show other ∈ ((if handle ∈ s.displays then s else s.give handle false).setPipeline handle
    (some p) inits).displays ↔ _
  rw [mem_setPipeline]
  by_cases hMem : handle ∈ s.displays
  · rw [if_pos hMem]
    constructor
    · exact .inr
    · rintro (rfl | hOther)
      · exact hMem
      · exact hOther
  · rw [if_neg hMem]
    exact AList.mem_insert _

/-- What attaching leaves as it was, and what it adds to the history. -/
theorem attach_frame (s : Hwc) (p : Pipeline) (handle : DisplayHandle) (inits : Inits) :
    (s.attach p handle inits).displayHandles = s.displayHandles.insert p handle ∧
      (s.attach p handle inits).displaysForRemoval = s.displaysForRemoval ∧
      (s.attach p handle inits).lastDisplayHandle = s.lastDisplayHandle ∧
      (s.attach p handle inits).history =
        if handle ∈ s.displays then s.history else s.history ++ [.given handle] := by
  obtain ⟨hHandles, hRemoval, hLast, hHistory⟩ := setPipeline_frame
    (if handle ∈ s.displays then s else s.give handle false) handle (some p) inits
  refine ⟨?_, hRemoval.trans ?_, hLast.trans ?_, hHistory.trans ?_⟩
  · show AList.insert p handle ((if handle ∈ s.displays then s else s.give handle false).setPipeline
      handle (some p) inits).displayHandles = _
    rw [hHandles]
    split <;> rfl
  all_goals split <;> rfl

/-- **A record of nothing.** A display that does not come up with the pipeline it is
given lets it go; the record keeps it, and the answer is that it is bound. -/
theorem bindDisplay_fallen (hNew : p ∉ s.displayHandles) (hDown : comesUp inits = false) :
    (s.bindDisplay p inits).1 = true ∧
      ∃ handle, (s.bindDisplay p inits).2.displayHandles.lookup p = some handle ∧
        handle ∈ (s.bindDisplay p inits).2.displays ∧
        (s.bindDisplay p inits).2.driver handle = none := by
  have hEq : s.bindDisplay p inits = (true, { s with lastDisplayHandle := s.nextHandle.2 }.attach p
      s.nextHandle.1 inits) := by
    rw [bindDisplay, if_neg hNew]
  rw [hEq]
  refine ⟨rfl, s.nextHandle.1, ?_, mem_attach.mpr (.inl rfl), ?_⟩
  · rw [(attach_frame _ p _ inits).1, AList.lookup_insert]
  · rw [driver_attach, if_pos rfl, settled, hDown]
    rfl

/-- The count runs past 32 bits, and the next display has the primary's handle. -/
theorem nextHandle_goes_round (hDriven : s.primaryDriven = true) {times : Int}
    (hCount : s.lastDisplayHandle + 1 = times * 2 ^ 32) : s.nextHandle.1 = kPrimaryDisplay := by
  rw [nextHandle, hDriven, if_pos rfl, hCount]
  exact Int.mul_emod_left times (2 ^ 32)

end Hwc

end TegraHwc
