import TegraHwc.Hwc.DisplayBinding

/-!
# TegraHwc — displays and pipelines stay paired

What holds of `TegraHwc.Hwc` over a run of attaching and detaching, in whatever order
and however often the hardware is looked at anew, where every display comes up with
the pipeline it is given and the handles fit the 32 bits `BindDisplay` keeps them in.

## Results

* `bound_bindDisplay`, `bound_unbindDisplay` — what every operation keeps.
* `finalizeDisplayBinding_paired` — a cycle ends with displays and pipelines paired.
* `displayBinding_paired` — so does every cycle of a run, and no handle is given anew.
-/

namespace TegraHwc.Hwc

open Runs

variable {s : Hwc} {handle other : DisplayHandle} {p : Pipeline} {inits : Inits}

-- ---------------------------------------------------------------------------
-- What every operation keeps
-- ---------------------------------------------------------------------------

/-- What is kept while every display comes up with what it is given: a pipeline is
recorded for the display it drives, and a display that nothing drives, other than the
primary, is up for removal. Handles are counted up, and none is taken back twice. -/
structure Bound (s : Hwc) : Prop where
  physical : ∀ handle d, s.displays.lookup handle = some d → d.isVirtual = false
  recorded : ∀ p handle, s.displayHandles.lookup p = some handle ↔ s.driver handle = some p
  idle : ∀ handle ∈ s.displays, handle ≠ kPrimaryDisplay → s.driver handle = none →
    handle ∈ s.displaysForRemoval
  retiring : ∀ handle ∈ s.displaysForRemoval, s.driver handle = none ∧
    handle ≠ kPrimaryDisplay ∧ handle ≤ s.lastDisplayHandle
  numbered : ∀ handle ∈ s.displays, handle ≤ s.lastDisplayHandle
  counted : 0 ≤ s.lastDisplayHandle
  gone : ∀ handle, .removed handle ∈ s.history →
    handle ∉ s.displays ∧ handle ≠ kPrimaryDisplay ∧ handle ≤ s.lastDisplayHandle
  fresh : Follows Fresh s.history

theorem bound_init : Bound {} where
  physical := by simp
  recorded := by simp [driver]
  idle := by simp
  retiring := by simp
  numbered := by simp
  counted := le_refl _
  gone := by simp
  fresh := follows_nil

/-- A count run ahead keeps all this. -/
theorem bound_count (hBound : Bound s) {last : DisplayHandle}
    (hAhead : s.lastDisplayHandle ≤ last) : Bound { s with lastDisplayHandle := last } where
  physical := hBound.physical
  recorded := hBound.recorded
  idle := hBound.idle
  retiring handle hIn :=
    have ⟨hIdle, hOther, hLe⟩ := hBound.retiring handle hIn
    ⟨hIdle, hOther, hLe.trans hAhead⟩
  numbered handle hIn := (hBound.numbered handle hIn).trans hAhead
  counted := hBound.counted.trans hAhead
  gone handle hGone :=
    have ⟨hNot, hOther, hLe⟩ := hBound.gone handle hGone
    ⟨hNot, hOther, hLe.trans hAhead⟩
  fresh := hBound.fresh

section History

variable {history : List Turn} {there : Prop} [Decidable there]

/-- A display given where there was none takes none back. -/
theorem removed_of_given
    (hGone : .removed other ∈ if there then history else history ++ [.given handle]) :
    .removed other ∈ history := by
  split at hGone
  · exact hGone
  · simpa using hGone

theorem fresh_given (hFresh : Follows Fresh history) (hKept : .removed handle ∉ history) :
    Follows Fresh (if there then history else history ++ [.given handle]) := by
  split
  · exact hFresh
  · exact follows_concat.mpr ⟨hFresh, hKept⟩

end History

theorem driver_attach_up (hUp : comesUp inits = true) :
    (s.attach p handle inits).driver other = if other = handle then some p else s.driver other := by
  rw [driver_attach, settled, if_pos hUp]

/-- A pipeline not recorded drives the display it is attached to, one that nothing
drives. -/
theorem bound_attach (hBound : Bound s) (hNew : p ∉ s.displayHandles)
    (hFree : s.driver handle = none) (hStays : handle ∉ s.displaysForRemoval)
    (hLe : handle ≤ s.lastDisplayHandle) (hKept : .removed handle ∉ s.history)
    (hUp : comesUp inits = true) : Bound (s.attach p handle inits) := by
  obtain ⟨hHandles, hRemoval, hLast, hHistory⟩ := attach_frame s p handle inits
  constructor
  case physical =>
    refine setPipeline_physical ?_
    split
    · exact hBound.physical
    · exact give_physical hBound.physical
  case recorded =>
    intro q other
    rw [hHandles, driver_attach_up hUp]
    by_cases hSame : q = p
    · subst hSame
      rw [AList.lookup_insert]
      by_cases hEq : other = handle
      · simp [hEq]
      · rw [if_neg hEq, ← hBound.recorded, AList.lookup_eq_none.mpr hNew]
        simp [Ne.symm hEq]
    · rw [AList.lookup_insert_ne hSame, hBound.recorded]
      by_cases hEq : other = handle
      · simp [hEq, hFree, Ne.symm hSame]
      · rw [if_neg hEq]
  case idle =>
    intro other hIn hOther hIdle
    rw [driver_attach_up hUp] at hIdle
    by_cases hEq : other = handle
    · simp [hEq] at hIdle
    · rw [if_neg hEq] at hIdle
      rw [hRemoval]
      exact hBound.idle other ((mem_attach.mp hIn).resolve_left hEq) hOther hIdle
  case retiring =>
    intro other hIn
    rw [hRemoval] at hIn
    obtain ⟨hIdle, hOther, hBelow⟩ := hBound.retiring other hIn
    have hEq : other ≠ handle := fun hEq => hStays (hEq ▸ hIn)
    rw [driver_attach_up hUp, if_neg hEq, hLast]
    exact ⟨hIdle, hOther, hBelow⟩
  case numbered =>
    intro other hIn
    rw [hLast]
    rcases mem_attach.mp hIn with rfl | hIn
    · exact hLe
    · exact hBound.numbered other hIn
  case counted => exact hLast ▸ hBound.counted
  case gone =>
    intro other hGone
    rw [hHistory] at hGone
    have hBefore := removed_of_given hGone
    obtain ⟨hNot, hOther, hBelow⟩ := hBound.gone other hBefore
    rw [hLast, mem_attach]
    refine ⟨?_, hOther, hBelow⟩
    rintro (rfl | hIn)
    · exact hKept hBefore
    · exact hNot hIn
  case fresh =>
    rw [hHistory]
    exact fresh_given hBound.fresh hKept

-- ---------------------------------------------------------------------------
-- A pipeline comes, or goes
-- ---------------------------------------------------------------------------

/-- The pipeline is recorded already, or its display comes up with it, under a handle
that the 32 bits hold. -/
def Takes (s : Hwc) (pipeline : Pipeline) (inits : Inits) : Prop :=
  pipeline ∉ s.displayHandles →
    comesUp inits = true ∧ (s.primaryDriven = true → s.lastDisplayHandle + 1 < 2 ^ 32)

instance decidableTakes (s : Hwc) (pipeline : Pipeline) (inits : Inits) :
    Decidable (s.Takes pipeline inits) :=
  inferInstanceAs (Decidable (_ → _))

theorem bindDisplay_recorded (hOld : p ∈ s.displayHandles) :
    s.bindDisplay p inits = (false, s) := by
  rw [bindDisplay, if_pos hOld]

/-- The first pipeline goes to the primary. -/
theorem bindDisplay_primary (hNew : p ∉ s.displayHandles) (hIdle : s.driver kPrimaryDisplay = none) :
    s.bindDisplay p inits = (true, s.attach p kPrimaryDisplay inits) := by
  have hDriven : s.primaryDriven = false := by rw [primaryDriven_eq, hIdle]; rfl
  simp [bindDisplay, nextHandle, hNew, hDriven]

/-- Any other goes to a display of its own, while the count fits the handle. -/
theorem bindDisplay_next (hBound : Bound s) (hNew : p ∉ s.displayHandles)
    (hDriven : s.primaryDriven = true) (hRoom : s.lastDisplayHandle + 1 < 2 ^ 32) :
    s.bindDisplay p inits =
      (true, { s with lastDisplayHandle := s.lastDisplayHandle + 1 }.attach p
        (s.lastDisplayHandle + 1) inits) := by
  have hFits : (s.lastDisplayHandle + 1) % 2 ^ 32 = s.lastDisplayHandle + 1 :=
    Int.emod_eq_of_lt (Int.le_add_one hBound.counted) hRoom
  simp only [bindDisplay, nextHandle, hDriven, if_neg hNew, if_true, hFits]

theorem bound_bindDisplay (hBound : Bound s) (hTakes : s.Takes p inits) :
    Bound (s.bindDisplay p inits).2 := by
  by_cases hNew : p ∈ s.displayHandles
  · rw [bindDisplay_recorded hNew]
    exact hBound
  obtain ⟨hUp, hRoom⟩ := hTakes hNew
  cases hPrimary : s.driver kPrimaryDisplay with
  | none =>
    rw [bindDisplay_primary hNew hPrimary]
    refine bound_attach hBound hNew hPrimary ?_ hBound.counted ?_ hUp
    · exact fun hIn => (hBound.retiring _ hIn).2.1 rfl
    · exact fun hGone => (hBound.gone _ hGone).2.1 rfl
  | some q =>
    have hDriven : s.primaryDriven = true := by rw [primaryDriven_eq, hPrimary]; rfl
    rw [bindDisplay_next hBound hNew hDriven (hRoom hDriven)]
    have hCounted : Bound { s with lastDisplayHandle := s.lastDisplayHandle + 1 } :=
      bound_count hBound (Int.le_add_one (le_refl _))
    -- no display, and none that was, has a handle the count has not reached
    have hUnused : ∀ handle ≤ s.lastDisplayHandle, handle ≠ s.lastDisplayHandle + 1 :=
      fun _ hLe => (Int.lt_add_one_of_le hLe).ne
    refine bound_attach hCounted hNew (driver_of_notMem fun hIn => ?_) (fun hIn => ?_) (le_refl _)
      (fun hGone => ?_) hUp
    · exact hUnused _ (hBound.numbered _ hIn) rfl
    · exact hUnused _ (hBound.retiring _ hIn).2.2 rfl
    · exact hUnused _ (hBound.gone _ hGone).2.2 rfl

/-- A pipeline that comes leaves the primary driven. -/
theorem driver_bindDisplay (hBound : Bound s) (hNew : p ∉ s.displayHandles)
    (hTakes : s.Takes p inits) :
    ((s.bindDisplay p inits).2.driver kPrimaryDisplay).isSome = true := by
  obtain ⟨hUp, hRoom⟩ := hTakes hNew
  cases hPrimary : s.driver kPrimaryDisplay with
  | none => rw [bindDisplay_primary hNew hPrimary, driver_attach_up hUp, if_pos rfl]; rfl
  | some q =>
    have hDriven : s.primaryDriven = true := by rw [primaryDriven_eq, hPrimary]; rfl
    have hOther : kPrimaryDisplay ≠ s.lastDisplayHandle + 1 :=
      (Int.lt_add_one_of_le hBound.counted).ne
    rw [bindDisplay_next hBound hNew hDriven (hRoom hDriven), driver_attach_up hUp, if_neg hOther]
    show (s.driver kPrimaryDisplay).isSome = true
    rw [hPrimary]
    rfl

/-- The primary is driven, or no pipeline is recorded. -/
def Seated (s : Hwc) : Prop := s.driver kPrimaryDisplay = none → ∀ p, p ∉ s.displayHandles

theorem seated_bindDisplay (hBound : Bound s) (hSeated : Seated s) (hTakes : s.Takes p inits) :
    Seated (s.bindDisplay p inits).2 := by
  by_cases hNew : p ∈ s.displayHandles
  · rw [bindDisplay_recorded hNew]
    exact hSeated
  · intro hIdle
    have hDriven := driver_bindDisplay hBound hNew hTakes
    rw [hIdle] at hDriven
    cases hDriven

/-- Binding counts one handle at most. -/
theorem nextHandle_bindDisplay (hBound : Bound s) (hTakes : s.Takes p inits) :
    (s.bindDisplay p inits).2.nextHandle.2 ≤ s.nextHandle.2 + 1 := by
  by_cases hNew : p ∈ s.displayHandles
  · rw [bindDisplay_recorded hNew]
    exact Int.le_add_one (le_refl _)
  have hDrivenAfter : (s.bindDisplay p inits).2.primaryDriven = true := by
    rw [primaryDriven_eq]
    exact driver_bindDisplay hBound hNew hTakes
  cases hDriven : s.primaryDriven with
  | false =>
    have hPrimary : s.driver kPrimaryDisplay = none := by
      rwa [primaryDriven_eq, Option.isSome_eq_false_iff, Option.isNone_iff_eq_none] at hDriven
    rw [nextHandle, hDrivenAfter, bindDisplay_primary hNew hPrimary, nextHandle, hDriven]
    exact Int.add_le_add_right (attach_frame s p kPrimaryDisplay inits).2.2.1.le 1
  | true =>
    rw [nextHandle, hDrivenAfter, bindDisplay_next hBound hNew hDriven ((hTakes hNew).2 hDriven),
      nextHandle, hDriven]
    exact Int.add_le_add_right (attach_frame _ p _ inits).2.2.1.le 1

/-- What unbinding a pipeline that drives a display comes to. -/
theorem unbindDisplay_driving (hBound : Bound s) (hRecorded : s.displayHandles.lookup p = some handle) :
    (s.unbindDisplay p).2 =
      let t := { s with displayHandles := s.displayHandles.erase p }.setPipeline handle none
      if handle = kPrimaryDisplay then t
      else { t with displaysForRemoval := s.displaysForRemoval ++ [handle] } := by
  have hMem : handle ∈ s.displays := mem_of_driver ((hBound.recorded p handle).mp hRecorded)
  have hList := (setPipeline_frame { s with displayHandles := s.displayHandles.erase p } handle none
    (fun _ => true)).2.1
  simp only [unbindDisplay, hRecorded, hMem, not_true_eq_false, if_false, hList]

/-- What unbinding leaves as it was, and what it puts up for removal. -/
theorem unbindDisplay_frame (hBound : Bound s)
    (hRecorded : s.displayHandles.lookup p = some handle) :
    (s.unbindDisplay p).2.displayHandles = s.displayHandles.erase p ∧
      (s.unbindDisplay p).2.displaysForRemoval =
        (if handle = kPrimaryDisplay then s.displaysForRemoval
        else s.displaysForRemoval ++ [handle]) ∧
      (s.unbindDisplay p).2.lastDisplayHandle = s.lastDisplayHandle ∧
      (s.unbindDisplay p).2.history = s.history := by
  obtain ⟨hHandles, hRemoval, hLast, hHistory⟩ := setPipeline_frame
    { s with displayHandles := s.displayHandles.erase p } handle none (fun _ => true)
  rw [unbindDisplay_driving hBound hRecorded]
  dsimp only
  split
  · exact ⟨hHandles, hRemoval, hLast, hHistory⟩
  · exact ⟨hHandles, rfl, hLast, hHistory⟩

/-- A pipeline that goes leaves its display with nothing that drives it. -/
theorem driver_unbindDisplay (hBound : Bound s)
    (hRecorded : s.displayHandles.lookup p = some handle) :
    (s.unbindDisplay p).2.driver other = if other = handle then none else s.driver other := by
  have hMem : handle ∈ s.displays := mem_of_driver ((hBound.recorded p handle).mp hRecorded)
  have hDriver : ({ s with displayHandles := s.displayHandles.erase p }.setPipeline handle none).driver
      other = if other = handle then settled none (fun _ => true) else s.driver other :=
    driver_setPipeline hMem
  have hNone : settled none (fun _ => true) = none := by simp [settled]
  rw [hNone] at hDriver
  rw [unbindDisplay_driving hBound hRecorded]
  dsimp only
  split <;> exact hDriver

theorem mem_displays_unbindDisplay (hBound : Bound s)
    (hRecorded : s.displayHandles.lookup p = some handle) :
    other ∈ (s.unbindDisplay p).2.displays ↔ other ∈ s.displays := by
  rw [unbindDisplay_driving hBound hRecorded]
  dsimp only
  split <;> exact mem_setPipeline

theorem unbindDisplay_physical (hBound : Bound s)
    (hRecorded : s.displayHandles.lookup p = some handle) :
    ∀ other d, (s.unbindDisplay p).2.displays.lookup other = some d → d.isVirtual = false := by
  rw [unbindDisplay_driving hBound hRecorded]
  dsimp only
  split <;> exact setPipeline_physical hBound.physical

theorem unbindDisplay_unrecorded (hNot : s.displayHandles.lookup p = none) :
    s.unbindDisplay p = (false, s) := by
  simp [unbindDisplay, hNot]

theorem mem_unbindDisplay (hBound : Bound s) {q : Pipeline} :
    q ∈ (s.unbindDisplay p).2.displayHandles ↔ q ≠ p ∧ q ∈ s.displayHandles := by
  cases hRecorded : s.displayHandles.lookup p with
  | none =>
    have hNot : p ∉ s.displayHandles := AList.lookup_eq_none.mp hRecorded
    rw [unbindDisplay_unrecorded hRecorded]
    exact ⟨fun hIn => ⟨fun hSame => hNot (hSame ▸ hIn), hIn⟩, And.right⟩
  | some handle => rw [(unbindDisplay_frame hBound hRecorded).1, AList.mem_erase]

theorem lastDisplayHandle_unbindDisplay (hBound : Bound s) :
    (s.unbindDisplay p).2.lastDisplayHandle = s.lastDisplayHandle := by
  cases hRecorded : s.displayHandles.lookup p with
  | none => rw [unbindDisplay_unrecorded hRecorded]
  | some handle => exact (unbindDisplay_frame hBound hRecorded).2.2.1

theorem bound_unbindDisplay (hBound : Bound s) : Bound (s.unbindDisplay p).2 := by
  cases hRecorded : s.displayHandles.lookup p with
  | none =>
    rw [unbindDisplay_unrecorded hRecorded]
    exact hBound
  | some handle =>
    have hHeld := (hBound.recorded p handle).mp hRecorded
    obtain ⟨hHandles, hRemoval, hLast, hHistory⟩ := unbindDisplay_frame hBound hRecorded
    -- what is up for removal: what was, and the display let go
    have hListed : ∀ other, other ∈ (s.unbindDisplay p).2.displaysForRemoval ↔
        other ∈ s.displaysForRemoval ∨ other = handle ∧ handle ≠ kPrimaryDisplay := by
      intro other
      rw [hRemoval]
      split
      · next hPrimary => simp [hPrimary]
      · next hOther => simp [hOther]
    constructor
    case physical => exact unbindDisplay_physical hBound hRecorded
    case recorded =>
      intro q other
      rw [hHandles, driver_unbindDisplay hBound hRecorded]
      by_cases hSame : q = p
      · subst hSame
        rw [AList.lookup_erase]
        by_cases hEq : other = handle
        · simp [hEq]
        · rw [if_neg hEq, ← hBound.recorded, hRecorded]
          simpa using Ne.symm hEq
      · rw [AList.lookup_erase_ne hSame, hBound.recorded]
        by_cases hEq : other = handle
        · simp [hEq, hHeld, Ne.symm hSame]
        · rw [if_neg hEq]
    case idle =>
      intro other hIn hOther hIdle
      rw [mem_displays_unbindDisplay hBound hRecorded] at hIn
      rw [driver_unbindDisplay hBound hRecorded] at hIdle
      rw [hListed]
      by_cases hEq : other = handle
      · exact .inr ⟨hEq, hEq ▸ hOther⟩
      · rw [if_neg hEq] at hIdle
        exact .inl (hBound.idle other hIn hOther hIdle)
    case retiring =>
      intro other hIn
      rw [driver_unbindDisplay hBound hRecorded, hLast]
      rcases (hListed other).mp hIn with hIn | ⟨rfl, hOther⟩
      · obtain ⟨hIdle, hRest⟩ := hBound.retiring other hIn
        rw [hIdle, ite_self]
        exact ⟨rfl, hRest⟩
      · rw [if_pos rfl]
        exact ⟨rfl, hOther, hBound.numbered other (mem_of_driver hHeld)⟩
    case numbered =>
      intro other hIn
      rw [mem_displays_unbindDisplay hBound hRecorded] at hIn
      rw [hLast]
      exact hBound.numbered other hIn
    case counted => exact hLast ▸ hBound.counted
    case gone =>
      intro other hGone
      rw [hHistory] at hGone
      rw [hLast, mem_displays_unbindDisplay hBound hRecorded]
      exact hBound.gone other hGone
    case fresh => exact hHistory ▸ hBound.fresh

-- ---------------------------------------------------------------------------
-- The end of a cycle
-- ---------------------------------------------------------------------------

theorem driver_ensurePrimary : s.ensurePrimary.driver other = s.driver other := by
  unfold ensurePrimary
  split
  · rfl
  · next hNot =>
    have hGiven : kPrimaryDisplay ∈ (s.give kPrimaryDisplay false).displays := by simp [give]
    rw [driver_setPipeline hGiven, driver_give]
    by_cases hEq : other = kPrimaryDisplay
    · subst hEq
      simp [settled, driver_of_notMem hNot]
    · rw [if_neg hEq, if_neg hEq]

theorem mem_ensurePrimary :
    other ∈ s.ensurePrimary.displays ↔ other = kPrimaryDisplay ∨ other ∈ s.displays := by
  unfold ensurePrimary
  split
  · next hIn =>
    exact ⟨.inr, fun hOr => hOr.elim (fun hEq => hEq ▸ hIn) id⟩
  · rw [mem_setPipeline]
    exact AList.mem_insert _

/-- Making the primary leaves the rest as it was. -/
theorem ensurePrimary_frame (s : Hwc) :
    s.ensurePrimary.displayHandles = s.displayHandles ∧
      s.ensurePrimary.displaysForRemoval = s.displaysForRemoval ∧
      s.ensurePrimary.lastDisplayHandle = s.lastDisplayHandle ∧
      s.ensurePrimary.history =
        if kPrimaryDisplay ∈ s.displays then s.history
        else s.history ++ [.given kPrimaryDisplay] := by
  unfold ensurePrimary
  split
  · exact ⟨rfl, rfl, rfl, rfl⟩
  · exact setPipeline_frame (s.give kPrimaryDisplay false) kPrimaryDisplay none (fun _ => true)

theorem bound_ensurePrimary (hBound : Bound s) : Bound s.ensurePrimary := by
  obtain ⟨hHandles, hRemoval, hLast, hHistory⟩ := ensurePrimary_frame s
  have hKept : .removed kPrimaryDisplay ∉ s.history := fun hGone => (hBound.gone _ hGone).2.1 rfl
  constructor
  case physical =>
    unfold ensurePrimary
    split
    · exact hBound.physical
    · exact setPipeline_physical (give_physical hBound.physical)
  case recorded =>
    intro p handle
    rw [hHandles, driver_ensurePrimary]
    exact hBound.recorded p handle
  case idle =>
    intro handle hIn hOther hIdle
    rw [driver_ensurePrimary] at hIdle
    rw [hRemoval]
    exact hBound.idle handle ((mem_ensurePrimary.mp hIn).resolve_left hOther) hOther hIdle
  case retiring =>
    intro handle hIn
    rw [hRemoval] at hIn
    rw [driver_ensurePrimary, hLast]
    exact hBound.retiring handle hIn
  case numbered =>
    intro handle hIn
    rw [hLast]
    rcases mem_ensurePrimary.mp hIn with rfl | hIn
    · exact hBound.counted
    · exact hBound.numbered handle hIn
  case counted => exact hLast ▸ hBound.counted
  case gone =>
    intro handle hGone
    rw [hHistory] at hGone
    obtain ⟨hNot, hOther, hBelow⟩ := hBound.gone handle (removed_of_given hGone)
    rw [hLast, mem_ensurePrimary]
    exact ⟨fun hIn => hNot (hIn.resolve_left hOther), hOther, hBelow⟩
  case fresh =>
    rw [hHistory]
    exact fresh_given hBound.fresh hKept

theorem notMem_of_min (hNone : s.displayHandles.keys.min? = none) (p : Pipeline) :
    p ∉ s.displayHandles := by
  rw [List.min?_eq_none_iff] at hNone
  rw [AList.mem_keys, hNone]
  exact List.not_mem_nil

/-- The primary takes a pipeline where it can. -/
theorem bound_reattach (again : Inits) (hBound : Bound s)
    (hUp : s.primaryDriven = false → s.displayHandles.keys ≠ [] → comesUp again = true) :
    Bound (s.reattach again) ∧ Seated (s.reattach again) ∧
      (kPrimaryDisplay ∈ s.displays → kPrimaryDisplay ∈ (s.reattach again).displays) := by
  unfold reattach
  cases hMin : s.displayHandles.keys.min? with
  | none => exact ⟨hBound, fun _ => notMem_of_min hMin, id⟩
  | some p =>
    dsimp only
    split
    · next hDriven =>
      rw [primaryDriven_eq, Option.isSome_iff_ne_none] at hDriven
      exact ⟨hBound, fun hIdle => absurd hIdle hDriven, id⟩
    · next hIdle =>
      rw [Bool.not_eq_true] at hIdle
      have hListed : p ∈ s.displayHandles.keys := List.min?_mem hMin
      have hUp := hUp hIdle (List.ne_nil_of_mem hListed)
      rw [primaryDriven_eq, Option.isSome_eq_false_iff, Option.isNone_iff_eq_none] at hIdle
      obtain ⟨handle, hRecorded⟩ := Option.isSome_iff_exists.mp
        (AList.lookup_isSome.mpr (AList.mem_keys.mpr hListed))
      -- let go of by its own display, it finds the primary still idle
      have hFreed : p ∉ (s.unbindDisplay p).2.displayHandles := fun hIn =>
        ((mem_unbindDisplay hBound).mp hIn).1 rfl
      have hStill : (s.unbindDisplay p).2.driver kPrimaryDisplay = none := by
        rw [driver_unbindDisplay hBound hRecorded, hIdle, ite_self]
      have hTakes : (s.unbindDisplay p).2.Takes p again := by
        refine fun _ => ⟨hUp, fun hDriven => ?_⟩
        rw [primaryDriven_eq, hStill] at hDriven
        cases hDriven
      refine ⟨bound_bindDisplay (bound_unbindDisplay hBound) hTakes, fun hNone => ?_, fun _ => ?_⟩
      · have hDriven := driver_bindDisplay (bound_unbindDisplay hBound) hFreed hTakes
        rw [hNone] at hDriven
        cases hDriven
      · rw [bindDisplay_primary hFreed hStill]
        exact mem_attach.mpr (.inl rfl)

/-- A display that nothing drives is taken back. -/
theorem bound_remove (hBound : Bound s) (hIn : handle ∈ s.displaysForRemoval) :
    Bound (s.remove handle) := by
  obtain ⟨hIdle, hOther, hBelow⟩ := hBound.retiring handle hIn
  have hDriver : ∀ other, (s.remove handle).driver other = s.driver other := by
    intro other
    rw [driver_remove]
    split
    · next hEq => rw [hEq, hIdle]
    · rfl
  have hMem : ∀ other, other ∈ (s.remove handle).displays ↔ other ≠ handle ∧ other ∈ s.displays :=
    fun other => AList.mem_erase
  constructor
  case physical => exact remove_physical hBound.physical
  case recorded =>
    intro p other
    rw [hDriver]
    exact hBound.recorded p other
  case idle =>
    intro other hLeft hNotPrimary hNone
    rw [hDriver] at hNone
    exact hBound.idle other ((hMem other).mp hLeft).2 hNotPrimary hNone
  case retiring =>
    intro other hListed
    rw [hDriver]
    exact hBound.retiring other hListed
  case numbered => exact fun other hLeft => hBound.numbered other ((hMem other).mp hLeft).2
  case counted => exact hBound.counted
  case gone =>
    intro other hGone
    rw [hMem]
    rcases List.mem_append.mp hGone with hGone | hGone
    · obtain ⟨hNot, hRest⟩ := hBound.gone other hGone
      exact ⟨fun hLeft => hNot hLeft.2, hRest⟩
    · obtain rfl : other = handle := by simpa using hGone
      exact ⟨fun hLeft => hLeft.1 rfl, hOther, hBelow⟩
  case fresh => exact follows_concat.mpr ⟨hBound.fresh, trivial⟩

/-- The loop over the displays put up for removal. -/
theorem bound_removes (handles : List DisplayHandle) (hBound : Bound s)
    (hAll : ∀ handle ∈ handles, handle ∈ s.displaysForRemoval) :
    Bound (handles.foldl remove s) ∧
      (handles.foldl remove s).displaysForRemoval = s.displaysForRemoval ∧
      (handles.foldl remove s).displayHandles = s.displayHandles ∧
      (handles.foldl remove s).lastDisplayHandle = s.lastDisplayHandle ∧
      ∀ other, other ∈ (handles.foldl remove s).displays ↔
        other ∉ handles ∧ other ∈ s.displays := by
  induction handles generalizing s with
  | nil => exact ⟨hBound, rfl, rfl, rfl, fun _ => by simp⟩
  | cons handle handles ih =>
    obtain ⟨hHere, hRest⟩ := List.forall_mem_cons.mp hAll
    obtain ⟨hKept, hRemoval, hHandles, hLast, hMem⟩ := ih (bound_remove hBound hHere) hRest
    refine ⟨hKept, hRemoval, hHandles, hLast, fun other => ?_⟩
    rw [List.foldl_cons, hMem, List.mem_cons, not_or, and_comm (a := other ≠ handle), and_assoc]
    exact and_congr_right fun _ => AList.mem_erase

/-- Once the displays put up for removal are gone, what is left is paired. -/
theorem removeAll_paired (hBound : Bound s) (hPrimary : kPrimaryDisplay ∈ s.displays)
    (hSeated : Seated s) : Bound s.removeAll ∧ Paired s.removeAll := by
  obtain ⟨hLeft, hRemoval, hHandles, hLast, hMem⟩ :=
    bound_removes s.displaysForRemoval hBound fun _ hIn => hIn
  have hDriven : ∀ handle ∈ s.removeAll.displays, handle ≠ kPrimaryDisplay →
      s.removeAll.driver handle ≠ none := by
    intro handle hIn hOther hIdle
    have hListed := hLeft.idle handle hIn hOther hIdle
    rw [hRemoval] at hListed
    exact ((hMem handle).mp hIn).1 hListed
  have hKept : Bound s.removeAll :=
    { physical := hLeft.physical
      recorded := hLeft.recorded
      idle := fun handle hIn hOther hIdle => absurd hIdle (hDriven handle hIn hOther)
      retiring := fun _ hIn => absurd hIn List.not_mem_nil
      numbered := hLeft.numbered
      counted := hLeft.counted
      gone := hLeft.gone
      fresh := hLeft.fresh }
  refine ⟨hKept, ?_⟩
  constructor
  case primary =>
    exact (hMem kPrimaryDisplay).mpr
      ⟨fun hIn => (hBound.retiring kPrimaryDisplay hIn).2.1 rfl, hPrimary⟩
  case headless =>
    intro hIdle p
    have hNone : s.driver kPrimaryDisplay = none := by
      by_contra hSome
      obtain ⟨q, hq⟩ := Option.ne_none_iff_exists'.mp hSome
      have hRecorded := (hBound.recorded q kPrimaryDisplay).mpr hq
      rw [← hHandles] at hRecorded
      have hStill := (hKept.recorded q kPrimaryDisplay).mp hRecorded
      rw [hIdle] at hStill
      cases hStill
    show p ∉ (s.displaysForRemoval.foldl remove s).displayHandles
    rw [hHandles]
    exact hSeated hNone p
  case apart =>
    intro p q handle hp hq
    have hDriver := (hKept.recorded p handle).mp hp
    rw [(hKept.recorded q handle).mp hq] at hDriver
    exact (Option.some.inj hDriver).symm
  case held =>
    intro handle d hd _ hOther
    have hIn : handle ∈ s.removeAll.displays := AList.lookup_isSome.mp (by rw [hd]; rfl)
    obtain ⟨p, hp⟩ := Option.ne_none_iff_exists'.mp (hDriven handle hIn hOther)
    refine ⟨p, ?_, (hKept.recorded p handle).mpr hp⟩
    rwa [driver, hd, Option.bind_some] at hp
  case noneLeft => rfl

theorem finalizeDisplayBinding_paired (again : Inits) (hBound : Bound s)
    (hUp : s.primaryDriven = false → s.displayHandles.keys ≠ [] → comesUp again = true) :
    Bound (s.finalizeDisplayBinding again) ∧ Paired (s.finalizeDisplayBinding again) := by
  have hMade : kPrimaryDisplay ∈ s.ensurePrimary.displays := mem_ensurePrimary.mpr (.inl rfl)
  obtain ⟨hKept, hSeated, hStays⟩ := bound_reattach again (bound_ensurePrimary hBound)
    (by rwa [primaryDriven_eq, driver_ensurePrimary, ← primaryDriven_eq, (ensurePrimary_frame s).1])
  exact removeAll_paired hKept (hStays hMade) hSeated

/-- With nothing recorded there is nothing to reattach: no handle is counted. -/
theorem finalizeDisplayBinding_empty (again : Inits) (hBound : Bound s)
    (hEmpty : ∀ p, p ∉ s.displayHandles) :
    (s.finalizeDisplayBinding again).lastDisplayHandle = s.lastDisplayHandle ∧
      ∀ p, p ∉ (s.finalizeDisplayBinding again).displayHandles := by
  obtain ⟨hHandles, hRemoval, hLast, -⟩ := ensurePrimary_frame s
  have hNone : s.ensurePrimary.displayHandles.keys.min? = none := by
    rw [hHandles, List.min?_eq_none_iff, List.eq_nil_iff_forall_not_mem]
    exact fun p hIn => hEmpty p (AList.mem_keys.mpr hIn)
  obtain ⟨-, -, hHandlesLeft, hLastLeft, -⟩ := bound_removes
    s.ensurePrimary.displaysForRemoval (bound_ensurePrimary hBound) fun _ hIn => hIn
  have hEq : s.finalizeDisplayBinding again = s.ensurePrimary.removeAll := by
    rw [finalizeDisplayBinding, reattach, hNone]
  rw [hEq]
  refine ⟨hLastLeft.trans hLast, fun p => ?_⟩
  show p ∉ (s.ensurePrimary.displaysForRemoval.foldl remove s.ensurePrimary).displayHandles
  rw [hHandlesLeft, hHandles]
  exact hEmpty p

-- ---------------------------------------------------------------------------
-- The hardware looked at anew
-- ---------------------------------------------------------------------------

/-- Letting go of some pipelines, one after the other. -/
theorem bound_detach (pipelines : List Pipeline) (hBound : Bound s) :
    Bound (pipelines.foldl (fun s p => (s.unbindDisplay p).2) s) ∧
      (pipelines.foldl (fun s p => (s.unbindDisplay p).2) s).lastDisplayHandle =
        s.lastDisplayHandle ∧
      ∀ q, q ∈ (pipelines.foldl (fun s p => (s.unbindDisplay p).2) s).displayHandles ↔
        q ∉ pipelines ∧ q ∈ s.displayHandles := by
  induction pipelines generalizing s with
  | nil => exact ⟨hBound, rfl, fun _ => by simp⟩
  | cons p pipelines ih =>
    obtain ⟨hKept, hLast, hMem⟩ := ih (bound_unbindDisplay (p := p) hBound)
    refine ⟨hKept, hLast.trans (lastDisplayHandle_unbindDisplay hBound), fun q => ?_⟩
    rw [List.foldl_cons, hMem, mem_unbindDisplay hBound, List.mem_cons, not_or, and_left_comm,
      and_assoc]

/-- After it, nothing is recorded. -/
theorem bound_detachAll (hBound : Bound s) :
    Bound s.detachAll ∧ s.detachAll.lastDisplayHandle = s.lastDisplayHandle ∧
      ∀ p, p ∉ s.detachAll.displayHandles := by
  obtain ⟨hKept, hLast, hMem⟩ :=
    bound_detach (s.displayHandles.keys.insertionSort (· ≤ ·)) hBound
  refine ⟨hKept, hLast, fun p hIn => ?_⟩
  obtain ⟨hNot, hOld⟩ := (hMem p).mp hIn
  exact hNot ((List.mem_insertionSort (· ≤ ·)).mpr (AList.mem_keys.mp hOld))

/-- Every connector's pipeline comes up, and the handles they may use fit. -/
def AllTake (s : Hwc) (connectors : List (Option (Pipeline × Inits))) : Prop :=
  (∀ connector ∈ connectors.reduceOption, comesUp connector.2 = true) ∧
    s.nextHandle.2 + connectors.reduceOption.length ≤ 2 ^ 32

/-- The connectors' pipelines are bound, one after the other. -/
theorem bound_attachAll {connectors : List (Option (Pipeline × Inits))} (hBound : Bound s)
    (hSeated : Seated s) (hAll : s.AllTake connectors) :
    Bound (s.attachAll connectors) ∧ Seated (s.attachAll connectors) := by
  induction connectors generalizing s with
  | nil => exact ⟨hBound, hSeated⟩
  | cons connector connectors ih =>
    obtain ⟨hUp, hRoom⟩ := hAll
    cases connector with
    | none =>
      rw [List.reduceOption_cons_of_none] at hUp hRoom
      exact ih hBound hSeated ⟨hUp, hRoom⟩
    | some connector =>
      obtain ⟨p, inits⟩ := connector
      rw [List.reduceOption_cons_of_some] at hUp hRoom
      obtain ⟨hHere, hRest⟩ := List.forall_mem_cons.mp hUp
      rw [List.length_cons, Int.natCast_succ, Int.add_comm _ 1, ← Int.add_assoc] at hRoom
      have hFits : s.nextHandle.2 < 2 ^ 32 :=
        Int.lt_of_add_one_le ((Int.le_add_of_nonneg_right (Int.natCast_nonneg _)).trans hRoom)
      have hTakes : s.Takes p inits := by
        refine fun _ => ⟨hHere, fun hDriven => ?_⟩
        rwa [nextHandle, hDriven] at hFits
      exact ih (bound_bindDisplay hBound hTakes) (seated_bindDisplay hBound hSeated hTakes)
        ⟨hRest, (Int.add_le_add_right (nextHandle_bindDisplay hBound hTakes) _).trans hRoom⟩

theorem not_driven_of_empty (hBound : Bound s) (hEmpty : ∀ p, p ∉ s.displayHandles) :
    s.driver handle = none := by
  by_contra hSome
  obtain ⟨p, hp⟩ := Option.ne_none_iff_exists'.mp hSome
  have hRecorded := (hBound.recorded p handle).mpr hp
  exact hEmpty p (AList.lookup_isSome.mp (by rw [hRecorded]; rfl))

theorem keys_of_empty (hEmpty : ∀ p, p ∉ s.displayHandles) : s.displayHandles.keys = [] :=
  List.eq_nil_iff_forall_not_mem.mpr fun p hIn => hEmpty p (AList.mem_keys.mpr hIn)

/-- All is let go, and what comes up is bound. -/
theorem init_paired (hardware : Hardware) (again : Inits) (hBound : Bound s)
    (hFound : ∀ connectors, hardware = .found connectors →
      (∀ connector ∈ connectors.reduceOption, comesUp connector.2 = true) ∧
        s.lastDisplayHandle + connectors.reduceOption.length ≤ 2 ^ 32) :
    Bound (s.init hardware again).2 ∧ Paired (s.init hardware again).2 := by
  obtain ⟨hFreed, hLast, hEmpty⟩ := bound_detachAll hBound
  have hFirst := finalizeDisplayBinding_paired again hFreed
    fun _ hSome => absurd (keys_of_empty hEmpty) hSome
  obtain ⟨hCount, hBare⟩ := finalizeDisplayBinding_empty again hFreed hEmpty
  cases hardware with
  | none => exact hFirst
  | unreadable => exact hFirst
  | found connectors =>
    obtain ⟨hUp, hRoom⟩ := hFound connectors rfl
    have hAll : (s.detachAll.finalizeDisplayBinding again).AllTake connectors := by
      refine ⟨hUp, ?_⟩
      rw [nextHandle, primaryDriven_eq, not_driven_of_empty hFirst.1 hBare, hCount, hLast]
      exact hRoom
    obtain ⟨hKept, hSeated⟩ := bound_attachAll hFirst.1 (fun _ => hBare) hAll
    refine finalizeDisplayBinding_paired again hKept fun hIdle hSome => ?_
    rw [primaryDriven_eq, Option.isSome_eq_false_iff, Option.isNone_iff_eq_none] at hIdle
    exact absurd (keys_of_empty (hSeated hIdle)) hSome

-- ---------------------------------------------------------------------------
-- Over every run
-- ---------------------------------------------------------------------------

/-- Every display that an action gives a pipeline comes up with it, at once or at one
of the retries, and the handles the action may use fit 32 bits. -/
def Fits (s : Hwc) : Action → Prop
  | .init (.found connectors) _ =>
    (∀ connector ∈ connectors.reduceOption, comesUp connector.2 = true) ∧
      s.lastDisplayHandle + connectors.reduceOption.length ≤ 2 ^ 32
  | .bindDisplay pipeline inits => s.Takes pipeline inits
  | .finalizeDisplayBinding again =>
    s.primaryDriven = false → s.displayHandles.keys ≠ [] → comesUp again = true
  | .init .none _ | .init .unreadable _ | .unbindDisplay _ | .createVirtualDisplay _
  | .destroyVirtualDisplay _ => True

instance decidableFits (s : Hwc) : ∀ action, Decidable (s.Fits action)
  | .init (.found _) _ => inferInstanceAs (Decidable (_ ∧ _))
  | .bindDisplay pipeline inits => decidableTakes s pipeline inits
  | .finalizeDisplayBinding _ => inferInstanceAs (Decidable (_ → _ → _))
  | .init .none _ | .init .unreadable _ | .unbindDisplay _ | .createVirtualDisplay _
  | .destroyVirtualDisplay _ => .isTrue trivial

/-- There are no virtual displays to destroy. -/
theorem destroyVirtualDisplay_physical (hBound : Bound s) :
    s.destroyVirtualDisplay handle = (false, s) := by
  unfold destroyVirtualDisplay
  cases hd : s.displays.lookup handle with
  | none => rfl
  | some d => simp [hBound.physical handle d hd]

theorem bound_step {action : Action} (hBound : Bound s) (hFits : s.Fits action) :
    Bound (s.step action) ∧ (action.endsCycle = true → Paired (s.step action)) := by
  cases action with
  | init hardware again =>
    have hBoth := init_paired hardware again hBound
      fun connectors hEq => by subst hEq; exact hFits
    exact ⟨hBoth.1, fun _ => hBoth.2⟩
  | bindDisplay p inits => exact ⟨bound_bindDisplay hBound hFits, nofun⟩
  | unbindDisplay p => exact ⟨bound_unbindDisplay hBound, nofun⟩
  | createVirtualDisplay inits => exact ⟨hBound, nofun⟩
  | destroyVirtualDisplay handle =>
    refine ⟨?_, nofun⟩
    rw [step, destroyVirtualDisplay_physical hBound]
    exact hBound
  | finalizeDisplayBinding again =>
    have hBoth := finalizeDisplayBinding_paired again hBound hFits
    exact ⟨hBoth.1, fun _ => hBoth.2⟩

/-- **Displays and pipelines stay paired.** In every run in which every display comes
up with the pipeline it is given and the handles fit 32 bits, every cycle of attaching
and detaching ends with displays and pipelines paired, and no handle taken back is
given again. -/
theorem displayBinding_paired {actions : List Action}
    (hMeets : machine.Meets Fits {} actions) (hRun : machine.run {} actions = some s) :
    (∀ t ∈ machine.trace {} actions, Paired t) ∧ Follows Fresh s.history := by
  have hAll := Machine.run_history_of_meets (I := fun ends s => Bound s ∧ ∀ t ∈ ends, Paired t)
    (h := []) (fun ends s action s' hI hFits hStep => by
      obtain ⟨hBound, hEnds⟩ := hI
      obtain rfl := Option.some.inj hStep
      obtain ⟨hKept, hPaired⟩ := bound_step hBound hFits
      refine ⟨hKept, fun t ht => ?_⟩
      rcases List.mem_append.mp ht with ht | ht
      · exact hEnds t ht
      · change t ∈ (if action.endsCycle then [s.step action] else []) at ht
        split at ht
        · next hEnd => exact List.mem_singleton.mp ht ▸ hPaired hEnd
        · exact absurd ht List.not_mem_nil)
    ⟨bound_init, fun _ ht => absurd ht List.not_mem_nil⟩ hMeets hRun
  exact ⟨hAll.2, hAll.1.fresh⟩

/-- Two displays come up; the primary's pipeline goes and the other moves there; the
hardware is looked at anew. -/
def replugged : List Action :=
  [.init (.found [some (1, fun _ => true), none, some (2, fun attempt => decide (0 < attempt))])
      fun _ => true,
    .unbindDisplay 1, .bindDisplay 3 fun _ => true, .unbindDisplay 3,
    .finalizeDisplayBinding fun _ => true,
    .init (.found [some (4, fun _ => true)]) fun _ => true]

theorem displayBinding_paired_replugged :
    ∃ s, machine.run {} replugged = some s ∧
      (∀ t ∈ machine.trace {} replugged, Paired t) ∧ Follows Fresh s.history :=
  ⟨_, rfl, displayBinding_paired (by decide) rfl⟩

/-- The first of two displays does not come up: the primary is given to both. -/
theorem primary_shared : ¬∀ (actions : List Action) (s : Hwc),
    machine.run {} actions = some s → ∀ t ∈ machine.trace {} actions, Paired t := by
  intro h
  have hPaired := h
    [.init (.found [some (1, fun _ => false), some (2, fun _ => true)]) fun _ => true]
    _ rfl _ (List.mem_singleton.mpr rfl)
  exact absurd (hPaired.apart 1 2 kPrimaryDisplay rfl rfl) (by decide)

end TegraHwc.Hwc
