import TegraHwc.Hwc.PlanReuse

/-!
# TegraHwc — a present after a validation

`PresentDisplay` of `hwc2_device/hwc2_device.cpp` presents what a validation
staged and asks nothing of it; where nothing is staged it may validate by
itself, and otherwise sends the client to. A validation stages something
wherever there is a panel and a layer to show, and what is staged stays until a
present, another validation or the end of the pipeline: no call about a layer
takes it away. The client may not touch the layers between the two, and whether
it did is not looked at.

## Results

* `calls_keep_staged`              — no call about a layer unstages.
* `presentDisplay_after_validation` — what is staged is presented.
-/

namespace TegraHwc.HwcDisplay

variable {c : DisplayConfig}

-- ---------------------------------------------------------------------------
-- What a present answers
-- ---------------------------------------------------------------------------

/-- The errors of `HWC2::Error` a present is answered with. -/
inductive Hwc2Error where
  | none
  | badDisplay
  | notValidated
  deriving DecidableEq, Repr

/-- The branches of `PresentStagedComposition`. -/
inductive PresentBranch where
  | headless
  | noLayers
  | commit (composition : ValidatedComposition)
  deriving DecidableEq, Repr

/-- The branch a present of the display takes. -/
def presentBranch (s : HwcDisplay) : PresentBranch :=
  if s.headless then .headless
  else if s.layers = [] then .noLayers
  else
    .commit
      (match s.validatedComposition with
        | some composition => composition
        | none => s.compositionOfTypes)

/-- What `PresentStagedComposition` answers. -/
def presented (s : HwcDisplay) (p : Presentation) : Bool :=
  match s.presentBranch with
  | .headless => true
  | .noLayers => true
  | .commit _ => p.described && p.committed

/-- What `PresentDisplay` answers once something is staged, and the branch it
came to. -/
def answerStaged (s : HwcDisplay) (p : Presentation) : Hwc2Error × Option PresentBranch :=
  (if s.presented p then .none else .badDisplay, some s.presentBranch)

variable (c) in
/-- What `PresentDisplay` answers, and the branch it came to. -/
def presentDisplayAnswer (s : HwcDisplay) (p : Presentation) :
    Hwc2Error × Option PresentBranch :=
  if s.validatedComposition.isSome then s.answerStaged p
  else
    match s.validateForPresentWithoutValidation c p with
    | (true, s') => s'.answerStaged p
    | (false, _) => (.notValidated, none)

/-- A present leaves what its branch does. -/
theorem presentStagedComposition_branch (s : HwcDisplay) (p : Presentation) :
    s.presentStagedComposition c p =
      match s.presentBranch with
      | .headless => s
      | .noLayers => s
      | .commit composition => s.commitStagedComposition c p composition := by
  unfold presentStagedComposition presentBranch
  by_cases hHeadless : s.headless = true
  · simp [hHeadless]
  · by_cases hLayers : s.layers = []
    · simp [hHeadless, hLayers]
    · cases s.validatedComposition <;> simp [hHeadless, hLayers]

/-- One answered that nothing is validated presents nothing. -/
theorem presentDisplay_notValidated {s : HwcDisplay} {p : Presentation}
    (h : (s.presentDisplayAnswer c p).1 = .notValidated) :
    s.presentDisplay c p = (s.validateForPresentWithoutValidation c p).2 := by
  have hStaged : ∀ t : HwcDisplay, (t.answerStaged p).1 ≠ .notValidated := by
    intro t
    unfold answerStaged
    split <;> simp
  unfold presentDisplayAnswer at h
  unfold presentDisplay
  split at h
  · exact absurd h (hStaged s)
  rename_i hNone
  rw [if_neg hNone]
  cases hAsked : s.validateForPresentWithoutValidation c p with
  | mk validated s' =>
    cases validated with
    | true =>
      rw [hAsked] at h
      exact absurd h (hStaged s')
    | false => rfl

-- ---------------------------------------------------------------------------
-- What is staged
-- ---------------------------------------------------------------------------

/-- The calls about a layer, the client's target and the display's colours: all
but a validation, a present and a change of the pipeline. -/
def Action.isLayerCall : Action → Bool
  | .validateDisplay _ => false
  | .presentDisplay _ => false
  | .setPipeline _ => false
  | _ => true

/-- Counting a change stages nothing and unstages nothing. -/
theorem observe_staged (s s' : HwcDisplay) :
    (observe c s s').validatedComposition = s'.validatedComposition ∧
      (observe c s s').headless = s'.headless := by
  obtain ⟨n, hEq, -⟩ := observe_eq (c := c) s s'
  rw [hEq]
  exact ⟨rfl, rfl⟩

/-- A call about a layer leaves what is staged, and the panel. -/
theorem act_keeps_staged {s : HwcDisplay} {a : Action} (hCall : a.isLayerCall = true) :
    (s.act c a).validatedComposition = s.validatedComposition ∧
      (s.act c a).headless = s.headless := by
  cases a with
  | createLayer id =>
    obtain ⟨hStaged, hPanel⟩ := observe_staged (c := c) s (s.createLayer id)
    rw [act, hStaged, hPanel]
    unfold createLayer
    split <;> exact ⟨rfl, rfl⟩
  | destroyLayer id =>
    obtain ⟨hStaged, hPanel⟩ := observe_staged (c := c) s (s.destroyLayer id)
    rw [act, hStaged, hPanel]
    unfold destroyLayer
    split <;> exact ⟨rfl, rfl⟩
  | setLayerProperties id now lp => exact observe_staged s _
  | setClientTarget now lp => exact observe_staged s _
  | applyEffectMetadata id applied => exact observe_staged s _
  | setSolidColor id r g b a => exact observe_staged s _
  | setVisibleRegion id region => exact observe_staged s _
  | markPlanInvalid bits => exact ⟨rfl, rfl⟩
  | acceptDisplayChanges => exact ⟨rfl, rfl⟩
  | validateDisplay v => cases hCall
  | presentDisplay p => cases hCall
  | setPipeline headless => cases hCall

/-- **No call about a layer unstages** what a validation staged. -/
theorem calls_keep_staged {calls : List Action} (hCalls : ∀ a ∈ calls, a.isLayerCall = true)
    (s : HwcDisplay) :
    (calls.foldl (act c) s).validatedComposition = s.validatedComposition ∧
      (calls.foldl (act c) s).headless = s.headless := by
  induction calls generalizing s with
  | nil => exact ⟨rfl, rfl⟩
  | cons a calls ih =>
    obtain ⟨hStaged, hPanel⟩ := ih (fun b hb => hCalls b (by simp [hb])) (s.act c a)
    obtain ⟨hStaged', hPanel'⟩ := act_keeps_staged (c := c) (s := s) (hCalls a (by simp))
    exact ⟨hStaged.trans hStaged', hPanel.trans hPanel'⟩

/-- A planner hands back the layers it was given, and the panel. -/
theorem validateDisplay_layers (t : HwcDisplay) (v : Validation) :
    (t.validateDisplay c v).2.2.layers.length = t.layers.length ∧
      (t.validateDisplay c v).2.2.headless = t.headless := by
  unfold validateDisplay
  split
  · exact ⟨rfl, rfl⟩
  obtain ⟨n, hObserve, -⟩ := observe_eq (c := c) t (t.takePlanInvalidators c v.now).2
  simp only [hObserve]
  split
  · split <;> simp [takePlanInvalidators]
  · simp [takePlanInvalidators]

/-- And so does what a validation does before it. -/
theorem beforePlan_layers (s : HwcDisplay) (v : Validation) :
    (s.beforePlan c v).layers.length = s.layers.length ∧
      (s.beforePlan c v).headless = s.headless := by
  unfold beforePlan
  obtain ⟨n, hObserve, -⟩ := observe_eq (c := c) s (s.prepared c v)
  rw [hObserve]
  obtain ⟨bits, l, hShape⟩ := prepared_shape (c := c) s v
  rw [hShape]
  exact ⟨List.length_map _, rfl⟩

/-- A validation keeps the layers and the panel. -/
theorem validateStagedComposition_layers (s : HwcDisplay) (v : Validation) :
    (s.validateStagedComposition c v).layers.length = s.layers.length ∧
      (s.validateStagedComposition c v).headless = s.headless := by
  unfold validateStagedComposition
  split
  · exact ⟨rfl, rfl⟩
  obtain ⟨hLayers, hPanel⟩ := validateDisplay_layers (c := c) (s.beforePlan c v) v
  obtain ⟨hLayers', hPanel'⟩ := beforePlan_layers (c := c) s v
  simp only [setTypes, List.length_map]
  exact ⟨hLayers.trans hLayers', hPanel.trans hPanel'⟩

-- ---------------------------------------------------------------------------
-- The present after
-- ---------------------------------------------------------------------------

/-- A display that has something staged and a panel is never told to validate. -/
theorem presentDisplayAnswer_staged {s : HwcDisplay} {composition : ValidatedComposition}
    (hStaged : s.validatedComposition = some composition) (hPanel : s.headless = false)
    (p : Presentation) :
    (s.presentDisplayAnswer c p).1 ≠ .notValidated ∧
      (s.presentDisplayAnswer c p).2 =
        some (if s.layers = [] then .noLayers else .commit composition) := by
  have hAnswer : s.presentDisplayAnswer c p = s.answerStaged p := by
    rw [presentDisplayAnswer, hStaged]
    rfl
  have hBranch : s.presentBranch =
      if s.layers = [] then .noLayers else .commit composition := by
    unfold presentBranch
    simp [hPanel, hStaged]
  rw [hAnswer, answerStaged, hBranch]
  refine ⟨?_, rfl⟩
  split <;> simp

/-- **A present after a validation.** Of a display with a panel and a layer, in
whatever state: what the validation staged is committed by a present right after
it, and no call about a layer in between keeps the present from it, unless it
takes the last layer away. -/
theorem presentDisplay_after_validation (s : HwcDisplay) (v : Validation) (p : Presentation)
    (hPanel : s.headless = false) (hLayers : s.layers ≠ []) :
    ∃ composition, (s.act c (.validateDisplay v)).validatedComposition = some composition ∧
      ((s.act c (.validateDisplay v)).presentDisplayAnswer c p).1 ≠ .notValidated ∧
      ((s.act c (.validateDisplay v)).presentDisplayAnswer c p).2 = some (.commit composition) ∧
      ∀ calls : List Action, (∀ a ∈ calls, a.isLayerCall = true) →
        let s' := calls.foldl (act c) (s.act c (.validateDisplay v))
        (s'.presentDisplayAnswer c p).1 ≠ .notValidated ∧
          (s'.presentDisplayAnswer c p).2 =
            some (if s'.layers = [] then .noLayers else .commit composition) := by
  obtain ⟨hLength, hHeadless⟩ := validateStagedComposition_layers (c := c) s v
  have hStages :=
    validateStagedComposition_stages (c := c) (s := s) (v := v) (by simp [hPanel, hLayers])
  obtain ⟨composition, hStaged⟩ := Option.isSome_iff_exists.mp hStages
  have hSome : (s.validateStagedComposition c v).layers ≠ [] := by
    intro hNil
    rw [hNil] at hLength
    exact hLayers (List.length_eq_zero_iff.mp hLength.symm)
  have hDirect := presentDisplayAnswer_staged (c := c) hStaged (hHeadless.trans hPanel) p
  rw [if_neg hSome] at hDirect
  refine ⟨composition, hStaged, hDirect.1, hDirect.2, fun calls hCalls => ?_⟩
  obtain ⟨hKept, hPanel'⟩ := calls_keep_staged (c := c) hCalls (s.act c (.validateDisplay v))
  exact presentDisplayAnswer_staged (hKept.trans hStaged) (hPanel'.trans (hHeadless.trans hPanel)) p

/-- A display with one layer, and a plan for it. -/
def oneLayer : HwcDisplay :=
  [Action.setPipeline false, .createLayer 1].foldl (act { hasGpu := false }) {}

/-- The layer planned for the panel's hardware. -/
def onPlane : Validation := { plan := { compositionTypes := [(1, .kDevice)] } }

/-- One layer shown, faded after its frame is validated: the frame is committed
as it was validated. -/
theorem presentDisplay_after_validation_faded :
    let c : DisplayConfig := { hasGpu := false }
    let s := oneLayer
    ∃ composition, (s.act c (.validateDisplay onPlane)).validatedComposition = some composition ∧
      (([Action.setLayerProperties 1 0 { alpha := some 0 }].foldl (act c)
        (s.act c (.validateDisplay onPlane))).presentDisplayAnswer c {}).2 =
          some (.commit composition) := by
  intro c s
  obtain ⟨composition, hStaged, -, -, hCalls⟩ :=
    presentDisplay_after_validation (c := c) s onPlane {} (by decide) (by decide)
  refine ⟨composition, hStaged, ?_⟩
  have hFaded := (hCalls [.setLayerProperties 1 0 { alpha := some 0 }] (by decide)).2
  rw [if_neg (by decide)] at hFaded
  exact hFaded

/-- **What is not promised.** A display without layers is sent to validate what
it just validated; and a layer faded after the validation is presented as it was
before, in a composition older than the change. -/
theorem presentDisplay_not_validated :
    (¬∀ (s : HwcDisplay) (v : Validation) (p : Presentation),
      ((s.act { hasGpu := false } (.validateDisplay v)).presentDisplayAnswer
        { hasGpu := false } p).1 ≠ .notValidated) ∧
    ¬∀ (s : HwcDisplay) (v : Validation) (p : Presentation) (a : Action),
      let s' := (s.act { hasGpu := false } (.validateDisplay v)).act { hasGpu := false } a
      a.isLayerCall = true → s'.changes ≠ (s.act { hasGpu := false } (.validateDisplay v)).changes →
        (s'.presentDisplayAnswer { hasGpu := false } p).1 = .notValidated ∨
          ∀ composition,
            (s'.presentDisplayAnswer { hasGpu := false } p).2 = some (.commit composition) →
            composition.madeAt = s'.changes := by
  constructor
  · intro hAll
    exact hAll { headless := false } {} {} (by decide)
  · intro hAll
    have h := hAll oneLayer onPlane {} (.setLayerProperties 1 0 { alpha := some 0 }) (by decide)
      (by decide +kernel)
    have hCommitted : (((oneLayer.act { hasGpu := false } (.validateDisplay onPlane)).act
        { hasGpu := false } (.setLayerProperties 1 0 { alpha := some 0 })).presentDisplayAnswer
          { hasGpu := false } {}).2 =
        some (.commit { compositionTypes := [(1, .kDevice)], madeAt := 3 }) := by
      decide +kernel
    rcases h with hTold | hMade
    · exact absurd hTold (by decide +kernel)
    · exact absurd (hMade _ hCommitted) (by decide +kernel)

end TegraHwc.HwcDisplay
