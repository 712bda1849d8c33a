import TegraHwc.Hwc.PresentValidated

/-!
# TegraHwc — who draws a layer, as the client has it and as the composer has it

A validation decides of every layer who draws it: the client, into its target, or this
composer. The client learns of it through `hwc2_device/hwc2_device.cpp`. What changed is
kept for an asking of its own, which may come first for the length alone and may come
with too little room; and so is what is to be left clear under the layers shown below
the target. Once handed out it is gone.

A client that follows the calls collects what changed and accepts it before it presents,
and validates again where it touched a layer since. Beside the device stands what such a
client believes: the type of each layer, as it set it or was told it, and what it was
asked to leave clear.

## Results

* `validateStagedComposition_types` — what a validation makes of the types.
* `step_agreed`        — every call of a client that follows keeps the two agreed.
* `client_draws_what_is_left` — at every present of every run, the client takes for its own
  just those layers the committed composition leaves to it.
-/

namespace TegraHwc

open Runs

-- ---------------------------------------------------------------------------
-- What is kept for an asking
-- ---------------------------------------------------------------------------

/-- What an asking for a kept list is answered: its length, that it does not fit, or the
list. -/
inductive Asked (α : Type) where
  | counted (length : Nat)
  | noResources
  | handed (list : List α)
  deriving DecidableEq, Repr

/-- The body of `GetChangedCompositionTypes`, `GetDisplayRequests` and
`GetReleaseFences`, with the room given, if any; and what is kept after. -/
def askFor {α : Type} (room : Option Nat) (kept : List α) : Asked α × List α :=
  match room with
  | none => (.counted kept.length, kept)
  | some room => if room < kept.length then (.noResources, kept) else (.handed kept, [])

/-- What was handed. -/
def Asked.list {α : Type} : Asked α → List α
  | .handed list => list
  | _ => []

/-- An asking with room enough is handed all there is; any other hands out nothing. -/
theorem askFor_cases {α : Type} (room : Option Nat) (kept : List α) :
    (askFor room kept = (.handed kept, []) ∧ room ≠ none) ∨
      ∃ answer, askFor room kept = (answer, kept) ∧ ∀ list, answer ≠ .handed list := by
  unfold askFor
  cases room with
  | none => exact .inr ⟨_, rfl, fun list hList => by cases hList⟩
  | some room =>
    show ((if room < kept.length then (Asked.noResources, kept) else (.handed kept, [])) =
      (.handed kept, []) ∧ _) ∨ _
    by_cases hSmall : room < kept.length
    · rw [if_pos hSmall]
      exact .inr ⟨.noResources, by simp [hSmall], fun list hList => by cases hList⟩
    · rw [if_neg hSmall]
      exact .inl ⟨rfl, by simp⟩

/-- What is handed and what is kept are what was kept. -/
theorem askFor_list {α : Type} (room : Option Nat) (kept : List α) :
    (askFor room kept).1.list ++ (askFor room kept).2 = kept := by
  obtain ⟨hHanded, -⟩ | ⟨answer, hNothing, hNot⟩ := askFor_cases room kept
  · rw [hHanded]
    exact List.append_nil kept
  · rw [hNothing]
    cases answer with
    | handed list => exact absurd rfl (hNot list)
    | counted length => rfl
    | noResources => rfl

-- ---------------------------------------------------------------------------
-- The device and its client
-- ---------------------------------------------------------------------------

/-- `Hwc2DeviceDisplay`, less the release fences. -/
structure Hwc2DeviceDisplay where
  display : HwcDisplay := {}
  changedLayers : List (ILayerId × CompositionType) := []
  punchOutLayers : List ILayerId := []
  nextLayerId : ILayerId := 1
  deriving DecidableEq, Repr

/-- Where a client stands with what was last validated: nothing was since its last
present, what changed is to be collected, or to be accepted, nothing is, or a layer was
touched since. -/
inductive Standing where
  | unvalidated
  | asked
  | collected
  | accepted
  | touched
  deriving DecidableEq, Repr

/-- What a client believes: the type of each layer, and what it was asked to leave
clear. -/
structure Hwc2Client where
  types : ILayerId → CompositionType := fun _ => .kInvalid
  clears : List ILayerId := []
  standing : Standing := .unvalidated

/-- The device and its client. -/
structure Hwc2 where
  device : Hwc2DeviceDisplay := {}
  client : Hwc2Client := {}

/-- The calls of a client, and what else befalls its display. -/
inductive Hwc2Call where
  | createLayer
  | destroyLayer (id : ILayerId)
  | setLayerCompositionType (id : ILayerId) (now : Nat) (type : CompositionType)
  | otherCall (a : HwcDisplay.Action)
  | validateDisplay (v : Validation)
  | getChangedCompositionTypes (room : Option Nat)
  | getDisplayRequests (room : Option Nat)
  | acceptDisplayChanges
  | presentDisplay (p : Presentation)


namespace Hwc2DeviceDisplay

variable (c : DisplayConfig)

/-- `CreateLayer`, under an identity no layer had before. -/
def createLayer (d : Hwc2DeviceDisplay) : Hwc2DeviceDisplay :=
  if d.display.layers.any fun e => e.id == d.nextLayerId then d
  else
    { d with
      display := d.display.act c (.createLayer d.nextLayerId)
      nextLayerId := d.nextLayerId + 1 }

/-- `ValidateDisplay`: both halves of the answer are kept. -/
def validateDisplay (d : Hwc2DeviceDisplay) (v : Validation) : Hwc2DeviceDisplay :=
  let display := d.display.act c (.validateDisplay v)
  match display.validatedComposition with
  | none => { d with display, changedLayers := [], punchOutLayers := [] }
  | some composition =>
    { d with
      display
      changedLayers := display.changedLayers
      punchOutLayers := composition.punchOutLayers.filter fun id =>
        display.layers.any fun e => e.id == id }

end Hwc2DeviceDisplay

/-- The calls that touch no layer's type, nor what there is of layers. -/
def HwcDisplay.Action.isOther : HwcDisplay.Action → Bool
  | .createLayer _ => false
  | .destroyLayer _ => false
  | .setLayerProperties _ _ lp => lp.compositionType.isNone
  | .acceptDisplayChanges => false
  | .validateDisplay _ => false
  | .presentDisplay _ => false
  | _ => true

namespace Hwc2Client

/-- A client that touched a layer after a validation knows it is to ask for another. -/
def touch (m : Hwc2Client) : Hwc2Client :=
  { m with standing := if m.standing = .unvalidated then .unvalidated else .touched }

/-- The types as they are told, the others as they were. -/
def learn (m : Hwc2Client) (told : List (ILayerId × CompositionType)) : Hwc2Client :=
  { m with types := fun id => (told.lookup id).getD (m.types id) }

end Hwc2Client

namespace Hwc2

variable (c : DisplayConfig)

/-- A call. -/
def step (s : Hwc2) : Hwc2Call → Option Hwc2
  | .createLayer =>
    some
      { device := s.device.createLayer c
        client := (s.client.learn [(s.device.nextLayerId, .kInvalid)]).touch }
  | .destroyLayer id =>
    some
      { device := { s.device with display := s.device.display.act c (.destroyLayer id) }
        client := s.client.touch }
  | .setLayerCompositionType id now type =>
    some
      { device := { s.device with
          display := s.device.display.act c
            (.setLayerProperties id now { compositionType := some type }) }
        client := (s.client.learn [(id, type)]).touch }
  | .otherCall a =>
    if a.isOther then
      some { s with device := { s.device with display := s.device.display.act c a } }
    else none
  | .validateDisplay v =>
    let device := s.device.validateDisplay c v
    some
      { device
        client := { s.client with
          clears := []
          standing := if device.changedLayers.length = 0 then .accepted else .asked } }
  | .getChangedCompositionTypes room =>
    let (answer, changedLayers) := askFor room s.device.changedLayers
    some
      { device := { s.device with changedLayers }
        client :=
          match answer with
          | .handed told =>
            { s.client.learn told with
              standing := if s.client.standing = .asked then .collected else s.client.standing }
          | _ => s.client }
  | .getDisplayRequests room =>
    let (answer, punchOutLayers) := askFor room s.device.punchOutLayers
    some
      { device := { s.device with punchOutLayers }
        client := { s.client with clears := s.client.clears ++ answer.list } }
  | .acceptDisplayChanges =>
    some
      { device := { s.device with display := s.device.display.act c .acceptDisplayChanges }
        client := { s.client with standing := .accepted } }
  | .presentDisplay p =>
    some
      { device := { s.device with display := s.device.display.act c (.presentDisplay p) }
        client := { s.client with standing := .unvalidated } }

/-- The device and its client, from the start. -/
def machine : Machine Hwc2 Hwc2Call Unit where
  step := step c
  events := fun _ _ => []

/-- Whether nothing is left to accept of what was last validated. -/
def MayPresent (s : Hwc2) : Prop :=
  s.client.standing = .unvalidated ∨ s.client.standing = .accepted

/-- A call of a client that follows: what changed is collected before it is accepted, and
accepted before the layers are touched, validated again or presented. Of a validation
that found no panel there is nothing to accept. -/
def Follows (s : Hwc2) : Hwc2Call → Prop
  | .createLayer => s.client.standing ≠ .collected
  | .destroyLayer _ => s.client.standing ≠ .collected
  | .setLayerCompositionType _ _ _ => s.client.standing ≠ .collected
  | .otherCall _ => True
  | .validateDisplay _ => s.client.standing ≠ .collected
  | .getChangedCompositionTypes room => s.client.standing ≠ .touched ∨ room = none
  | .getDisplayRequests _ => True
  | .acceptDisplayChanges =>
    s.client.standing = .collected ∨
      s.client.standing = .accepted ∧ s.device.display.validatedComposition.isSome = true
  | .presentDisplay _ => s.MayPresent

instance decidableMayPresent (s : Hwc2) : Decidable s.MayPresent :=
  inferInstanceAs (Decidable (_ ∨ _))

/-- Whether a call follows can be decided. -/
instance decidableFollows (s : Hwc2) : (call : Hwc2Call) → Decidable (s.Follows call)
  | .createLayer => inferInstanceAs (Decidable (_ ≠ _))
  | .destroyLayer _ => inferInstanceAs (Decidable (_ ≠ _))
  | .setLayerCompositionType _ _ _ => inferInstanceAs (Decidable (_ ≠ _))
  | .otherCall _ => .isTrue trivial
  | .validateDisplay _ => inferInstanceAs (Decidable (_ ≠ _))
  | .getChangedCompositionTypes _ => inferInstanceAs (Decidable (_ ∨ _))
  | .getDisplayRequests _ => .isTrue trivial
  | .acceptDisplayChanges => inferInstanceAs (Decidable (_ ∨ _ ∧ _))
  | .presentDisplay _ => decidableMayPresent s

end Hwc2

-- ---------------------------------------------------------------------------
-- The types of a layer
-- ---------------------------------------------------------------------------

namespace HwcLayer

/-- The types of a layer: the client's, and the one it was last given. -/
def types (l : HwcLayer) : CompositionType × CompositionType := (l.sfType, l.validatedType)

@[simp] theorem raise_sfType (l : HwcLayer) (changed : Prop) [Decidable changed] (bits : UInt32) :
    (l.raise changed bits).sfType = l.sfType := by
  unfold raise
  split <;> rfl

@[simp] theorem raise_validatedType (l : HwcLayer) (changed : Prop) [Decidable changed]
    (bits : UInt32) : (l.raise changed bits).validatedType = l.validatedType := by
  unfold raise
  split <;> rfl

@[simp] theorem markActivity_sfType (l : HwcLayer) (changed : Prop) [Decidable changed]
    (now : Nat) : (l.markActivity changed now).sfType = l.sfType := by
  unfold markActivity
  split <;> rfl

@[simp] theorem markActivity_validatedType (l : HwcLayer) (changed : Prop) [Decidable changed]
    (now : Nat) : (l.markActivity changed now).validatedType = l.validatedType := by
  unfold markActivity
  split <;> rfl

theorem given_types {α : Type} (set : HwcLayer → α → HwcLayer)
    (h : ∀ l v, (set l v).types = l.types) (v : Option α) (l : HwcLayer) :
    (given set v l).types = l.types := by
  cases v with
  | none => rfl
  | some v => exact h l v

theorem populateLayerData_types (l : HwcLayer) : l.populateLayerData.types = l.types := by
  unfold populateLayerData
  split <;> rfl

theorem setBuffer_types (now : Nat) (l : HwcLayer) (b : Buffer) :
    (setBuffer now l b).types = l.types := by
  simp [setBuffer, types]

/-- Nothing but a type moves the types of a layer. -/
theorem setEach_types (now : Nat) (lp : LayerProperties) (l : HwcLayer) :
    (setEach now lp l).types = (lp.compositionType.getD l.sfType, l.validatedType) := by
  simp only [setEach]
  rw [given_types setBrightness (fun _ _ => rfl), given_types setDamage (fun _ _ => rfl),
    given_types setZOrder (fun l v => by simp [setZOrder, types]),
    given_types (setTransform now) (fun l v => by simp [setTransform, types]),
    given_types (setSourceCrop now _) (fun l v => by simp [setSourceCrop, types]),
    given_types (setAlpha now _) (fun l v => by simp [setAlpha, types]),
    given_types (setDisplayFrame now) (fun l v => by simp [setDisplayFrame, types])]
  generalize hBefore : given setTransferFunc lp.transferFunc _ = before
  have hSame : before.types = l.types := by
    rw [← hBefore, given_types setTransferFunc (fun l v => by simp [setTransferFunc, types]),
      given_types setSampleRange (fun l v => by simp [setSampleRange, types]),
      given_types setColorEncoding (fun l v => by simp [setColorEncoding, types]),
      given_types setColorspace (fun l v => by simp [setColorspace, types]),
      given_types setBlendMode (fun l v => by simp [setBlendMode, types]),
      given_types (setBuffer now) (setBuffer_types now)]
  obtain ⟨hSf, hValidated⟩ := Prod.mk.inj hSame
  cases lp.compositionType with
  | none => exact hSame
  | some type =>
    show ({ before.raise (before.sfType ≠ type) PlanInvalidator.kCompositionType with
      sfType := type } : HwcLayer).types = (type, l.validatedType)
    rw [types, raise_validatedType, hValidated]

theorem setLayerProperties_types (now : Nat) (lp : LayerProperties) (l : HwcLayer) :
    (setLayerProperties now lp l).types =
      (lp.compositionType.getD l.sfType, l.validatedType) := by
  simp only [setLayerProperties]
  split
  · rw [populateLayerData_types, setEach_types]
  · exact setEach_types now lp l

theorem applyEffectMetadata_types (minCornerRadius : Rat) (applied : Option LayerEffects)
    (l : HwcLayer) : (applyEffectMetadata minCornerRadius applied l).types = l.types := by
  cases applied with
  | none => rfl
  | some effects => simp [applyEffectMetadata, types]

theorem setSolidColor_types (r g b a : UInt8) (l : HwcLayer) :
    (setSolidColor r g b a l).types = l.types := by
  simp [setSolidColor, types]

theorem setVisibleRegion_types (region : List IRect) (l : HwcLayer) :
    (setVisibleRegion region l).types = l.types := by
  simp [setVisibleRegion, types]

theorem applyOcclusion_types (shown : Occlusion.Shown) (l : HwcLayer) :
    (l.applyOcclusion shown).types = l.types := by
  simp [applyOcclusion, types]

theorem refreshLiveness_types (size : Nat × Nat) (now : Nat) (l : HwcLayer) :
    (l.refreshLiveness size now).2.clearPlanInvalidators.types = l.types := by
  unfold refreshLiveness
  split <;> rfl

end HwcLayer

-- ---------------------------------------------------------------------------
-- The types of a display's layers
-- ---------------------------------------------------------------------------

/-- A layer by its identity, and its types. -/
structure TypeRow where
  id : ILayerId
  sfType : CompositionType
  validatedType : CompositionType
  deriving DecidableEq, Repr

/-- A row told what a composition says of its layer. -/
def TypeRow.told (k : ValidatedComposition) (r : TypeRow) : TypeRow :=
  match k.compositionTypes.find? fun t => t.1 == r.id with
  | none => r
  | some t => { r with validatedType := HwcDisplay.toldType k { sfType := r.sfType } t.2 }

namespace HwcDisplay

variable {c : DisplayConfig}

/-- The types of the layers. -/
def rows (s : HwcDisplay) : List TypeRow :=
  s.layers.map fun e => ⟨e.id, e.layer.sfType, e.layer.validatedType⟩

/-- Rows of layers each of whose types stay are the same. -/
theorem rows_map {s : HwcDisplay} {layers : List Entry} {f : Entry → Entry}
    (hLayers : layers = s.layers.map f) (hId : ∀ e, (f e).id = e.id)
    (hTypes : ∀ e, (f e).layer.types = e.layer.types) :
    layers.map (fun e => (⟨e.id, e.layer.sfType, e.layer.validatedType⟩ : TypeRow)) = s.rows := by
  rw [hLayers, rows, List.map_map]
  refine List.map_congr_left fun e _ => ?_
  obtain ⟨hSf, hValidated⟩ := Prod.mk.inj (hTypes e)
  show (⟨(f e).id, (f e).layer.sfType, (f e).layer.validatedType⟩ : TypeRow) = _
  rw [hId, hSf, hValidated]

theorem observe_rows (s s' : HwcDisplay) : (observe c s s').rows = s'.rows := by
  obtain ⟨n, hEq, -⟩ := observe_eq (c := c) s s'
  rw [hEq]
  rfl

/-- A layer changed in all but its types. -/
theorem modifyLayer_rows {s : HwcDisplay} {id : ILayerId} {f : HwcLayer → HwcLayer}
    (hTypes : ∀ l, (f l).types = l.types) : (s.modifyLayer id f).rows = s.rows := by
  refine rows_map (f := fun e => if e.id = id then { e with layer := f e.layer } else e) rfl
    (fun e => ?_) fun e => ?_
  · split <;> rfl
  · show (if e.id = id then { e with layer := f e.layer } else e).layer.types = e.layer.types
    split
    · exact hTypes e.layer
    · rfl

theorem resolveOcclusion_rows (s : HwcDisplay) : (s.resolveOcclusion c).rows = s.rows := by
  unfold resolveOcclusion
  exact rows_map rfl (fun _ => rfl) fun e => HwcLayer.applyOcclusion_types _ e.layer

theorem takePlanInvalidators_rows (s : HwcDisplay) (now : Nat) :
    (s.takePlanInvalidators c now).2.rows = s.rows := by
  unfold takePlanInvalidators
  exact rows_map rfl (fun _ => rfl) fun e => HwcLayer.refreshLiveness_types _ _ e.layer

theorem beforePlan_rows (s : HwcDisplay) (v : Validation) : (s.beforePlan c v).rows = s.rows := by
  obtain ⟨bits, l, hShape⟩ := prepared_shape (c := c) s v
  have hSeated : ∀ t : HwcDisplay, ({ t with clientLayer := l } : HwcDisplay).rows = t.rows :=
    fun _ => rfl
  rw [beforePlan, observe_rows, hShape, hSeated, resolveOcclusion_rows]
  rfl

/-- A planner moves no type. -/
theorem validateDisplay_rows (s : HwcDisplay) (v : Validation) :
    (s.validateDisplay c v).2.2.rows = s.rows := by
  unfold validateDisplay
  split
  · rfl
  have hTaken : (observe c s (s.takePlanInvalidators c v.now).2).rows = s.rows :=
    (observe_rows _ _).trans (takePlanInvalidators_rows s v.now)
  simp only
  split
  · split
    · exact hTaken
    · exact hTaken
  · exact hTaken

theorem setTypes_rows (s : HwcDisplay) (k : ValidatedComposition) :
    (s.setTypes k).rows = s.rows.map (TypeRow.told k) := by
  unfold setTypes rows
  rw [List.map_map, List.map_map]
  refine List.map_congr_left fun e _ => ?_
  cases hFind : k.compositionTypes.find? fun t => t.1 == e.id with
  | none => simp [TypeRow.told, hFind]
  | some t => simp [TypeRow.told, hFind, HwcLayer.setValidatedType, toldType]

/-- **What a validation makes of the types**: nothing where there is no panel, or no
layer; otherwise each layer is told what the composition staged says of it. -/
theorem validateStagedComposition_types (s : HwcDisplay) (v : Validation) :
    ((s.headless = true ∨ s.layers = []) ∧
        s.validateStagedComposition c v = { s with validatedComposition := none }) ∨
      s.headless = false ∧ s.layers ≠ [] ∧
        ∃ k, (s.validateStagedComposition c v).validatedComposition = some k ∧
          (s.validateStagedComposition c v).headless = false ∧
            (s.validateStagedComposition c v).rows = s.rows.map (TypeRow.told k) := by
  by_cases hShown : s.headless = true ∨ s.layers = []
  · refine .inl ⟨hShown, ?_⟩
    unfold validateStagedComposition
    exact if_pos hShown
  · obtain ⟨hPanel, hLayers⟩ := not_or.mp hShown
    rw [Bool.not_eq_true] at hPanel
    have hHeadless := (validateStagedComposition_layers (c := c) s v).2.trans hPanel
    refine .inr ⟨hPanel, hLayers, ?_⟩
    revert hHeadless
    unfold validateStagedComposition
    rw [if_neg hShown]
    intro hHeadless
    have hRows := (validateDisplay_rows (c := c) (s.beforePlan c v) v).trans (beforePlan_rows s v)
    generalize (s.beforePlan c v).validateDisplay c v = planned at hRows hHeadless ⊢
    obtain ⟨composition, reused, s'⟩ := planned
    refine ⟨s'.staged c v composition, rfl, hHeadless, ?_⟩
    rw [← hRows]
    exact setTypes_rows s' _

/-- A layer is told it is the client's just where the composition leaves it to the
client. -/
theorem toldType_client (k : ValidatedComposition) (l : HwcLayer) (type : CompositionType) :
    toldType k l type = .kClient ↔ type = .kClient ∧ k.gpuDrawsClient = false := by
  unfold toldType
  cases hGpu : k.gpuDrawsClient with
  | true =>
    by_cases hOurs : type = .kClient ∨ type = .kDeviceOccluded
    · have hTold : (true = true ∧ type = .kClient) ∨ type = .kDeviceOccluded := by simpa using hOurs
      rw [if_pos hTold]
      split <;> simp
    · have hNot : ¬((true = true ∧ type = .kClient) ∨ type = .kDeviceOccluded) := by
        simpa using hOurs
      rw [if_neg hNot]
      simp [(not_or.mp hOurs).1]
  | false =>
    by_cases hHidden : type = .kDeviceOccluded
    · rw [if_pos (.inr hHidden), hHidden]
      split <;> simp
    · rw [if_neg (by simp [hHidden])]
      simp

end HwcDisplay

-- ---------------------------------------------------------------------------
-- What changed
-- ---------------------------------------------------------------------------

namespace TypeRow

/-- The layers whose type the client must take. -/
def changes (rows : List TypeRow) : List (ILayerId × CompositionType) :=
  (rows.filter fun r => decide (r.sfType ≠ r.validatedType)).map fun r => (r.id, r.validatedType)

theorem changes_cons (r : TypeRow) (rows : List TypeRow) :
    changes (r :: rows) =
      if r.sfType ≠ r.validatedType then (r.id, r.validatedType) :: changes rows
      else changes rows := by
  by_cases hChanged : r.sfType = r.validatedType
  · rw [if_neg (not_not.mpr hChanged), changes, List.filter_cons_of_neg (by simpa using hChanged)]
    rfl
  · rw [if_pos hChanged, changes, List.filter_cons_of_pos (by simpa using hChanged)]
    rfl

theorem lookup_changes_none {rows : List TypeRow} {id : ILayerId} (h : id ∉ rows.map TypeRow.id) :
    (changes rows).lookup id = none := by
  induction rows with
  | nil => rfl
  | cons r rows ih =>
    rw [List.map_cons, List.mem_cons, not_or] at h
    rw [changes_cons]
    split
    · rw [List.lookup_cons, beq_false_of_ne h.1]
      exact ih h.2
    · exact ih h.2

/-- **What changed, taken by one who has the client's types**, gives the types as they
were told. -/
theorem lookup_changes {rows : List TypeRow} (hDistinct : (rows.map TypeRow.id).Nodup)
    {r : TypeRow} (hr : r ∈ rows) :
    ((changes rows).lookup r.id).getD r.sfType = r.validatedType := by
  induction rows with
  | nil => cases hr
  | cons first rows ih =>
    obtain ⟨hFirst, hRest⟩ := List.nodup_cons.mp hDistinct
    rw [changes_cons]
    obtain rfl | hLater := List.mem_cons.mp hr
    · by_cases hChanged : r.sfType = r.validatedType
      · rw [if_neg (not_not.mpr hChanged), lookup_changes_none hFirst]
        exact hChanged
      · rw [if_pos hChanged, List.lookup_cons, beq_self_eq_true]
        rfl
    · have hOther : r.id ≠ first.id := by
        intro hSame
        exact hFirst (hSame ▸ List.mem_map_of_mem hLater)
      split
      · rw [List.lookup_cons, beq_false_of_ne hOther]
        exact ih hRest hLater
      · exact ih hRest hLater

/-- Nothing changed where every layer has the type it was told. -/
theorem changes_eq_nil {rows : List TypeRow} :
    changes rows = [] ↔ ∀ r ∈ rows, r.sfType = r.validatedType := by
  simp [changes]

@[simp] theorem told_id (k : ValidatedComposition) (r : TypeRow) : (told k r).id = r.id := by
  unfold told
  split <;> rfl

@[simp] theorem told_sfType (k : ValidatedComposition) (r : TypeRow) :
    (told k r).sfType = r.sfType := by
  unfold told
  split <;> rfl

/-- A layer the composition names is told it is the client's just where it is left to the
client. -/
theorem told_client {k : ValidatedComposition} {r : TypeRow} {t : ILayerId × CompositionType}
    (hNamed : k.compositionTypes.find? (fun t => t.1 == r.id) = some t) :
    (told k r).validatedType = .kClient ↔ t.2 = .kClient ∧ k.gpuDrawsClient = false := by
  unfold told
  rw [hNamed]
  exact HwcDisplay.toldType_client k _ t.2

end TypeRow

namespace HwcDisplay

variable {c : DisplayConfig}

theorem changedLayers_rows (s : HwcDisplay) : s.changedLayers = TypeRow.changes s.rows := by
  unfold changedLayers TypeRow.changes rows
  rw [List.filter_map, List.map_map]
  rfl

theorem acceptValidatedComposition_rows (s : HwcDisplay) :
    s.acceptValidatedComposition.rows =
      s.rows.map fun r => { r with sfType := r.validatedType } := by
  unfold acceptValidatedComposition rows
  rw [List.map_map, List.map_map]
  rfl

/-- A commit moves no type, and leaves nothing staged. -/
theorem commitStagedComposition_rows (s : HwcDisplay) (p : Presentation)
    (k : ValidatedComposition) :
    (s.commitStagedComposition c p k).rows = s.rows ∧
      (s.commitStagedComposition c p k).validatedComposition = none ∧
        (s.commitStagedComposition c p k).headless = s.headless := by
  have hSeated : ∃ t : HwcDisplay, t.rows = s.rows ∧ t.headless = s.headless ∧
      (if k.gpuDrawsClient then observe c s (s.seatGpuBuffer p.now p.seat) else s) = t := by
    refine ⟨_, ?_, ?_, rfl⟩
    · split
      · exact observe_rows s _
      · rfl
    · split
      · exact (observe_staged s _).2
      · rfl
  obtain ⟨t, hRows, hPanel, hEq⟩ := hSeated
  unfold commitStagedComposition
  simp only [hEq]
  rw [← hRows, ← hPanel]
  split
  · split <;> exact ⟨rfl, rfl, rfl⟩
  · split <;> exact ⟨rfl, rfl, rfl⟩

/-- Whose layers the rows are, and the types the client gave them. -/
def given (rows : List TypeRow) : List (ILayerId × CompositionType) :=
  rows.map fun r => (r.id, r.sfType)

theorem given_told (k : ValidatedComposition) (rows : List TypeRow) :
    given (rows.map (TypeRow.told k)) = given rows := by
  simp [given, Function.comp_def]

/-- What a present without a validation comes to: nothing is validated and the types stay
the client's, or what is staged tells no layer anything new. -/
theorem validateForPresentWithoutValidation_types (s : HwcDisplay) (p : Presentation)
    (hNone : s.validatedComposition = none) :
    (∃ s', s.validateForPresentWithoutValidation c p = (false, s') ∧
        s'.validatedComposition = none ∧ s'.headless = s.headless ∧ given s'.rows = given s.rows) ∨
      ∃ s' k, s.validateForPresentWithoutValidation c p = (true, s') ∧
        s'.validatedComposition = some k ∧ s'.headless = false ∧ s.headless = false ∧
          s'.layers ≠ [] ∧ given s'.rows = given s.rows ∧
            ∀ r ∈ s.rows, r.sfType = (TypeRow.told k r).validatedType := by
  unfold validateForPresentWithoutValidation
  by_cases hMay : s.mayValidate c p.peekedAt = true
  · rw [if_pos hMay]
    rcases validateStagedComposition_types (c := c) s p.validation with ⟨hUnshown, -⟩ |
      ⟨hPanel, hLayers, k, hStaged, hPanel', hRows⟩
    · -- a display with nothing to show is not validated here
      simp only [mayValidate, Bool.and_eq_true, Bool.not_eq_true',
        List.isEmpty_eq_false_iff] at hMay
      obtain hHeadless | hEmpty := hUnshown
      · exact absurd (hHeadless.symm.trans hMay.1.1.1.2) (by decide)
      · exact absurd hEmpty hMay.1.1.2
    · generalize s.validateStagedComposition c p.validation = s' at hStaged hPanel' hRows ⊢
      by_cases hAnew : s'.stagedCompositionReused = false ∨ s'.changedLayers ≠ []
      · simp only [if_pos hAnew]
        refine .inl ⟨_, rfl, rfl, hPanel'.trans hPanel.symm, ?_⟩
        show given s'.rows = given s.rows
        rw [hRows, given_told]
      · simp only [if_neg hAnew]
        have hChanges : TypeRow.changes (s.rows.map (TypeRow.told k)) = [] := by
          rw [← hRows, ← changedLayers_rows]
          exact not_not.mp (not_or.mp hAnew).2
        have hSame := TypeRow.changes_eq_nil.mp hChanges
        refine .inr ⟨_, k, rfl, hStaged, hPanel', hPanel, ?_, ?_, fun r hr => ?_⟩
        · intro hEmpty
          have hNoRows : s'.acceptValidatedComposition.rows = [] := by rw [rows, hEmpty]; rfl
          rw [acceptValidatedComposition_rows, hRows, List.map_map, List.map_eq_nil_iff, rows,
            List.map_eq_nil_iff] at hNoRows
          exact hLayers hNoRows
        · rw [acceptValidatedComposition_rows, hRows, ← given_told k s.rows]
          unfold given
          rw [List.map_map]
          refine List.map_congr_left fun r hr => ?_
          show (r.id, r.validatedType) = (r.id, r.sfType)
          rw [hSame r hr]
        · have hTold := hSame _ (List.mem_map_of_mem hr)
          rwa [TypeRow.told_sfType] at hTold
  · rw [if_neg hMay]
    exact .inl ⟨s, rfl, hNone, rfl, rfl⟩

/-- **What a present leaves of the types, and what it commits**: they stay the client's,
and what is committed was staged, or tells no layer anything new. -/
theorem presentDisplay_types (s : HwcDisplay) (p : Presentation)
    (hShown : ∀ k, s.validatedComposition = some k → s.headless = false ∧ s.layers ≠ []) :
    (s.presentDisplay c p).validatedComposition = none ∧
      (s.presentDisplay c p).headless = s.headless ∧
        given (s.presentDisplay c p).rows = given s.rows ∧
          ∀ k, (s.presentDisplayAnswer c p).2 = some (.commit k) → s.validatedComposition = some k ∨
            s.validatedComposition = none ∧
              ∀ r ∈ s.rows, r.sfType = (TypeRow.told k r).validatedType := by
  have hCommit : ∀ (t : HwcDisplay) (k : ValidatedComposition), t.validatedComposition = some k →
      t.headless = false → t.layers ≠ [] → t.presentBranch = .commit k ∧
        t.presentStagedComposition c p = t.commitStagedComposition c p k := by
    intro t k hStaged hPanel hLayers
    have hBranch : t.presentBranch = .commit k := by
      unfold presentBranch
      rw [hPanel, if_neg Bool.false_ne_true, if_neg hLayers, hStaged]
    refine ⟨hBranch, ?_⟩
    rw [presentStagedComposition_branch, hBranch]
  unfold presentDisplay presentDisplayAnswer
  cases hStaged : s.validatedComposition with
  | some k =>
    obtain ⟨hPanel, hLayers⟩ := hShown k hStaged
    obtain ⟨hBranch, hPresent⟩ := hCommit s k hStaged hPanel hLayers
    obtain ⟨hRows, hNone, hKept⟩ := commitStagedComposition_rows (c := c) s p k
    simp only [Option.isSome_some, if_true, answerStaged, hPresent, hBranch]
    refine ⟨hNone, hKept, by rw [hRows], fun k' hk' => ?_⟩
    exact .inl (congrArg some (PresentBranch.commit.inj (Option.some.inj hk')))
  | none =>
    simp only [Option.isSome_none, Bool.false_eq_true, if_false]
    rcases validateForPresentWithoutValidation_types (c := c) s p hStaged with
      ⟨s', hEq, hNone, hPanel, hGiven⟩ |
        ⟨s', k, hEq, hSome, hPanel', hPanel, hLayers, hGiven, hTold⟩
    · simp only [hEq]
      exact ⟨hNone, hPanel, hGiven, fun k hk => by cases hk⟩
    · obtain ⟨hBranch, hPresent⟩ := hCommit s' k hSome hPanel' hLayers
      obtain ⟨hRows, hNone, hKept⟩ := commitStagedComposition_rows (c := c) s' p k
      simp only [hEq, answerStaged, hPresent, hBranch]
      refine ⟨hNone, (hKept.trans hPanel').trans hPanel.symm, by rw [hRows, hGiven],
        fun k' hk' => ?_⟩
      obtain rfl := PresentBranch.commit.inj (Option.some.inj hk')
      exact .inr ⟨trivial, hTold⟩

/-- Whose layers the rows are, and the types they were last told. -/
def heard (rows : List TypeRow) : List (ILayerId × CompositionType) :=
  rows.map fun r => (r.id, r.validatedType)

/-- A display without a panel has nothing staged. -/
def Dark (s : HwcDisplay) : Prop := s.headless = true → s.validatedComposition = none

/-- The other calls move no type, and stage nothing; a change of the pipeline unstages. -/
theorem act_other {s : HwcDisplay} {a : Action} (hOther : a.isOther = true) (hDark : s.Dark) :
    (s.act c a).rows = s.rows ∧ (s.act c a).Dark ∧
      ((s.act c a).validatedComposition = none ∨
        (s.act c a).validatedComposition = s.validatedComposition ∧
          (s.act c a).headless = s.headless) := by
  have hCall : ∀ b : Action, b.isLayerCall = true → (s.act c b).Dark ∧
      ((s.act c b).validatedComposition = none ∨
        (s.act c b).validatedComposition = s.validatedComposition ∧
          (s.act c b).headless = s.headless) := by
    intro b hb
    obtain ⟨hStaged, hPanel⟩ := act_keeps_staged (c := c) (s := s) hb
    exact ⟨fun hHeadless => hStaged.trans (hDark (hPanel.symm.trans hHeadless)),
      .inr ⟨hStaged, hPanel⟩⟩
  cases a with
  | createLayer id => cases hOther
  | destroyLayer id => cases hOther
  | acceptDisplayChanges => cases hOther
  | validateDisplay v => cases hOther
  | presentDisplay p => cases hOther
  | setLayerProperties id now lp =>
    refine ⟨?_, hCall _ rfl⟩
    rw [act, observe_rows]
    refine modifyLayer_rows fun l => ?_
    rw [HwcLayer.setLayerProperties_types, Option.isNone_iff_eq_none.mp hOther]
    rfl
  | setClientTarget now lp => exact ⟨observe_rows _ _, hCall _ rfl⟩
  | applyEffectMetadata id applied =>
    refine ⟨?_, hCall _ rfl⟩
    rw [act, observe_rows]
    exact modifyLayer_rows fun l => HwcLayer.applyEffectMetadata_types _ applied l
  | setSolidColor id r g b a =>
    refine ⟨?_, hCall _ rfl⟩
    rw [act, observe_rows]
    exact modifyLayer_rows fun l => HwcLayer.setSolidColor_types r g b a l
  | setVisibleRegion id region =>
    refine ⟨?_, hCall _ rfl⟩
    rw [act, observe_rows]
    exact modifyLayer_rows fun l => HwcLayer.setVisibleRegion_types region l
  | markPlanInvalid bits => exact ⟨rfl, hCall _ rfl⟩
  | setPipeline headless =>
    have hNone : (s.setPipeline headless).validatedComposition = none := by
      unfold setPipeline
      cases hPanel : s.headless with
      | true => exact hDark hPanel
      | false => rfl
    refine ⟨?_, fun _ => hNone, .inl hNone⟩
    show (s.setPipeline headless).rows = s.rows
    unfold setPipeline
    cases s.headless <;> rfl

/-- A layer created is one more, of no type yet; or there is one of its identity. -/
theorem createLayer_rows (s : HwcDisplay) (id : ILayerId) :
    (id ∈ s.rows.map TypeRow.id ∧ (s.act c (.createLayer id)).rows = s.rows) ∨
      id ∉ s.rows.map TypeRow.id ∧
        (s.act c (.createLayer id)).rows = s.rows ++ [⟨id, .kInvalid, .kInvalid⟩] := by
  have hIds : s.rows.map TypeRow.id = s.layers.map Entry.id := by
    rw [rows, List.map_map]
    rfl
  have hThere : (s.layers.any fun e => e.id == id) = true ↔ id ∈ s.rows.map TypeRow.id := by
    rw [hIds, List.any_eq_true, List.mem_map]
    exact ⟨fun ⟨e, he, hId⟩ => ⟨e, he, eq_of_beq hId⟩,
      fun ⟨e, he, hId⟩ => ⟨e, he, beq_iff_eq.mpr hId⟩⟩
  rw [act, observe_rows]
  unfold createLayer
  by_cases hAny : (s.layers.any fun e => e.id == id) = true
  · rw [if_pos hAny]
    exact .inl ⟨hThere.mp hAny, rfl⟩
  · rw [if_neg hAny]
    refine .inr ⟨fun hMem => hAny (hThere.mpr hMem), ?_⟩
    simp [rows]

theorem destroyLayer_rows (s : HwcDisplay) (id : ILayerId) :
    (s.act c (.destroyLayer id)).rows.Sublist s.rows := by
  rw [act, observe_rows]
  unfold destroyLayer
  split
  · exact List.filter_sublist.map _
  · exact List.Sublist.refl _

theorem setCompositionType_rows (s : HwcDisplay) (id : ILayerId) (now : Nat)
    (type : CompositionType) :
    (s.act c (.setLayerProperties id now { compositionType := some type })).rows =
      s.rows.map fun r => if r.id = id then { r with sfType := type } else r := by
  rw [act, observe_rows]
  unfold modifyLayer rows
  rw [List.map_map, List.map_map]
  refine List.map_congr_left fun e _ => ?_
  by_cases hId : e.id = id
  · have hTypes := HwcLayer.setLayerProperties_types now { compositionType := some type } e.layer
    obtain ⟨hSf, hValidated⟩ := Prod.mk.inj hTypes
    simp [Function.comp, hId, hSf, hValidated]
  · simp [Function.comp, hId]

end HwcDisplay

-- ---------------------------------------------------------------------------
-- The two agreed
-- ---------------------------------------------------------------------------

/-- A client that has these types. -/
def Hwc2Client.Believes (m : Hwc2Client) (types : List (ILayerId × CompositionType)) : Prop :=
  ∀ g ∈ types, m.types g.1 = g.2

namespace Hwc2

open HwcDisplay

variable {c : DisplayConfig} {s s' : Hwc2}

/-- What is staged, as the layers and the client were told of it: a layer it names is the
client's where it leaves it to the client, and what it wants clear has been asked for or
is kept to be. -/
structure Staged (s : Hwc2) (k : ValidatedComposition) : Prop where
  panel : s.device.display.headless = false
  layers : s.device.display.rows ≠ []
  left : ∀ r ∈ s.device.display.rows, ∀ t,
    (k.compositionTypes.find? fun t => t.1 == r.id) = some t →
      (r.validatedType = .kClient ↔ t.2 = .kClient ∧ k.gpuDrawsClient = false)
  clears : s.client.clears ++ s.device.punchOutLayers =
    k.punchOutLayers.filter fun id => s.device.display.rows.any fun r => r.id == id

/-- What a client believes, where it stands. -/
def Stands (s : Hwc2) : Standing → Prop
  | .unvalidated =>
    s.client.Believes (given s.device.display.rows) ∧
      s.device.display.validatedComposition = none ∧ s.device.changedLayers = []
  | .asked =>
    s.client.Believes (given s.device.display.rows) ∧
      s.device.changedLayers = TypeRow.changes s.device.display.rows ∧
        ∀ k, s.device.display.validatedComposition = some k → s.Staged k
  | .collected =>
    s.client.Believes (heard s.device.display.rows) ∧ s.device.changedLayers = [] ∧
      ∀ k, s.device.display.validatedComposition = some k → s.Staged k
  | .accepted =>
    s.client.Believes (given s.device.display.rows) ∧ s.device.changedLayers = [] ∧
      ∀ k, s.device.display.validatedComposition = some k →
        s.Staged k ∧ s.client.Believes (heard s.device.display.rows)
  | .touched => s.client.Believes (given s.device.display.rows)

/-- The layers are told apart by their identities, and none has the next one. -/
structure Named (d : Hwc2DeviceDisplay) : Prop where
  distinct : (d.display.rows.map TypeRow.id).Nodup
  fresh : ∀ id ∈ d.display.rows.map TypeRow.id, id < d.nextLayerId

/-- **The device and its client agreed.** -/
structure Agreed (s : Hwc2) : Prop where
  named : Named s.device
  dark : s.device.display.Dark
  stands : s.Stands s.client.standing

/-- Where what changed has not been collected, the client has the types it set. -/
theorem Agreed.believes (h : Agreed s) (hOpen : s.client.standing ≠ .collected) :
    s.client.Believes (given s.device.display.rows) := by
  have hStands := h.stands
  cases hWhere : s.client.standing with
  | unvalidated =>
    rw [hWhere] at hStands
    exact hStands.1
  | asked =>
    rw [hWhere] at hStands
    exact hStands.1
  | collected => exact absurd hWhere hOpen
  | accepted =>
    rw [hWhere] at hStands
    exact hStands.1
  | touched =>
    rw [hWhere] at hStands
    exact hStands

theorem ids_given (rows : List TypeRow) : rows.map TypeRow.id = (given rows).map Prod.fst := by
  rw [given, List.map_map]
  rfl

/-- Layers of the same identities are named alike. -/
theorem Named.of_given {d d' : Hwc2DeviceDisplay} (h : Named d)
    (hGiven : given d'.display.rows = given d.display.rows)
    (hNext : d'.nextLayerId = d.nextLayerId) : Named d' := by
  have hIds : d'.display.rows.map TypeRow.id = d.display.rows.map TypeRow.id := by
    rw [ids_given, ids_given, hGiven]
  exact ⟨hIds ▸ h.distinct, fun id hid => hNext ▸ h.fresh id (hIds ▸ hid)⟩

/-- A touch keeps them agreed where the client has the types that are set. -/
theorem agreed_of_touch {d : Hwc2DeviceDisplay} {m : Hwc2Client} (h : Agreed s)
    (hMail : d.changedLayers = s.device.changedLayers) (hWhere : m.standing = s.client.standing)
    (hStaged : d.display.validatedComposition = s.device.display.validatedComposition ∧
      d.display.headless = s.device.display.headless)
    (hNamed : Named d) (hBelieves : m.Believes (given d.display.rows)) :
    Agreed { device := d, client := m.touch } := by
  refine ⟨hNamed, fun hDark => hStaged.1.trans (h.dark (hStaged.2.symm.trans hDark)), ?_⟩
  have hStands := h.stands
  by_cases hFresh : s.client.standing = .unvalidated
  · have hStill : m.touch.standing = .unvalidated := by
      rw [Hwc2Client.touch, hWhere, if_pos hFresh]
    rw [hFresh] at hStands
    show Stands _ m.touch.standing
    rw [hStill]
    exact ⟨hBelieves, hStaged.1.trans hStands.2.1, hMail.trans hStands.2.2⟩
  · have hTouched : m.touch.standing = .touched := by
      rw [Hwc2Client.touch, hWhere, if_neg hFresh]
    show Stands _ m.touch.standing
    rw [hTouched]
    exact hBelieves

/-- A layer created has no type yet, and the client gives it none. -/
theorem createLayer_agreed (h : Agreed s) (hOpen : s.client.standing ≠ .collected) :
    Agreed
      { device := s.device.createLayer c
        client := (s.client.learn [(s.device.nextLayerId, .kInvalid)]).touch } := by
  have hBelieves := h.believes hOpen
  have hStaged := act_keeps_staged (c := c) (s := s.device.display)
    (a := .createLayer s.device.nextLayerId) rfl
  rcases createLayer_rows (c := c) s.device.display s.device.nextLayerId with
    ⟨hThere, -⟩ | ⟨hNew, hRows⟩
  · exact absurd (h.named.fresh _ hThere) (lt_irrefl _)
  · have hAny : (s.device.display.layers.any fun e => e.id == s.device.nextLayerId) = false := by
      rw [List.any_eq_false]
      intro e he hId
      refine hNew ?_
      rw [rows, List.map_map]
      exact List.mem_map.mpr ⟨e, he, eq_of_beq hId⟩
    have hCreated : s.device.createLayer c =
        { s.device with
          display := s.device.display.act c (.createLayer s.device.nextLayerId)
          nextLayerId := s.device.nextLayerId + 1 } := by
      rw [Hwc2DeviceDisplay.createLayer, hAny]
      rfl
    rw [hCreated]
    refine agreed_of_touch h rfl rfl hStaged ⟨?_, fun id hid => ?_⟩ fun g hg => ?_
    · show (List.map _ (s.device.display.act c _).rows).Nodup
      rw [hRows, List.map_append]
      exact List.nodup_append.mpr ⟨h.named.distinct, List.nodup_singleton _, fun a ha b hb => by
        obtain rfl := List.mem_singleton.mp hb
        intro hSame
        rw [hSame] at ha
        exact hNew ha⟩
    · have hId : id ∈ (s.device.display.act c (.createLayer s.device.nextLayerId)).rows.map
          TypeRow.id := hid
      rw [hRows, List.map_append, List.mem_append] at hId
      show id < s.device.nextLayerId + 1
      obtain hOld | hLast := hId
      · exact Int.lt_add_one_of_le (le_of_lt (h.named.fresh id hOld))
      · obtain rfl := List.mem_singleton.mp hLast
        exact Int.lt_succ _
    · have hMem : g ∈ given (s.device.display.act c (.createLayer s.device.nextLayerId)).rows := hg
      rw [hRows, given, List.map_append, List.mem_append] at hMem
      obtain hOld | hLast := hMem
      · have hOther : g.1 ≠ s.device.nextLayerId := by
          intro hSame
          refine hNew ?_
          rw [ids_given, ← hSame]
          exact List.mem_map_of_mem hOld
        simp only [Hwc2Client.learn, List.lookup_cons, beq_false_of_ne hOther]
        exact hBelieves g hOld
      · obtain rfl := List.mem_singleton.mp hLast
        simp [Hwc2Client.learn]

/-- A layer destroyed is one fewer to agree on. -/
theorem destroyLayer_agreed (h : Agreed s) (hOpen : s.client.standing ≠ .collected)
    (id : ILayerId) :
    Agreed
      { device := { s.device with display := s.device.display.act c (.destroyLayer id) }
        client := s.client.touch } := by
  have hRows := destroyLayer_rows (c := c) s.device.display id
  refine agreed_of_touch h rfl rfl (act_keeps_staged rfl)
    ⟨h.named.distinct.sublist (hRows.map _), fun id' hid => ?_⟩ fun g hg => ?_
  · exact h.named.fresh id' ((hRows.map _).subset hid)
  · exact h.believes hOpen g ((hRows.map _).subset hg)

/-- A type set is the client's own. -/
theorem setLayerCompositionType_agreed (h : Agreed s) (hOpen : s.client.standing ≠ .collected)
    (id : ILayerId) (now : Nat) (type : CompositionType) :
    Agreed
      { device := { s.device with
          display := s.device.display.act c
            (.setLayerProperties id now { compositionType := some type }) }
        client := (s.client.learn [(id, type)]).touch } := by
  have hRows := setCompositionType_rows (c := c) s.device.display id now type
  have hIds : (s.device.display.act c (.setLayerProperties id now
      { compositionType := some type })).rows.map TypeRow.id =
        s.device.display.rows.map TypeRow.id := by
    rw [hRows, List.map_map]
    refine List.map_congr_left fun r _ => ?_
    show (if r.id = id then { r with sfType := type } else r).id = r.id
    split <;> rfl
  refine agreed_of_touch h rfl rfl (act_keeps_staged rfl) ⟨?_, fun id' hid => ?_⟩ fun g hg => ?_
  · show (List.map _ (s.device.display.act c _).rows).Nodup
    rw [hIds]
    exact h.named.distinct
  · exact h.named.fresh id' (hIds ▸ hid)
  · have hMem : g ∈ given (s.device.display.act c (.setLayerProperties id now
        { compositionType := some type })).rows := hg
    rw [hRows, given, List.map_map] at hMem
    obtain ⟨r, hr, rfl⟩ := List.mem_map.mp hMem
    by_cases hId : r.id = id
    · simp [Function.comp, hId, Hwc2Client.learn]
    · have hOld := h.believes hOpen (r.id, r.sfType) (List.mem_map_of_mem hr)
      simpa [Function.comp, hId, Hwc2Client.learn, List.lookup_cons, beq_false_of_ne hId] using hOld

/-- What is staged stands while the types do, and the panel. -/
theorem Staged.still {d : HwcDisplay} {k : ValidatedComposition} (h : Staged s k)
    (hRows : d.rows = s.device.display.rows) (hPanel : d.headless = s.device.display.headless) :
    Staged { s with device := { s.device with display := d } } k where
  panel := hPanel.trans h.panel
  layers := by
    show d.rows ≠ []
    rw [hRows]
    exact h.layers
  left := by
    show ∀ r ∈ d.rows, _
    rw [hRows]
    exact h.left
  clears := by
    show s.client.clears ++ s.device.punchOutLayers =
      k.punchOutLayers.filter fun id => d.rows.any fun r => r.id == id
    rw [hRows]
    exact h.clears

/-- A call that moves no type keeps them agreed. -/
theorem otherCall_agreed (h : Agreed s) {a : Action} (hOther : a.isOther = true) :
    Agreed { s with device := { s.device with display := s.device.display.act c a } } := by
  obtain ⟨hRows, hDark, hStaged⟩ := act_other (c := c) (s := s.device.display) hOther h.dark
  generalize s.device.display.act c a = d at hRows hDark hStaged
  have hStill : ∀ k, d.validatedComposition = some k →
      s.device.display.validatedComposition = some k ∧
        d.headless = s.device.display.headless := by
    intro k hk
    obtain hNone | ⟨hSame, hPanel⟩ := hStaged
    · rw [hNone] at hk
      cases hk
    · exact ⟨hSame.symm.trans hk, hPanel⟩
  refine ⟨h.named.of_given (by rw [← hRows]) rfl, hDark, ?_⟩
  have hStands := h.stands
  show Stands _ s.client.standing
  cases hWhere : s.client.standing with
  | unvalidated =>
    rw [hWhere] at hStands
    obtain ⟨hBelieves, hNone, hMail⟩ := hStands
    refine ⟨hRows ▸ hBelieves, ?_, hMail⟩
    obtain hUnstaged | ⟨hSame, -⟩ := hStaged
    · exact hUnstaged
    · exact hSame.trans hNone
  | asked =>
    rw [hWhere] at hStands
    obtain ⟨hBelieves, hMail, hAll⟩ := hStands
    refine ⟨hRows ▸ hBelieves, hRows ▸ hMail, fun k hk => ?_⟩
    exact (hAll k (hStill k hk).1).still hRows (hStill k hk).2
  | collected =>
    rw [hWhere] at hStands
    obtain ⟨hBelieves, hMail, hAll⟩ := hStands
    refine ⟨hRows ▸ hBelieves, hMail, fun k hk => ?_⟩
    exact (hAll k (hStill k hk).1).still hRows (hStill k hk).2
  | accepted =>
    rw [hWhere] at hStands
    obtain ⟨hBelieves, hMail, hAll⟩ := hStands
    refine ⟨hRows ▸ hBelieves, hMail, fun k hk => ?_⟩
    obtain ⟨hLeft, hHeard⟩ := hAll k (hStill k hk).1
    exact ⟨hLeft.still hRows (hStill k hk).2, hRows ▸ hHeard⟩
  | touched =>
    rw [hWhere] at hStands
    show s.client.Believes (given d.rows)
    rw [hRows]
    exact hStands

/-- A validation that stages nothing keeps nothing to be collected. -/
theorem validateDisplay_unstaged (d : Hwc2DeviceDisplay) (v : Validation)
    (hEq : d.display.validateStagedComposition c v =
      { d.display with validatedComposition := none }) :
    d.validateDisplay c v =
      { d with
        display := { d.display with validatedComposition := none }
        changedLayers := []
        punchOutLayers := [] } := by
  unfold Hwc2DeviceDisplay.validateDisplay
  simp only [act, hEq]

/-- A validation that stages a composition keeps what it changed and what is to be left
clear. -/
theorem validateDisplay_staged (d : Hwc2DeviceDisplay) (v : Validation)
    {k : ValidatedComposition}
    (hStaged : (d.display.validateStagedComposition c v).validatedComposition = some k)
    (hRows : (d.display.validateStagedComposition c v).rows =
      d.display.rows.map (TypeRow.told k)) :
    d.validateDisplay c v =
      { d with
        display := d.display.validateStagedComposition c v
        changedLayers := TypeRow.changes (d.display.rows.map (TypeRow.told k))
        punchOutLayers := k.punchOutLayers.filter fun id =>
          (d.display.validateStagedComposition c v).rows.any fun r => r.id == id } := by
  unfold Hwc2DeviceDisplay.validateDisplay
  simp only [act, hStaged, changedLayers_rows, hRows]
  rw [← hRows]
  simp [rows, Function.comp_def]

/-- A validation tells what it staged, and keeps what of it is to be collected. -/
theorem validateDisplay_agreed (h : Agreed s) (hOpen : s.client.standing ≠ .collected)
    (v : Validation) :
    Agreed
      { device := s.device.validateDisplay c v
        client := { s.client with
          clears := []
          standing := if (s.device.validateDisplay c v).changedLayers.length = 0 then .accepted
            else .asked } } := by
  have hBelieves := h.believes hOpen
  rcases validateStagedComposition_types (c := c) s.device.display v with ⟨-, hEq⟩ |
    ⟨-, hLayers, k, hStaged, hPanel, hRows⟩
  · rw [validateDisplay_unstaged s.device v hEq]
    refine ⟨h.named.of_given rfl rfl, fun _ => rfl, hBelieves, rfl, fun k hk => ?_⟩
    cases hk
  · rw [validateDisplay_staged s.device v hStaged hRows]
    generalize s.device.display.validateStagedComposition c v = d at hStaged hPanel hRows ⊢
    have hGiven : given d.rows = given s.device.display.rows := by rw [hRows, given_told]
    have hLeft : ∀ m : Hwc2Client, m.clears = [] → Staged
        { device := { s.device with
            display := d
            changedLayers := TypeRow.changes (s.device.display.rows.map (TypeRow.told k))
            punchOutLayers := k.punchOutLayers.filter fun id =>
              d.rows.any fun r => r.id == id }
          client := m } k := by
      intro m hClears
      refine ⟨hPanel, ?_, ?_, ?_⟩
      · show d.rows ≠ []
        rw [hRows, Ne, List.map_eq_nil_iff, rows, List.map_eq_nil_iff]
        exact hLayers
      · show ∀ r ∈ d.rows, _
        rw [hRows]
        intro r hr t hNamed
        obtain ⟨r', -, rfl⟩ := List.mem_map.mp hr
        rw [TypeRow.told_id] at hNamed
        exact TypeRow.told_client hNamed
      · rw [hClears]
        rfl
    refine ⟨h.named.of_given hGiven rfl, fun hDark => ?_, ?_⟩
    · rw [hPanel] at hDark
      cases hDark
    show Stands _ (if (TypeRow.changes (s.device.display.rows.map (TypeRow.told k))).length = 0
      then .accepted else .asked)
    split
    · rename_i hNothing
      have hSame := TypeRow.changes_eq_nil.mp (List.length_eq_zero_iff.mp hNothing)
      refine ⟨hGiven ▸ hBelieves, List.length_eq_zero_iff.mp hNothing, fun k' hk' => ?_⟩
      obtain rfl := Option.some.inj (hStaged.symm.trans hk')
      refine ⟨hLeft _ rfl, fun g hg => ?_⟩
      have hMem : g ∈ heard d.rows := hg
      rw [hRows] at hMem
      obtain ⟨r, hr, rfl⟩ := List.mem_map.mp hMem
      rw [← hSame r hr]
      refine hBelieves (r.id, r.sfType) ?_
      rw [← given_told k]
      exact List.mem_map_of_mem hr
    · refine ⟨hGiven ▸ hBelieves, ?_, fun k' hk' => ?_⟩
      · show TypeRow.changes _ = TypeRow.changes d.rows
        rw [hRows]
      · obtain rfl := Option.some.inj (hStaged.symm.trans hk')
        exact hLeft _ rfl

/-- What changed, collected in whole, gives the client the types the layers were told; an
asking that hands out nothing leaves all as it was. -/
theorem getChangedCompositionTypes_agreed (h : Agreed s) {room : Option Nat}
    (hFollows : s.client.standing ≠ .touched ∨ room = none)
    (hStep : s.step c (.getChangedCompositionTypes room) = some s') : Agreed s' := by
  unfold step at hStep
  rcases askFor_cases room s.device.changedLayers with ⟨hHanded, hRoom⟩ | ⟨answer, hNothing, hNot⟩
  · simp only [hHanded, Option.some.injEq] at hStep
    subst hStep
    have hWhere := hFollows.resolve_right hRoom
    have hStands := h.stands
    refine ⟨h.named.of_given rfl rfl, h.dark, ?_⟩
    have hSame : s.device.changedLayers = [] →
        s.client.learn s.device.changedLayers = s.client := by
      intro hNil
      rw [hNil]
      rfl
    show Stands _ (if s.client.standing = .asked then .collected else s.client.standing)
    cases hStanding : s.client.standing with
    | unvalidated =>
      rw [hStanding] at hStands
      obtain ⟨hBelieves, hNone, hMail⟩ := hStands
      rw [hSame hMail]
      exact ⟨hBelieves, hNone, rfl⟩
    | asked =>
      rw [hStanding] at hStands
      obtain ⟨hBelieves, hMail, hAll⟩ := hStands
      refine ⟨fun g hg => ?_, rfl, fun k hk => ?_⟩
      · obtain ⟨r, hr, rfl⟩ := List.mem_map.mp hg
        show ((s.device.changedLayers.lookup r.id).getD (s.client.types r.id)) = r.validatedType
        rw [hMail, hBelieves (r.id, r.sfType) (List.mem_map_of_mem hr)]
        exact TypeRow.lookup_changes h.named.distinct hr
      · obtain ⟨hPanel, hLayers, hLeft, hClears⟩ := hAll k hk
        exact ⟨hPanel, hLayers, hLeft, hClears⟩
    | collected =>
      rw [hStanding] at hStands
      obtain ⟨hBelieves, hMail, hAll⟩ := hStands
      rw [hSame hMail]
      refine ⟨hBelieves, rfl, fun k hk => ?_⟩
      obtain ⟨hPanel, hLayers, hLeft, hClears⟩ := hAll k hk
      exact ⟨hPanel, hLayers, hLeft, hClears⟩
    | accepted =>
      rw [hStanding] at hStands
      obtain ⟨hBelieves, hMail, hAll⟩ := hStands
      rw [hSame hMail]
      refine ⟨hBelieves, rfl, fun k hk => ?_⟩
      obtain ⟨⟨hPanel, hLayers, hLeft, hClears⟩, hHeard⟩ := hAll k hk
      exact ⟨⟨hPanel, hLayers, hLeft, hClears⟩, hHeard⟩
    | touched => exact absurd hStanding hWhere
  · simp only [hNothing] at hStep
    cases answer with
    | handed list => exact absurd rfl (hNot list)
    | counted length => exact Option.some.inj hStep ▸ h
    | noResources => exact Option.some.inj hStep ▸ h

/-- What is handed out of what is to be left clear has been asked of the client. -/
theorem getDisplayRequests_agreed (h : Agreed s) {room : Option Nat}
    (hStep : s.step c (.getDisplayRequests room) = some s') : Agreed s' := by
  have hList := askFor_list room s.device.punchOutLayers
  simp only [step, Option.some.injEq] at hStep
  subst hStep
  generalize askFor room s.device.punchOutLayers = answered at hList
  have hAsk : ∀ standing k, Staged s k → Staged
      { device := { s.device with punchOutLayers := answered.2 }
        client := { s.client with clears := s.client.clears ++ answered.1.list, standing } } k := by
    intro standing k hk
    refine ⟨hk.panel, hk.layers, hk.left, ?_⟩
    show (s.client.clears ++ answered.1.list) ++ answered.2 = _
    rw [List.append_assoc, hList]
    exact hk.clears
  have hStands := h.stands
  refine ⟨h.named.of_given rfl rfl, h.dark, ?_⟩
  show Stands _ s.client.standing
  cases hWhere : s.client.standing with
  | unvalidated =>
    rw [hWhere] at hStands
    exact hStands
  | asked =>
    rw [hWhere] at hStands
    exact ⟨hStands.1, hStands.2.1, fun k hk => hAsk _ k (hStands.2.2 k hk)⟩
  | collected =>
    rw [hWhere] at hStands
    exact ⟨hStands.1, hStands.2.1, fun k hk => hAsk _ k (hStands.2.2 k hk)⟩
  | accepted =>
    rw [hWhere] at hStands
    exact ⟨hStands.1, hStands.2.1, fun k hk =>
      ⟨hAsk _ k (hStands.2.2 k hk).1, (hStands.2.2 k hk).2⟩⟩
  | touched =>
    rw [hWhere] at hStands
    exact hStands

/-- An acceptance makes the types told the client's on both sides. -/
theorem acceptDisplayChanges_agreed (h : Agreed s)
    (hFollows : s.client.standing = .collected ∨ s.client.standing = .accepted ∧
      s.device.display.validatedComposition.isSome = true) :
    Agreed
      { device := { s.device with display := s.device.display.act c .acceptDisplayChanges }
        client := { s.client with standing := .accepted } } := by
  have hStands := h.stands
  have hHeard : s.client.Believes (heard s.device.display.rows) ∧ s.device.changedLayers = [] ∧
      ∀ k, s.device.display.validatedComposition = some k → Staged s k := by
    obtain hWhere | ⟨hWhere, hSome⟩ := hFollows
    · rw [hWhere] at hStands
      exact hStands
    · rw [hWhere] at hStands
      obtain ⟨k, hk⟩ := Option.isSome_iff_exists.mp hSome
      exact ⟨(hStands.2.2 k hk).2, hStands.2.1, fun k' hk' => (hStands.2.2 k' hk').1⟩
  obtain ⟨hBelieves, hMail, hAll⟩ := hHeard
  have hRows : (s.device.display.act c .acceptDisplayChanges).rows =
      s.device.display.rows.map fun r => { r with sfType := r.validatedType } :=
    acceptValidatedComposition_rows _
  have hGiven : given (s.device.display.act c .acceptDisplayChanges).rows =
      heard s.device.display.rows := by
    rw [hRows, given, heard, List.map_map]
    rfl
  have hHeardAfter : heard (s.device.display.act c .acceptDisplayChanges).rows =
      heard s.device.display.rows := by
    rw [hRows, heard, heard, List.map_map]
    rfl
  have hIds : (s.device.display.act c .acceptDisplayChanges).rows.map TypeRow.id =
      s.device.display.rows.map TypeRow.id := by
    rw [hRows, List.map_map]
    rfl
  refine ⟨⟨?_, fun id hid => ?_⟩, h.dark, ?_, hMail, fun k hk => ⟨?_, ?_⟩⟩
  · show (List.map _ (s.device.display.act c _).rows).Nodup
    rw [hIds]
    exact h.named.distinct
  · exact h.named.fresh id (hIds ▸ hid)
  · show s.client.Believes (given (s.device.display.act c _).rows)
    rw [hGiven]
    exact hBelieves
  · obtain ⟨hPanel, hLayers, hLeft, hClears⟩ := hAll k hk
    refine ⟨hPanel, ?_, ?_, ?_⟩
    · show (s.device.display.act c _).rows ≠ []
      rw [hRows, Ne, List.map_eq_nil_iff]
      exact hLayers
    · show ∀ r ∈ (s.device.display.act c .acceptDisplayChanges).rows, _
      rw [hRows]
      intro r hr t hNamed
      obtain ⟨r', hr', rfl⟩ := List.mem_map.mp hr
      exact hLeft r' hr' t hNamed
    · show s.client.clears ++ s.device.punchOutLayers = k.punchOutLayers.filter fun id =>
        (s.device.display.act c .acceptDisplayChanges).rows.any fun r => r.id == id
      rw [hRows, hClears]
      simp [Function.comp_def]
  · show s.client.Believes (heard (s.device.display.act c _).rows)
    rw [hHeardAfter]
    exact hBelieves

/-- What may be presented has been told: there is a panel for it, and layers. -/
theorem Agreed.shown (h : Agreed s) (hMay : s.MayPresent) :
    ∀ k, s.device.display.validatedComposition = some k →
      s.device.display.headless = false ∧ s.device.display.layers ≠ [] := by
  intro k hk
  have hStands := h.stands
  obtain hWhere | hWhere := hMay
  · rw [hWhere] at hStands
    rw [hStands.2.1] at hk
    cases hk
  · rw [hWhere] at hStands
    obtain ⟨hStaged, -⟩ := hStands.2.2 k hk
    refine ⟨hStaged.panel, fun hEmpty => hStaged.layers ?_⟩
    rw [rows, hEmpty]
    rfl

/-- A present leaves the client the types it has. -/
theorem presentDisplay_agreed (h : Agreed s) (hMay : s.MayPresent) (p : Presentation) :
    Agreed
      { device := { s.device with display := s.device.display.act c (.presentDisplay p) }
        client := { s.client with standing := .unvalidated } } := by
  obtain ⟨hNone, hPanel, hGiven, -⟩ :=
    presentDisplay_types (c := c) s.device.display p (h.shown hMay)
  have hOpen : s.client.Believes (given s.device.display.rows) ∧ s.device.changedLayers = [] := by
    have hStands := h.stands
    obtain hWhere | hWhere := hMay
    · rw [hWhere] at hStands
      exact ⟨hStands.1, hStands.2.2⟩
    · rw [hWhere] at hStands
      exact ⟨hStands.1, hStands.2.1⟩
  refine ⟨h.named.of_given hGiven rfl, fun _ => hNone, ?_, hNone, hOpen.2⟩
  show s.client.Believes (given (s.device.display.presentDisplay c p).rows)
  rw [hGiven]
  exact hOpen.1

/-- **Every call of a client that follows keeps the two agreed.** -/
theorem step_agreed (h : Agreed s) {call : Hwc2Call} (hFollows : s.Follows call)
    (hStep : s.step c call = some s') : Agreed s' := by
  cases call with
  | createLayer => exact Option.some.inj hStep ▸ createLayer_agreed h hFollows
  | destroyLayer id => exact Option.some.inj hStep ▸ destroyLayer_agreed h hFollows id
  | setLayerCompositionType id now type =>
    exact Option.some.inj hStep ▸ setLayerCompositionType_agreed h hFollows id now type
  | otherCall a =>
    simp only [step] at hStep
    split at hStep
    · rename_i hOther
      exact Option.some.inj hStep ▸ otherCall_agreed h hOther
    · cases hStep
  | validateDisplay v => exact Option.some.inj hStep ▸ validateDisplay_agreed h hFollows v
  | getChangedCompositionTypes room => exact getChangedCompositionTypes_agreed h hFollows hStep
  | getDisplayRequests room => exact getDisplayRequests_agreed h hStep
  | acceptDisplayChanges => exact Option.some.inj hStep ▸ acceptDisplayChanges_agreed h hFollows
  | presentDisplay p => exact Option.some.inj hStep ▸ presentDisplay_agreed h hFollows p

/-- **The client draws what is left to it.** In every run of a client that follows, with
whatever room it asks, at every present it may make: of the layers the composition that is
committed names, those the client takes for its own are just those the composition leaves
to it; and what a validation staged wants clear below the client's target, has been asked
of the client or is kept for its asking, once. -/
theorem client_draws_what_is_left (c : DisplayConfig) {calls : List Hwc2Call} {s : Hwc2}
    (hRun : (machine c).run {} calls = some s) (hFollows : (machine c).Meets Follows {} calls)
    (hMay : s.MayPresent) (p : Presentation) {k : ValidatedComposition}
    (hCommit : (s.device.display.presentDisplayAnswer c p).2 = some (.commit k)) :
    (∀ e ∈ s.device.display.layers, ∀ t,
      (k.compositionTypes.find? fun t => t.1 == e.id) = some t →
        (s.client.types e.id = .kClient ↔ t.2 = .kClient ∧ k.gpuDrawsClient = false)) ∧
      (s.device.display.validatedComposition = some k →
        s.client.clears ++ s.device.punchOutLayers =
          k.punchOutLayers.filter fun id => s.device.display.layers.any fun e => e.id == id) := by
  have hStart : Agreed {} :=
    ⟨⟨List.nodup_nil, fun id hid => absurd hid List.not_mem_nil⟩, fun _ => rfl,
      fun g hg => absurd hg List.not_mem_nil, rfl, rfl⟩
  have hAgreed : Agreed s := Machine.run_of_meets (I := Agreed)
    (fun t call t' hI hC hStep => step_agreed hI hC hStep) hStart hFollows hRun
  obtain ⟨-, -, -, hWhat⟩ := presentDisplay_types (c := c) s.device.display p (hAgreed.shown hMay)
  have hStands := hAgreed.stands
  refine ⟨fun e he t hNamed => ?_, fun hStaged => ?_⟩
  · have hRow : (⟨e.id, e.layer.sfType, e.layer.validatedType⟩ : TypeRow) ∈
        s.device.display.rows := List.mem_map.mpr ⟨e, he, rfl⟩
    obtain hStaged | ⟨hNone, hTold⟩ := hWhat k hCommit
    · obtain hWhere | hWhere := hMay
      · rw [hWhere] at hStands
        rw [hStands.2.1] at hStaged
        cases hStaged
      · rw [hWhere] at hStands
        obtain ⟨hLeft, hHeard⟩ := hStands.2.2 k hStaged
        rw [hHeard (e.id, e.layer.validatedType) (List.mem_map_of_mem hRow)]
        exact hLeft.left _ hRow t hNamed
    · have hTypes : s.client.types e.id = e.layer.sfType := by
        have hOpen : s.client.standing ≠ .collected := by
          obtain hWhere | hWhere := hMay <;> rw [hWhere] <;> decide
        exact hAgreed.believes hOpen (e.id, e.layer.sfType) (List.mem_map_of_mem hRow)
      have hSame : e.layer.sfType = (TypeRow.told k _).validatedType := hTold _ hRow
      rw [hTypes, hSame]
      exact TypeRow.told_client hNamed
  · obtain hWhere | hWhere := hMay
    · rw [hWhere] at hStands
      rw [hStands.2.1] at hStaged
      cases hStaged
    · rw [hWhere] at hStands
      rw [(hStands.2.2 k hStaged).1.clears]
      simp [rows, Function.comp_def]

/-- Two layers the client gives away, one of them given back, under which a hole is
wanted. -/
def oneGivenBack : List Hwc2Call :=
  [.otherCall (.setPipeline false), .createLayer, .setLayerCompositionType 1 0 .kDevice,
    .createLayer, .setLayerCompositionType 2 0 .kDevice,
    .validateDisplay { plan := { compositionTypes := [(1, .kDevice), (2, .kClient)]
                                 punchOutLayers := [1] } },
    .getChangedCompositionTypes none, .getChangedCompositionTypes (some 0),
    .getChangedCompositionTypes (some 1), .getDisplayRequests (some 1), .acceptDisplayChanges]

/-- The client draws the one and leaves a hole for the other. -/
theorem client_draws_what_is_left_back :
    ∃ s, (machine { hasGpu := false }).run {} oneGivenBack = some s ∧
      s.client.types 1 ≠ .kClient ∧ s.client.types 2 = .kClient ∧ s.client.clears = [1] := by
  have hEnd : ((machine { hasGpu := false }).run {} oneGivenBack).map (fun s =>
      (s.device.display.headless, s.device.display.layers.map Entry.id, s.device.punchOutLayers,
        s.client.standing)) = some (false, [1, 2], [], .accepted) := by
    decide +kernel
  obtain ⟨s, hRun, hIs⟩ := Option.map_eq_some_iff.mp hEnd
  obtain ⟨hPanel, hIs⟩ := Prod.mk.inj hIs
  obtain ⟨hIds, hIs⟩ := Prod.mk.inj hIs
  obtain ⟨hKept, hStanding⟩ := Prod.mk.inj hIs
  have hPlan : ((machine { hasGpu := false }).run {} oneGivenBack).bind (fun s =>
      s.device.display.validatedComposition.map fun k =>
        (k.compositionTypes, k.gpuDrawsClient, k.punchOutLayers)) =
          some ([(1, .kDevice), (2, .kClient)], false, [1]) := by
    decide +kernel
  rw [hRun, Option.bind_some] at hPlan
  obtain ⟨k, hk, hNames⟩ := Option.map_eq_some_iff.mp hPlan
  obtain ⟨hTypes, hNames⟩ := Prod.mk.inj hNames
  obtain ⟨hGpu, hPunch⟩ := Prod.mk.inj hNames
  have hLayers : s.device.display.layers ≠ [] := by
    intro hEmpty
    rw [hEmpty] at hIds
    cases hIds
  have hCommit := (presentDisplayAnswer_staged (c := { hasGpu := false }) hk hPanel {}).2
  rw [if_neg hLayers] at hCommit
  obtain ⟨hDraws, hClears⟩ := client_draws_what_is_left { hasGpu := false } hRun
    (by decide +kernel) (.inr hStanding) {} hCommit
  have hLayer : ∀ id ∈ [(1 : ILayerId), 2], ∃ e ∈ s.device.display.layers, e.id = id := by
    intro id hid
    rw [← hIds] at hid
    obtain ⟨e, he, hId⟩ := List.mem_map.mp hid
    exact ⟨e, he, hId⟩
  obtain ⟨e₁, he₁, hId₁⟩ := hLayer 1 (by simp)
  obtain ⟨e₂, he₂, hId₂⟩ := hLayer 2 (by simp)
  have hFirst := hDraws e₁ he₁ (1, .kDevice) (by rw [hTypes, hId₁]; rfl)
  have hSecond := hDraws e₂ he₂ (2, .kClient) (by rw [hTypes, hId₂]; rfl)
  rw [hId₁, hGpu] at hFirst
  rw [hId₂, hGpu] at hSecond
  refine ⟨s, hRun, ?_, hSecond.mpr ⟨rfl, rfl⟩, ?_⟩
  · intro hOurs
    obtain ⟨hNot, -⟩ := hFirst.mp hOurs
    cases hNot
  · have hAll := hClears hk
    rw [hKept, List.append_nil, hPunch] at hAll
    rw [hAll]
    have hThere : (s.device.display.layers.any fun e => e.id == 1) = true :=
      List.any_eq_true.mpr ⟨e₁, he₁, by rw [hId₁]; rfl⟩
    simp [hThere]

/-- A layer that was the client's, given away while there is no panel. -/
def givenAwayInTheDark : List Hwc2Call :=
  let leftToClient : Validation := { plan := { compositionTypes := [(1, .kClient)] } }
  [.otherCall (.setPipeline false), .createLayer, .setLayerCompositionType 1 0 .kClient,
    .validateDisplay leftToClient, .acceptDisplayChanges, .presentDisplay {},
    .otherCall (.setPipeline true), .setLayerCompositionType 1 0 .kDevice, .validateDisplay {},
    .acceptDisplayChanges, .otherCall (.setPipeline false), .validateDisplay leftToClient]

/-- **What is not promised.** There an acceptance takes the layer back on this side alone:
the composition then leaves it to the client, and the client to the composer. -/
theorem accepted_without_panel :
    ∃ s k, (machine { hasGpu := false }).run {} givenAwayInTheDark = some s ∧ s.MayPresent ∧
      (s.device.display.presentDisplayAnswer { hasGpu := false } {}).2 = some (.commit k) ∧
        k.compositionTypes = [(1, .kClient)] ∧ k.gpuDrawsClient = false ∧
          s.client.types 1 = .kDevice := by
  have hEnd : ((machine { hasGpu := false }).run {} givenAwayInTheDark).map (fun s =>
      (s.device.display.headless, s.device.display.layers.map Entry.id, s.client.types 1,
        s.client.standing)) = some (false, [1], .kDevice, .accepted) := by
    decide +kernel
  obtain ⟨s, hRun, hIs⟩ := Option.map_eq_some_iff.mp hEnd
  obtain ⟨hPanel, hIs⟩ := Prod.mk.inj hIs
  obtain ⟨hIds, hIs⟩ := Prod.mk.inj hIs
  obtain ⟨hType, hStanding⟩ := Prod.mk.inj hIs
  have hPlan : ((machine { hasGpu := false }).run {} givenAwayInTheDark).bind (fun s =>
      s.device.display.validatedComposition.map fun k => (k.compositionTypes, k.gpuDrawsClient)) =
        some ([(1, .kClient)], false) := by
    decide +kernel
  rw [hRun, Option.bind_some] at hPlan
  obtain ⟨k, hk, hNames⟩ := Option.map_eq_some_iff.mp hPlan
  obtain ⟨hTypes, hGpu⟩ := Prod.mk.inj hNames
  have hCommit := (presentDisplayAnswer_staged (c := { hasGpu := false }) hk hPanel {}).2
  rw [if_neg fun hEmpty => by rw [hEmpty] at hIds; cases hIds] at hCommit
  exact ⟨s, k, hRun, .inr hStanding, hCommit, hTypes, hGpu, hType⟩

end Hwc2

end TegraHwc
