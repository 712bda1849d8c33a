import TegraHwc.Hwc.ReleaseFences
import TegraHwc.Lib.Runs

/-!
# TegraHwc — stating a layer's properties again

`hwc/HwcLayer.cpp` over the life of a layer: the calls made of it one after
another, and the framework stating the properties the layer has once more,
with the occlusion finding of it what it found before.

`SetLayerProperties` compares with what the framework set and writes it over
what is shown; `ApplyOcclusion` then compares with what was just written.

## Results

* `setLayerProperties_restated` — stating properties that are numbers again
  shows the layer whole again, and does nothing else.
* `cropped_whole_iff` — when the occlusion leaves a layer whole, by its frame,
  crop and turn and by what is found of it.
* `restated_silent_iff` — it raises nothing and changes nothing exactly for a
  layer that is shown whole, and whose properties are numbers.
-/

namespace TegraHwc

open Runs PlanInvalidator

namespace HwcLayer

-- ---------------------------------------------------------------------------
-- The life of a layer
-- ---------------------------------------------------------------------------

/-- A call made of a layer. -/
inductive Call where
  | setLayerProperties (now : Nat) (lp : LayerProperties)
  | applyEffectMetadata (minCornerRadius : Rat) (applied : Option LayerEffects)
  | setSolidColor (r g b a : UInt8)
  | setVisibleRegion (region : List IRect)
  | refreshLiveness (size : Nat × Nat) (now : Nat)
  | acceptTypeChange
  | setValidatedType (type : CompositionType)
  | takePlanInvalidators
  | clearPriorBufferScanOutFlag
  | applyOcclusion (shown : Occlusion.Shown)

/-- The layer after a call. -/
def call (l : HwcLayer) : Call → HwcLayer
  | .setLayerProperties now lp => l.setLayerProperties now lp
  | .applyEffectMetadata minCornerRadius applied => l.applyEffectMetadata minCornerRadius applied
  | .setSolidColor r g b a => l.setSolidColor r g b a
  | .setVisibleRegion region => l.setVisibleRegion region
  | .refreshLiveness size now => (l.refreshLiveness size now).2
  | .acceptTypeChange => l.acceptTypeChange
  | .setValidatedType type => l.setValidatedType type
  | .takePlanInvalidators => l.clearPlanInvalidators
  | .clearPriorBufferScanOutFlag => l.clearPriorBufferScanOutFlag
  | .applyOcclusion shown => l.applyOcclusion shown

/-- A layer, and what the occlusion last found of it. -/
structure Lived where
  layer : HwcLayer
  lastShown : Option Occlusion.Shown := none

/-- The life of a layer: its calls in any order. -/
def life : Machine Lived Call Unit where
  step s c := some {
    layer := s.layer.call c
    lastShown :=
      match c with
      | .applyOcclusion shown => some shown
      | _ => s.lastShown }
  events _ _ := []

/-- A layer as its constructor leaves it. -/
def created (serial : Nat) : Lived := { layer := { layerData := { serial := serial } } }

/-- The properties a layer has, as they are stated again. -/
def restated (l : HwcLayer) : LayerProperties where
  blendMode := some l.blendMode
  compositionType := some l.sfType
  displayFrame := some l.sfDisplayFrame
  alpha := some l.layerData.pi.alpha
  alphaNan := l.alphaNan
  sourceCrop := some l.sfSourceCrop
  cropNan := l.cropNan
  transform := some l.layerData.pi.transform
  zOrder := some l.zOrder

/-- The properties stated again, and the occlusion's answer after them. -/
def stateAgain (now : Nat) (shown : Occlusion.Shown) (l : HwcLayer) : HwcLayer :=
  applyOcclusion shown (setLayerProperties now l.restated l)

/-- A layer whose frame and crop are shown as the framework set them. -/
def ShownWhole (l : HwcLayer) : Prop := l.seen = (l.sfDisplayFrame, l.sfSourceCrop)

/-- What the occlusion finds leaves the frame and crop as the framework set them: it
has nothing to cut, or nothing it could cut. A layer turned by a quarter is not cut, nor
is a source from a frame that is empty or does not hold all that is found. -/
def LeavesWhole (shown : Occlusion.Shown) (l : HwcLayer) : Prop :=
  ∀ frame, l.sfDisplayFrame = some frame →
    shown.hidden = true ∨ shown.bounds = frame ∨ l.layerData.pi.transform.rotate90 = true ∨
      ((l.sfSourceCrop.isSome = true ∨ l.layerData.bi.isSome = true) ∧
        (Occlusion.empty frame = true ∨ shown.bounds.left < frame.left ∨
          shown.bounds.top < frame.top ∨ frame.right < shown.bounds.right ∨
          frame.bottom < shown.bounds.bottom))

/-- The alpha and the crop set are numbers. -/
def Numbers (l : HwcLayer) : Prop := l.alphaNan = false ∧ l.cropNan = false

instance (l : HwcLayer) : Decidable l.ShownWhole := inferInstanceAs (Decidable (_ = _))

instance (l : HwcLayer) : Decidable l.Numbers := inferInstanceAs (Decidable (_ ∧ _))

-- ---------------------------------------------------------------------------
-- The data is populated
-- ---------------------------------------------------------------------------

/-- What was set of a layer has reached its data. -/
structure Populated (l : HwcLayer) : Prop where
  blendMode : ∀ bi, l.layerData.bi = some bi → l.blendMode ≠ .kUndefined →
    bi.blendMode = l.blendMode
  colorEncoding : ∀ bi, l.layerData.bi = some bi → l.colorEncoding ≠ .kUndefined →
    bi.colorEncoding = l.colorEncoding
  sampleRange : ∀ bi, l.layerData.bi = some bi → l.sampleRange ≠ .kUndefined →
    bi.sampleRange = l.sampleRange
  colorspace : l.colorspace ≠ .kDefault → l.layerData.colorspace = l.colorspace
  transferFunc : l.transferFunc ≠ .kUnknown → l.layerData.transferFunc = l.transferFunc
  brightness : ∀ b, l.brightness = some b → 0 ≤ b → l.layerData.brightness = some b

theorem populateLayerData_populated {l : HwcLayer} {bi : BufferInfo}
    (hBuffer : l.layerData.bi = some bi) : l.populateLayerData.Populated := by
  unfold populateLayerData
  rw [hBuffer]
  simp only
  refine ⟨?_, ?_, ?_, ?_, ?_, ?_⟩
  · rintro _ ⟨⟩ hSet
    exact if_pos hSet
  · rintro _ ⟨⟩ hSet
    exact if_pos hSet
  · rintro _ ⟨⟩ hSet
    exact if_pos hSet
  · intro hSet
    exact if_pos hSet
  · intro hSet
    exact if_pos hSet
  · intro b hb hNonneg
    simp only at hb ⊢
    rw [hb]
    exact if_pos hNonneg

/-- Populating what is populated changes nothing. -/
theorem Populated.same {l : HwcLayer} (h : l.Populated) : l.populateLayerData = l := by
  unfold populateLayerData
  split
  · rfl
  rename_i bi hBuffer
  have hBlend : (if l.blendMode ≠ .kUndefined then l.blendMode else bi.blendMode) =
      bi.blendMode := by
    split
    · exact (h.blendMode bi hBuffer ‹_›).symm
    · rfl
  have hEncoding : (if l.colorEncoding ≠ .kUndefined then l.colorEncoding
      else bi.colorEncoding) = bi.colorEncoding := by
    split
    · exact (h.colorEncoding bi hBuffer ‹_›).symm
    · rfl
  have hRange : (if l.sampleRange ≠ .kUndefined then l.sampleRange else bi.sampleRange) =
      bi.sampleRange := by
    split
    · exact (h.sampleRange bi hBuffer ‹_›).symm
    · rfl
  have hSpace : (if l.colorspace ≠ .kDefault then l.colorspace else l.layerData.colorspace) =
      l.layerData.colorspace := by
    split
    · exact (h.colorspace ‹_›).symm
    · rfl
  have hTransfer : (if l.transferFunc ≠ .kUnknown then l.transferFunc
      else l.layerData.transferFunc) = l.layerData.transferFunc := by
    split
    · exact (h.transferFunc ‹_›).symm
    · rfl
  simp only [hBlend, hEncoding, hRange, hSpace, hTransfer, ← hBuffer]
  split
  · rfl
  · rename_i b hSet
    have hBright : (if 0 ≤ b then some b else l.layerData.brightness) =
        l.layerData.brightness := by
      split
      · exact (h.brightness b hSet ‹_›).symm
      · rfl
    rw [hBright]

/-- What a call leaves of a layer's place in the life: whether it is hidden, and
its buffer. -/
def held (l : HwcLayer) : Bool × Bool × Option BufferInfo :=
  (l.hidden, l.hasBufferSet, l.layerData.bi)

@[simp] theorem raise_held {l : HwcLayer} {changed : Prop} [Decidable changed] {bits : UInt32} :
    (l.raise changed bits).held = l.held := by
  unfold raise
  split <;> rfl

@[simp] theorem markActivity_held {l : HwcLayer} {changed : Prop} [Decidable changed]
    {now : Nat} : (l.markActivity changed now).held = l.held := by
  unfold markActivity
  split <;> rfl

theorem given_held {α : Type} (set : HwcLayer → α → HwcLayer)
    (h : ∀ l v, (set l v).held = l.held) (v : Option α) (l : HwcLayer) :
    (given set v l).held = l.held := by
  cases v with
  | none => rfl
  | some v => exact h l v

/-- Nothing but a buffer changes the buffer, and nothing set hides a layer. -/
theorem setEach_held (now : Nat) (lp : LayerProperties) (l : HwcLayer) :
    (setEach now lp l).held = (given (setBuffer now) lp.buffer l).held := by
  simp only [setEach]
  rw [given_held setBrightness (fun _ _ => rfl), given_held setDamage (fun _ _ => rfl),
    given_held setZOrder (fun _ _ => raise_held),
    given_held (setTransform now) (fun _ _ => markActivity_held.trans raise_held),
    given_held (setSourceCrop now _) (fun _ _ => markActivity_held.trans raise_held),
    given_held (setAlpha now _) (fun _ _ => markActivity_held.trans raise_held),
    given_held (setDisplayFrame now) (fun _ _ => markActivity_held.trans raise_held),
    given_held setCompositionType (fun _ _ => raise_held),
    given_held setTransferFunc (fun _ _ => raise_held),
    given_held setSampleRange (fun _ _ => raise_held),
    given_held setColorEncoding (fun _ _ => raise_held),
    given_held setColorspace (fun _ _ => raise_held),
    given_held setBlendMode (fun _ _ => raise_held)]

/-- What holds over a layer's life: a layer with a buffer is populated, and
hidden as the occlusion last found. -/
structure Settled (s : Lived) : Prop where
  buffer : s.layer.hasBufferSet = true → s.layer.layerData.bi.isSome = true
  populated : s.layer.hasBufferSet = true → s.layer.Populated
  hidden : ∀ shown, s.lastShown = some shown → s.layer.hidden = shown.hidden

theorem setBuffer_held (now : Nat) (b : Buffer) (l : HwcLayer) :
    (setBuffer now l b).held = (l.hidden, true, some b.bi) := by
  have hHidden : ((l.markActivity (l.layerData.fb ≠ b.fb) now).raise
      ((l.markActivity (l.layerData.fb ≠ b.fb) now).reshapedBy b = true) kBufferGeometry).hidden =
      l.hidden := congrArg Prod.fst (raise_held.trans markActivity_held)
  simp only [setBuffer, held, hHidden]

theorem populateLayerData_held (l : HwcLayer) :
    l.populateLayerData.hidden = l.hidden ∧ l.populateLayerData.hasBufferSet = l.hasBufferSet ∧
      l.populateLayerData.layerData.bi.isSome = l.layerData.bi.isSome := by
  unfold populateLayerData
  split
  · exact ⟨rfl, rfl, rfl⟩
  · rename_i bi hBuffer
    simp [hBuffer]

/-- The properties set leave a layer with a buffer populated, whatever they are. -/
theorem setLayerProperties_settled {s : Lived} (hs : Settled s) (now : Nat)
    (lp : LayerProperties) :
    Settled { s with layer := s.layer.setLayerProperties now lp } := by
  have hHeld := setEach_held now lp s.layer
  have hBuffer : (setEach now lp s.layer).hasBufferSet = true →
      (setEach now lp s.layer).layerData.bi.isSome = true := by
    cases hGiven : lp.buffer with
    | none =>
      rw [hGiven] at hHeld
      obtain ⟨-, hSet, hBi⟩ : _ = _ ∧ _ = _ ∧ _ = _ := by simpa [held, given] using hHeld
      rw [hSet, hBi]
      exact hs.buffer
    | some b =>
      rw [hGiven] at hHeld
      have hBi := congrArg (fun h => h.2.2) (hHeld.trans (setBuffer_held now b s.layer))
      simp only [held] at hBi
      simp [hBi]
  have hHidden : (setEach now lp s.layer).hidden = s.layer.hidden := by
    refine (congrArg Prod.fst hHeld).trans ?_
    cases lp.buffer with
    | none => rfl
    | some b => exact congrArg Prod.fst (setBuffer_held now b s.layer)
  unfold setLayerProperties
  simp only
  split
  · rename_i hSet
    obtain ⟨hHiddenToo, hSetToo, hSome⟩ := populateLayerData_held (setEach now lp s.layer)
    obtain ⟨bi, hBi⟩ := Option.isSome_iff_exists.mp (hBuffer hSet)
    refine ⟨fun _ => by rw [hSome, hBuffer hSet], fun _ => populateLayerData_populated hBi,
      fun shown hShown => ?_⟩
    rw [hHiddenToo, hHidden]
    exact hs.hidden shown hShown
  · rename_i hNone
    refine ⟨fun h => absurd h hNone, fun h => absurd h hNone, fun shown hShown => ?_⟩
    rw [hHidden]
    exact hs.hidden shown hShown

/-- What a layer's data is populated from, and with. -/
structure Told where
  hasBufferSet : Bool
  bi : Option BufferInfo
  image : BufferBlendMode × BufferColorEncoding × BufferSampleRange
  colour : HwcColorspace × TransferFunction × Option Rat
  dataColour : HwcColorspace × TransferFunction × Option Rat

/-- What of a layer is told. -/
def told (l : HwcLayer) : Told :=
  { hasBufferSet := l.hasBufferSet
    bi := l.layerData.bi
    image := (l.blendMode, l.colorEncoding, l.sampleRange)
    colour := (l.colorspace, l.transferFunc, l.brightness)
    dataColour :=
      (l.layerData.colorspace, l.layerData.transferFunc, l.layerData.brightness) }

@[simp] theorem raise_told {l : HwcLayer} {changed : Prop} [Decidable changed] {bits : UInt32} :
    (l.raise changed bits).told = l.told := by
  unfold raise
  split <;> rfl

theorem Populated.of_told {l l' : HwcLayer} (h : l.Populated) (hTold : l'.told = l.told) :
    l'.Populated := by
  simp only [told, Told.mk.injEq, Prod.mk.injEq] at hTold
  obtain ⟨-, hBi, ⟨hBlend, hEncoding, hRange⟩, ⟨hSpace, hTransfer, hBright⟩, hDataSpace,
    hDataTransfer, hDataBright⟩ := hTold
  refine ⟨?_, ?_, ?_, ?_, ?_, ?_⟩
  · rw [hBi, hBlend]
    exact h.blendMode
  · rw [hBi, hEncoding]
    exact h.colorEncoding
  · rw [hBi, hRange]
    exact h.sampleRange
  · rw [hSpace, hDataSpace]
    exact h.colorspace
  · rw [hTransfer, hDataTransfer]
    exact h.transferFunc
  · rw [hBright, hDataBright]
    exact h.brightness

/-- A call that tells nothing new keeps what holds. -/
theorem Settled.of_told {s : Lived} (hs : Settled s) (l : HwcLayer) (hTold : l.told = s.layer.told)
    {lastShown : Option Occlusion.Shown}
    (hHidden : ∀ shown, lastShown = some shown → l.hidden = shown.hidden) :
    Settled ⟨l, lastShown⟩ := by
  have hSet : l.hasBufferSet = s.layer.hasBufferSet := congrArg Told.hasBufferSet hTold
  have hBi : l.layerData.bi = s.layer.layerData.bi := congrArg Told.bi hTold
  refine ⟨?_, ?_, hHidden⟩
  · simp only [hSet, hBi]
    exact hs.buffer
  · simp only [hSet]
    exact fun h => (hs.populated h).of_told hTold

/-- Nor does it where it raises a bit and sets something else. -/
theorem Settled.of_raised {s : Lived} (hs : Settled s) {l : HwcLayer} (changed : Prop)
    [Decidable changed] (bits : UInt32)
    (hTold : l.told = (s.layer.raise changed bits).told)
    (hHidden : l.hidden = (s.layer.raise changed bits).hidden) : Settled ⟨l, s.lastShown⟩ := by
  refine hs.of_told l (hTold.trans raise_told) fun shown hShown => ?_
  have hKept : (s.layer.raise changed bits).hidden = s.layer.hidden := congrArg Prod.fst raise_held
  rw [hHidden, hKept]
  exact hs.hidden shown hShown

theorem refreshLiveness_told (size : Nat × Nat) (now : Nat) (l : HwcLayer) :
    (l.refreshLiveness size now).2.told = l.told ∧
      (l.refreshLiveness size now).2.hidden = l.hidden := by
  unfold refreshLiveness
  split <;> exact ⟨rfl, rfl⟩

theorem applyOcclusion_told (shown : Occlusion.Shown) (l : HwcLayer) :
    (l.applyOcclusion shown).told = l.told := by
  unfold applyOcclusion
  obtain ⟨frame, crop⟩ := l.cropped shown
  exact raise_told.trans raise_told

/-- **Every call keeps a layer populated**, and hidden as was last found. -/
theorem settled_step {s s' : Lived} {c : Call} (hs : Settled s) (hStep : life.step s c = some s') :
    Settled s' := by
  obtain rfl := Option.some.inj hStep
  cases c with
  | setLayerProperties now lp => exact setLayerProperties_settled hs now lp
  | applyEffectMetadata minCornerRadius applied =>
    cases applied with
    | none => exact hs
    | some effects => exact hs.of_raised _ _ rfl rfl
  | setSolidColor r g b a =>
    show Settled ⟨s.layer.setSolidColor r g b a, s.lastShown⟩
    exact hs.of_raised (s.layer.layerData.solidColor = none) kEffects rfl rfl
  | setVisibleRegion region =>
    show Settled ⟨s.layer.setVisibleRegion region, s.lastShown⟩
    exact hs.of_raised (region ≠ s.layer.sfVisible) kDisplayFrame rfl rfl
  | refreshLiveness size now =>
    obtain ⟨hTold, hHidden⟩ := refreshLiveness_told size now s.layer
    exact hs.of_told _ hTold fun shown hShown => hHidden.trans (hs.hidden shown hShown)
  | acceptTypeChange =>
    exact hs.of_told s.layer.acceptTypeChange rfl hs.hidden
  | setValidatedType type =>
    exact hs.of_told (s.layer.setValidatedType type) rfl hs.hidden
  | takePlanInvalidators =>
    exact hs.of_told s.layer.clearPlanInvalidators rfl hs.hidden
  | clearPriorBufferScanOutFlag =>
    exact hs.of_told s.layer.clearPriorBufferScanOutFlag rfl hs.hidden
  | applyOcclusion shown =>
    refine hs.of_told _ (applyOcclusion_told shown s.layer) fun found hFound => ?_
    obtain rfl := Option.some.inj hFound
    rfl

theorem settled_created (serial : Nat) : Settled (created serial) := by
  refine ⟨fun h => ?_, fun h => ?_, fun shown h => ?_⟩
  · cases h
  · cases h
  · cases h

theorem settled_run {serial : Nat} {calls : List Call} {s : Lived}
    (hRun : life.run (created serial) calls = some s) : Settled s :=
  Machine.run_of_meets (m := life) (C := fun _ _ => True)
    (fun _ _ _ hs _ hStep => settled_step hs hStep) (settled_created serial)
    (Machine.meets_of_forall (C := fun _ => True) (fun _ _ => trivial) _) hRun

-- ---------------------------------------------------------------------------
-- The properties stated again
-- ---------------------------------------------------------------------------

/-- The layer shown as the framework set it. -/
def wholeAgain (l : HwcLayer) : HwcLayer :=
  { l with
    layerData := { l.layerData with
      pi := { l.layerData.pi with
        displayFrame := l.sfDisplayFrame, sourceCrop := l.sfSourceCrop } } }

/-- **Stating the properties again shows the layer whole again**, and does
nothing else, where they are numbers. -/
theorem setLayerProperties_restated {l : HwcLayer} (hNumbers : l.Numbers)
    (hPopulated : l.hasBufferSet = true → l.Populated) (now : Nat) :
    setLayerProperties now l.restated l = l.wholeAgain := by
  obtain ⟨hAlpha, hCrop⟩ := hNumbers
  have hEach : setEach now l.restated l = l.wholeAgain := by
    simp [hAlpha, hCrop, setEach, restated, given, setBlendMode, setCompositionType,
      setDisplayFrame, setAlpha, setSourceCrop, setTransform, setZOrder, wholeAgain]
  unfold setLayerProperties
  simp only [hEach]
  split
  · rename_i hSet
    have hAgain : l.wholeAgain.Populated := (hPopulated hSet).of_told rfl
    exact hAgain.same
  · rfl

/-- Where they are not, stating them again raises a bit. -/
theorem numbers_of_quiet {l : HwcLayer} {now : Nat}
    (h : (setLayerProperties now l.restated l).planInvalidators = 0) : l.Numbers := by
  have hEach : (setEach now l.restated l).planInvalidators = 0 := by
    unfold setLayerProperties at h
    simp only at h
    split at h
    · exact (@populateLayerData_quiet 0 _ h).1
    · exact h
  -- nothing set after the crop is said to have changed
  have hSet := (Quiet.given (@setBrightness_quiet 0) _ _ hEach).1
  have hSet := (Quiet.given (@setDamage_quiet 0) _ _ hSet).1
  have hSet := (Quiet.given (@setZOrder_quiet 0) _ _ hSet).1
  have hSet := (Quiet.given (@setTransform_quiet 0 now) _ _ hSet).1
  obtain ⟨hSet, -, hCrop, -⟩ := setSourceCrop_unraised hSet
  obtain ⟨-, -, hAlpha, -⟩ := setAlpha_unraised hSet
  exact ⟨hAlpha, hCrop⟩

/-- `CropSource` has nothing to cut from a turned layer, an empty frame, or one
that does not hold what is seen. -/
theorem cropSource_none_iff {source : FRect} {frame shown : IRect} {h v rotate90 : Bool} :
    Occlusion.cropSource source frame shown h v rotate90 = none ↔
      rotate90 = true ∨ Occlusion.empty frame = true ∨ shown.left < frame.left ∨
        shown.top < frame.top ∨ frame.right < shown.right ∨ frame.bottom < shown.bottom := by
  rw [Occlusion.cropSource, ite_eq_left_iff]
  simp only [reduceCtorEq, imp_false, not_not]

/-- **When the occlusion leaves a layer whole.** -/
theorem cropped_whole_iff {l : HwcLayer} {shown : Occlusion.Shown} :
    l.cropped shown = (l.sfDisplayFrame, l.sfSourceCrop) ↔ l.LeavesWhole shown := by
  unfold cropped LeavesWhole
  cases hFrame : l.sfDisplayFrame with
  | none => simp
  | some frame =>
    simp only [Option.some.injEq, forall_eq']
    split
    · rename_i hWhole
      simp only [true_iff]
      rcases hWhole with hHidden | hBounds
      · exact .inl hHidden
      · exact .inr (.inl hBounds)
    rename_i hCut
    obtain ⟨hShown, hBounds⟩ := not_or.mp hCut
    -- the layer is cut: its bounds become its frame, which they are not
    have hMoves : ∀ crop, ((some shown.bounds, crop) : Option IRect × Option FRect) ≠
        (some frame, l.sfSourceCrop) := fun crop hSame =>
      hBounds (Option.some.inj (Prod.mk.inj hSame).1)
    cases hSource : l.sfSourceCrop.or
        (l.layerData.bi.map fun bi => (⟨0, 0, bi.width, bi.height⟩ : FRect)) with
    | none =>
      obtain ⟨hNoCrop, hNoBuffer⟩ := Option.or_eq_none_iff.mp hSource
      rw [Option.map_eq_none_iff] at hNoBuffer
      simp only [hNoCrop, hNoBuffer]
      split
      · rename_i hTurned
        simp [hTurned]
      · rename_i hTurned
        simp [hShown, hBounds, hTurned]
    | some source =>
      have hSome : l.sfSourceCrop.isSome = true ∨ l.layerData.bi.isSome = true := by
        have hIs := congrArg Option.isSome hSource
        simpa [Option.isSome_or] using hIs
      simp only [hShown, hBounds, hSome, Bool.false_eq_true, false_or, true_and]
      rw [← @cropSource_none_iff source _ _ l.layerData.pi.transform.hflip
        l.layerData.pi.transform.vflip]
      cases Occlusion.cropSource source frame shown.bounds l.layerData.pi.transform.hflip
          l.layerData.pi.transform.vflip l.layerData.pi.transform.rotate90 with
      | none => simp
      | some narrowed => simp [hMoves]

/-- An answer that leaves a layer shown whole and hidden as it is raises nothing. -/
theorem applyOcclusion_whole {l : HwcLayer} {shown : Occlusion.Shown} (hNumbers : l.Numbers)
    (hLeaves : l.LeavesWhole shown) (hHidden : l.hidden = shown.hidden) :
    (l.wholeAgain.applyOcclusion shown).planInvalidators = l.planInvalidators ∧
      (l.wholeAgain.applyOcclusion shown).layerData = l.wholeAgain.layerData := by
  have hFound : l.wholeAgain.cropped shown = (l.sfDisplayFrame, l.sfSourceCrop) :=
    cropped_whole_iff.mpr hLeaves
  unfold applyOcclusion
  rw [hFound]
  simp only
  rw [raise_of_not (l := l.wholeAgain) (by simp [wholeAgain, hHidden]),
    raise_of_not (by simp [wholeAgain, hNumbers.2])]
  exact ⟨rfl, rfl⟩

theorem wholeAgain_layerData {l : HwcLayer} (h : l.ShownWhole) :
    l.wholeAgain.layerData = l.layerData := by
  unfold ShownWhole seen at h
  obtain ⟨hFrame, hCrop⟩ := Prod.mk.inj h
  simp only [wholeAgain, ← hFrame, ← hCrop]

/-- What the occlusion finds moves nothing it is found from. -/
theorem cropped_applyOcclusion (shown : Occlusion.Shown) (l : HwcLayer) :
    (l.applyOcclusion shown).cropped shown = l.cropped shown := by
  have hFrame : (l.applyOcclusion shown).sfDisplayFrame = l.sfDisplayFrame := by
    simp only [applyOcclusion, raise]
    split <;> split <;> rfl
  have hCrop : (l.applyOcclusion shown).sfSourceCrop = l.sfSourceCrop := by
    simp only [applyOcclusion, raise]
    split <;> split <;> rfl
  unfold cropped
  rw [hFrame, hCrop]
  simp only [applyOcclusion, raise_layerData]

/-- Just after the occlusion a layer is shown whole where its answer leaves it so. -/
theorem shownWhole_applyOcclusion_iff (shown : Occlusion.Shown) (l : HwcLayer) :
    (l.applyOcclusion shown).ShownWhole ↔ (l.applyOcclusion shown).LeavesWhole shown := by
  rw [← cropped_whole_iff, cropped_applyOcclusion]
  exact Iff.rfl

/-- **Stated again.** Of a layer whose bits were taken, the properties it has
stated again and the occlusion's last answer after them raise nothing and leave
its data as it was, exactly where it is shown whole, that answer leaves it so,
and its alpha and crop are numbers. -/
theorem restated_silent_iff {serial : Nat} {calls : List Call} {l : HwcLayer}
    {shown : Occlusion.Shown} (now : Nat)
    (hRun : life.run (created serial) calls = some ⟨l, some shown⟩) :
    (l.clearPlanInvalidators.stateAgain now shown).planInvalidators = 0 ∧
        (l.clearPlanInvalidators.stateAgain now shown).layerData = l.layerData ↔
      l.ShownWhole ∧ l.LeavesWhole shown ∧ l.Numbers := by
  have hSettled := settled_run hRun
  have hHidden : l.hidden = shown.hidden := hSettled.hidden shown rfl
  have hPopulated : l.clearPlanInvalidators.hasBufferSet = true →
      l.clearPlanInvalidators.Populated := fun hSet => (hSettled.populated hSet).of_told rfl
  unfold stateAgain
  constructor
  · rintro ⟨hSilent, hData⟩
    obtain ⟨hStated, -, hSeen⟩ := @applyOcclusion_quiet 0 _ _ hSilent
    have hNumbers : l.clearPlanInvalidators.Numbers := numbers_of_quiet hStated
    rw [setLayerProperties_restated hNumbers hPopulated] at hSeen hData
    -- the bits compare what is found with the frame and crop just written
    have hWhole : l.cropped shown = (l.sfDisplayFrame, l.sfSourceCrop) := hSeen
    refine ⟨?_, cropped_whole_iff.mp hWhole, hNumbers⟩
    have hPi : _ = l.layerData.pi := congrArg LayerData.pi hData
    exact (congrArg (fun pi : PresentInfo => (pi.displayFrame, pi.sourceCrop)) hPi).symm.trans
      hWhole
  · rintro ⟨hWhole, hLeaves, hNumbers⟩
    have hNumbers : l.clearPlanInvalidators.Numbers := hNumbers
    rw [setLayerProperties_restated hNumbers hPopulated]
    obtain ⟨hBits, hData⟩ :=
      applyOcclusion_whole (l := l.clearPlanInvalidators) hNumbers hLeaves hHidden
    exact ⟨hBits, hData.trans (wholeAgain_layerData (l := l.clearPlanInvalidators) hWhole)⟩

/-- A buffer and a frame for it. -/
def handedOver : LayerProperties where
  buffer := some { bi := { width := 100, height := 100 } }
  displayFrame := some (some ⟨0, 0, 100, 100⟩)

/-- A layer handed those, and what the occlusion finds of it. -/
def found (shown : Occlusion.Shown) : HwcLayer :=
  ((created 1).layer.setLayerProperties 1 handedOver).applyOcclusion shown

theorem run_found (shown : Occlusion.Shown) :
    life.run (created 1) [.setLayerProperties 1 handedOver, .applyOcclusion shown] =
      some ⟨found shown, some shown⟩ := rfl

theorem restated_silent_whole :
    ((found ⟨false, ⟨0, 0, 100, 100⟩⟩).clearPlanInvalidators.stateAgain 2
        ⟨false, ⟨0, 0, 100, 100⟩⟩).planInvalidators = 0 ∧
      ((found ⟨false, ⟨0, 0, 100, 100⟩⟩).clearPlanInvalidators.stateAgain 2
        ⟨false, ⟨0, 0, 100, 100⟩⟩).layerData = (found ⟨false, ⟨0, 0, 100, 100⟩⟩).layerData :=
  (restated_silent_iff 2 (run_found ⟨false, ⟨0, 0, 100, 100⟩⟩)).mpr
    ⟨by decide +kernel, fun _ hFrame => .inr (.inl (Option.some.inj hFrame)), by decide +kernel⟩

/-- **A layer half hidden** is planned anew when its properties are stated again. -/
theorem restated_not_silent :
    ¬∀ (serial : Nat) (calls : List Call) (l : HwcLayer) (shown : Occlusion.Shown) (now : Nat),
      life.run (created serial) calls = some ⟨l, some shown⟩ →
      (l.clearPlanInvalidators.stateAgain now shown).planInvalidators = 0 ∧
        (l.clearPlanInvalidators.stateAgain now shown).layerData = l.layerData := by
  intro h
  have hSilent := (h 1 _ _ _ 2 (run_found ⟨false, ⟨0, 0, 100, 50⟩⟩)).1
  revert hSilent
  decide +kernel

end HwcLayer

end TegraHwc
