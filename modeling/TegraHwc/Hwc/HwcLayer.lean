import TegraHwc.Compositor.Occlusion
import Mathlib.Data.Rat.Floor

/-!
# TegraHwc — a layer, and the bits it raises against the plan

`hwc/HwcLayer.cpp` and `compositor/PlanInvalidation.h`: what the framework
sets on a layer, each property compared with the one it replaces, and a bit
raised where it differs. The framework's floats are rationals, with a flag
where one is no number: that one differs from every other, and from itself.
`PlanShape` is what of a layer shapes a plan; `Quiet` says of a setter that
where it leaves no bit raised it changed none of that.

## Results

* `setLayerProperties_quiet` — a call that raises no bit changed nothing that
  shapes a plan; so do `setSolidColor`, `setVisibleRegion` and
  `applyEffectMetadata`.
* `applyOcclusion_quiet`, `refreshLiveness_quiet` — the same of what the
  composer itself finds of a layer.
* `setLayerProperties_queues`, `setLayerProperties_keeps` — the frame count
  moves by one with each buffer handed over, and not otherwise.
-/

namespace TegraHwc

-- ---------------------------------------------------------------------------
-- `PlanInvalidator`
-- ---------------------------------------------------------------------------

namespace PlanInvalidator

def kBufferGeometry : UInt32 := 0x00001
def kBlendMode : UInt32 := 0x00002
def kCompositionType : UInt32 := 0x00004
def kDisplayFrame : UInt32 := 0x00008
def kPlaneAlpha : UInt32 := 0x00010
def kSourceCrop : UInt32 := 0x00020
def kTransform : UInt32 := 0x00040
def kZOrder : UInt32 := 0x00080
def kDataspace : UInt32 := 0x00100
def kLayerAdded : UInt32 := 0x00200
def kLayerRemoved : UInt32 := 0x00400
def kColorTransform : UInt32 := 0x00800
def kColorMode : UInt32 := 0x01000
def kDisplayConfig : UInt32 := 0x02000
def kPowerMode : UInt32 := 0x04000
def kAllDirty : UInt32 := 0x08000
def kLayerActivity : UInt32 := 0x10000
def kEffects : UInt32 := 0x20000

end PlanInvalidator

open PlanInvalidator

-- ---------------------------------------------------------------------------
-- The layer
-- ---------------------------------------------------------------------------

/-- `HwcLayer::Buffer`. -/
structure Buffer where
  bi : BufferInfo
  fb : Option Nat := none
  fence : Option Nat := none
  deriving DecidableEq, Repr

/-- `HwcLayer::LayerProperties`; a frame or crop set may itself be missing, and
the alpha or an edge of the crop may be no number. -/
structure LayerProperties where
  buffer : Option Buffer := none
  blendMode : Option BufferBlendMode := none
  colorEncoding : Option BufferColorEncoding := none
  sampleRange : Option BufferSampleRange := none
  colorspace : Option HwcColorspace := none
  transferFunc : Option TransferFunction := none
  compositionType : Option CompositionType := none
  displayFrame : Option (Option IRect) := none
  alpha : Option Rat := none
  alphaNan : Bool := false
  sourceCrop : Option (Option FRect) := none
  cropNan : Bool := false
  transform : Option LayerTransform := none
  zOrder : Option UInt32 := none
  damage : Option (List IRect) := none
  brightness : Option Rat := none
  deriving DecidableEq, Repr

/-- `HwcLayer`; times are nanoseconds of the steady clock. -/
structure HwcLayer where
  sfType : CompositionType := .kInvalid
  validatedType : CompositionType := .kInvalid
  zOrder : UInt32 := 0
  layerData : LayerData := {}
  sfDisplayFrame : Option IRect := none
  sfSourceCrop : Option FRect := none
  /-- The alpha set last is no number. -/
  alphaNan : Bool := false
  /-- An edge of the crop set last is none. -/
  cropNan : Bool := false
  sfVisible : List IRect := []
  hidden : Bool := false
  colorEncoding : BufferColorEncoding := .kUndefined
  sampleRange : BufferSampleRange := .kUndefined
  blendMode : BufferBlendMode := .kUndefined
  colorspace : HwcColorspace := .kDefault
  transferFunc : TransferFunction := .kUnknown
  brightness : Option Rat := none
  planInvalidators : UInt32 := 0
  lastActivity : Nat := 0
  previousActivity : Nat := 0
  live : Bool := false
  priorBufferScanoutFlag : Bool := false
  priorBuffer : Option Nat := none
  hasBufferSet : Bool := false
  deriving DecidableEq, Repr

/-- `kLayerQuietDelay`. -/
def kLayerQuietDelay : Nat := 1000000000

/-- `kSameFrame`. -/
def kSameFrame : Nat := 8000000

/-- `kSmallShare`. -/
def kSmallShare : Nat := 8

namespace HwcLayer

/-- A bit raised where something changed. -/
def raise (l : HwcLayer) (changed : Prop) [Decidable changed] (bits : UInt32) : HwcLayer :=
  if changed then { l with planInvalidators := l.planInvalidators ||| bits } else l

/-- `MarkActivity`, where something changed: what one frame announces several
times is one activity. -/
def markActivity (l : HwcLayer) (changed : Prop) [Decidable changed] (now : Nat) : HwcLayer :=
  if changed then
    { l with
      previousActivity :=
        if kSameFrame ≤ now - l.lastActivity then l.lastActivity else l.previousActivity
      lastActivity := now }
  else l

/-- Whether a buffer looks other than the one before, or its import fares
otherwise. -/
def reshapedBy (l : HwcLayer) (b : Buffer) : Bool :=
  match l.layerData.bi with
  | none => true
  | some bi =>
    decide (bi.width ≠ b.bi.width) || decide (bi.height ≠ b.bi.height) ||
      decide (bi.format ≠ b.bi.format) || decide (bi.modifier ≠ b.bi.modifier) ||
      l.layerData.fb.isNone != b.fb.isNone

/-- A buffer taking the place of the one before. -/
def setBuffer (now : Nat) (l : HwcLayer) (b : Buffer) : HwcLayer :=
  let l := l.markActivity (l.layerData.fb ≠ b.fb) now
  let l := l.raise (l.reshapedBy b = true) kBufferGeometry
  { l with
    priorBufferScanoutFlag := decide (l.validatedType ≠ .kClient)
    priorBuffer := l.layerData.bi.bind (·.handle)
    hasBufferSet := true
    layerData := { l.layerData with
      bi := some b.bi, fb := b.fb, acquireFence := b.fence
      generation := l.layerData.generation + 1 } }

def setBlendMode (l : HwcLayer) (v : BufferBlendMode) : HwcLayer :=
  { l.raise (l.blendMode ≠ v) kBlendMode with blendMode := v }

def setColorspace (l : HwcLayer) (v : HwcColorspace) : HwcLayer :=
  { l.raise (l.colorspace ≠ v) kDataspace with colorspace := v }

def setColorEncoding (l : HwcLayer) (v : BufferColorEncoding) : HwcLayer :=
  { l.raise (l.colorEncoding ≠ v) kDataspace with colorEncoding := v }

def setSampleRange (l : HwcLayer) (v : BufferSampleRange) : HwcLayer :=
  { l.raise (l.sampleRange ≠ v) kDataspace with sampleRange := v }

def setTransferFunc (l : HwcLayer) (v : TransferFunction) : HwcLayer :=
  { l.raise (l.transferFunc ≠ v) kDataspace with transferFunc := v }

def setCompositionType (l : HwcLayer) (v : CompositionType) : HwcLayer :=
  { l.raise (l.sfType ≠ v) kCompositionType with sfType := v }

/-- What is shown is the whole frame again, until the occlusion says. -/
def setDisplayFrame (now : Nat) (l : HwcLayer) (v : Option IRect) : HwcLayer :=
  let l := (l.raise (l.sfDisplayFrame ≠ v) kDisplayFrame).markActivity (l.sfDisplayFrame ≠ v) now
  { l with
    sfDisplayFrame := v
    layerData := { l.layerData with pi := { l.layerData.pi with displayFrame := v } } }

def setAlpha (now : Nat) (nan : Bool) (l : HwcLayer) (v : Rat) : HwcLayer :=
  let changed := l.alphaNan = true ∨ nan = true ∨ l.layerData.pi.alpha ≠ v
  let l := (l.raise changed kPlaneAlpha).markActivity changed now
  { l with
    alphaNan := nan
    layerData := { l.layerData with pi := { l.layerData.pi with alpha := v } } }

def setSourceCrop (now : Nat) (nan : Bool) (l : HwcLayer) (v : Option FRect) : HwcLayer :=
  let changed := l.cropNan = true ∨ nan = true ∨ l.sfSourceCrop ≠ v
  let l := (l.raise changed kSourceCrop).markActivity changed now
  { l with
    sfSourceCrop := v
    cropNan := nan
    layerData := { l.layerData with pi := { l.layerData.pi with sourceCrop := v } } }

def setTransform (now : Nat) (l : HwcLayer) (v : LayerTransform) : HwcLayer :=
  let changed := l.layerData.pi.transform.hflip ≠ v.hflip ∨
    l.layerData.pi.transform.vflip ≠ v.vflip ∨ l.layerData.pi.transform.rotate90 ≠ v.rotate90
  let l := (l.raise changed kTransform).markActivity changed now
  { l with layerData := { l.layerData with pi := { l.layerData.pi with transform := v } } }

def setZOrder (l : HwcLayer) (v : UInt32) : HwcLayer :=
  { l.raise (l.zOrder ≠ v) kZOrder with zOrder := v }

def setDamage (l : HwcLayer) (v : List IRect) : HwcLayer :=
  { l with layerData := { l.layerData with pi := { l.layerData.pi with damage := v } } }

def setBrightness (l : HwcLayer) (v : Rat) : HwcLayer := { l with brightness := some v }

/-- `PopulateLayerData`, for a layer with a buffer. -/
def populateLayerData (l : HwcLayer) : HwcLayer :=
  match l.layerData.bi with
  | none => l
  | some bi =>
    let bi := { bi with
      blendMode := if l.blendMode ≠ .kUndefined then l.blendMode else bi.blendMode
      colorEncoding :=
        if l.colorEncoding ≠ .kUndefined then l.colorEncoding else bi.colorEncoding
      sampleRange := if l.sampleRange ≠ .kUndefined then l.sampleRange else bi.sampleRange }
    { l with
      layerData := { l.layerData with
        bi := some bi
        colorspace := if l.colorspace ≠ .kDefault then l.colorspace else l.layerData.colorspace
        transferFunc :=
          if l.transferFunc ≠ .kUnknown then l.transferFunc else l.layerData.transferFunc
        brightness :=
          match l.brightness with
          | none => l.layerData.brightness
          | some b => if 0 ≤ b then some b else l.layerData.brightness } }

/-- A property set where it is given. -/
def given {α : Type} (set : HwcLayer → α → HwcLayer) (v : Option α) (l : HwcLayer) : HwcLayer :=
  match v with
  | none => l
  | some v => set l v

/-- `SetLayerProperties`, up to `PopulateLayerData`. -/
def setEach (now : Nat) (lp : LayerProperties) (l : HwcLayer) : HwcLayer :=
  let l := given (setBuffer now) lp.buffer l
  let l := given setBlendMode lp.blendMode l
  let l := given setColorspace lp.colorspace l
  let l := given setColorEncoding lp.colorEncoding l
  let l := given setSampleRange lp.sampleRange l
  let l := given setTransferFunc lp.transferFunc l
  let l := given setCompositionType lp.compositionType l
  let l := given (setDisplayFrame now) lp.displayFrame l
  let l := given (setAlpha now lp.alphaNan) lp.alpha l
  let l := given (setSourceCrop now lp.cropNan) lp.sourceCrop l
  let l := given (setTransform now) lp.transform l
  let l := given setZOrder lp.zOrder l
  let l := given setDamage lp.damage l
  given setBrightness lp.brightness l

/-- `SetLayerProperties`. -/
def setLayerProperties (now : Nat) (lp : LayerProperties) (l : HwcLayer) : HwcLayer :=
  let l := setEach now lp l
  if l.hasBufferSet then l.populateLayerData else l

/-- `ApplyEffectMetadata`, once the key and the value are read: the effects as
they become, none where the value was refused. -/
def applyEffectMetadata (minCornerRadius : Rat) (applied : Option LayerEffects) (l : HwcLayer) :
    HwcLayer :=
  match applied with
  | none => l
  | some effects =>
    let l := l.raise
      (l.layerData.effects.any minCornerRadius ≠ effects.any minCornerRadius) kEffects
    { l with layerData := { l.layerData with effects := effects } }

/-- `SetSolidColor`, the channels 0 to 255. -/
def setSolidColor (r g b a : UInt8) (l : HwcLayer) : HwcLayer :=
  let l := l.raise (l.layerData.solidColor = none) kEffects
  { l with
    layerData := { l.layerData with
      solidColor := some ([r, g, b, a].map fun c => (c.toNat : Rat) / 255) } }

/-- `SetVisibleRegion`. -/
def setVisibleRegion (region : List IRect) (l : HwcLayer) : HwcLayer :=
  { l.raise (region ≠ l.sfVisible) kDisplayFrame with sfVisible := region }

/-- `GetPixOps`, on a display of this size. -/
def getPixOps (size : Nat × Nat) (l : HwcLayer) : Nat :=
  match l.layerData.pi.displayFrame with
  | some r => ((r.width * r.height) % 2 ^ 32).toNat
  | none => size.1 * size.2 % 2 ^ 32

/-- `IsSmall`. -/
def isSmall (size : Nat × Nat) (l : HwcLayer) : Bool :=
  decide (l.getPixOps size * kSmallShare ≤ size.1 * size.2)

/-- What `LivenessWouldChange` finds: a small quiet layer turns live on its
second frame, a large one on its first. -/
def wouldBeLive (size : Nat × Nat) (now : Nat) (l : HwcLayer) : Bool :=
  decide (now - l.lastActivity < kLayerQuietDelay) &&
    (l.live || !l.isSmall size ||
      decide (l.lastActivity - l.previousActivity < kLayerQuietDelay))

/-- `LivenessWouldChange`. -/
def livenessWouldChange (size : Nat × Nat) (now : Nat) (l : HwcLayer) : Bool :=
  l.wouldBeLive size now != l.live

/-- `RefreshLiveness`. -/
def refreshLiveness (size : Nat × Nat) (now : Nat) (l : HwcLayer) : Bool × HwcLayer :=
  if l.livenessWouldChange size now then (true, { l with live := !l.live }) else (false, l)

/-- `IsLayerUsableAsDevice`. -/
def isLayerUsableAsDevice (l : HwcLayer) : Bool := l.hasBufferSet && l.layerData.fb.isSome

/-- `OcclusionInput`. -/
def occlusionInput (minCornerRadius : Rat) (screen : IRect) (l : HwcLayer) : Occlusion.Layer :=
  let effects := l.layerData.effects
  let fullAlpha := !l.alphaNan && decide (1 ≤ l.layerData.pi.alpha)
  let corners := effects.corners
  let rounded := effects.hasCorners minCornerRadius
  { frame := l.sfDisplayFrame.getD screen
    visible := l.sfVisible
    opaque_ :=
      -- turned by an angle, the layer covers only a part of its frame
      if effects.hasTurn then false
      else
        match l.layerData.bi, l.layerData.solidColor with
        | some bi, _ => fullAlpha && decide (bi.blendMode = .kNone)
        | none, some c => fullAlpha && decide (1 ≤ c.getD 3 0)
        | none, none => false
    cornerCrop :=
      if rounded then
        ⟨(corners.getD 0 0).floor, (corners.getD 1 0).floor, (corners.getD 2 0).ceil,
          (corners.getD 3 0).ceil⟩
      else ⟨0, 0, 0, 0⟩
    radius := if rounded then corners.getD 4 0 else 0
    keep := decide (l.sfType = .kCursor) || effects.reachesPastFrame || effects.hasTurn }

/-- The frame and crop `ApplyOcclusion` comes to, from what the framework
set. -/
def cropped (l : HwcLayer) (shown : Occlusion.Shown) : Option IRect × Option FRect :=
  match l.sfDisplayFrame with
  | none => (none, l.sfSourceCrop)
  | some frame =>
    if shown.hidden = true ∨ shown.bounds = frame then (some frame, l.sfSourceCrop)
    else
      let t := l.layerData.pi.transform
      -- a missing crop is the whole buffer
      let source := l.sfSourceCrop.or (l.layerData.bi.map fun bi => ⟨0, 0, bi.width, bi.height⟩)
      match source with
      | some source =>
        match Occlusion.cropSource source frame shown.bounds t.hflip t.vflip t.rotate90 with
        | some narrowed => (some shown.bounds, some narrowed)
        | none => (some frame, l.sfSourceCrop)
      | none => if t.rotate90 then (some frame, none) else (some shown.bounds, none)

/-- `ApplyOcclusion`. What is left of a crop with an edge that is no number has
one too. -/
def applyOcclusion (shown : Occlusion.Shown) (l : HwcLayer) : HwcLayer :=
  let (frame, crop) := l.cropped shown
  let l := l.raise (frame ≠ l.layerData.pi.displayFrame ∨ l.hidden ≠ shown.hidden) kDisplayFrame
  let l := l.raise (l.cropNan = true ∨ crop ≠ l.layerData.pi.sourceCrop) kSourceCrop
  { l with
    hidden := shown.hidden
    layerData := { l.layerData with
      pi := { l.layerData.pi with displayFrame := frame, sourceCrop := crop } } }

/-- `AcceptTypeChange`. -/
def acceptTypeChange (l : HwcLayer) : HwcLayer := { l with sfType := l.validatedType }

/-- `SetValidatedType`. -/
def setValidatedType (l : HwcLayer) (type : CompositionType) : HwcLayer :=
  { l with validatedType := type }

/-- `IsTypeChanged`. -/
def isTypeChanged (l : HwcLayer) : Bool := decide (l.sfType ≠ l.validatedType)

/-- `TakePlanInvalidators`, the layer after it. -/
def clearPlanInvalidators (l : HwcLayer) : HwcLayer := { l with planInvalidators := 0 }

-- ---------------------------------------------------------------------------
-- What of a layer shapes a plan
-- ---------------------------------------------------------------------------

end HwcLayer

/-- What of a layer shapes a plan, as it was set: the properties a bit stands
for. Where in its frame a layer is seen is not set, and is kept apart. -/
structure PlanShape where
  geometry : Option (Nat × Nat × Nat × Nat)
  imported : Bool
  blendMode : BufferBlendMode
  dataspace : HwcColorspace × BufferColorEncoding × BufferSampleRange × TransferFunction
  compositionType : CompositionType
  displayFrame : Option IRect
  sourceCrop : Option FRect
  cropNan : Bool
  visible : List IRect
  hidden : Bool
  alpha : Rat
  alphaNan : Bool
  transform : LayerTransform
  zOrder : UInt32
  hasEffects : Bool
  hasColor : Bool
  live : Bool
  deriving DecidableEq, Repr

namespace HwcLayer

/-- The shape of a layer. -/
def planShape (minCornerRadius : Rat) (l : HwcLayer) : PlanShape :=
  { geometry := l.layerData.bi.map fun bi => (bi.width, bi.height, bi.format, bi.modifier)
    imported := l.layerData.fb.isSome
    blendMode := l.blendMode
    dataspace := (l.colorspace, l.colorEncoding, l.sampleRange, l.transferFunc)
    compositionType := l.sfType
    displayFrame := l.sfDisplayFrame
    sourceCrop := l.sfSourceCrop
    cropNan := l.cropNan
    visible := l.sfVisible
    hidden := l.hidden
    alpha := l.layerData.pi.alpha
    alphaNan := l.alphaNan
    transform := l.layerData.pi.transform
    zOrder := l.zOrder
    hasEffects := l.layerData.effects.any minCornerRadius
    hasColor := l.layerData.solidColor.isSome
    live := l.live }

/-- Where a layer is seen, and from what part of its buffer. -/
def seen (l : HwcLayer) : Option IRect × Option FRect :=
  (l.layerData.pi.displayFrame, l.layerData.pi.sourceCrop)

section Quiet

variable {floor : Rat}

/-- Where it leaves no bit raised, none was raised before and the plan's shape
is as it was. -/
def Quiet (floor : Rat) (f : HwcLayer → HwcLayer) : Prop :=
  ∀ l, (f l).planInvalidators = 0 →
    l.planInvalidators = 0 ∧ (f l).planShape floor = l.planShape floor

theorem Quiet.comp {f g : HwcLayer → HwcLayer} (hg : Quiet floor g) (hf : Quiet floor f) :
    Quiet floor fun l => g (f l) := by
  intro l h
  have hOuter := hg (f l) h
  have hInner := hf l hOuter.1
  exact ⟨hInner.1, hOuter.2.trans hInner.2⟩

theorem Quiet.given {α : Type} {set : HwcLayer → α → HwcLayer}
    (h : ∀ v, Quiet floor fun l => set l v) (v : Option α) : Quiet floor (given set v) := by
  intro l hBits
  cases v with
  | none => exact ⟨hBits, rfl⟩
  | some v => exact h v l hBits

/-- A bit that stands for a change, still down: there was no change. -/
theorem raise_eq_zero {l : HwcLayer} {changed : Prop} [Decidable changed] {bits : UInt32}
    (hBits : bits ≠ 0) (h : (l.raise changed bits).planInvalidators = 0) :
    l.planInvalidators = 0 ∧ ¬ changed := by
  unfold raise at h
  split at h
  · exact absurd (UInt32.or_eq_zero_iff.mp h).2 hBits
  · exact ⟨h, ‹_›⟩

@[simp] theorem raise_of_not {l : HwcLayer} {changed : Prop} [Decidable changed] {bits : UInt32}
    (h : ¬ changed) : l.raise changed bits = l := if_neg h

@[simp] theorem markActivity_of_not {l : HwcLayer} {changed : Prop} [Decidable changed]
    {now : Nat} (h : ¬ changed) : l.markActivity changed now = l := if_neg h

@[simp] theorem markActivity_planInvalidators {l : HwcLayer} {changed : Prop}
    [Decidable changed] {now : Nat} :
    (l.markActivity changed now).planInvalidators = l.planInvalidators := by
  unfold markActivity
  split <;> rfl

theorem markActivity_eq (l : HwcLayer) (changed : Prop) [Decidable changed] (now : Nat) :
    ∃ last previous, l.markActivity changed now
      = { l with lastActivity := last, previousActivity := previous } := by
  unfold markActivity
  split
  · exact ⟨_, _, rfl⟩
  · exact ⟨l.lastActivity, l.previousActivity, rfl⟩

/-- A setter that raises its bit where it changes the property. -/
theorem Quiet.raised (changed : HwcLayer → Prop) [DecidablePred changed] {bits : UInt32}
    (update : HwcLayer → HwcLayer) (hBits : bits ≠ 0)
    (hKept : ∀ l, (update l).planInvalidators = l.planInvalidators)
    (hSame : ∀ l, ¬ changed l → (update l).planShape floor = l.planShape floor) :
    Quiet floor fun l => update (l.raise (changed l) bits) := by
  intro l h
  rw [hKept] at h
  obtain ⟨hBefore, hNot⟩ := raise_eq_zero hBits h
  refine ⟨hBefore, ?_⟩
  simp only [raise_of_not hNot]
  exact hSame l hNot

/-- A buffer that looks as the one before leaves the shape as it was. -/
theorem reshapedBy_eq_false {l : HwcLayer} {b : Buffer} (h : l.reshapedBy b = false) :
    l.layerData.bi.map (fun bi => (bi.width, bi.height, bi.format, bi.modifier))
        = some (b.bi.width, b.bi.height, b.bi.format, b.bi.modifier) ∧
      l.layerData.fb.isSome = b.fb.isSome := by
  unfold reshapedBy at h
  split at h
  · cases h
  · rename_i bi hbi
    simp only [ne_eq, Bool.or_eq_false_iff, decide_eq_false_iff_not, not_not,
      bne_eq_false_iff_eq] at h
    obtain ⟨⟨⟨⟨hWidth, hHeight⟩, hFormat⟩, hModifier⟩, hFb⟩ := h
    refine ⟨by simp [hbi, hWidth, hHeight, hFormat, hModifier], ?_⟩
    rw [← Option.not_isNone, ← Option.not_isNone, hFb]

theorem setBuffer_quiet (now : Nat) (b : Buffer) : Quiet floor fun l => setBuffer now l b := by
  intro l h
  obtain ⟨last, previous, hMark⟩ := markActivity_eq l (l.layerData.fb ≠ b.fb) now
  simp only [setBuffer, hMark] at h ⊢
  obtain ⟨hBefore, hSame⟩ := raise_eq_zero (by decide) h
  refine ⟨hBefore, ?_⟩
  rw [raise_of_not hSame]
  obtain ⟨hGeometry, hImported⟩ := reshapedBy_eq_false (Bool.eq_false_iff.mpr hSame)
  simp only at hGeometry hImported
  simp [planShape, hGeometry, hImported]

theorem setBlendMode_quiet (v : BufferBlendMode) : Quiet floor fun l => setBlendMode l v :=
  Quiet.raised (fun l => l.blendMode ≠ v) (fun l => { l with blendMode := v }) (by decide)
    (fun _ => rfl) (fun l h => by simp [planShape, not_not.mp h])

theorem setColorspace_quiet (v : HwcColorspace) : Quiet floor fun l => setColorspace l v :=
  Quiet.raised (fun l => l.colorspace ≠ v) (fun l => { l with colorspace := v }) (by decide)
    (fun _ => rfl) (fun l h => by simp [planShape, not_not.mp h])

theorem setColorEncoding_quiet (v : BufferColorEncoding) :
    Quiet floor fun l => setColorEncoding l v :=
  Quiet.raised (fun l => l.colorEncoding ≠ v) (fun l => { l with colorEncoding := v }) (by decide)
    (fun _ => rfl) (fun l h => by simp [planShape, not_not.mp h])

theorem setSampleRange_quiet (v : BufferSampleRange) :
    Quiet floor fun l => setSampleRange l v :=
  Quiet.raised (fun l => l.sampleRange ≠ v) (fun l => { l with sampleRange := v }) (by decide)
    (fun _ => rfl) (fun l h => by simp [planShape, not_not.mp h])

theorem setTransferFunc_quiet (v : TransferFunction) :
    Quiet floor fun l => setTransferFunc l v :=
  Quiet.raised (fun l => l.transferFunc ≠ v) (fun l => { l with transferFunc := v }) (by decide)
    (fun _ => rfl) (fun l h => by simp [planShape, not_not.mp h])

theorem setCompositionType_quiet (v : CompositionType) :
    Quiet floor fun l => setCompositionType l v :=
  Quiet.raised (fun l => l.sfType ≠ v) (fun l => { l with sfType := v }) (by decide)
    (fun _ => rfl) (fun l h => by simp [planShape, not_not.mp h])

theorem setZOrder_quiet (v : UInt32) : Quiet floor fun l => setZOrder l v :=
  Quiet.raised (fun l => l.zOrder ≠ v) (fun l => { l with zOrder := v }) (by decide)
    (fun _ => rfl) (fun l h => by simp [planShape, not_not.mp h])

theorem setDisplayFrame_quiet (now : Nat) (v : Option IRect) :
    Quiet floor fun l => setDisplayFrame now l v := by
  intro l h
  simp only [setDisplayFrame, markActivity_planInvalidators] at h
  obtain ⟨hBefore, hSame⟩ := raise_eq_zero (by decide) h
  refine ⟨hBefore, ?_⟩
  simp only [setDisplayFrame, raise_of_not hSame, markActivity_of_not hSame]
  simp only [ne_eq, not_not] at hSame
  simp [planShape, hSame]

/-- An alpha that raises no bit is a number, and the one there was. -/
theorem setAlpha_unraised {now : Nat} {nan : Bool} {l : HwcLayer} {v : Rat}
    (h : (setAlpha now nan l v).planInvalidators = 0) :
    l.planInvalidators = 0 ∧ l.alphaNan = false ∧ nan = false ∧ l.layerData.pi.alpha = v := by
  simp only [setAlpha, markActivity_planInvalidators] at h
  obtain ⟨hBefore, hSame⟩ := raise_eq_zero (by decide) h
  exact ⟨hBefore, by simpa using hSame⟩

theorem setAlpha_quiet (now : Nat) (nan : Bool) (v : Rat) :
    Quiet floor fun l => setAlpha now nan l v := by
  intro l h
  obtain ⟨hBefore, hWas, hIs, hSame⟩ := setAlpha_unraised h
  refine ⟨hBefore, ?_⟩
  simp [setAlpha, planShape, hWas, hIs, hSame]

/-- Nor is a crop that raises none. -/
theorem setSourceCrop_unraised {now : Nat} {nan : Bool} {l : HwcLayer} {v : Option FRect}
    (h : (setSourceCrop now nan l v).planInvalidators = 0) :
    l.planInvalidators = 0 ∧ l.cropNan = false ∧ nan = false ∧ l.sfSourceCrop = v := by
  simp only [setSourceCrop, markActivity_planInvalidators] at h
  obtain ⟨hBefore, hSame⟩ := raise_eq_zero (by decide) h
  exact ⟨hBefore, by simpa using hSame⟩

theorem setSourceCrop_quiet (now : Nat) (nan : Bool) (v : Option FRect) :
    Quiet floor fun l => setSourceCrop now nan l v := by
  intro l h
  obtain ⟨hBefore, hWas, hIs, hSame⟩ := setSourceCrop_unraised h
  refine ⟨hBefore, ?_⟩
  simp [setSourceCrop, planShape, hWas, hIs, hSame]

theorem setTransform_quiet (now : Nat) (v : LayerTransform) :
    Quiet floor fun l => setTransform now l v := by
  intro l h
  simp only [setTransform, markActivity_planInvalidators] at h
  obtain ⟨hBefore, hSame⟩ := raise_eq_zero (by decide) h
  refine ⟨hBefore, ?_⟩
  simp only [setTransform, raise_of_not hSame, markActivity_of_not hSame]
  simp only [ne_eq, not_or, not_not] at hSame
  obtain ⟨hH, hV, hR⟩ := hSame
  have hEq : v = l.layerData.pi.transform := LayerTransform.ext hH.symm hV.symm hR.symm
  simp [planShape, hEq]

theorem setDamage_quiet (v : List IRect) : Quiet floor fun l => setDamage l v :=
  fun _ h => ⟨h, rfl⟩

theorem setBrightness_quiet (v : Rat) : Quiet floor fun l => setBrightness l v :=
  fun _ h => ⟨h, rfl⟩

theorem populateLayerData_quiet : Quiet floor populateLayerData := by
  intro l h
  unfold populateLayerData at h ⊢
  split at h
  · exact ⟨h, rfl⟩
  · rename_i bi hbi
    refine ⟨h, ?_⟩
    simp [planShape, hbi]

theorem setEach_quiet (now : Nat) (lp : LayerProperties) : Quiet floor (setEach now lp) :=
  (Quiet.given setBrightness_quiet _).comp <| (Quiet.given setDamage_quiet _).comp <|
  (Quiet.given setZOrder_quiet _).comp <| (Quiet.given (setTransform_quiet now) _).comp <|
  (Quiet.given (setSourceCrop_quiet now _) _).comp <| (Quiet.given (setAlpha_quiet now _) _).comp <|
  (Quiet.given (setDisplayFrame_quiet now) _).comp <|
  (Quiet.given setCompositionType_quiet _).comp <| (Quiet.given setTransferFunc_quiet _).comp <|
  (Quiet.given setSampleRange_quiet _).comp <| (Quiet.given setColorEncoding_quiet _).comp <|
  (Quiet.given setColorspace_quiet _).comp <| (Quiet.given setBlendMode_quiet _).comp <|
  Quiet.given (setBuffer_quiet now) _

/-- **A call that raises no bit changed nothing that shapes a plan.** -/
theorem setLayerProperties_quiet (now : Nat) (lp : LayerProperties) :
    Quiet floor (setLayerProperties now lp) := by
  intro l h
  simp only [setLayerProperties] at h ⊢
  split
  · rename_i hBuffer
    simp only [hBuffer, if_true] at h
    exact (populateLayerData_quiet.comp (setEach_quiet now lp)) l h
  · rename_i hBuffer
    simp only [hBuffer] at h
    exact setEach_quiet now lp l h

theorem applyEffectMetadata_quiet (applied : Option LayerEffects) :
    Quiet floor (applyEffectMetadata floor applied) := by
  intro l h
  unfold applyEffectMetadata at h ⊢
  cases applied with
  | none => exact ⟨h, rfl⟩
  | some effects =>
    obtain ⟨hBefore, hSame⟩ := raise_eq_zero (by decide) h
    refine ⟨hBefore, ?_⟩
    simp only [raise_of_not hSame]
    simp only [ne_eq, not_not] at hSame
    simp [planShape, hSame]

theorem setSolidColor_quiet (r g b a : UInt8) : Quiet floor (setSolidColor r g b a) := by
  intro l h
  unfold setSolidColor at h ⊢
  obtain ⟨hBefore, hSame⟩ := raise_eq_zero (by decide) h
  refine ⟨hBefore, ?_⟩
  simp only [raise_of_not hSame]
  have hColor : l.layerData.solidColor.isSome = true := Option.isSome_iff_ne_none.mpr hSame
  simp [planShape, hColor]

theorem setVisibleRegion_quiet (region : List IRect) : Quiet floor (setVisibleRegion region) :=
  Quiet.raised (fun l => region ≠ l.sfVisible) (fun l => { l with sfVisible := region })
    (by decide) (fun _ => rfl) (fun l h => by simp [planShape, not_not.mp h])

/-- What the occlusion finds of a layer changes nothing where it raises no bit,
the part of it seen included. -/
theorem applyOcclusion_quiet {shown : Occlusion.Shown} {l : HwcLayer}
    (h : (applyOcclusion shown l).planInvalidators = 0) :
    l.planInvalidators = 0 ∧ (applyOcclusion shown l).planShape floor = l.planShape floor ∧
      (applyOcclusion shown l).seen = l.seen := by
  unfold applyOcclusion at h ⊢
  generalize l.cropped shown = found at h ⊢
  obtain ⟨frame, crop⟩ := found
  simp only at h ⊢
  obtain ⟨hFirst, hCrop⟩ := raise_eq_zero (by decide) h
  obtain ⟨hBefore, hFrame⟩ := raise_eq_zero (by decide) hFirst
  rw [raise_of_not hCrop, raise_of_not hFrame]
  rw [raise_of_not hFrame] at hCrop
  simp only [ne_eq, not_or, not_not] at hFrame hCrop
  obtain ⟨hFrame, hHidden⟩ := hFrame
  obtain ⟨-, hCrop⟩ := hCrop
  refine ⟨hBefore, ?_, ?_⟩
  · simp [planShape, hHidden]
  · simp [seen, hFrame, hCrop]

/-- A layer whose liveness did not change is the layer it was. -/
theorem refreshLiveness_quiet {size : Nat × Nat} {now : Nat} {l : HwcLayer}
    (h : (l.refreshLiveness size now).1 = false) : (l.refreshLiveness size now).2 = l := by
  unfold refreshLiveness at h ⊢
  split at h
  · cases h
  · rename_i hSame
    rw [if_neg hSame]

end Quiet

-- ---------------------------------------------------------------------------
-- Whose pixels, and which frame of them
-- ---------------------------------------------------------------------------

section Frame

@[simp] theorem raise_layerData {l : HwcLayer} {changed : Prop} [Decidable changed]
    {bits : UInt32} : (l.raise changed bits).layerData = l.layerData := by
  unfold raise
  split <;> rfl

@[simp] theorem markActivity_layerData {l : HwcLayer} {changed : Prop} [Decidable changed]
    {now : Nat} : (l.markActivity changed now).layerData = l.layerData := by
  unfold markActivity
  split <;> rfl

/-- Whose pixels a layer shows, and which frame of them: its serial, its count
of buffers, and the buffer it has. -/
def frame (l : HwcLayer) : Nat × Nat × Option Nat :=
  (l.layerData.serial, l.layerData.generation, l.layerData.bi.map (·.uniqueId))

theorem given_frame {α : Type} (set : HwcLayer → α → HwcLayer)
    (h : ∀ l v, (set l v).frame = l.frame) (v : Option α) (l : HwcLayer) :
    (given set v l).frame = l.frame := by
  cases v with
  | none => rfl
  | some v => exact h l v

theorem populateLayerData_frame (l : HwcLayer) : l.populateLayerData.frame = l.frame := by
  unfold populateLayerData
  split
  · rfl
  · rename_i bi hbi
    simp [frame, hbi]

/-- Nothing but a buffer moves the frame of a layer. -/
theorem setEach_frame (now : Nat) (lp : LayerProperties) (l : HwcLayer) :
    (setEach now lp l).frame = (given (setBuffer now) lp.buffer l).frame := by
  simp only [setEach]
  rw [given_frame setBrightness (fun _ _ => rfl), given_frame setDamage (fun _ _ => rfl),
    given_frame setZOrder (fun l v => by simp [setZOrder, frame]),
    given_frame (setTransform now) (fun l v => by simp [setTransform, frame]),
    given_frame (setSourceCrop now _) (fun l v => by simp [setSourceCrop, frame]),
    given_frame (setAlpha now _) (fun l v => by simp [setAlpha, frame]),
    given_frame (setDisplayFrame now) (fun l v => by simp [setDisplayFrame, frame]),
    given_frame setCompositionType (fun l v => by simp [setCompositionType, frame]),
    given_frame setTransferFunc (fun l v => by simp [setTransferFunc, frame]),
    given_frame setSampleRange (fun l v => by simp [setSampleRange, frame]),
    given_frame setColorEncoding (fun l v => by simp [setColorEncoding, frame]),
    given_frame setColorspace (fun l v => by simp [setColorspace, frame]),
    given_frame setBlendMode (fun l v => by simp [setBlendMode, frame])]

theorem setLayerProperties_frame (now : Nat) (lp : LayerProperties) (l : HwcLayer) :
    (setLayerProperties now lp l).frame = (given (setBuffer now) lp.buffer l).frame := by
  simp only [setLayerProperties]
  split
  · rw [populateLayerData_frame, setEach_frame]
  · exact setEach_frame now lp l

/-- Without a buffer the layer shows the frame it showed. -/
theorem setLayerProperties_keeps {now : Nat} {lp : LayerProperties} {l : HwcLayer}
    (h : lp.buffer = none) : (setLayerProperties now lp l).frame = l.frame := by
  rw [setLayerProperties_frame, h]
  rfl

/-- **With a buffer it shows that buffer, in its next frame.** -/
theorem setLayerProperties_queues {now : Nat} {lp : LayerProperties} {l : HwcLayer} {b : Buffer}
    (h : lp.buffer = some b) :
    (setLayerProperties now lp l).frame
      = (l.layerData.serial, l.layerData.generation + 1, some b.bi.uniqueId) := by
  rw [setLayerProperties_frame, h]
  simp [given, setBuffer, frame]

end Frame

end HwcLayer

end TegraHwc
