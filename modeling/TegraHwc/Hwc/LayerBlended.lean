import TegraHwc.Hwc.ClientOnGpu
import TegraHwc.Tegra.MergeReach

/-!
# TegraHwc — a layer's blending, seat by seat

A layer is shown on a window of its own (`DescribeWindow` of
`tegra/TegraAtomicStateManager.cpp`), merged by the engine (`MergeLayerFrom` there and
`ComposeInto` of `tegra/VicSession.cpp`) or drawn by the GPU (`ToVkLayer` of
`hwc/HwcDisplay.cpp`), and each is told of its blending in words of its own.

What the hardware makes of the words is assumed. A window with no blending takes the
colour, and blends premultiplied or by coverage as it is told; a global alpha multiplies
on top. The engine honours the pixels' alpha in both of its modes that do. A window reads
alpha where its format has a byte for it; the engine goes by the allocator's own
description, which tells a byte of alpha from one of padding.

## Results

* `over_eq_iff`     — when two blends are the same function of the pixels.
* `gpu_blend_eq`    — the GPU's shader and its pipeline are the blend said of them.
* `blends_same_iff` — when a layer blends the same in every seat that takes it.
* `honours_iff`     — which blend modes and formats those are.
-/

namespace TegraHwc

open MachineNumbers (lroundf lroundf_nonneg)
open Vk (Pixel)

-- ---------------------------------------------------------------------------
-- Formats
-- ---------------------------------------------------------------------------

/-- `HAL_PIXEL_FORMAT_RGB_888`. -/
def kHalRgb888 : Int := 3

/-- `HAL_PIXEL_FORMAT_YV12`. -/
def kHalYv12 : Int := 0x32315659

/-- `HAL_PIXEL_FORMAT_RGBA_1010102`. -/
def kHalRgba1010102 : Int := 0x2B

/-- `kNvgrPixelFormatNv12`. -/
def kNvgrPixelFormatNv12 : Int := 0x106

/-- `DRM_FORMAT_*`, those told apart here. -/
inductive DrmFormat where
  | bgr888
  | argb8888
  | xrgb8888
  | xbgr8888
  | abgr8888
  | bgr565
  | yvu420
  | abgr2101010
  | nv12
  | nv21
  deriving DecidableEq, Repr

/-- Its number; nought is `DRM_FORMAT_INVALID`. -/
def DrmFormat.code : DrmFormat → Nat
  | .bgr888 => 0x34324742
  | .argb8888 => 0x34325241
  | .xrgb8888 => 0x34325258
  | .xbgr8888 => 0x34324258
  | .abgr8888 => 0x34324241
  | .bgr565 => 0x36314742
  | .yvu420 => 0x32315659
  | .abgr2101010 => 0x30334241
  | .nv12 => 0x3231564E
  | .nv21 => 0x3132564E

/-- `ConvertHalFormatToDrm`. -/
def convertHalFormatToDrm (hal : Int) : Nat :=
  if hal = kHalRgb888 then DrmFormat.bgr888.code
  else if hal = Vk.kHalBgra8888 then DrmFormat.argb8888.code
  else if hal = Vk.kHalRgbx8888 then DrmFormat.xbgr8888.code
  else if hal = Vk.kHalRgba8888 then DrmFormat.abgr8888.code
  else if hal = Vk.kHalRgb565 then DrmFormat.bgr565.code
  else if hal = kHalYv12 then DrmFormat.yvu420.code
  else if hal = kHalRgba1010102 then DrmFormat.abgr2101010.code
  else if hal = kNvgrPixelFormatNv12 then DrmFormat.nv12.code
  else 0

/-- `TEGRA_DC_EXT_FMT_*`, those a window is shown in. -/
inductive TegraFormat where
  | r8g8b8a8
  | b8g8r8a8
  | b5g6r5
  | yCbCr420SP
  | yCrCb420SP
  deriving DecidableEq, Repr

/-- A number of its own for each; nought is for none. -/
def TegraFormat.code : TegraFormat → Nat
  | .r8g8b8a8 => 1
  | .b8g8r8a8 => 2
  | .b5g6r5 => 3
  | .yCbCr420SP => 4
  | .yCrCb420SP => 5

/-- `TegraFormatFromDrm`. -/
def tegraFormatFromDrm (format : Nat) : Nat :=
  if format = DrmFormat.abgr8888.code ∨ format = DrmFormat.xbgr8888.code then
    TegraFormat.r8g8b8a8.code
  else if format = DrmFormat.argb8888.code ∨ format = DrmFormat.xrgb8888.code then
    TegraFormat.b8g8r8a8.code
  else if format = DrmFormat.bgr565.code then TegraFormat.b5g6r5.code
  else if format = DrmFormat.nv12.code then TegraFormat.yCbCr420SP.code
  else if format = DrmFormat.nv21.code then TegraFormat.yCrCb420SP.code
  else 0

/-- The controller's tables, with its formats. -/
def BufferTables.withFormats (t : BufferTables) : BufferTables :=
  { t with tegraFormatFromDrm := TegraHwc.tegraFormatFromDrm }

/-- A format whose pixels have an alpha. -/
def hasAlphaChannel (hal : Int) : Bool :=
  hal = Vk.kHalRgba8888 || hal = Vk.kHalBgra8888 || hal = kHalRgba1010102

/-- A format whose pixels have a fourth byte, of alpha or of padding. -/
def hasFourthByte (hal : Int) : Bool :=
  hal = Vk.kHalRgba8888 || hal = Vk.kHalRgbx8888 || hal = Vk.kHalBgra8888

/-- A window's format has a byte for alpha. -/
def hasAlphaByte (code : Nat) : Bool :=
  code = TegraFormat.r8g8b8a8.code || code = TegraFormat.b8g8r8a8.code

-- ---------------------------------------------------------------------------
-- Blends
-- ---------------------------------------------------------------------------

/-- How a seat blends: whether it honours the pixels' alpha, whether their colours are
multiplied by it already, and the plane's alpha. -/
structure Blend where
  honoursAlpha : Bool
  premultiplied : Bool
  planeAlpha : Rat
  deriving DecidableEq, Repr

/-- A pixel blended over another, under a plane's alpha. -/
def Blend.over (b : Blend) (planeAlpha : Rat) (src dst : Pixel) : Pixel :=
  let s := if b.honoursAlpha then src else { src with a := 1 }
  let s := (if b.premultiplied then s else s.premultiply).scale planeAlpha
  ⟨s.r + (1 - s.a) * dst.r, s.g + (1 - s.a) * dst.g, s.b + (1 - s.a) * dst.b,
    s.a + (1 - s.a) * dst.a⟩

/-- What a buffer holds of a pixel: nothing past nought and one. -/
def Pixel.Within (p : Pixel) : Prop :=
  (0 ≤ p.r ∧ p.r ≤ 1) ∧ (0 ≤ p.g ∧ p.g ≤ 1) ∧ (0 ≤ p.b ∧ p.b ≤ 1) ∧ 0 ≤ p.a ∧ p.a ≤ 1

/-- A pixel with nothing in it. -/
theorem Pixel.within_transparent : Pixel.Within .transparent := by
  unfold Pixel.Within Vk.Pixel.transparent
  norm_num

/-- And a white one. -/
theorem Pixel.within_white : Pixel.Within ⟨1, 1, 1, 1⟩ := by
  unfold Pixel.Within
  norm_num

namespace Blend

variable {b b' : Blend} {planeAlpha : Rat} {src dst : Pixel}

/-- Under a plane with no alpha, nothing is drawn. -/
theorem over_zero : b.over 0 src dst = dst := by
  unfold Blend.over Pixel.scale
  simp

/-- A transparent pixel over a white one: white still, or darkened by what is drawn as if
it covered. -/
theorem over_transparent :
    (b.over planeAlpha .transparent ⟨1, 1, 1, 1⟩).r =
      if b.honoursAlpha then 1 else 1 - planeAlpha := by
  unfold Blend.over Pixel.scale Pixel.premultiply Vk.Pixel.transparent
  cases b.honoursAlpha <;> cases b.premultiplied <;> simp

/-- Alpha that is not honoured multiplies no colour either. -/
theorem over_congr (hHonours : b.honoursAlpha = b'.honoursAlpha)
    (hSame : b.honoursAlpha = true → b.premultiplied = b'.premultiplied) :
    b.over planeAlpha src dst = b'.over planeAlpha src dst := by
  unfold Blend.over
  rw [← hHonours]
  cases hAlpha : b.honoursAlpha with
  | true => rw [hSame hAlpha]
  | false =>
    unfold Pixel.premultiply
    cases b.premultiplied <;> cases b'.premultiplied <;> simp

/-- **Two blends are one function** where they honour the same alpha, and where nothing is
drawn at all. -/
theorem over_eq_iff
    (hSame : b.honoursAlpha = true → b'.honoursAlpha = true →
      b.premultiplied = b'.premultiplied) :
    (∀ src dst : Pixel, Pixel.Within src → Pixel.Within dst →
        b.over planeAlpha src dst = b'.over planeAlpha src dst) ↔
      planeAlpha = 0 ∨ b.honoursAlpha = b'.honoursAlpha := by
  constructor
  · intro hOne
    have hCorner := congrArg Vk.Pixel.r
      (hOne .transparent ⟨1, 1, 1, 1⟩ Pixel.within_transparent Pixel.within_white)
    rw [over_transparent, over_transparent] at hCorner
    by_contra hNot
    push Not at hNot
    obtain ⟨hDrawn, hHonours⟩ := hNot
    rcases hAlpha : b.honoursAlpha with _ | _ <;> rcases hAlpha' : b'.honoursAlpha with _ | _ <;>
      simp only [hAlpha, hAlpha', ne_eq, not_true, if_true, if_false, Bool.false_eq_true] at *
    · exact hDrawn (by linarith)
    · exact hDrawn (by linarith)
  · rintro (rfl | hHonours) src dst - -
    · rw [over_zero, over_zero]
    · exact over_congr hHonours fun hAlpha => hSame hAlpha (hHonours ▸ hAlpha)

end Blend

-- ---------------------------------------------------------------------------
-- The seats
-- ---------------------------------------------------------------------------

/-- Where a layer is shown from its own buffer. -/
inductive LayerSeat where
  | window
  | merge
  | gpu
  deriving DecidableEq, Repr

/-- What the controller makes of a window. -/
def windowBlend (w : DcWindow) : Blend :=
  { honoursAlpha := (w.blend = .kPreMult || w.blend = .kCoverage) && hasAlphaByte w.pixelFormat
    premultiplied := w.blend ≠ .kCoverage
    planeAlpha := (w.globalAlpha.map fun g => (g : Rat) / 255).getD 1 }

/-- `PerPixelAlpha`. -/
inductive PerPixelAlpha where
  | kAlphaIgnore
  | kAlphaPremultiplied
  | kAlphaNonPremultiplied
  deriving DecidableEq, Repr

/-- What `ComposeInto` tells the engine of a member's blending. -/
def configureBlending (l : VicLayer) : PerPixelAlpha × Rat :=
  (if l.premultiplied then .kAlphaPremultiplied else .kAlphaNonPremultiplied, l.alpha)

/-- What the engine makes of it, for a buffer of this format. -/
def mergeBlend (hal : Int) (told : PerPixelAlpha × Rat) : Blend :=
  { honoursAlpha := told.1 ≠ .kAlphaIgnore && hasAlphaChannel hal
    premultiplied := told.1 ≠ .kAlphaNonPremultiplied
    planeAlpha := told.2 }

/-- What the GPU makes of a layer with a buffer. -/
def gpuBlend (l : Vk.Layer) : Blend :=
  { honoursAlpha := !(l.opaque_ || (Vk.formatOf l.format).2)
    premultiplied := l.premultiplied
    planeAlpha := l.alpha }

/-- What the seats are told by: the controller's tables, the turn forced on windows, what is
known of the GPU's buffers, and the window and its depth. -/
structure SeatArgs where
  tables : BufferTables
  forcedTurn : Int
  gpu : GpuConfig
  planeId : Nat
  depth : Nat

-- ---------------------------------------------------------------------------
-- The GPU's own blending
-- ---------------------------------------------------------------------------

section Gpu

variable {p : Pixel} {m : Rat}

theorem Pixel.within_scale (h : Pixel.Within p) (hm : 0 ≤ m ∧ m ≤ 1) :
    Pixel.Within (p.scale m) := by
  have hOne : ∀ {v : Rat}, 0 ≤ v ∧ v ≤ 1 → 0 ≤ v * m ∧ v * m ≤ 1 := fun hv =>
    ⟨mul_nonneg hv.1 hm.1, mul_le_one₀ hv.2 hm.1 hm.2⟩
  exact ⟨hOne h.1, hOne h.2.1, hOne h.2.2.1, hOne h.2.2.2⟩

theorem Pixel.within_premultiply (h : Pixel.Within p) : Pixel.Within p.premultiply := by
  obtain ⟨hr, hg, hb, ha⟩ := Pixel.within_scale h h.2.2.2
  exact ⟨hr, hg, hb, h.2.2.2⟩

/-- What lies between nought and one is taken as it is. -/
theorem Pixel.held_eq (h : Pixel.Within p) : p.held = p := by
  obtain ⟨hr, hg, hb, ha⟩ := h
  unfold Pixel.held
  rw [min_eq_left hr.2, min_eq_left hg.2, min_eq_left hb.2, min_eq_left ha.2, max_eq_right hr.1,
    max_eq_right hg.1, max_eq_right hb.1, max_eq_right ha.1]

/-- **The shader and its pipeline are the blend**, for a layer with a buffer and square
corners, and then what the target's format keeps of it. -/
theorem gpu_blend_eq (gpu : Vk.Gpu) {s : Vk.Source} {uv : Vk.Point} {dst : Pixel}
    (hBuffer : s.layer.buffer.isSome = true) (hOpaque : s.opaque_ = (Vk.formatOf s.layer.format).2)
    (hSquare : s.layer.cornerRadius ≤ 0) (hAlpha : 0 ≤ s.layer.alpha ∧ s.layer.alpha ≤ 1)
    (hTexel : Pixel.Within (gpu.texture s.image uv)) (targetWidth targetHeight : Nat) (x y : Int) :
    gpu.blend (gpu.fragment (s.constants targetWidth targetHeight) s.image uv x y) dst =
      gpu.store ((gpuBlend s.layer).over s.layer.alpha (gpu.texture s.image uv) dst) := by
  have hNotSolid : s.layer.buffer.isNone = false := by
    rw [← Option.not_isSome, hBuffer]
    rfl
  unfold Vk.Gpu.fragment Vk.Source.constants gpuBlend
  simp only
  rw [hNotSolid, if_neg (not_lt.mpr hSquare), hOpaque]
  simp only [Bool.false_eq_true, if_false]
  -- what the shader reads, and what it hands out, lie between nought and one
  generalize gpu.texture s.image uv = texel at hTexel
  have hRead : Pixel.Within
      (if s.layer.opaque_ || (Vk.formatOf s.layer.format).2 then { texel with a := 1 }
        else texel) := by
    split
    · exact ⟨hTexel.1, hTexel.2.1, hTexel.2.2.1, by norm_num⟩
    · exact hTexel
  unfold Vk.Gpu.blend Blend.over
  simp only
  rw [Pixel.held_eq (Pixel.within_scale ?_ hAlpha)]
  · cases (s.layer.opaque_ || (Vk.formatOf s.layer.format).2) <;> rfl
  · split
    · exact hRead
    · exact Pixel.within_premultiply hRead

end Gpu

namespace SeatArgs

variable (args : SeatArgs) (layer : LayerData)

/-- The format of a layer's buffer, as the allocator has it. -/
def halFormat : Int := ((layer.bi.map (·.handle)).map args.gpu.halFormat).getD 0

/-- The blend of a layer in a seat, where the seat takes it. -/
def blendIn : LayerSeat → Option Blend
  | .window =>
    (describeWindow args.tables.withFormats args.forcedTurn layer args.planeId args.depth).map
      windowBlend
  | .merge =>
    if isValidForMerge args.tables.withFormats layer then
      some (mergeBlend (args.halFormat layer) (configureBlending (mergeLayerFrom layer)))
    else none
  | .gpu =>
    if layer.bi.isSome ∧ gpuReadableBytes (args.halFormat layer) ≠ 0 then
      some (gpuBlend (args.gpu.toVkLayer layer))
    else none

/-- A seat takes the layer. -/
def takes : LayerSeat → Bool
  | .window =>
    match layer.bi with
    | none => false
    | some bi =>
      layer.fb.isSome && (args.tables.tegraLayoutFromModifier bi.modifier).isSome &&
        decide (TegraHwc.tegraFormatFromDrm bi.format ≠ 0) &&
          !(args.tables.drmFormatIsYuv bi.format && decide (bi.pitchUV = 0))
  | .merge => isValidForMerge args.tables.withFormats layer
  | .gpu => layer.bi.isSome && decide (gpuReadableBytes (args.halFormat layer) ≠ 0)

/-- The layer's blending, as it was set. -/
def blendMode (layer : LayerData) : BufferBlendMode :=
  (layer.bi.map (·.blendMode)).getD .kUndefined

/-- A seat honours the alpha of the layer's pixels. -/
def honours : LayerSeat → Bool
  | .window =>
    (blendMode layer = .kPreMult || blendMode layer = .kCoverage) &&
      hasFourthByte (args.halFormat layer)
  | .merge => hasAlphaChannel (args.halFormat layer)
  | .gpu => blendMode layer ≠ .kNone && hasAlphaChannel (args.halFormat layer)

/-- The plane's alpha in eight bits. -/
def eightBits (alpha : Rat) : Rat := (lroundf (alpha * 255) : Rat) / 255

/-- A seat's own word for the plane's alpha: a window's is rounded. -/
def planeAlphaIn : LayerSeat → Rat
  | .window => eightBits layer.pi.alpha
  | _ => layer.pi.alpha

/-- **The layer blends the same in every seat** that takes it: as one function of the pixels,
under the plane's alpha, which a window has in eight bits. -/
def BlendsSame : Prop :=
  (∀ seat seat', ∀ b ∈ args.blendIn layer seat, ∀ b' ∈ args.blendIn layer seat',
      ∀ src dst : Pixel, Pixel.Within src → Pixel.Within dst →
        b.over layer.pi.alpha src dst = b'.over layer.pi.alpha src dst) ∧
    ∀ seat, ∀ b ∈ args.blendIn layer seat, b.planeAlpha = planeAlphaIn layer seat

-- ---------------------------------------------------------------------------
-- What the seats are told
-- ---------------------------------------------------------------------------

/-- A window's format has a byte for alpha where the buffer's pixels have a fourth one. -/
theorem hasAlphaByte_eq (hal : Int) :
    hasAlphaByte (TegraHwc.tegraFormatFromDrm (convertHalFormatToDrm hal)) = hasFourthByte hal := by
  unfold convertHalFormatToDrm
  repeat
    split
    · subst_vars
      decide
  have hNone : hasFourthByte hal = false := by
    unfold hasFourthByte
    simp [*]
  rw [hNone]
  decide

/-- The formats the GPU reads. -/
theorem readable_cases {hal : Int} (hReads : gpuReadableBytes hal ≠ 0) :
    (hal = Vk.kHalRgba8888 ∨ hal = Vk.kHalRgbx8888 ∨ hal = Vk.kHalBgra8888) ∨
      hal = Vk.kHalRgb565 := by
  unfold gpuReadableBytes at hReads
  split at hReads
  · rename_i hFour
    exact .inl hFour
  split at hReads
  · rename_i hTwo
    exact .inr hTwo
  · exact absurd rfl hReads

/-- Of a format the GPU reads, its alpha means something where there is one. -/
theorem formatOf_hasAlphaChannel {hal : Int} (hReads : gpuReadableBytes hal ≠ 0) :
    (Vk.formatOf hal).2 = !hasAlphaChannel hal := by
  rcases readable_cases hReads with (rfl | rfl | rfl) | rfl <;> decide

/-- What a window is told of a layer's blending. -/
theorem describeWindow_blend {t : BufferTables} {forced : Int} {layer : LayerData}
    {planeId depth : Nat} {w : DcWindow}
    (h : describeWindow t forced layer planeId depth = some w) :
    w.blend = blendFor (blendMode layer) ∧
      (∃ bi, layer.bi = some bi ∧ w.pixelFormat = t.tegraFormatFromDrm bi.format) ∧
        w.globalAlpha =
          if layer.pi.alpha < 1 then
            some (lroundf (min (max layer.pi.alpha 0) 1 * 255)).toNat
          else none := by
  unfold describeWindow at h
  split at h
  · rename_i bi fb hBuffer _
    unfold blendMode
    rw [hBuffer]
    simp only at h
    split at h
    · cases h
    split at h
    · cases h
    obtain rfl := Option.some.inj h
    exact ⟨rfl, ⟨bi, rfl, rfl⟩, rfl⟩
  · cases h

/-- And when it is told anything. -/
theorem describeWindow_isSome {t : BufferTables} {forced : Int} {layer : LayerData}
    {planeId depth : Nat} :
    (describeWindow t forced layer planeId depth).isSome =
      match layer.bi with
      | none => false
      | some bi =>
        layer.fb.isSome && (t.tegraLayoutFromModifier bi.modifier).isSome &&
          decide (t.tegraFormatFromDrm bi.format ≠ 0) &&
            !(t.drmFormatIsYuv bi.format && decide (bi.pitchUV = 0)) := by
  unfold describeWindow
  cases layer.bi with
  | none => rfl
  | some bi =>
    cases layer.fb with
    | none => rfl
    | some fb =>
      simp only
      cases t.tegraLayoutFromModifier bi.modifier with
      | none => rfl
      | some layout =>
        simp only
        split
        · rename_i hNone
          rcases hNone with hFormat | ⟨hYuv, hPitch⟩
          · simp [hFormat]
          · simp [hYuv, hPitch]
        · rename_i hSome
          rw [not_or, not_and_or] at hSome
          rcases hSome with ⟨hFormat, hYuv | hPitch⟩
          · simp [hFormat, hYuv]
          · simp [hFormat, hPitch]

/-- What the GPU is told of a layer with a buffer. -/
theorem toVkLayer_blend {bi : BufferInfo} (hBuffer : layer.bi = some bi) :
    gpuBlend (args.gpu.toVkLayer layer) =
      { honoursAlpha :=
          !(bi.blendMode == .kNone || (Vk.formatOf (args.gpu.halFormat bi.handle)).2)
        premultiplied := bi.blendMode != .kCoverage
        planeAlpha := layer.pi.alpha } := by
  unfold gpuBlend GpuConfig.toVkLayer
  simp only [hBuffer]
  split
  · rfl
  split
  · rfl
  · rfl

-- ---------------------------------------------------------------------------
-- When the seats agree
-- ---------------------------------------------------------------------------

variable {args : SeatArgs} {layer : LayerData}

theorem blendIn_isSome (seat : LayerSeat) :
    (args.blendIn layer seat).isSome = args.takes layer seat := by
  cases seat with
  | window =>
    simp only [blendIn, takes]
    rw [Option.isSome_map, describeWindow_isSome]
    rfl
  | merge =>
    simp only [blendIn, takes]
    cases isValidForMerge args.tables.withFormats layer <;> rfl
  | gpu =>
    simp only [blendIn, takes]
    split
    · rename_i hReads
      simp [hReads]
    · rename_i hNot
      rw [Option.isSome_none, eq_comm, ← Bool.not_eq_true, Bool.and_eq_true, decide_eq_true_eq]
      exact hNot

/-- What is said of a layer's blending in a seat that takes it. -/
structure Said (args : SeatArgs) (layer : LayerData) (seat : LayerSeat) (b : Blend) : Prop where
  honours : b.honoursAlpha = args.honours layer seat
  premultiplied : b.premultiplied = decide (blendMode layer ≠ .kCoverage)
  planeAlpha : b.planeAlpha = planeAlphaIn layer seat

theorem said_window {w : DcWindow}
    (hFormat : ∀ bi ∈ layer.bi, bi.format = convertHalFormatToDrm (args.gpu.halFormat bi.handle))
    (hAlpha : 0 ≤ layer.pi.alpha ∧ layer.pi.alpha ≤ 1)
    (h : describeWindow args.tables.withFormats args.forcedTurn layer args.planeId args.depth =
      some w) : Said args layer .window (windowBlend w) := by
  obtain ⟨hBlend, ⟨bi, hBuffer, hPixels⟩, hGlobal⟩ := describeWindow_blend h
  refine ⟨?_, ?_, ?_⟩
  · have hByte : hasAlphaByte w.pixelFormat = hasFourthByte (args.halFormat layer) := by
      rw [hPixels]
      unfold halFormat BufferTables.withFormats
      rw [hBuffer, hFormat bi hBuffer]
      exact hasAlphaByte_eq _
    unfold windowBlend honours
    simp only
    rw [hByte, hBlend]
    cases blendMode layer <;> rfl
  · unfold windowBlend
    simp only
    rw [hBlend]
    cases blendMode layer <;> rfl
  · unfold windowBlend planeAlphaIn eightBits
    simp only
    rw [hGlobal]
    split
    · rw [max_eq_left hAlpha.1, min_eq_left hAlpha.2]
      have hNonneg : 0 ≤ lroundf (layer.pi.alpha * 255) :=
        lroundf_nonneg (mul_nonneg hAlpha.1 (by norm_num))
      have hCast : (((lroundf (layer.pi.alpha * 255)).toNat : Nat) : Rat) =
          (lroundf (layer.pi.alpha * 255) : Rat) := by
        exact_mod_cast Int.toNat_of_nonneg hNonneg
      show (((lroundf (layer.pi.alpha * 255)).toNat : Nat) : Rat) / 255 = _
      rw [hCast]
    · rename_i hFull
      rw [le_antisymm hAlpha.2 (not_lt.mp hFull)]
      have hWhole : lroundf (1 * 255) = 255 := by decide +kernel
      rw [hWhole]
      norm_num

theorem said_merge (hValid : isValidForMerge args.tables.withFormats layer = true) :
    Said args layer .merge
      (mergeBlend (args.halFormat layer) (configureBlending (mergeLayerFrom layer))) := by
  have hBuffer : ∃ bi, layer.bi = some bi := by
    unfold isValidForMerge at hValid
    cases hBuffer : layer.bi with
    | none => simp [hBuffer] at hValid
    | some bi => exact ⟨bi, rfl⟩
  obtain ⟨bi, hBuffer⟩ := hBuffer
  have hMode : (mergeLayerFrom layer).premultiplied = decide (blendMode layer ≠ .kCoverage) := by
    unfold mergeLayerFrom blendMode
    rw [hBuffer]
    rfl
  unfold mergeBlend configureBlending
  rw [hMode]
  refine ⟨?_, ?_, rfl⟩
  · unfold honours
    cases decide (blendMode layer ≠ .kCoverage) <;> simp
  · cases decide (blendMode layer ≠ .kCoverage) <;> rfl

theorem said_gpu {bi : BufferInfo} (hBuffer : layer.bi = some bi)
    (hReads : gpuReadableBytes (args.halFormat layer) ≠ 0) :
    Said args layer .gpu (gpuBlend (args.gpu.toVkLayer layer)) := by
  have hMode : blendMode layer = bi.blendMode := by
    unfold blendMode
    rw [hBuffer]
    rfl
  have hFormat : args.halFormat layer = args.gpu.halFormat bi.handle := by
    unfold halFormat
    rw [hBuffer]
    rfl
  have hChannel := formatOf_hasAlphaChannel hReads
  rw [toVkLayer_blend args layer hBuffer]
  refine ⟨?_, ?_, rfl⟩
  · simp only [honours]
    rw [hMode, ← hFormat, hChannel]
    cases bi.blendMode <;> simp
  · simp only
    rw [hMode]
    cases bi.blendMode <;> rfl

theorem blendIn_said {seat : LayerSeat} {b : Blend}
    (hFormat : ∀ bi ∈ layer.bi, bi.format = convertHalFormatToDrm (args.gpu.halFormat bi.handle))
    (hAlpha : 0 ≤ layer.pi.alpha ∧ layer.pi.alpha ≤ 1) (h : b ∈ args.blendIn layer seat) :
    Said args layer seat b := by
  cases seat with
  | window =>
    obtain ⟨w, hWindow, rfl⟩ := Option.map_eq_some_iff.mp h
    exact said_window hFormat hAlpha hWindow
  | merge =>
    simp only [blendIn, Option.mem_def] at h
    split at h
    · rename_i hValid
      obtain rfl := Option.some.inj h
      exact said_merge hValid
    · cases h
  | gpu =>
    simp only [blendIn, Option.mem_def] at h
    split at h
    · rename_i hTakes
      obtain rfl := Option.some.inj h
      obtain ⟨bi, hBuffer⟩ := Option.isSome_iff_exists.mp hTakes.1
      exact said_gpu hBuffer hTakes.2
    · cases h

/-- **A layer blends the same in every seat** that takes it just where they all honour its
pixels' alpha or none does, or where its plane has none. -/
theorem blends_same_iff (args : SeatArgs) (layer : LayerData)
    (hFormat : ∀ bi ∈ layer.bi, bi.format = convertHalFormatToDrm (args.gpu.halFormat bi.handle))
    (hAlpha : 0 ≤ layer.pi.alpha ∧ layer.pi.alpha ≤ 1) :
    args.BlendsSame layer ↔
      layer.pi.alpha = 0 ∨ ∀ seat seat', args.takes layer seat = true →
        args.takes layer seat' = true → args.honours layer seat = args.honours layer seat' := by
  have hSaid := fun seat b h => @blendIn_said args layer seat b hFormat hAlpha h
  have hOver : ∀ {seat seat' : LayerSeat} {b b' : Blend}, b ∈ args.blendIn layer seat →
      b' ∈ args.blendIn layer seat' →
      ((∀ src dst : Pixel, Pixel.Within src → Pixel.Within dst →
          b.over layer.pi.alpha src dst = b'.over layer.pi.alpha src dst) ↔
        layer.pi.alpha = 0 ∨ args.honours layer seat = args.honours layer seat') := by
    intro seat seat' b b' hb hb'
    rw [← (hSaid seat b hb).honours, ← (hSaid seat' b' hb').honours]
    refine Blend.over_eq_iff fun _ _ => ?_
    rw [(hSaid seat b hb).premultiplied, (hSaid seat' b' hb').premultiplied]
  unfold BlendsSame
  rw [and_iff_left fun seat b hb => (hSaid seat b hb).planeAlpha]
  constructor
  · intro hSame
    refine or_iff_not_imp_left.mpr fun hDrawn seat seat' hTakes hTakes' => ?_
    rw [← blendIn_isSome] at hTakes hTakes'
    obtain ⟨b, hb⟩ := Option.isSome_iff_exists.mp hTakes
    obtain ⟨b', hb'⟩ := Option.isSome_iff_exists.mp hTakes'
    exact ((hOver hb hb').mp (hSame seat seat' b hb b' hb')).resolve_left hDrawn
  · intro hHonours seat seat' b hb b' hb'
    refine (hOver hb hb').mpr (hHonours.imp_right fun h => h seat seat' ?_ ?_)
    · rw [← blendIn_isSome]
      exact Option.isSome_iff_exists.mpr ⟨b, hb⟩
    · rw [← blendIn_isSome]
      exact Option.isSome_iff_exists.mpr ⟨b', hb'⟩

/-- Of a format the GPU reads, a pixel's alpha is its fourth byte. -/
theorem fourthByte_of_alpha {hal : Int} (hReads : gpuReadableBytes hal ≠ 0)
    (hAlpha : hasAlphaChannel hal = true) : hasFourthByte hal = true := by
  revert hAlpha
  rcases readable_cases hReads with (rfl | rfl | rfl) | rfl <;> decide

/-- Of a format the GPU reads, the seats agree on the alpha just where there is one and the
layer is blended by it, or where there is none and, if its byte is there, the layer is not
blended. -/
theorem honours_iff (hReads : gpuReadableBytes (args.halFormat layer) ≠ 0) :
    (∀ seat seat', args.honours layer seat = args.honours layer seat') ↔
      if hasAlphaChannel (args.halFormat layer) then
        blendMode layer = .kPreMult ∨ blendMode layer = .kCoverage
      else
        hasFourthByte (args.halFormat layer) = true →
          blendMode layer = .kNone ∨ blendMode layer = .kUndefined := by
  have hByte := fourthByte_of_alpha hReads
  have hTwo : (∀ seat seat', args.honours layer seat = args.honours layer seat') ↔
      args.honours layer .window = args.honours layer .merge ∧
        args.honours layer .gpu = args.honours layer .merge := by
    constructor
    · exact fun h => ⟨h _ _, h _ _⟩
    · rintro ⟨hWindow, hGpu⟩ seat seat'
      cases seat <;> cases seat' <;> simp [hWindow, hGpu]
  rw [hTwo]
  simp only [honours]
  generalize hasAlphaChannel (args.halFormat layer) = channel at hByte
  generalize hasFourthByte (args.halFormat layer) = byte at hByte
  cases channel with
  | true =>
    rw [hByte rfl]
    cases blendMode layer <;> simp
  | false => cases byte <;> cases blendMode layer <;> simp

/-- A buffer whose pixels have an alpha, not to be blended by it. -/
def unblended : LayerData :=
  { bi := some
      { width := 64, height := 64, format := DrmFormat.abgr8888.code, blendMode := .kNone,
        handle := some 1 }
    fb := some 1 }

/-- And the same buffer, blended by it. -/
def blended : LayerData :=
  { bi := some
      { width := 64, height := 64, format := DrmFormat.abgr8888.code, blendMode := .kPreMult,
        handle := some 1 }
    fb := some 1 }

/-- A display of a panel's size, and a window of it. -/
def onPanel : SeatArgs where
  tables := {}
  forcedTurn := -1
  gpu := { width := 1536, height := 2048, signed := by unfold PartialRedraw.SignedSize; decide }
  planeId := 0
  depth := 0

/-- Blended premultiplied, it blends the same in every seat. -/
theorem blends_same_premultiplied : onPanel.BlendsSame blended := by
  refine (blends_same_iff onPanel blended (by decide) (by decide)).mpr (Or.inr ?_)
  intro seat seat' _ _
  cases seat <;> cases seat' <;> decide

/-- **A pulse.** Not to be blended, the layer is taken as it is by a window and by the GPU,
and blended by the engine. -/
theorem unblended_blended :
    ¬∀ (args : SeatArgs) (layer : LayerData),
      (∀ bi ∈ layer.bi, bi.format = convertHalFormatToDrm (args.gpu.halFormat bi.handle)) →
        0 ≤ layer.pi.alpha ∧ layer.pi.alpha ≤ 1 → args.BlendsSame layer := by
  intro h
  have hSame := (h onPanel unblended (by decide) (by decide)).1 .window .merge
    ⟨false, true, 1⟩ (Option.mem_def.mpr (by decide +kernel)) ⟨true, true, 1⟩
    (Option.mem_def.mpr (by decide +kernel)) .transparent ⟨1, 1, 1, 1⟩ Pixel.within_transparent
    Pixel.within_white
  revert hSame
  decide +kernel

end SeatArgs

end TegraHwc
