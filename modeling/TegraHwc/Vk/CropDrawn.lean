import TegraHwc.Compositor.Occlusion
import TegraHwc.Compositor.PartialRedraw
import TegraHwc.Vk.Geometry

/-!
# TegraHwc — drawing part of a layer

What is hidden of a layer is cut off before it is drawn: `CropSource` of
`compositor/Occlusion.cpp` and `ClipTo` of `compositor/PartialRedraw.cpp` cut the
crop as the place is cut, and `PlaceLayer` of `vk/Geometry.cpp` draws one onto
the other. On either axis a quad spreads its crop evenly from one edge of its
place to the other, and a part of an even spread is an even spread.

## Results

* `quadOf_uv`     — the texture coordinate at any point of the target.
* `crop_restricts` — the part is drawn as the whole draws it, and both ways of
  cutting cut alike.
-/

namespace TegraHwc.Vk

-- ---------------------------------------------------------------------------
-- Even spreads
-- ---------------------------------------------------------------------------

/-- What lies at `x` where `first` to `last` is spread evenly from `low` to
`high`. -/
def spread (low high first last x : Rat) : Rat := first + (x - low) / (high - low) * (last - first)

theorem spread_div (low high first last c x : Rat) :
    spread low high (first / c) (last / c) x = spread low high first last x / c := by
  unfold spread
  ring

/-- A part of an even spread is an even spread. -/
theorem spread_part {low high low' high' : Rat} (h : low ≠ high) (h' : low' ≠ high')
    (first last x : Rat) :
    spread low' high' (spread low high first last low') (spread low high first last high') x =
      spread low high first last x := by
  have hSpan : high - low ≠ 0 := sub_ne_zero.mpr (Ne.symm h)
  have hSpan' : high' - low' ≠ 0 := sub_ne_zero.mpr (Ne.symm h')
  unfold spread
  field_simp
  ring

-- ---------------------------------------------------------------------------
-- Quads of straight layers
-- ---------------------------------------------------------------------------

/-- The edge of a crop that lands on the low edge of its place. -/
def nearEdge (flip : Bool) (low high : Rat) : Rat := if flip then high else low

/-- The edge of a crop that lands on the high edge of its place. -/
def farEdge (flip : Bool) (low high : Rat) : Rat := if flip then low else high

/-- The bits of the two flips. -/
def flips (hflip vflip : Bool) : Nat := (if hflip then 1 else 0) + (if vflip then 2 else 0)

/-- A part of a buffer drawn onto a place. -/
def quadOf (source : FRect) (dst : IRect) (bufferWidth bufferHeight : Nat) (hflip vflip : Bool)
    (targetWidth targetHeight : Nat) : Quad :=
  placeLayer source.left source.top source.right source.bottom bufferWidth bufferHeight
    ⟨dst.left, dst.top, dst.right, dst.bottom⟩ (flips hflip vflip) targetWidth targetHeight

section Quad

variable (source : FRect) (dst : IRect) (bufferWidth bufferHeight : Nat) (hflip vflip : Bool)
  {targetWidth targetHeight : Nat}

theorem quadOf_uvTl :
    (quadOf source dst bufferWidth bufferHeight hflip vflip targetWidth targetHeight).uvTl =
      (nearEdge hflip source.left source.right / bufferWidth,
        nearEdge vflip source.top source.bottom / bufferHeight) := by
  cases hflip <;> cases vflip <;> rfl

theorem quadOf_uvTr :
    (quadOf source dst bufferWidth bufferHeight hflip vflip targetWidth targetHeight).uvTr =
      (farEdge hflip source.left source.right / bufferWidth,
        nearEdge vflip source.top source.bottom / bufferHeight) := by
  cases hflip <;> cases vflip <;> rfl

theorem quadOf_uvBl :
    (quadOf source dst bufferWidth bufferHeight hflip vflip targetWidth targetHeight).uvBl =
      (nearEdge hflip source.left source.right / bufferWidth,
        farEdge vflip source.top source.bottom / bufferHeight) := by
  cases hflip <;> cases vflip <;> rfl

/-- The column of the target's pixels a point of clip space is in, and its row. -/
def pixelOf (targetWidth targetHeight : Nat) (p : Point) : Point :=
  ((p.1 + 1) * targetWidth / 2, (p.2 + 1) * targetHeight / 2)

theorem pixelOf_ndc (hWidth : 0 < targetWidth) (hHeight : 0 < targetHeight) (x y : Rat) :
    pixelOf targetWidth targetHeight (ndc x y targetWidth targetHeight) = (x, y) := by
  have hW : (targetWidth : Rat) ≠ 0 := by exact_mod_cast hWidth.ne'
  have hH : (targetHeight : Rat) ≠ 0 := by exact_mod_cast hHeight.ne'
  unfold pixelOf ndc
  ext
  · field_simp
    ring
  · field_simp
    ring

variable {dst}

theorem quadOf_across (hWidth : 0 < targetWidth) (hHeight : 0 < targetHeight)
    (hAcross : (dst.left : Rat) ≠ dst.right) (hDown : (dst.top : Rat) ≠ dst.bottom) (p : Point) :
    (quadOf source dst bufferWidth bufferHeight hflip vflip targetWidth targetHeight).across p =
      ((pixelOf targetWidth targetHeight p).1 - dst.left) / (dst.right - dst.left) := by
  have hW : (targetWidth : Rat) ≠ 0 := by exact_mod_cast hWidth.ne'
  have hH : (targetHeight : Rat) ≠ 0 := by exact_mod_cast hHeight.ne'
  have hX : (dst.right : Rat) - dst.left ≠ 0 := sub_ne_zero.mpr (Ne.symm hAcross)
  have hY : (dst.bottom : Rat) - dst.top ≠ 0 := sub_ne_zero.mpr (Ne.symm hDown)
  rw [quadOf, Quad.across, placeLayer_det hWidth hHeight]
  simp only [placeLayer, ndc, pixelOf]
  field_simp
  ring

theorem quadOf_down (hWidth : 0 < targetWidth) (hHeight : 0 < targetHeight)
    (hAcross : (dst.left : Rat) ≠ dst.right) (hDown : (dst.top : Rat) ≠ dst.bottom) (p : Point) :
    (quadOf source dst bufferWidth bufferHeight hflip vflip targetWidth targetHeight).down p =
      ((pixelOf targetWidth targetHeight p).2 - dst.top) / (dst.bottom - dst.top) := by
  have hW : (targetWidth : Rat) ≠ 0 := by exact_mod_cast hWidth.ne'
  have hH : (targetHeight : Rat) ≠ 0 := by exact_mod_cast hHeight.ne'
  have hX : (dst.right : Rat) - dst.left ≠ 0 := sub_ne_zero.mpr (Ne.symm hAcross)
  have hY : (dst.bottom : Rat) - dst.top ≠ 0 := sub_ne_zero.mpr (Ne.symm hDown)
  rw [quadOf, Quad.down, placeLayer_det hWidth hHeight]
  simp only [placeLayer, ndc, pixelOf]
  field_simp
  ring

/-- A straight layer's crop is spread evenly over its place, on either axis. -/
theorem quadOf_uv (hWidth : 0 < targetWidth) (hHeight : 0 < targetHeight)
    (hAcross : (dst.left : Rat) ≠ dst.right) (hDown : (dst.top : Rat) ≠ dst.bottom) (p : Point) :
    (quadOf source dst bufferWidth bufferHeight hflip vflip targetWidth targetHeight).uv p =
      (spread dst.left dst.right (nearEdge hflip source.left source.right)
          (farEdge hflip source.left source.right) (pixelOf targetWidth targetHeight p).1 /
            bufferWidth,
        spread dst.top dst.bottom (nearEdge vflip source.top source.bottom)
          (farEdge vflip source.top source.bottom) (pixelOf targetWidth targetHeight p).2 /
            bufferHeight) := by
  rw [Quad.uv, quadOf_across _ _ _ _ _ hWidth hHeight hAcross hDown,
    quadOf_down _ _ _ _ _ hWidth hHeight hAcross hDown, quadOf_uvTl, quadOf_uvTr, quadOf_uvBl,
    ← spread_div, ← spread_div]
  unfold spread
  ext
  · ring
  · ring

end Quad

-- ---------------------------------------------------------------------------
-- Cutting
-- ---------------------------------------------------------------------------

/-- One rectangle lies inside another. -/
def Within (frame shown : IRect) : Prop :=
  frame.left ≤ shown.left ∧ frame.top ≤ shown.top ∧ shown.right ≤ frame.right ∧
    shown.bottom ≤ frame.bottom

/-- `CropSource` cuts unless there is no frame to cut from. -/
theorem cropSource_isSome {frame shown : IRect} (hIn : Within frame shown) (source : FRect)
    (hflip vflip : Bool) :
    (Occlusion.cropSource source frame shown hflip vflip false).isSome =
      !Occlusion.empty frame := by
  obtain ⟨hl, ht, hr, hb⟩ := hIn
  unfold Occlusion.cropSource
  cases hEmpty : Occlusion.empty frame with
  | true => simp
  | false => rw [if_neg (by simp; omega)]; rfl

/-- One axis of what it cuts: an edge of the crop moves by its share of what is
cut off at the edge of the frame it lands on. -/
theorem cut_edges {low high : Rat} (h : low ≠ high) (flip : Bool) (first last low' high' : Rat) :
    let near := first + (if flip then high - high' else low' - low) * ((last - first) / (high - low))
    let far := last - (if flip then low' - low else high - high') * ((last - first) / (high - low))
    nearEdge flip near far =
        spread low high (nearEdge flip first last) (farEdge flip first last) low' ∧
      farEdge flip near far =
        spread low high (nearEdge flip first last) (farEdge flip first last) high' := by
  have hSpan : high - low ≠ 0 := sub_ne_zero.mpr (Ne.symm h)
  cases flip with
  | false =>
    simp only [nearEdge, farEdge, spread, Bool.false_eq_true, if_false]
    constructor
    · field_simp
    · field_simp
      ring
  | true =>
    simp only [nearEdge, farEdge, spread, if_true]
    constructor
    · field_simp
      ring
    · field_simp
      ring

/-- Its edges are what the whole crop spreads to the edges of what is shown. -/
theorem cropSource_edges {source : FRect} {frame shown : IRect} {hflip vflip : Bool} {crop : FRect}
    (h : Occlusion.cropSource source frame shown hflip vflip false = some crop) :
    ((frame.left : Rat) ≠ frame.right ∧ (frame.top : Rat) ≠ frame.bottom) ∧
    (nearEdge hflip crop.left crop.right =
        spread frame.left frame.right (nearEdge hflip source.left source.right)
          (farEdge hflip source.left source.right) shown.left ∧
      farEdge hflip crop.left crop.right =
        spread frame.left frame.right (nearEdge hflip source.left source.right)
          (farEdge hflip source.left source.right) shown.right) ∧
    nearEdge vflip crop.top crop.bottom =
        spread frame.top frame.bottom (nearEdge vflip source.top source.bottom)
          (farEdge vflip source.top source.bottom) shown.top ∧
      farEdge vflip crop.top crop.bottom =
        spread frame.top frame.bottom (nearEdge vflip source.top source.bottom)
          (farEdge vflip source.top source.bottom) shown.bottom := by
  unfold Occlusion.cropSource at h
  split at h
  · cases h
  rename_i hCut
  have hSome : frame.left < frame.right ∧ frame.top < frame.bottom := by
    simp only [Occlusion.empty, Bool.or_eq_true, decide_eq_true_eq, not_or, not_le] at hCut
    omega
  have hX : (frame.left : Rat) ≠ frame.right := by exact_mod_cast hSome.1.ne
  have hY : (frame.top : Rat) ≠ frame.bottom := by exact_mod_cast hSome.2.ne
  have hCutX := cut_edges hX hflip source.left source.right shown.left shown.right
  have hCutY := cut_edges hY vflip source.top source.bottom shown.top shown.bottom
  obtain rfl := Option.some.inj h
  refine ⟨⟨hX, hY⟩, ?_, ?_⟩
  · simpa [Rect.width] using hCutX
  · simpa [Rect.height] using hCutY

/-- `ClipTo` cuts a straight crop as `CropSource` does, where anything is
left. -/
theorem clipTo_eq {frame shown : IRect} (hIn : Within frame shown) (source : FRect) :
    PartialRedraw.clipTo shown source frame =
      if PartialRedraw.empty shown then none
      else (Occlusion.cropSource source frame shown false false false).map fun crop =>
        (crop, shown) := by
  obtain ⟨hl, ht, hr, hb⟩ := hIn
  unfold PartialRedraw.clipTo
  rw [max_eq_right hl, max_eq_right ht, min_eq_right hr, min_eq_right hb]
  simp only
  split
  · rfl
  rename_i hSome
  have hCut : ¬(false = true ∨ Occlusion.empty frame = true ∨ shown.left < frame.left ∨
      shown.top < frame.top ∨ frame.right < shown.right ∨ frame.bottom < shown.bottom) := by
    simp only [PartialRedraw.empty, Occlusion.empty, Bool.or_eq_true, decide_eq_true_eq,
      Bool.false_eq_true, false_or] at hSome ⊢
    omega
  rw [Occlusion.cropSource, if_neg hCut]
  simp only [Option.map_some, Bool.false_eq_true, if_false, Int.cast_sub]

/-- **Cropping agrees with drawing.** For what is shown inside a frame, however
flipped: the crop cut for it is drawn onto it as the whole is drawn there, at the
corners of its quad and, where it has an extent, at every point. There is a crop
unless the frame is empty, and `ClipTo` cuts the same one where anything is
shown. -/
theorem crop_restricts (source : FRect) {frame shown : IRect} (hIn : Within frame shown)
    (hflip vflip : Bool) (bufferWidth bufferHeight : Nat) {targetWidth targetHeight : Nat}
    (hWidth : 0 < targetWidth) (hHeight : 0 < targetHeight) :
    ((Occlusion.cropSource source frame shown hflip vflip false).isSome =
      !Occlusion.empty frame) ∧
    (∀ crop, Occlusion.cropSource source frame shown hflip vflip false = some crop →
      let whole := quadOf source frame bufferWidth bufferHeight hflip vflip targetWidth targetHeight
      let part := quadOf crop shown bufferWidth bufferHeight hflip vflip targetWidth targetHeight
      (part.uvTl = whole.uv part.posTl ∧ part.uvTr = whole.uv part.posTr ∧
        part.uvBl = whole.uv part.posBl) ∧
      (shown.left ≠ shown.right → shown.top ≠ shown.bottom → ∀ p, part.uv p = whole.uv p)) ∧
    PartialRedraw.clipTo shown source frame =
      if PartialRedraw.empty shown then none
      else (Occlusion.cropSource source frame shown false false false).map fun crop =>
        (crop, shown) := by
  refine ⟨cropSource_isSome hIn source hflip vflip, fun crop hCrop => ?_, clipTo_eq hIn source⟩
  obtain ⟨⟨hX, hY⟩, ⟨hNearX, hFarX⟩, hNearY, hFarY⟩ := cropSource_edges hCrop
  have hTl : (quadOf crop shown bufferWidth bufferHeight hflip vflip targetWidth
      targetHeight).posTl = ndc shown.left shown.top targetWidth targetHeight := rfl
  have hTr : (quadOf crop shown bufferWidth bufferHeight hflip vflip targetWidth
      targetHeight).posTr = ndc shown.right shown.top targetWidth targetHeight := rfl
  have hBl : (quadOf crop shown bufferWidth bufferHeight hflip vflip targetWidth
      targetHeight).posBl = ndc shown.left shown.bottom targetWidth targetHeight := rfl
  refine ⟨⟨?_, ?_, ?_⟩, fun hAcross hDown p => ?_⟩
  · rw [hTl, quadOf_uv _ _ _ _ _ hWidth hHeight hX hY, pixelOf_ndc hWidth hHeight, quadOf_uvTl,
      hNearX, hNearY]
  · rw [hTr, quadOf_uv _ _ _ _ _ hWidth hHeight hX hY, pixelOf_ndc hWidth hHeight, quadOf_uvTr,
      hFarX, hNearY]
  · rw [hBl, quadOf_uv _ _ _ _ _ hWidth hHeight hX hY, pixelOf_ndc hWidth hHeight, quadOf_uvBl,
      hNearX, hFarY]
  · have hX' : (shown.left : Rat) ≠ shown.right := by exact_mod_cast hAcross
    have hY' : (shown.top : Rat) ≠ shown.bottom := by exact_mod_cast hDown
    rw [quadOf_uv _ _ _ _ _ hWidth hHeight hX hY, quadOf_uv _ _ _ _ _ hWidth hHeight hX' hY',
      hNearX, hFarX, hNearY, hFarY, spread_part hX hX', spread_part hY hY']

/-- The right half of a layer drawn mirrored is the left half of its buffer. -/
theorem crop_restricts_mirrored :
    Within ⟨0, 0, 16, 16⟩ ⟨8, 0, 16, 16⟩ ∧
      ∀ p, (quadOf ⟨0, 0, 8, 16⟩ ⟨8, 0, 16, 16⟩ 16 16 true false 32 32).uv p =
        (quadOf ⟨0, 0, 16, 16⟩ ⟨0, 0, 16, 16⟩ 16 16 true false 32 32).uv p := by
  have hCrop : Occlusion.cropSource ⟨0, 0, 16, 16⟩ ⟨0, 0, 16, 16⟩ ⟨8, 0, 16, 16⟩ true false false =
      some ⟨0, 0, 8, 16⟩ := by decide +kernel
  have hIn : Within ⟨0, 0, 16, 16⟩ ⟨8, 0, 16, 16⟩ := by unfold Within; decide
  exact ⟨hIn, ((crop_restricts ⟨0, 0, 16, 16⟩ hIn true false 16 16 (by decide)
    (by decide)).2.1 _ hCrop).2 (by decide) (by decide)⟩

end TegraHwc.Vk
