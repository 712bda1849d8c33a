import Mathlib.Data.Rat.Defs

/-!
# TegraHwc — rectangles and what is known of a layer

`compositor/Rect.h`, `compositor/LayerData.h` and the parts of
`bufferinfo/BufferInfo.h` and `compositor/LayerEffects.h` a modelled function
reads. Coordinates are integers, floats are rationals, handles and fences are
names. A buffer's pitches, offsets, sizes and descriptors, which only the
engines and the kernel read, are left out.
-/

namespace TegraHwc

/-- `Rect<T>`: edges, right and bottom exclusive. -/
structure Rect (α : Type) where
  left : α
  top : α
  right : α
  bottom : α
  deriving DecidableEq, Repr

namespace Rect

variable {α : Type} [Sub α]

/-- `Width`. -/
def width (r : Rect α) : α := r.right - r.left

/-- `Height`. -/
def height (r : Rect α) : α := r.bottom - r.top

end Rect

/-- `IRect`. -/
abbrev IRect := Rect Int

/-- `FRect`. -/
abbrev FRect := Rect Rat

/-- `BufferColorEncoding`. -/
inductive BufferColorEncoding where
  | kUndefined
  | kItuRec601
  | kItuRec709
  | kItuRec2020
  deriving DecidableEq, Repr, Inhabited

/-- `BufferSampleRange`. -/
inductive BufferSampleRange where
  | kUndefined
  | kFullRange
  | kLimitedRange
  deriving DecidableEq, Repr, Inhabited

/-- `BufferBlendMode`. -/
inductive BufferBlendMode where
  | kUndefined
  | kNone
  | kPreMult
  | kCoverage
  deriving DecidableEq, Repr, Inhabited

/-- `HwcColorspace`. -/
inductive HwcColorspace where
  | kDefault
  | kBt601
  | kBt709
  | kDciP3
  | kBt2020
  deriving DecidableEq, Repr, Inhabited

/-- `TransferFunction`. -/
inductive TransferFunction where
  | kUnknown
  | kSmpte170M
  | kSrgb
  | kPq
  | kHlg
  deriving DecidableEq, Repr, Inhabited

/-- `CompositionType`. -/
inductive CompositionType where
  | kInvalid
  | kClient
  | kDevice
  | kSolidColor
  | kCursor
  | kDeviceOccluded
  deriving DecidableEq, Repr, Inhabited

/-- `BufferInfo`; `modifier` is the first of its modifiers, the one asked
about, and a `uniqueId` of zero is a buffer the platform could not name. -/
structure BufferInfo where
  width : Nat
  height : Nat
  format : Nat := 0
  modifier : Nat := 0
  uniqueId : Nat := 0
  pitch : Nat := 0
  offset : Nat := 0
  pitchUV : Nat := 0
  offsetUV : Nat := 0
  colorEncoding : BufferColorEncoding := .kUndefined
  sampleRange : BufferSampleRange := .kUndefined
  blendMode : BufferBlendMode := .kUndefined
  handle : Option Nat := none
  deriving DecidableEq, Repr

/-- `LayerTransform`: the flip is done before the rotation, which is
clockwise. -/
@[ext]
structure LayerTransform where
  hflip : Bool := false
  vflip : Bool := false
  rotate90 : Bool := false
  deriving DecidableEq, Repr

/-- `PresentInfo`: a missing crop is the whole buffer, a missing frame the
whole display, an empty damage the whole buffer. -/
structure PresentInfo where
  transform : LayerTransform := {}
  alpha : Rat := 1
  sourceCrop : Option FRect := none
  displayFrame : Option IRect := none
  damage : List IRect := []
  deriving DecidableEq, Repr

/-- `PresentInfo::MatchedExtents`. -/
structure MatchedExtents where
  srcW : Rat
  srcH : Rat
  dstW : Rat
  dstH : Rat
  deriving DecidableEq, Repr

/-- `ExtentsInDestAxes`: the source's extents turned into the axes of the
frame; the size of the whole buffer stands in for a missing rectangle. -/
def PresentInfo.extentsInDestAxes (pi : PresentInfo) (wholeW wholeH : Rat) : MatchedExtents :=
  let srcW := (pi.sourceCrop.map Rect.width).getD wholeW
  let srcH := (pi.sourceCrop.map Rect.height).getD wholeH
  { srcW := if pi.transform.rotate90 then srcH else srcW
    srcH := if pi.transform.rotate90 then srcW else srcH
    dstW := (pi.displayFrame.map fun r => (r.width : Rat)).getD wholeW
    dstH := (pi.displayFrame.map fun r => (r.height : Rat)).getD wholeH }

/-- `LayerEffects`, as the framework sent them: all zero for none. -/
structure LayerEffects where
  corners : List Rat := List.replicate 5 0
  shadow : List Rat := []
  blur : List Rat := []
  stretch : List Rat := []
  turned : List Rat := List.replicate 10 0
  deriving DecidableEq, Repr

namespace LayerEffects

/-- `HasTurn`. -/
def hasTurn (e : LayerEffects) : Bool := e.turned.any fun f => f ≠ 0

/-- `HasCorners`; `minCornerRadius` is set once, when the composer starts. -/
def hasCorners (minCornerRadius : Rat) (e : LayerEffects) : Bool :=
  let radius := e.corners.getD 4 0
  decide (0 < radius) && decide (minCornerRadius ≤ radius)

/-- `ReachesPastFrame`. -/
def reachesPastFrame (e : LayerEffects) : Bool :=
  !(e.shadow.all fun f => f = 0) || !(e.blur.all fun f => f = 0) ||
    !(e.stretch.all fun f => f = 0)

/-- `Any`. -/
def any (minCornerRadius : Rat) (e : LayerEffects) : Bool :=
  e.hasCorners minCornerRadius || e.reachesPastFrame || e.hasTurn

end LayerEffects

/-- `LayerData`. -/
structure LayerData where
  bi : Option BufferInfo := none
  fb : Option Nat := none
  pi : PresentInfo := {}
  acquireFence : Option Nat := none
  generation : Nat := 0
  serial : Nat := 0
  colorspace : HwcColorspace := .kDefault
  transferFunc : TransferFunction := .kUnknown
  brightness : Option Rat := none
  live : Bool := false
  effects : LayerEffects := {}
  solidColor : Option (List Rat) := none
  deriving DecidableEq, Repr

end TegraHwc
