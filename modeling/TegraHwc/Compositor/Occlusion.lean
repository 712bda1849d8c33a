import TegraHwc.Compositor.LayerData
import Mathlib.Data.Rat.Floor
import Mathlib.Tactic.Common

/-!
# TegraHwc — what of a layer can be seen

`compositor/Occlusion.cpp`: a layer as the occlusion takes it, `Resolve`,
which finds what of each layer of a stack can be seen, and `CropSource`, the
part of a source that lands in the part of a frame that is shown.
-/

namespace TegraHwc.Occlusion

/-- `occlusion::Layer`. -/
structure Layer where
  frame : IRect := ⟨0, 0, 0, 0⟩
  visible : List IRect := []
  opaque_ : Bool := false
  cornerCrop : IRect := ⟨0, 0, 0, 0⟩
  radius : Rat := 0
  keep : Bool := false
  deriving DecidableEq, Repr

/-- `occlusion::Shown`. -/
structure Shown where
  hidden : Bool := false
  bounds : IRect := ⟨0, 0, 0, 0⟩
  deriving DecidableEq, Repr

/-- `Empty`. -/
def empty (r : IRect) : Bool := decide (r.right ≤ r.left) || decide (r.bottom ≤ r.top)

/-- `Intersect`. -/
def intersect (a b : IRect) : IRect :=
  { left := max a.left b.left
    top := max a.top b.top
    right := min a.right b.right
    bottom := min a.bottom b.bottom }

/-- What `Subtract` leaves of one rectangle: the band above the cut, the band
below, and what is left and right of the cut between them. -/
def subtractFrom (cut r : IRect) : List IRect :=
  let overlap := intersect r cut
  if empty overlap then [r]
  else
    (if r.top < overlap.top then [⟨r.left, r.top, r.right, overlap.top⟩] else []) ++
    (if overlap.bottom < r.bottom then [⟨r.left, overlap.bottom, r.right, r.bottom⟩] else []) ++
    (if r.left < overlap.left then
      [⟨r.left, overlap.top, overlap.left, overlap.bottom⟩] else []) ++
    (if overlap.right < r.right then
      [⟨overlap.right, overlap.top, r.right, overlap.bottom⟩] else [])

/-- `Subtract`. -/
def subtract (region : List IRect) (cut : IRect) : List IRect :=
  region.flatMap (subtractFrom cut)

/-- `OpaqueParts`: the frame, or the cross that rounded corners leave of it. -/
def opaqueParts (l : Layer) : List IRect :=
  if l.opaque_ = false then []
  else if l.radius ≤ 0 then [l.frame]
  else
    let crop := intersect l.frame l.cornerCrop
    let r := ⌈l.radius⌉
    let tall : IRect := ⟨crop.left + r, crop.top, crop.right - r, crop.bottom⟩
    let wide : IRect := ⟨crop.left, crop.top + r, crop.right, crop.bottom - r⟩
    (if empty tall then [] else [tall]) ++ (if empty wide then [] else [wide])

/-- What of a layer `Resolve` starts from: its frame, or the visible region
inside it. -/
def startRegion (l : Layer) : List IRect :=
  if l.visible = [] then [l.frame]
  else (l.visible.map fun v => intersect v l.frame).filter fun in_ => !empty in_

/-- `Resolve`'s loop over what hides a layer. -/
def uncovered : List IRect → List IRect → List IRect
  | region, [] => region
  | region, h :: hiding_ => if region = [] then region else uncovered (subtract region h) hiding_

/-- `Resolve`'s loop over what is left of a layer. -/
def boundsOf (front : IRect) (region : List IRect) : IRect :=
  region.foldl (fun b r => ⟨min b.left r.left, min b.top r.top, max b.right r.right,
    max b.bottom r.bottom⟩) front

/-- What `Resolve` finds of one layer. -/
def shownUnder (hiding_ : List IRect) (l : Layer) : Shown :=
  if l.keep = false ∧ empty l.frame = false then
    match uncovered (startRegion l) hiding_ with
    | [] => { hidden := true, bounds := l.frame }
    | front :: rest => { bounds := boundsOf front (front :: rest) }
  else { bounds := l.frame }

/-- `Resolve`'s walk down from the top: what of each layer is seen, and what
they all hide. -/
def walkDown : List Layer → List Shown × List IRect
  | [] => ([], [])
  | l :: above =>
    let (shown, hiding_) := walkDown above
    (shownUnder hiding_ l :: shown, hiding_ ++ opaqueParts l)

/-- `Resolve`. -/
def resolve (bottomFirst : List Layer) : List Shown := (walkDown bottomFirst).1

/-- `CropSource`. -/
def cropSource (source : FRect) (frame shown : IRect) (hflip vflip rotate90 : Bool) :
    Option FRect :=
  if rotate90 = true ∨ empty frame = true ∨ shown.left < frame.left ∨ shown.top < frame.top ∨
      frame.right < shown.right ∨ frame.bottom < shown.bottom then none
  else
    let sx := source.width / (frame.width : Rat)
    let sy := source.height / (frame.height : Rat)
    -- a flip reads the source's edge from the frame's opposite one
    let cutLeft : Rat := (shown.left - frame.left : Int)
    let cutRight : Rat := (frame.right - shown.right : Int)
    let cutTop : Rat := (shown.top - frame.top : Int)
    let cutBottom : Rat := (frame.bottom - shown.bottom : Int)
    some
      { left := source.left + (if hflip then cutRight else cutLeft) * sx
        right := source.right - (if hflip then cutLeft else cutRight) * sx
        top := source.top + (if vflip then cutBottom else cutTop) * sy
        bottom := source.bottom - (if vflip then cutTop else cutBottom) * sy }

end TegraHwc.Occlusion
