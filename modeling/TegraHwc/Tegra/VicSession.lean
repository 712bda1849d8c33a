import TegraHwc.Compositor.GatherParts
import TegraHwc.Compositor.PartialRedrawSound
import TegraHwc.Tegra.TegraAtomicRequest
import Mathlib.Tactic.LinearCombination

/-!
# TegraHwc — one pass of the merge engine

`ComposeInto` of `tegra/VicSession.cpp`: a group's members are described to the
engine seat by seat, whole, or for a part of the group cut to the part; and
`DrawMergeJob` of `tegra/TegraAtomicStateManager.cpp`, which draws a group a
part at a time. The engine is a parameter: how it reads a buffer and how it
blends are its own, and what is relied on is that a member read at its own size
is cut exactly. Its library takes what it is given; what it is told for its own
saving, the fences and the probe of the target are left out.

## Results

* `clipTo_footprint` — a member cut to a part shows each pixel what it showed whole.
* `picture_part`     — a pass over a part shows there what the whole pass shows.
* `drawParts_eq`     — parts drawn in turn are their union redrawn.
-/

namespace TegraHwc

open PartialRedraw

/-- `MirrorRectWithin`. -/
def mirrorRectWithin (r : IRect) (mirrorX mirrorY : Bool) (width height : Int) : IRect :=
  let r := if mirrorX then { r with left := width - r.right, right := width - r.left } else r
  if mirrorY then { r with top := height - r.bottom, bottom := height - r.top } else r

/-- What two rectangles share, edge by edge. -/
def overlap (a b : IRect) : IRect :=
  ⟨max a.left b.left, max a.top b.top, min a.right b.right, min a.bottom b.bottom⟩

/-- `VendorBuffer`: its size, and what it holds. -/
structure VendorBuffer (C : Type*) where
  width : UInt32
  height : UInt32
  pixels : Point → C

namespace VicSession

-- ---------------------------------------------------------------------------
-- Describing a pass
-- ---------------------------------------------------------------------------

/-- A seat of the engine: which member's buffer it reads, the crop read, where
it lands and how it is blended. -/
structure Seat where
  member : Nat
  source : FRect
  display : IRect
  premultiplied : Bool
  alpha : Rat
  deriving DecidableEq, Repr

/-- A pass as the engine is configured for it. -/
structure Pass where
  target : IRect
  transform : Nat
  seats : List Seat
  deriving DecidableEq, Repr

/-- `scaled` of `ComposeInto`. -/
def isScaled (read : FRect) (lands : IRect) : Bool :=
  decide (scaleSlack ≤ |read.width - lands.width|) ||
    decide (scaleSlack ≤ |read.height - lands.height|)

/-- The seat of one member, or none where the bound leaves nothing of it to
draw. -/
def seatOf (bound : Option IRect) (transform : Nat) (width height : Int) (layer : VicLayer)
    (member : Nat) : Option Seat :=
  let lands := mirrorRectWithin layer.display (transform.testBit 1) (transform.testBit 0) width
    height
  let seat := fun read lands => Seat.mk member read lands layer.premultiplied layer.alpha
  match bound with
  | none => some (seat layer.source lands)
  | some bound =>
    if !meet lands bound then none
    -- a filter would read the edge of a cut from a shifted phase: described whole
    else if isScaled layer.source lands then some (seat layer.source lands)
    else (clipTo bound layer.source lands).map fun cut => seat cut.1 cut.2

/-- `ComposeInto`: the pass the engine is given, none where it is refused. -/
def composeInto (bufferWidth bufferHeight : UInt32) (layers : List VicLayer)
    (width height : UInt32) (transform : Nat) (dirty : Option IRect) : Option Pass :=
  if layers = [] ∨ TegraDisplayPipeline.kMaxLayers < layers.length then none
  else
    let width := if width = 0 ∨ bufferWidth < width then bufferWidth else width
    let height := if height = 0 ∨ bufferHeight < height then bufferHeight else height
    let whole := frameOf width height
    let bound := (if transform = 0 then dirty else none).map (overlap · whole)
    if bound.any empty then none
    else
      let seats := layers.zipIdx.filterMap fun layer =>
        seatOf bound transform (asInt32 width) (asInt32 height) layer.1 layer.2
      if seats = [] then none else some ⟨bound.getD whole, transform, seats⟩

-- ---------------------------------------------------------------------------
-- The engine
-- ---------------------------------------------------------------------------

/-- What of a member's buffer lies under a pixel of its place. -/
def footprint (src : FRect) (dst : IRect) (p : Point) : FRect :=
  let sx : Rat := src.width / dst.width
  let sy : Rat := src.height / dst.height
  ⟨src.left + (p.1 - dst.left) * sx, src.top + (p.2 - dst.top) * sy,
    src.left + (p.1 + 1 - dst.left) * sx, src.top + (p.2 + 1 - dst.top) * sy⟩

/-- The engine: the colour it clears to, what it reads at a pixel of a member's
place, and how it blends that. Unturned, and at its own size, a member is read
by what lies under the pixel, wherever the reading begins and ends. -/
structure Vic (C : Type*) where
  clear : C
  read : (transform member : Nat) → FRect → IRect → Point → C
  blend : (premultiplied : Bool) → (alpha : Rat) → C → C → C
  read_exact : ∀ (member : Nat) {src src' : FRect} {dst dst' : IRect} {p : Point},
    isScaled src dst = false → isScaled src' dst' = false → inside dst p → inside dst' p →
      footprint src dst p = footprint src' dst' p → read 0 member src dst p = read 0 member src' dst' p

namespace Vic

variable {C : Type*} (vic : Vic C)

/-- A seat as a layer of the picture. -/
def paint (transform : Nat) (s : Seat) : Raster.Layer Point C := fun p below =>
  if inside s.display p then
    vic.blend s.premultiplied s.alpha (vic.read transform s.member s.source s.display p) below
  else below

/-- What a pass shows: its seats in order, over nothing. -/
def picture (pass : Pass) (p : Point) : C :=
  Raster.compose (pass.seats.map (vic.paint pass.transform)) vic.clear p

/-- `VicSession::Compose`. Everything inside the rectangle is written, covered
or not, and nothing outside it; nothing at all where the pass is refused. -/
def compose (target : VendorBuffer C) (layers : List VicLayer) (width height : UInt32)
    (transform : Nat) (dirty : Option IRect) : Option (VendorBuffer C) :=
  (composeInto target.width target.height layers width height transform dirty).map fun pass =>
    { target with pixels := Raster.redraw (inside pass.target) (vic.picture pass) target.pixels }

/-- The whole of a job. -/
def drawWhole (job : VicJob) (target : VendorBuffer C) : Option (VendorBuffer C) :=
  vic.compose target job.merge.layers job.merge.width job.merge.height job.groupCode none

/-- The loop of `DrawMergeJob` over the parts: what the buffer holds after it,
and whether every part was taken. -/
def drawParts (job : VicJob) : List IRect → VendorBuffer C → VendorBuffer C × Bool
  | [], target => (target, true)
  | part :: rest, target =>
    match vic.compose target job.merge.layers job.merge.width job.merge.height job.groupCode
        (some part) with
    | none => (target, false)
    | some drawn => drawParts job rest drawn

/-- `DrawMergeJob`: what the buffer holds after it, and whether it was drawn. A
part that is refused is no reason to drop the frame: all of it is drawn. -/
def drawMergeJob (job : VicJob) (target : VendorBuffer C) : VendorBuffer C × Bool :=
  let whole := fun target =>
    ((vic.drawWhole job target).map fun drawn => (drawn, true)).getD (target, false)
  if job.parts = [] then whole target
  else
    let drawn := vic.drawParts job job.parts target
    if drawn.2 then drawn else whole drawn.1

/-- A part refused ends the loop. -/
theorem drawParts_refused {job : VicJob} {part : IRect} {rest : List IRect}
    {target : VendorBuffer C}
    (h : vic.compose target job.merge.layers job.merge.width job.merge.height job.groupCode
      (some part) = none) : vic.drawParts job (part :: rest) target = (target, false) := by
  unfold Vic.drawParts
  rw [h]

/-- A part drawn leaves the rest to draw. -/
theorem drawParts_drawn {job : VicJob} {part : IRect} {rest : List IRect}
    {target drawn : VendorBuffer C}
    (h : vic.compose target job.merge.layers job.merge.width job.merge.height job.groupCode
      (some part) = some drawn) :
    vic.drawParts job (part :: rest) target = vic.drawParts job rest drawn := by
  rw [Vic.drawParts, h]

end Vic

-- ---------------------------------------------------------------------------
-- Cutting a member
-- ---------------------------------------------------------------------------

theorem inside_overlap {a b : IRect} {p : Point} :
    inside (overlap a b) p ↔ inside a p ∧ inside b p := by
  unfold inside overlap
  simp only [max_le_iff, lt_min_iff]
  omega

theorem empty_eq_false {r : IRect} : empty r = false ↔ r.left < r.right ∧ r.top < r.bottom := by
  unfold empty
  rw [Bool.or_eq_false_iff, decide_eq_false_iff_not, decide_eq_false_iff_not, not_le, not_le]

/-- Two rectangles share something where they meet and neither is empty. -/
theorem empty_overlap {a b : IRect} (hb : empty b = false) (hMeet : meet a b = true) :
    empty (overlap a b) = empty a := by
  obtain ⟨hLeft, hRight, hTop, hBottom⟩ := meet_iff.mp hMeet
  rw [empty_eq_false] at hb
  cases ha : empty a with
  | false =>
    rw [empty_eq_false] at ha ⊢
    unfold overlap
    simp only
    omega
  | true =>
    rw [← Bool.not_eq_false, empty_eq_false] at ha ⊢
    unfold overlap
    simp only
    omega

/-- A cut is where a member and the bound overlap, and covers something. -/
theorem clipTo_display {bound dst : IRect} {src : FRect} {cut : FRect × IRect}
    (h : clipTo bound src dst = some cut) :
    cut.2 = overlap dst bound ∧ empty cut.2 = false := by
  unfold clipTo at h
  simp only at h
  split at h
  · cases h
  · rename_i hSome
    obtain rfl := Option.some.inj h
    exact ⟨rfl, by simpa using hSome⟩

theorem clipTo_eq_none {bound dst : IRect} {src : FRect} :
    clipTo bound src dst = none ↔ empty (overlap dst bound) = true := by
  unfold clipTo
  simp only
  split
  · rename_i hEmpty
    exact ⟨fun _ => hEmpty, fun _ => rfl⟩
  · rename_i hSome
    exact ⟨fun h => (by cases h), fun h => absurd h hSome⟩

/-- The step along one axis from a pixel of the place to the next, in the buffer. -/
def step (srcLow srcHigh : Rat) (low high : Int) : Rat :=
  (srcHigh - srcLow) / ((high - low : Int) : Rat)

section Axis

variable {srcLow srcHigh : Rat} {low high cutLow cutHigh : Int}

/-- Along one axis, a cut is as long as its place is, in the steps of the whole. -/
theorem cut_extent (hSome : low < high) :
    (srcHigh - (high - cutHigh) * step srcLow srcHigh low high) -
        (srcLow + (cutLow - low) * step srcLow srcHigh low high) =
      ((cutHigh - cutLow : Int) : Rat) * step srcLow srcHigh low high := by
  have hWhole : ((high - low : Int) : Rat) ≠ 0 := by
    exact_mod_cast (by omega : high - low ≠ 0)
  have hLength : srcHigh - srcLow = ((high - low : Int) : Rat) * step srcLow srcHigh low high := by
    unfold step
    rw [mul_div_cancel₀ _ hWhole]
  push_cast at hLength ⊢
  linear_combination hLength

/-- So it is read in those steps. -/
theorem cut_step (hLow : low ≤ cutLow) (hSome : cutLow < cutHigh) (hHigh : cutHigh ≤ high) :
    step (srcLow + (cutLow - low) * step srcLow srcHigh low high)
        (srcHigh - (high - cutHigh) * step srcLow srcHigh low high) cutLow cutHigh =
      step srcLow srcHigh low high := by
  have hCut : ((cutHigh - cutLow : Int) : Rat) ≠ 0 := by
    exact_mod_cast (by omega : cutHigh - cutLow ≠ 0)
  rw [step, cut_extent (by omega), mul_div_cancel_left₀ _ hCut]

/-- And it is no further from its own size than the whole. -/
theorem cut_slack (hLow : low ≤ cutLow) (hSome : cutLow < cutHigh) (hHigh : cutHigh ≤ high) :
    |(srcHigh - (high - cutHigh) * step srcLow srcHigh low high) -
        (srcLow + (cutLow - low) * step srcLow srcHigh low high) -
          ((cutHigh - cutLow : Int) : Rat)| ≤
      |srcHigh - srcLow - ((high - low : Int) : Rat)| := by
  have hWhole : ((high - low : Int) : Rat) ≠ 0 := by
    exact_mod_cast (by omega : high - low ≠ 0)
  have hOff : srcHigh - srcLow - ((high - low : Int) : Rat) =
      ((high - low : Int) : Rat) * (step srcLow srcHigh low high - 1) := by
    unfold step
    rw [mul_sub, mul_div_cancel₀ _ hWhole, mul_one]
  rw [cut_extent (by omega), hOff, ← mul_sub_one, abs_mul, abs_mul]
  refine mul_le_mul_of_nonneg_right ?_ (abs_nonneg _)
  rw [← Int.cast_abs, ← Int.cast_abs, Int.cast_le, abs_of_pos (by omega), abs_of_pos (by omega)]
  omega

end Axis

/-- The steps of a footprint. -/
theorem footprint_eq (src : FRect) (dst : IRect) (p : Point) :
    footprint src dst p =
      ⟨src.left + (p.1 - dst.left) * step src.left src.right dst.left dst.right,
        src.top + (p.2 - dst.top) * step src.top src.bottom dst.top dst.bottom,
        src.left + (p.1 + 1 - dst.left) * step src.left src.right dst.left dst.right,
        src.top + (p.2 + 1 - dst.top) * step src.top src.bottom dst.top dst.bottom⟩ := rfl

/-- A cut in the steps of the whole. -/
theorem clipTo_eq {bound dst : IRect} {src : FRect} {cut : FRect × IRect}
    (h : clipTo bound src dst = some cut) :
    cut.1 = ⟨src.left + (cut.2.left - dst.left) * step src.left src.right dst.left dst.right,
      src.top + (cut.2.top - dst.top) * step src.top src.bottom dst.top dst.bottom,
      src.right - (dst.right - cut.2.right) * step src.left src.right dst.left dst.right,
      src.bottom - (dst.bottom - cut.2.bottom) * step src.top src.bottom dst.top dst.bottom⟩ := by
  unfold clipTo at h
  simp only at h
  split at h
  · cases h
  · obtain rfl := Option.some.inj h
    rfl

section Cut

variable {bound dst : IRect} {src : FRect} {cut : FRect × IRect}

/-- A cut lies inside the member's place, and has extents of its own. -/
theorem clipTo_within (h : clipTo bound src dst = some cut) :
    (dst.left ≤ cut.2.left ∧ cut.2.left < cut.2.right ∧ cut.2.right ≤ dst.right) ∧
      dst.top ≤ cut.2.top ∧ cut.2.top < cut.2.bottom ∧ cut.2.bottom ≤ dst.bottom := by
  obtain ⟨hDisplay, hSome⟩ := clipTo_display h
  rw [empty_eq_false] at hSome
  rw [hDisplay] at hSome ⊢
  exact ⟨⟨le_max_left _ _, hSome.1, min_le_left _ _⟩, le_max_left _ _, hSome.2, min_le_left _ _⟩

/-- **A cut moves nothing**: under each pixel lies what lay there uncut. -/
theorem clipTo_footprint (h : clipTo bound src dst = some cut) (p : Point) :
    footprint cut.1 cut.2 p = footprint src dst p := by
  obtain ⟨⟨hLeft, hWidth, hRight⟩, hTop, hHeight, hBottom⟩ := clipTo_within h
  have hX := @cut_step src.left src.right _ _ _ _ hLeft hWidth hRight
  have hY := @cut_step src.top src.bottom _ _ _ _ hTop hHeight hBottom
  rw [footprint_eq, footprint_eq, clipTo_eq h]
  simp only
  rw [hX, hY]
  congr 1 <;> ring

/-- A member read at its own size is, cut, too. -/
theorem clipTo_ownSize (h : clipTo bound src dst = some cut) (hOwn : isScaled src dst = false) :
    isScaled cut.1 cut.2 = false := by
  obtain ⟨⟨hLeft, hWidth, hRight⟩, hTop, hHeight, hBottom⟩ := clipTo_within h
  unfold isScaled at hOwn ⊢
  rw [Bool.or_eq_false_iff, decide_eq_false_iff_not, decide_eq_false_iff_not, not_le, not_le] at *
  rw [clipTo_eq h]
  exact ⟨(cut_slack hLeft hWidth hRight).trans_lt hOwn.1,
    (cut_slack hTop hHeight hBottom).trans_lt hOwn.2⟩

end Cut

-- ---------------------------------------------------------------------------
-- Passes of a group
-- ---------------------------------------------------------------------------

/-- A group with no turn, and the slot it is drawn into: as many members as the
engine has seats at most, in a frame of their own that fits the slot. -/
structure Group (C : Type*) where
  merge : Merge
  target : VendorBuffer C
  layers_ne : merge.layers ≠ []
  layers_le : merge.layers.length ≤ TegraDisplayPipeline.kMaxLayers
  unturned : uniformTurn merge.transforms = some 0
  width_fits : 0 < merge.width ∧ merge.width ≤ target.width
  height_fits : 0 < merge.height ∧ merge.height ≤ target.height
  signed : SignedSize merge.width merge.height
  placed : ∀ l ∈ merge.layers, LiesIn (frameOf merge.width merge.height) l.display

namespace Group

variable {C : Type*} (g : Group C) (vic : Vic C)

/-- The group's own frame. -/
def frame : IRect := frameOf g.merge.width g.merge.height

/-- What `QueueMerge` makes of the group, and of the parts to draw of it. -/
def job (slot : Nat) (forced : Int) (parts : List IRect) : VicJob :=
  { target := slot
    merge := g.merge
    groupCode := groupCode ((uniformTurn g.merge.transforms).getD 0) forced
    parts := parts }

/-- The seats of a pass over the group. -/
def seats (bound : Option IRect) : List Seat :=
  g.merge.layers.zipIdx.filterMap fun layer =>
    seatOf bound 0 (asInt32 g.merge.width) (asInt32 g.merge.height) layer.1 layer.2

/-- The picture of the group drawn whole. -/
def picture : Point → C := vic.picture ⟨g.frame, 0, g.seats none⟩

@[simp] theorem job_groupCode (slot : Nat) (forced : Int) (parts : List IRect) :
    (g.job slot forced parts).groupCode = 0 := by
  unfold job
  simp [g.unturned, groupCode, vicTransformFor]

theorem composeInto_eq (dirty : Option IRect) :
    composeInto g.target.width g.target.height g.merge.layers g.merge.width g.merge.height 0
        dirty =
      if (dirty.map (overlap · g.frame)).any empty then none
      else if g.seats (dirty.map (overlap · g.frame)) = [] then none
      else some ⟨(dirty.map (overlap · g.frame)).getD g.frame, 0,
        g.seats (dirty.map (overlap · g.frame))⟩ := by
  obtain ⟨hWidth, hWide⟩ := g.width_fits
  obtain ⟨hHeight, hHigh⟩ := g.height_fits
  have hFits : ¬(g.merge.layers = [] ∨
      TegraDisplayPipeline.kMaxLayers < g.merge.layers.length) :=
    not_or.mpr ⟨g.layers_ne, Nat.not_lt.mpr g.layers_le⟩
  have hWidths : ¬(g.merge.width = 0 ∨ g.target.width < g.merge.width) :=
    not_or.mpr ⟨(UInt32.ne_of_lt hWidth).symm, UInt32.not_lt.mpr hWide⟩
  have hHeights : ¬(g.merge.height = 0 ∨ g.target.height < g.merge.height) :=
    not_or.mpr ⟨(UInt32.ne_of_lt hHeight).symm, UInt32.not_lt.mpr hHigh⟩
  unfold composeInto
  simp only [if_neg hFits, if_neg hWidths, if_neg hHeights, if_true]
  rfl

/-- A part inside the frame is the bound as it is. -/
theorem overlap_frame {part : IRect} (hIn : LiesIn g.frame part) : overlap part g.frame = part := by
  obtain ⟨hLeft, hTop, hRight, hBottom⟩ := hIn
  unfold overlap
  rw [max_eq_left hLeft, max_eq_left hTop, min_eq_left hRight, min_eq_left hBottom]

theorem composeInto_part {part : IRect} (hIn : LiesIn g.frame part) (hSome : empty part = false) :
    composeInto g.target.width g.target.height g.merge.layers g.merge.width g.merge.height 0
        (some part) =
      if g.seats (some part) = [] then none else some ⟨part, 0, g.seats (some part)⟩ := by
  rw [composeInto_eq, Option.map_some, g.overlap_frame hIn, Option.any_some, hSome]
  rfl

/-- Drawn whole, every member has its seat. -/
theorem seats_none : g.seats none = g.merge.layers.zipIdx.map fun layer =>
    ⟨layer.2, layer.1.source, layer.1.display, layer.1.premultiplied, layer.1.alpha⟩ := by
  unfold seats
  rw [← List.filterMap_eq_map]
  rfl

theorem composeInto_whole :
    composeInto g.target.width g.target.height g.merge.layers g.merge.width g.merge.height 0 none =
      some ⟨g.frame, 0, g.seats none⟩ := by
  have hSeats : g.seats none ≠ [] := by
    rw [seats_none]
    intro hNone
    rw [List.map_eq_nil_iff, List.zipIdx_eq_nil_iff] at hNone
    exact g.layers_ne hNone
  rw [composeInto_eq, Option.map_none, Option.any_none, if_neg (by decide), if_neg hSeats]
  rfl

end Group

-- ---------------------------------------------------------------------------
-- A part beside the whole
-- ---------------------------------------------------------------------------

section Part

variable {C : Type*} (vic : Vic C) {part : IRect} {p : Point} {width height : Int}
  {layer : VicLayer} {member : Nat}

theorem covered_cons {part : IRect} {rest : List IRect} {p : Point} :
    Covered (part :: rest) p ↔ inside part p ∨ Covered rest p := by
  unfold Covered
  simp

theorem inside_of_liesIn {outer r : IRect} (hIn : LiesIn outer r) (hp : inside r p) :
    inside outer p := by
  obtain ⟨hLeft, hTop, hRight, hBottom⟩ := hIn
  obtain ⟨hpLeft, hpRight, hpTop, hpBottom⟩ := hp
  exact ⟨hLeft.trans hpLeft, hpRight.trans_le hRight, hTop.trans hpTop, hpBottom.trans_le hBottom⟩

theorem meet_of_inside {a b : IRect} (ha : inside a p) (hb : inside b p) : meet a b = true := by
  obtain ⟨hLeft, hRight, hTop, hBottom⟩ := ha
  obtain ⟨hLeft', hRight', hTop', hBottom'⟩ := hb
  exact meet_iff.mpr ⟨by omega, by omega, by omega, by omega⟩

/-- What an unturned pass over a part makes of a member. -/
theorem seatOf_part :
    seatOf (some part) 0 width height layer member =
      if !meet layer.display part then none
      else if isScaled layer.source layer.display then
        some ⟨member, layer.source, layer.display, layer.premultiplied, layer.alpha⟩
      else (clipTo part layer.source layer.display).map fun cut =>
        ⟨member, cut.1, cut.2, layer.premultiplied, layer.alpha⟩ := rfl

/-- A member left out of a part has no pixel in it. -/
theorem seatOf_none (hp : inside part p)
    (h : seatOf (some part) 0 width height layer member = none) : ¬inside layer.display p := by
  intro hIn
  rw [seatOf_part, meet_of_inside hIn hp, if_neg (by decide)] at h
  split at h
  · cases h
  · rw [Option.map_eq_none_iff, clipTo_eq_none] at h
    exact not_inside_of_empty h p (inside_overlap.mpr ⟨hIn, hp⟩)

/-- And one that is drawn paints there what it paints drawn whole. -/
theorem seatOf_some (hp : inside part p) {s : Seat}
    (h : seatOf (some part) 0 width height layer member = some s) :
    vic.paint 0 s p =
      vic.paint 0 ⟨member, layer.source, layer.display, layer.premultiplied, layer.alpha⟩ p := by
  rw [seatOf_part] at h
  split at h
  · cases h
  split at h
  · obtain rfl := Option.some.inj h
    rfl
  rename_i hOwn
  rw [Bool.not_eq_true] at hOwn
  obtain ⟨cut, hCut, rfl⟩ := Option.map_eq_some_iff.mp h
  obtain ⟨hDisplay, -⟩ := clipTo_display hCut
  have hSame : inside cut.2 p ↔ inside layer.display p := by
    rw [hDisplay, inside_overlap]
    exact and_iff_left hp
  funext below
  unfold Vic.paint
  simp only
  by_cases hIn : inside layer.display p
  · rw [if_pos hIn, if_pos (hSame.mpr hIn)]
    rw [vic.read_exact member (clipTo_ownSize hCut hOwn) hOwn (hSame.mpr hIn) hIn
      (clipTo_footprint hCut p)]
  · rw [if_neg hIn, if_neg (mt hSame.mp hIn)]

end Part

namespace Group

variable {C : Type*} (g : Group C) (vic : Vic C) {parts : List IRect}

/-- **A part shows what the whole shows.** The members it leaves out paint
nothing in it, and the others paint what they would. -/
theorem picture_part {part : IRect} {p : Point} (hp : inside part p) :
    vic.picture ⟨part, 0, g.seats (some part)⟩ p = g.picture vic p := by
  unfold Group.picture Vic.picture
  simp only
  rw [seats_none, List.map_map]
  unfold seats
  refine Raster.compose_filterMap (fun layer _ hLeft below => ?_) fun layer _ s hSeat =>
    seatOf_some vic hp hSeat
  exact if_neg (seatOf_none hp hLeft)

/-- The whole of the group is drawn, whatever the slot holds. -/
theorem drawWhole_eq (slot : Nat) (forced : Int) (pixels : Point → C) :
    vic.drawWhole (g.job slot forced parts) { g.target with pixels := pixels } =
      some { g.target with pixels := Raster.redraw (inside g.frame) (g.picture vic) pixels } := by
  unfold Vic.drawWhole Vic.compose
  rw [job_groupCode]
  show (composeInto g.target.width g.target.height g.merge.layers g.merge.width g.merge.height 0
    none).map _ = _
  rw [composeInto_whole]
  rfl

/-- One part of it: drawn where some member has a seat. -/
theorem compose_part {part : IRect} (hIn : LiesIn g.frame part) (hSome : empty part = false)
    (pixels : Point → C) :
    vic.compose { g.target with pixels := pixels } g.merge.layers g.merge.width g.merge.height 0
        (some part) =
      if g.seats (some part) = [] then none
      else some { g.target with
        pixels := Raster.redraw (inside part)
          (vic.picture ⟨part, 0, g.seats (some part)⟩) pixels } := by
  unfold Vic.compose
  simp only
  rw [g.composeInto_part hIn hSome]
  split <;> rfl

/-- **Parts drawn in turn are their union redrawn**: parts that overlap show the
same twice, since each is drawn from nothing. -/
theorem drawParts_eq (slot : Nat) (forced : Int) (whole : List IRect)
    (hIn : ∀ part ∈ parts, LiesIn g.frame part) (hSome : ∀ part ∈ parts, empty part = false)
    (hSeats : ∀ part ∈ parts, g.seats (some part) ≠ []) (pixels : Point → C) :
    vic.drawParts (g.job slot forced whole) parts { g.target with pixels := pixels } =
      ({ g.target with pixels := Raster.redraw (Covered parts) (g.picture vic) pixels }, true) := by
  induction parts generalizing pixels with
  | nil =>
    unfold Vic.drawParts Raster.redraw
    simp only [not_covered_nil, if_false]
  | cons part rest ih =>
    have hPart := g.compose_part vic (hIn part (by simp)) (hSome part (by simp)) pixels
    rw [if_neg (hSeats part (by simp))] at hPart
    have hRest := ih (fun q hq => hIn q (List.mem_cons_of_mem part hq))
      (fun q hq => hSome q (List.mem_cons_of_mem part hq))
      (fun q hq => hSeats q (List.mem_cons_of_mem part hq))
    have hDrawn := @Vic.drawParts_drawn _ vic (g.job slot forced whole) part rest _ _
      (by rw [job_groupCode]; exact hPart)
    rw [hDrawn, hRest, Raster.redraw_redraw (fun p => covered_cons) fun p => g.picture_part vic]

end Group

end VicSession

end TegraHwc
