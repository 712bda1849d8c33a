import TegraHwc.Compositor.PictureMemory
import TegraHwc.Lib.MachineNumbers
import Mathlib.Algebra.Order.Floor.Defs
import Mathlib.Data.Int.Init
import Mathlib.Data.Rat.Floor
import Mathlib.Logic.Function.Basic
import Mathlib.Tactic.Common

/-!
# TegraHwc — redrawing only what changed

`compositor/PartialRedraw.cpp`: what to draw into a buffer that holds an
older picture of the same members. Edges are integers, the floats of a crop
rationals; the sizes of a buffer keep the width the source gives them, since
they are cast to signed ones. A division of edges truncates towards zero, as
the source's does. What the source works out in floats is rounded to a single
float after each operation. A signed sum that does not fit, which the source
leaves undefined, is the sum here.

## Results

* `gather_covers_from` — the parts gathered for some places cover every point of
  them inside the bounds, for every engine and every way parts are joined.
* `gather_eq_nil`      — nothing is gathered from places that leave nothing on
  the engine's edges.
-/

namespace TegraHwc.PartialRedraw

/-- `Empty`. -/
def empty (r : IRect) : Bool := decide (r.right ≤ r.left) || decide (r.bottom ≤ r.top)

/-- `kColumnGrain`. -/
def kColumnGrain : Int := 16

/-- `kRowGrain`. -/
def kRowGrain : Int := 2

/-- `Down`. -/
def down (v grain : Int) : Int := v.tdiv grain * grain

/-- `Up`. -/
def up (v grain : Int) : Int := (v + grain - 1).tdiv grain * grain

/-- `SameButFrame`: everything about a member but which frame of it, as the
source has it. -/
def sameButFrame (a b : Member) : Bool :=
  a.serial == b.serial && a.solid == b.solid && a.color == b.color && a.src == b.src &&
    a.dst == b.dst && a.alpha == b.alpha && a.premultiplied == b.premultiplied &&
    a.opaque_ == b.opaque_ && a.transform == b.transform && a.corners == b.corners

/-- `0.01F`, the float it is. -/
def scaleSlack : Rat := 10737418 / 1073741824

/-- `0.001F`, the float it is. -/
def edgeSlack : Rat := 8589935 / 8589934592

/-- How floats are worked out: what the result of an operation is rounded to,
and what is made of one cast to an `int32_t`. -/
structure Floats where
  round : Rat → Rat
  toInt : Rat → Int

namespace Floats

/-- The floats of the machine. A cast out of range, which the source leaves
undefined, is cut to the range. -/
def singles : Floats := ⟨MachineNumbers.single, MachineNumbers.toInt32⟩

/-- The same sums with nothing rounded. -/
def unrounded : Floats := ⟨id, fun x => ⌊x⌋⟩

variable (floats : Floats)

/-- `Scaled`. -/
def scaled (m : Member) : Bool :=
  decide (scaleSlack ≤ |floats.round (floats.round m.src.width - floats.round m.dst.width)|) ||
    decide (scaleSlack ≤ |floats.round (floats.round m.src.height - floats.round m.dst.height)|)

/-- A coordinate of the buffer in one axis of the picture, rounded outwards. -/
def along (dstLow : Int) (srcLow scale : Rat) (v : Int) (isUp : Bool) : Int :=
  let f := floats.round (floats.round dstLow +
    floats.round (floats.round (floats.round v - srcLow) * scale))
  floats.toInt (if isUp then ⌈floats.round (f - edgeSlack)⌉ else ⌊floats.round (f + edgeSlack)⌋)

/-- `Onto`. -/
def onto (r : IRect) (m : Member) (isScaled : Bool) : IRect :=
  let sx := floats.round (floats.round m.dst.width / floats.round m.src.width)
  let sy := floats.round (floats.round m.dst.height / floats.round m.src.height)
  let pad : Int := if isScaled then 1 else 0
  { left := max (floats.along m.dst.left m.src.left sx r.left false - pad) m.dst.left
    top := max (floats.along m.dst.top m.src.top sy r.top false - pad) m.dst.top
    right := min (floats.along m.dst.left m.src.left sx r.right true + pad) m.dst.right
    bottom := min (floats.along m.dst.top m.src.top sy r.bottom true + pad) m.dst.bottom }

end Floats

open Floats (singles)

/-- `Join`. -/
def join (a b : IRect) : IRect :=
  ⟨min a.left b.left, min a.top b.top, max a.right b.right, max a.bottom b.bottom⟩

/-- `AreaOf`. -/
def areaOf (r : IRect) : Nat := if empty r then 0 else r.width.toNat * r.height.toNat

/-- `Meet`. -/
def meet (a b : IRect) : Bool :=
  decide (a.left < b.right) && decide (b.left < a.right) && decide (a.top < b.bottom) &&
    decide (b.top < a.bottom)

/-- `Growth`. -/
def growth (a b : IRect) : Int := areaOf (join a b) - areaOf a - areaOf b

/-- `Bounds`. -/
def bounds : List IRect → IRect
  | [] => ⟨0, 0, 0, 0⟩
  | r :: rest => rest.foldl join r

/-- `Area`. -/
def area (parts : List IRect) : Nat := (parts.map areaOf).sum

/-- `kMostPartialInARow`. -/
def kMostPartialInARow : Nat := 30

/-- `kPartPixels`. -/
def kPartPixels : Nat := 65536

/-- `kMostParts`. -/
def kMostParts : Nat := 4

/-- `Engine`. -/
structure Engine where
  drawsScaledInPart : Bool := false
  drawsManyParts : Bool := false
  drawsEmptyPart : Bool := false
  deriving DecidableEq, Repr

-- ---------------------------------------------------------------------------
-- Gathering parts
-- ---------------------------------------------------------------------------

/-- A place, on the engine's edges and inside the buffer. -/
def snap (frame r : IRect) : IRect :=
  { left := max (down r.left kColumnGrain) frame.left
    top := max (down r.top kRowGrain) frame.top
    right := min (up r.right kColumnGrain) frame.right
    bottom := min (up r.bottom kRowGrain) frame.bottom }

/-- `draws_something`. -/
def drawsSomething (members : List Member) (part : IRect) : Bool :=
  members.any fun m => meet m.dst part

/-- Two parts become the box around both, in the place of the first; `i < j`. -/
def joinAt (parts : List IRect) (i j : Nat) : List IRect :=
  match parts[i]?, parts[j]? with
  | some a, some b => (parts.set i (join a b)).eraseIdx j
  | _, _ => parts

/-- The pairs of positions, in the order the loops meet them. -/
def pairs (n : Nat) : List (Nat × Nat) :=
  (List.range n).flatMap fun i => (List.range' (i + 1) (n - (i + 1))).map fun j => (i, j)

/-- Whether two parts are drawn as one. -/
def near (a b : IRect) : Bool := meet a b || decide (growth a b ≤ kPartPixels)

/-- The first loop: the first pair near each other is joined, and the search
begins anew. Each round takes a part away, so as many rounds as parts do. -/
def joinNear : Nat → List IRect → List IRect
  | 0, parts => parts
  | fuel + 1, parts =>
    match
      (pairs parts.length).find? fun ij =>
        near (parts.getD ij.1 ⟨0, 0, 0, 0⟩) (parts.getD ij.2 ⟨0, 0, 0, 0⟩) with
    | none => parts
    | some (i, j) => joinNear fuel (joinAt parts i j)

/-- The part a part that only clears is joined to: the one that draws
something and grows the least. -/
def bestFor (members : List Member) (parts : List IRect) (i : Nat) : Nat :=
  let at_ := fun k => parts.getD k ⟨0, 0, 0, 0⟩
  (List.range parts.length).foldl
    (fun best j =>
      if j ≠ i ∧ drawsSomething members (at_ j) = true ∧
          growth (at_ i) (at_ j) < growth (at_ i) (at_ best) then j
      else best)
    (if i = 0 then 1 else 0)

/-- The second loop, for an engine that draws no part without a member. -/
def joinEmpty (members : List Member) : Nat → List IRect → List IRect
  | 0, parts => parts
  | fuel + 1, parts =>
    match parts.findIdx? fun part => !drawsSomething members part with
    | none => parts
    | some i =>
      if parts.length = 1 then parts
      else
        let best := bestFor members parts i
        joinEmpty members fuel (joinAt parts (min i best) (max i best))

/-- The pair that grows the least when joined, the first of them. -/
def leastGrowth (parts : List IRect) : Nat × Nat :=
  let grows := fun (ij : Nat × Nat) =>
    growth (parts.getD ij.1 ⟨0, 0, 0, 0⟩) (parts.getD ij.2 ⟨0, 0, 0, 0⟩)
  (pairs parts.length).foldl (fun best ij => if grows ij < grows best then ij else best) (0, 1)

/-- The third loop: no more parts than a picture is drawn in. -/
def joinDown : Nat → List IRect → List IRect
  | 0, parts => parts
  | fuel + 1, parts =>
    if parts.length ≤ kMostParts then parts
    else joinDown fuel (joinAt parts (leastGrowth parts).1 (leastGrowth parts).2)

/-- `Gather`. -/
def gather (places : List IRect) (frame : IRect) (members : List Member) (engine : Engine) :
    List IRect :=
  let parts := (places.map (snap frame)).filter fun p => !empty p
  if parts = [] then []
  else if !engine.drawsManyParts then [bounds parts]
  else
    let parts := joinNear parts.length parts
    let parts := if engine.drawsEmptyPart then parts else joinEmpty members parts.length parts
    joinDown parts.length parts

-- ---------------------------------------------------------------------------
-- Damage, frame by frame
-- ---------------------------------------------------------------------------

/-- `DamageHistory::Frame`: no rectangles for all of the buffer. -/
structure Frame where
  generation : Nat
  damage : List IRect
  deriving DecidableEq, Repr

/-- `DamageHistory::Layer`, under its serial. -/
structure LayerFrames where
  serial : Nat
  frames : List Frame := []
  recordedAt : Nat := 0
  deriving DecidableEq, Repr

/-- `DamageHistory`. -/
structure DamageHistory where
  layers : List LayerFrames := []
  clock : Nat := 0
  deriving DecidableEq, Repr

namespace DamageHistory

/-- `kFrames`. -/
def kFrames : Nat := 8

/-- `kLayers`. -/
def kLayers : Nat := 64

/-- The layer of that serial. -/
def find (history : DamageHistory) (serial : Nat) : Option LayerFrames :=
  history.layers.find? fun l => l.serial == serial

/-- Whether a layer has a frame as new as this one already. -/
def knows (l : LayerFrames) (generation : Nat) : Bool :=
  match l.frames.getLast? with
  | none => false
  | some last => decide (generation ≤ last.generation)

/-- A newer frame of a layer, the oldest going when there are too many. -/
def push (l : LayerFrames) (generation : Nat) (damage : List IRect) : LayerFrames :=
  let frames := l.frames ++ [⟨generation, damage⟩]
  { l with frames := frames.drop (frames.length - kFrames) }

/-- The layers with the one heard from longest ago taken out, the lowest
serial first among those as old. -/
def dropOldest (layers : List LayerFrames) : List LayerFrames :=
  match layers.map (·.recordedAt) |>.min? with
  | none => layers
  | some oldest =>
    match layers.filter (fun l => l.recordedAt == oldest) |>.map (·.serial) |>.min? with
    | none => layers
    | some serial => layers.filter fun l => l.serial != serial

/-- `Record`. -/
def record (history : DamageHistory) (serial generation : Nat) (damage : List IRect) :
    DamageHistory :=
  let clock := history.clock + 1
  let l := { (history.find serial).getD { serial := serial } with recordedAt := clock }
  let others := history.layers.filter fun l => l.serial != serial
  if knows l generation then { clock := clock, layers := l :: others }
  else
    let layers := push l generation damage :: others
    { clock := clock
      layers := if kLayers < layers.length then dropOldest layers else layers }

/-- The loop of `Between` over the frames asked for: none where one is not
known, and whether one changed all of the buffer, which ends it. -/
def collect (frames : List Frame) : List Nat → List IRect → Option (List IRect × Bool)
  | [], rects => some (rects, false)
  | g :: gs, rects =>
    match frames.find? fun f => f.generation == g with
    | none => none
    | some f =>
      if f.damage = [] then some (rects, true)
      else collect frames gs (rects ++ f.damage.filter fun r => !empty r)

/-- `Between`: what changed after frame `from_` up to and including `upTo`. -/
def between (history : DamageHistory) (serial from_ upTo : Nat) : Option (List IRect × Bool) :=
  match history.find serial with
  | none => none
  | some l => collect l.frames (List.range' (from_ + 1) (upTo - from_)) []

end DamageHistory

-- ---------------------------------------------------------------------------
-- The decision
-- ---------------------------------------------------------------------------

/-- `Snapshot`. -/
structure Snapshot where
  valid : Bool := false
  width : UInt32 := 0
  height : UInt32 := 0
  members : List Member := []
  partialRun : Nat := 0
  deriving DecidableEq, Repr

/-- `Plan::Kind`. -/
inductive Kind where
  | kFull
  | kPartial
  | kUnchanged
  deriving DecidableEq, Repr

/-- `Plan`; `why` is the letter the source gives. -/
structure Plan where
  kind : Kind := .kFull
  why : Char := 'n'
  parts : List IRect := []
  deriving DecidableEq, Repr

/-- `static_cast<int32_t>` of a size. -/
def asInt32 (v : UInt32) : Int := v.toBitVec.toInt

/-- The buffer's own rectangle, as `Decide` works it out. -/
def frameOf (width height : UInt32) : IRect := ⟨0, 0, asInt32 width, asInt32 height⟩

/-- One member of the loop of `Decide`: the letter of a full drawing, or the
damage it adds. -/
def damageOf (history : DamageHistory) (now then_ : Member) : Except Char (List IRect) :=
  if now.serial = 0 ∨ sameButFrame now then_ = false then .error 'i'
  else if now.generation < then_.generation then .error 'g'
  else if now.generation = then_.generation then .ok []
  else if now.transform ≠ 0 ∨ now.src.width ≤ 0 ∨ now.src.height ≤ 0 then .error 't'
  else
    match history.between now.serial then_.generation now.generation with
    | none => .error 'd'
    | some (rects, whole) =>
      .ok ((if whole then [now.dst] else []) ++
        rects.map fun r => singles.onto r now (singles.scaled now))

/-- The loop of `Decide` over the members. -/
def damageOfAll (history : DamageHistory) : List Member → List Member → Except Char (List IRect)
  | now :: members, then_ :: held =>
    match damageOf history now then_ with
    | .error why => .error why
    | .ok damage =>
      match damageOfAll history members held with
      | .error why => .error why
      | .ok rest => .ok (damage ++ rest)
  | _, _ => .ok []

/-- `Decide`. -/
def decide_ (held : Snapshot) (width height : UInt32) (members : List Member)
    (history : DamageHistory) (engine : Engine) : Plan :=
  if held.valid = false ∨ held.width ≠ width ∨ held.height ≠ height then ⟨.kFull, 'h', []⟩
  else if engine.drawsScaledInPart = false ∧ members.any singles.scaled = true then
    ⟨.kFull, 's', []⟩
  else
    let frame := frameOf width height
    let full := gather (held.members.map (·.dst) ++ members.map (·.dst)) frame members engine
    if held.members.length ≠ members.length then ⟨.kFull, 'c', full⟩
    else if kMostPartialInARow ≤ held.partialRun then ⟨.kFull, 'r', full⟩
    else
      match damageOfAll history members held.members with
      | .error why => ⟨.kFull, why, full⟩
      | .ok damage =>
        let parts := gather damage frame members engine
        if parts = [] then ⟨.kUnchanged, 'n', []⟩
        else if area full ≤ area parts then ⟨.kFull, 'a', full⟩
        else ⟨.kPartial, 'n', parts⟩

/-- `ClipTo`: the member's crop and place, cut to a part; none where nothing
of it lands there. -/
def clipTo (bound : IRect) (src : FRect) (dst : IRect) : Option (FRect × IRect) :=
  let inside : IRect :=
    ⟨max dst.left bound.left, max dst.top bound.top, min dst.right bound.right,
      min dst.bottom bound.bottom⟩
  if empty inside then none
  else
    let sx : Rat := src.width / dst.width
    let sy : Rat := src.height / dst.height
    some
      (⟨src.left + (inside.left - dst.left) * sx, src.top + (inside.top - dst.top) * sy,
        src.right - (dst.right - inside.right) * sx,
        src.bottom - (dst.bottom - inside.bottom) * sy⟩, inside)

-- ---------------------------------------------------------------------------
-- The buffers of one engine
-- ---------------------------------------------------------------------------

/-- `SlotPictures::Held`. -/
structure Held where
  snapshot : Snapshot := {}
  fence : Option Nat := none
  deriving DecidableEq, Repr

/-- `SlotPictures`; a slot is named by a number. -/
structure SlotPictures where
  engine : Engine
  slots : Nat → Option Held := fun _ => none
  history : DamageHistory := {}

namespace SlotPictures

/-- `SlotPictures::Record`. -/
def record (pictures : SlotPictures) (m : Member) (damage : List IRect) : SlotPictures :=
  { pictures with history := pictures.history.record m.serial m.generation damage }

/-- `SlotPictures::Decide`: shown undrawn means shown against the fence of the
slot's last drawing; with none to name, it is drawn. -/
def decide_ (pictures : SlotPictures) (slot : Nat) (width height : UInt32)
    (members : List Member) : Plan :=
  match pictures.slots slot with
  | none => {}
  | some held =>
    let plan := PartialRedraw.decide_ held.snapshot width height members pictures.history
      pictures.engine
    if plan.kind = .kUnchanged ∧ held.fence = none then { plan with kind := .kFull } else plan

/-- The partial drawings in a row after a drawing. -/
def runAfter (run : Nat) : Kind → Nat
  | .kPartial => run + 1
  | .kUnchanged => run
  | .kFull => 0

/-- `SlotPictures::Drawn`. -/
def drawn (pictures : SlotPictures) (slot : Nat) (width height : UInt32)
    (members : List Member) (plan : Plan) (fence : Option Nat) : SlotPictures :=
  let held := (pictures.slots slot).getD {}
  { pictures with
    slots := Function.update pictures.slots slot (some
      { snapshot :=
          { valid := true, width := width, height := height, members := members,
            partialRun := runAfter held.snapshot.partialRun plan.kind }
        fence := fence }) }

/-- `SlotPictures::Lost`. -/
def lost (pictures : SlotPictures) (slot : Nat) : SlotPictures :=
  { pictures with
    slots := Function.update pictures.slots slot
      ((pictures.slots slot).map fun held =>
        { held with snapshot := { held.snapshot with valid := false } }) }

/-- `SlotPictures::Fence`. -/
def fence (pictures : SlotPictures) (slot : Nat) : Option Nat :=
  (pictures.slots slot).bind (·.fence)

end SlotPictures

-- ---------------------------------------------------------------------------
-- Points of parts
-- ---------------------------------------------------------------------------

/-- A point of the picture. -/
abbrev Point := Int × Int

/-- The points of a rectangle. -/
def inside (r : IRect) (p : Point) : Prop :=
  r.left ≤ p.1 ∧ p.1 < r.right ∧ r.top ≤ p.2 ∧ p.2 < r.bottom

instance (r : IRect) (p : Point) : Decidable (inside r p) := by
  unfold inside
  infer_instance

/-- The points of some parts. -/
def Covered (parts : List IRect) (p : Point) : Prop := ∃ r ∈ parts, inside r p

instance (parts : List IRect) (p : Point) : Decidable (Covered parts p) := by
  unfold Covered
  infer_instance

theorem not_covered_nil (p : Point) : ¬Covered [] p := by
  rintro ⟨r, hr, -⟩
  cases hr

/-- An empty rectangle has no points. -/
theorem not_inside_of_empty {r : IRect} (h : empty r = true) (p : Point) : ¬inside r p := by
  unfold empty at h
  unfold inside
  rw [Bool.or_eq_true, decide_eq_true_eq, decide_eq_true_eq] at h
  omega

theorem inside_join_left {a : IRect} {p : Point} (b : IRect) (h : inside a p) :
    inside (join a b) p := by
  obtain ⟨hLeft, hRight, hTop, hBottom⟩ := h
  refine ⟨?_, ?_, ?_, ?_⟩
  · exact (min_le_left _ _).trans hLeft
  · exact hRight.trans_le (le_max_left _ _)
  · exact (min_le_left _ _).trans hTop
  · exact hBottom.trans_le (le_max_left _ _)

theorem inside_join_right {b : IRect} {p : Point} (a : IRect) (h : inside b p) :
    inside (join a b) p := by
  obtain ⟨hLeft, hRight, hTop, hBottom⟩ := h
  refine ⟨?_, ?_, ?_, ?_⟩
  · exact (min_le_right _ _).trans hLeft
  · exact hRight.trans_le (le_max_right _ _)
  · exact (min_le_right _ _).trans hTop
  · exact hBottom.trans_le (le_max_right _ _)

/-- The box around some parts covers each of them. -/
theorem inside_bounds {parts : List IRect} {p : Point} (h : Covered parts p) :
    inside (bounds parts) p := by
  have hFold : ∀ (rest : List IRect) (box : IRect), (inside box p ∨ Covered rest p) →
      inside (rest.foldl join box) p := by
    intro rest
    induction rest with
    | nil =>
      rintro box (hBox | ⟨r, hr, -⟩)
      · exact hBox
      · cases hr
    | cons r rest ih =>
      rintro box (hBox | ⟨q, hq, hInside⟩)
      · exact ih _ (.inl (inside_join_left r hBox))
      · rcases List.mem_cons.mp hq with rfl | hq
        · exact ih _ (.inl (inside_join_right box hInside))
        · exact ih _ (.inr ⟨q, hq, hInside⟩)
  obtain ⟨r, hr, hInside⟩ := h
  cases parts with
  | nil => cases hr
  | cons first rest =>
    rcases List.mem_cons.mp hr with rfl | hr
    · exact hFold rest _ (.inl hInside)
    · exact hFold rest first (.inr ⟨r, hr, hInside⟩)

/-- Joining two of the parts uncovers nothing. -/
theorem covered_joinAt {parts : List IRect} {p : Point} {i j : Nat} (hne : i ≠ j)
    (h : Covered parts p) : Covered (joinAt parts i j) p := by
  unfold joinAt
  split
  · rename_i a b ha hb
    obtain ⟨r, hr, hInside⟩ := h
    obtain ⟨k, hk⟩ := List.mem_iff_getElem?.mp hr
    have hi : i < parts.length := (List.getElem?_eq_some_iff.mp ha).1
    -- the box of the two stands at `i`, which is not the place erased
    have hBox : join a b ∈ (parts.set i (join a b)).eraseIdx j :=
      List.mem_eraseIdx_iff_getElem?.mpr ⟨i, hne, List.getElem?_set_self hi⟩
    by_cases hki : k = i
    · subst hki
      obtain rfl : r = a := Option.some.inj (hk.symm.trans ha)
      exact ⟨_, hBox, inside_join_left b hInside⟩
    · by_cases hkj : k = j
      · subst hkj
        obtain rfl : r = b := Option.some.inj (hk.symm.trans hb)
        exact ⟨_, hBox, inside_join_right a hInside⟩
      · refine ⟨r, List.mem_eraseIdx_iff_getElem?.mpr ⟨k, hkj, ?_⟩, hInside⟩
        rw [List.getElem?_set_ne (Ne.symm hki), hk]
  · exact h

/-- The pairs of positions name two of them. -/
theorem lt_of_mem_pairs {n : Nat} {ij : Nat × Nat} (h : ij ∈ pairs n) : ij.1 < ij.2 := by
  obtain ⟨i, -, hi⟩ := List.mem_flatMap.mp h
  obtain ⟨j, hj, rfl⟩ := List.mem_map.mp hi
  rw [List.mem_range'_1] at hj
  show i < j
  omega

theorem covered_joinNear {p : Point} (fuel : Nat) {parts : List IRect} (h : Covered parts p) :
    Covered (joinNear fuel parts) p := by
  induction fuel generalizing parts with
  | zero => exact h
  | succ fuel ih =>
    unfold joinNear
    split
    · exact h
    · rename_i i j hFound
      have hlt : i < j := lt_of_mem_pairs (List.mem_of_find?_eq_some hFound)
      exact ih (covered_joinAt (Nat.ne_of_lt hlt) h)

/-- A part is never joined to itself. -/
theorem bestFor_ne (members : List Member) (parts : List IRect) (i : Nat) :
    bestFor members parts i ≠ i := by
  unfold bestFor
  refine List.foldlRecOn (motive := fun best => best ≠ i) _ _ ?_ fun best hBest j _ => ?_
  · split <;> omega
  · split
    · rename_i hj
      exact hj.1
    · exact hBest

theorem covered_joinEmpty {p : Point} (members : List Member) (fuel : Nat) {parts : List IRect}
    (h : Covered parts p) : Covered (joinEmpty members fuel parts) p := by
  induction fuel generalizing parts with
  | zero => exact h
  | succ fuel ih =>
    unfold joinEmpty
    split
    · exact h
    · rename_i i _
      split
      · exact h
      · have hne := bestFor_ne members parts i
        exact ih (covered_joinAt (by omega) h)

/-- The pair that grows the least is a pair. -/
theorem leastGrowth_lt (parts : List IRect) :
    (leastGrowth parts).1 < (leastGrowth parts).2 := by
  unfold leastGrowth
  refine List.foldlRecOn (motive := fun ij : Nat × Nat => ij.1 < ij.2) _ _ (by decide)
    fun best hBest ij hij => ?_
  split
  · exact lt_of_mem_pairs hij
  · exact hBest

theorem covered_joinDown {p : Point} (fuel : Nat) {parts : List IRect} (h : Covered parts p) :
    Covered (joinDown fuel parts) p := by
  induction fuel generalizing parts with
  | zero => exact h
  | succ fuel ih =>
    unfold joinDown
    split
    · exact h
    · exact ih (covered_joinAt (Nat.ne_of_lt (leastGrowth_lt parts)) h)

/-- Rounding towards zero is downwards from the origin on. -/
theorem down_le {v x grain : Int} (hGrain : 0 < grain) (hvx : v ≤ x) (hx : 0 ≤ x) :
    down v grain ≤ x := by
  unfold down
  rcases le_or_gt 0 v with hv | hv
  · rw [Int.tdiv_eq_ediv_of_nonneg hv]
    exact (Int.ediv_mul_le v (Int.ne_of_gt hGrain)).trans hvx
  · have hNonneg : 0 ≤ (-v).tdiv grain := Int.tdiv_nonneg (by omega) (le_of_lt hGrain)
    rw [Int.neg_tdiv] at hNonneg
    exact (mul_nonpos_of_nonpos_of_nonneg (by omega) (le_of_lt hGrain)).trans hx

/-- And rounding up from there keeps what lies below. -/
theorem lt_up {v x grain : Int} (hGrain : 0 < grain) (hxv : x < v) (hx : 0 ≤ x) :
    x < up v grain := by
  unfold up
  rw [Int.tdiv_eq_ediv_of_nonneg (by omega)]
  have hLast := Int.lt_ediv_add_one_mul_self (v + grain - 1) hGrain
  rw [Int.add_mul, Int.one_mul] at hLast
  omega

/-- Rounding to the engine's edges loses no point from the origin on. -/
theorem inside_snap {frame r : IRect} {p : Point} (hx : 0 ≤ p.1) (hy : 0 ≤ p.2)
    (hFrame : inside frame p) (h : inside r p) : inside (snap frame r) p := by
  obtain ⟨hl, hr, ht, hb⟩ := h
  obtain ⟨hfl, hfr, hft, hfb⟩ := hFrame
  refine ⟨max_le (down_le (by decide) hl hx) hfl, lt_min (lt_up (by decide) hr hx) hfr,
    max_le (down_le (by decide) ht hy) hft, lt_min (lt_up (by decide) hb hy) hfb⟩

/-- **The parts cover the places.** Whatever the engine, and however parts are
joined, every point of a place inside the bounds and from the origin on is in a
part. -/
theorem gather_covers_from {places : List IRect} {frame : IRect} {members : List Member}
    {engine : Engine} {p : Point} (hx : 0 ≤ p.1) (hy : 0 ≤ p.2) (hFrame : inside frame p)
    (h : Covered places p) : Covered (gather places frame members engine) p := by
  obtain ⟨r, hr, hInside⟩ := h
  have hSnap : Covered ((places.map (snap frame)).filter fun p => !empty p) p := by
    refine ⟨snap frame r, ?_, inside_snap hx hy hFrame hInside⟩
    rw [List.mem_filter]
    refine ⟨List.mem_map_of_mem hr, ?_⟩
    cases hEmpty : empty (snap frame r) with
    | false => rfl
    | true => exact absurd (inside_snap hx hy hFrame hInside) (not_inside_of_empty hEmpty p)
  unfold gather
  simp only
  set parts := (places.map (snap frame)).filter fun p => !empty p with hParts
  split
  · rename_i hNone
    rw [hNone] at hSnap
    exact absurd hSnap (not_covered_nil p)
  split
  · exact ⟨bounds parts, by simp, inside_bounds hSnap⟩
  · refine covered_joinDown _ ?_
    split
    · exact covered_joinNear _ hSnap
    · exact covered_joinEmpty members _ (covered_joinNear _ hSnap)

/-- Of a buffer, whose bounds begin at the origin, every point of a place is. -/
theorem gather_covers {places : List IRect} {frame : IRect} {members : List Member}
    {engine : Engine} {p : Point} (hLeft : frame.left = 0) (hTop : frame.top = 0)
    (hFrame : inside frame p) (h : Covered places p) :
    Covered (gather places frame members engine) p :=
  gather_covers_from (hLeft ▸ hFrame.1) (hTop ▸ hFrame.2.2.1) hFrame h

/-- Places that leave nothing on the engine's edges are gathered to nothing. -/
theorem gather_eq_nil {places : List IRect} {frame : IRect} (members : List Member)
    (engine : Engine) (h : ∀ r ∈ places, empty (snap frame r) = true) :
    gather places frame members engine = [] := by
  have hNone : ((places.map (snap frame)).filter fun p => !empty p) = [] := by
    rw [List.filter_eq_nil_iff]
    intro q hq
    obtain ⟨r, hr, rfl⟩ := List.mem_map.mp hq
    simp [h r hr]
  unfold gather
  rw [hNone]
  rfl

end TegraHwc.PartialRedraw
