import TegraHwc.Compositor.PartialRedraw
import TegraHwc.Lib.Raster
import Mathlib.Data.List.MinMax
import Mathlib.Tactic.Linarith

/-!
# TegraHwc — when redrawing in part makes the picture

What a picture of members is, and when a buffer that holds one picture,
redrawn by the plan `Decide` answers, holds the next. Everything about how a
member looks is open: its pixels, what its blending, corners and turn make of
them, and the colours themselves. Fixed is only what the redraw rests on: a
member paints nothing outside its place, and one that is neither transformed
nor turned nor resized paints each point from the one texel under it.

## Results

* `between_unchanged`  — what a truthful history says has not changed, has
  not.
* `inside_onto`        — a damaged texel's point lands in the box drawn for it,
  the floats on the way rounded, where the edges are of twenty-four bits.
* `decide_redraws`     — where every member that stays in sight keeps its
  turn, the redraw makes the picture, through every exit of `Decide`.
* `decide_misses`      — and where one does not, some picture is missed.
* `decide_sound`       — the two together.
-/

namespace TegraHwc.PartialRedraw

open MachineNumbers Raster
open Floats (singles)

-- ---------------------------------------------------------------------------
-- Pictures
-- ---------------------------------------------------------------------------

/-- `turned` of a member that is not. -/
def noTurn : List Rat := List.replicate 6 0

/-- A member whose crop is of whole pixels and of the size of its place. -/
def Unscaled (m : Member) : Prop :=
  ∃ l t : Int, m.src = ⟨l, t, l + m.dst.width, t + m.dst.height⟩

/-- The texel under a point of a member that is not resized. -/
def texel (m : Member) (p : Point) : Point :=
  (⌊m.src.left⌋ + (p.1 - m.dst.left), ⌊m.src.top⌋ + (p.2 - m.dst.top))

/-- A member whose every point is the texel under it. -/
structure Plain (m : Member) : Prop where
  transform : m.transform = 0
  turned : m.turned = noTurn
  unscaled : Unscaled m

/-- All of a member but which pixels it shows. -/
def look (m : Member) : Member := { m with source := 0, generation := 0 }

/-- How members are drawn: the pixels of each frame of each layer, what a
member makes of its pixels at a point over the colour below, and the colour of
nothing. -/
structure Drawing (Texel C : Type) where
  content : Nat → Nat → Point → Texel
  shade : Member → (Point → Texel) → Point → C → C
  clear : C
  plain : ∀ m, Plain m → ∀ (pixels pixels' : Point → Texel) (p : Point) (below : C),
    pixels (texel m p) = pixels' (texel m p) → shade m pixels p below = shade m pixels' p below

namespace Drawing

variable {Texel C : Type} (d : Drawing Texel C)

/-- A member as a layer of the picture: it paints inside its place. -/
def paint (m : Member) : Layer Point C := fun p below =>
  if inside m.dst p then d.shade (look m) (d.content m.serial m.generation) p below else below

/-- The picture of some members, blended in order over nothing. -/
def picture (members : List Member) (p : Point) : C :=
  compose (members.map d.paint) d.clear p

/-- A history that tells the truth: each frame it keeps differs from the one
before only inside the rectangles kept for it, or anywhere when there are
none. -/
def Truthful (history : DamageHistory) : Prop :=
  ∀ l ∈ history.layers, ∀ f ∈ l.frames, f.damage ≠ [] → ∀ q : Point, ¬Covered f.damage q →
    d.content l.serial f.generation q = d.content l.serial (f.generation - 1) q

end Drawing

-- ---------------------------------------------------------------------------
-- The buffer
-- ---------------------------------------------------------------------------

/-- The points of a buffer. -/
def onBuffer (width height : UInt32) (p : Point) : Prop :=
  0 ≤ p.1 ∧ p.1 < width.toNat ∧ 0 ≤ p.2 ∧ p.2 < height.toNat

instance (width height : UInt32) : DecidablePred (onBuffer width height) := fun p => by
  unfold onBuffer
  infer_instance

/-- Sizes a signed integer holds. -/
def SignedSize (width height : UInt32) : Prop :=
  width.toNat < 2 ^ 31 ∧ height.toNat < 2 ^ 31

/-- What a drawing by a plan writes: the whole buffer for a full plan with no
parts, nothing for an unchanged one. -/
def drawnAt (plan : Plan) (p : Point) : Prop :=
  plan.kind ≠ .kUnchanged ∧ ((plan.kind = .kFull ∧ plan.parts = []) ∨ Covered plan.parts p)

instance (plan : Plan) : DecidablePred (drawnAt plan) := fun p => by
  unfold drawnAt
  infer_instance

/-- A size that fits is itself. -/
theorem asInt32_of_lt {v : UInt32} (h : v.toNat < 2 ^ 31) : asInt32 v = v.toNat := by
  unfold asInt32
  rw [BitVec.toInt_eq_toNat_of_lt]
  · rfl
  · show 2 * v.toNat < 2 ^ 32
    omega

/-- One that does not is negative. -/
theorem asInt32_neg {v : UInt32} (h : ¬v.toNat < 2 ^ 31) : asInt32 v < 0 := by
  unfold asInt32
  rw [BitVec.toInt_eq_toNat_cond]
  have hlt := v.toNat_lt
  have hSame : v.toBitVec.toNat = v.toNat := rfl
  rw [hSame, if_neg (by omega)]
  omega

/-- The rectangle `Decide` works in is the buffer, where its sizes fit. -/
theorem inside_frameOf {width height : UInt32} (h : SignedSize width height) {p : Point}
    (hp : onBuffer width height p) : inside (frameOf width height) p := by
  obtain ⟨hl, hr, ht, hb⟩ := hp
  refine ⟨hl, ?_, ht, ?_⟩
  · show p.1 < asInt32 width
    rwa [asInt32_of_lt h.1]
  · show p.2 < asInt32 height
    rwa [asInt32_of_lt h.2]

/-- Where they do not, no place lands in it. -/
theorem empty_snap_frameOf {width height : UInt32} (h : ¬SignedSize width height) (r : IRect) :
    empty (snap (frameOf width height) r) = true := by
  unfold SignedSize at h
  unfold empty
  rw [Bool.or_eq_true, decide_eq_true_eq, decide_eq_true_eq]
  rcases not_and_or.mp h with h | h
  · refine .inl ?_
    show min _ (asInt32 width) ≤ max _ 0
    have hNeg := asInt32_neg h
    exact (min_le_right _ _).trans ((le_of_lt hNeg).trans (le_max_right _ _))
  · refine .inr ?_
    show min _ (asInt32 height) ≤ max _ 0
    have hNeg := asInt32_neg h
    exact (min_le_right _ _).trans ((le_of_lt hNeg).trans (le_max_right _ _))

-- ---------------------------------------------------------------------------
-- Damage
-- ---------------------------------------------------------------------------

/-- Edges and extents that a single float keeps. -/
def FloatSized (m : Member) : Prop :=
  (|m.src.left| ≤ 2 ^ 24 ∧ |m.src.right| ≤ 2 ^ 24 ∧ |m.dst.left| ≤ 2 ^ 24 ∧ |m.dst.right| ≤ 2 ^ 24 ∧
      m.dst.width ≤ 2 ^ 24) ∧
    |m.src.top| ≤ 2 ^ 24 ∧ |m.src.bottom| ≤ 2 ^ 24 ∧ |m.dst.top| ≤ 2 ^ 24 ∧
      |m.dst.bottom| ≤ 2 ^ 24 ∧ m.dst.height ≤ 2 ^ 24

/-- A member that is not resized has a scale of one, rounded or not. -/
theorem scale_whole {srcWidth : Rat} {dstWidth : Int} (h : srcWidth = dstWidth)
    (hPos : 0 < dstWidth) : single (single dstWidth / single srcWidth) = 1 := by
  have hBits : |(1 : Int)| ≤ 2 ^ 24 := by decide
  have hSome : (1 : Rat) ≤ single dstWidth := by
    have hLe := le_single (x := (dstWidth : Rat)) hBits (by exact_mod_cast hPos)
    simpa using hLe
  rw [h, div_self (by linarith)]
  exact_mod_cast single_intCast hBits

/-- The extents of the crop of a member that is not resized are its place's. -/
theorem Unscaled.extents {m : Member} (h : Unscaled m) :
    m.src.width = m.dst.width ∧ m.src.height = m.dst.height := by
  obtain ⟨l, t, hSrc⟩ := h
  rw [hSrc]
  unfold Rect.width Rect.height
  constructor <;> ring

section Along

variable {low high l v x : Int}

/-- **An edge at or before a texel** lands at or before the texel's pixel, whatever is
rounded on the way. -/
theorem along_le (hLow : |low| ≤ 2 ^ 24) (hTexel : |l + (x - low)| ≤ 2 ^ 24)
    (hSpan : |x - low| ≤ 2 ^ 24) (hPixel : |x| ≤ 2 ^ 24) (hEdge : v ≤ l + (x - low)) :
    singles.along low l 1 v false ≤ x := by
  have hv : single v ≤ ((l + (x - low) : Int) : Rat) := single_le hTexel (by exact_mod_cast hEdge)
  have hMoved : single (single v - l) ≤ ((x - low : Int) : Rat) :=
    single_le hSpan (by push_cast at hv ⊢; linarith)
  have hScaled : single (single (single v - l) * 1) ≤ ((x - low : Int) : Rat) :=
    single_le hSpan (by rwa [mul_one])
  have hPlaced : single (single low + single (single (single v - l) * 1)) ≤ (x : Rat) := by
    refine single_le hPixel ?_
    rw [single_intCast hLow]
    push_cast at hScaled
    linarith
  have hRounded : ⌊single (single (single low + single (single (single v - l) * 1)) + edgeSlack)⌋
      ≤ x := by
    refine Int.lt_add_one_iff.mp (Int.floor_lt.mpr ?_)
    push_cast
    refine single_lt_add_one hPixel ?_
    unfold edgeSlack
    linarith
  unfold Floats.along singles
  simp only [Bool.false_eq_true, if_false]
  rw [toInt32_intCast]
  have hFit := abs_le.mp hPixel
  omega

/-- And one at or after it, at or after. -/
theorem le_along (hLow : |low| ≤ 2 ^ 24) (hTexel : |l + (x - low)| ≤ 2 ^ 24)
    (hSpan : |x - low| ≤ 2 ^ 24) (hPixel : |x| ≤ 2 ^ 24) (hEdge : l + (x - low) ≤ v) :
    x ≤ singles.along low l 1 v true := by
  have hv : ((l + (x - low) : Int) : Rat) ≤ single v := le_single hTexel (by exact_mod_cast hEdge)
  have hMoved : ((x - low : Int) : Rat) ≤ single (single v - l) :=
    le_single hSpan (by push_cast at hv ⊢; linarith)
  have hScaled : ((x - low : Int) : Rat) ≤ single (single (single v - l) * 1) :=
    le_single hSpan (by rwa [mul_one])
  have hPlaced : (x : Rat) ≤ single (single low + single (single (single v - l) * 1)) := by
    refine le_single hPixel ?_
    rw [single_intCast hLow]
    push_cast at hScaled
    linarith
  have hRounded : x ≤ ⌈single (single (single low + single (single (single v - l) * 1))
      - edgeSlack)⌉ := by
    refine Int.sub_one_lt_iff.mp (Int.lt_ceil.mpr ?_)
    push_cast
    refine sub_one_lt_single hPixel ?_
    unfold edgeSlack
    linarith
  unfold Floats.along singles
  simp only [if_true]
  rw [toInt32_intCast]
  have hFit := abs_le.mp hPixel
  omega

/-- So the pixel of a damaged texel is between the edges the damage lands at. -/
theorem between_along {first past : Int} (hLow : |low| ≤ 2 ^ 24) (hHigh : |high| ≤ 2 ^ 24)
    (hExtent : high - low ≤ 2 ^ 24) (hSrcLow : |l| ≤ 2 ^ 24)
    (hSrcHigh : |l + (high - low)| ≤ 2 ^ 24) (hPixel : low ≤ x ∧ x < high)
    (hFirst : first ≤ l + (x - low)) (hPast : l + (x - low) < past) :
    singles.along low l 1 first false ≤ x ∧ x < singles.along low l 1 past true := by
  rw [abs_le] at hHigh hSrcLow hSrcHigh
  obtain ⟨hLowest, hHighest⟩ := abs_le.mp hLow
  refine ⟨along_le hLow ?_ ?_ ?_ hFirst, Int.lt_iff_add_one_le.mpr (le_along hLow ?_ ?_ ?_ ?_)⟩
  case refine_7 => omega
  all_goals
    rw [abs_le]
    omega

end Along

/-- The points of a damaged texel land in the box drawn for it. -/
theorem inside_onto {m : Member} {r : IRect} {p : Point} (hUnscaled : Unscaled m)
    (hSized : FloatSized m) (hPlace : inside m.dst p) (hTexel : inside r (texel m p))
    (isScaled : Bool) : inside (singles.onto r m isScaled) p := by
  obtain ⟨hSrcWidth, hSrcHeight⟩ := hUnscaled.extents
  obtain ⟨l, t, hSrc⟩ := hUnscaled
  obtain ⟨hl, hr, ht, hb⟩ := hPlace
  have hWidth := scale_whole hSrcWidth (by unfold Rect.width; omega)
  have hHeight := scale_whole hSrcHeight (by unfold Rect.height; omega)
  have hPad : (0 : Int) ≤ if isScaled then 1 else 0 := by split <;> decide
  unfold texel at hTexel
  rw [hSrc] at hTexel
  simp only [Int.floor_intCast] at hTexel
  obtain ⟨hrl, hrr, hrt, hrb⟩ := hTexel
  have hLeft : m.src.left = (l : Rat) := by rw [hSrc]
  have hTop : m.src.top = (t : Rat) := by rw [hSrc]
  unfold FloatSized at hSized
  simp only [hSrc] at hSized
  obtain ⟨⟨hSrcLeft, hSrcRight, hDstLeft, hDstRight, hWide⟩, hSrcTop, hSrcBottom, hDstTop,
    hDstBottom, hHigh⟩ := hSized
  obtain ⟨hFirstX, hPastX⟩ := between_along hDstLeft hDstRight hWide (by exact_mod_cast hSrcLeft)
    (by exact_mod_cast hSrcRight) ⟨hl, hr⟩ hrl hrr
  obtain ⟨hFirstY, hPastY⟩ := between_along hDstTop hDstBottom hHigh (by exact_mod_cast hSrcTop)
    (by exact_mod_cast hSrcBottom) ⟨ht, hb⟩ hrt hrb
  unfold Floats.onto inside
  simp only [show singles.round = single from rfl, hWidth, hHeight, hLeft, hTop]
  refine ⟨max_le ?_ hl, lt_min ?_ hr, max_le ?_ ht, lt_min ?_ hb⟩ <;> omega

/-- What the frames asked for say changed is all that did. -/
theorem collect_unchanged {Texel C : Type} {d : Drawing Texel C} {serial : Nat}
    {frames : List Frame}
    (hTrue : ∀ f ∈ frames, f.damage ≠ [] → ∀ q : Point, ¬Covered f.damage q →
      d.content serial f.generation q = d.content serial (f.generation - 1) q) (q : Point) :
    ∀ (n from_ : Nat) (rects : List IRect) (out : List IRect),
      DamageHistory.collect frames (List.range' (from_ + 1) n) rects = some (out, false) →
      ¬Covered out q →
      ¬Covered rects q ∧ d.content serial (from_ + n) q = d.content serial from_ q := by
  intro n
  induction n with
  | zero =>
    intro from_ rects out h hOut
    obtain rfl : rects = out := by simpa [DamageHistory.collect] using h
    exact ⟨hOut, rfl⟩
  | succ n ih =>
    intro from_ rects out h hOut
    rw [List.range'_succ] at h
    unfold DamageHistory.collect at h
    split at h
    · cases h
    · rename_i f hFound
      split at h
      · cases h
      · rename_i hSome
        obtain ⟨hRects, hRest⟩ := ih (from_ + 1) _ out h hOut
        have hGen : f.generation = from_ + 1 := by simpa using List.find?_some hFound
        -- the rectangles left out of the collection are empty
        have hFrame : ¬Covered f.damage q := by
          rintro ⟨r, hr, hInside⟩
          refine hRects ⟨r, List.mem_append_right _ (List.mem_filter.mpr ⟨hr, ?_⟩), hInside⟩
          cases hEmpty : empty r with
          | false => rfl
          | true => exact absurd hInside (not_inside_of_empty hEmpty q)
        have hStep := hTrue f (List.mem_of_find?_eq_some hFound) hSome q hFrame
        rw [hGen, Nat.add_sub_cancel] at hStep
        refine ⟨?_, ?_⟩
        · rintro ⟨r, hr, hInside⟩
          exact hRects ⟨r, List.mem_append_left _ hr, hInside⟩
        · rw [← hStep, ← hRest]
          congr 1
          omega

/-- **A truthful history vouches for the texels it does not name.** -/
theorem between_unchanged {Texel C : Type} {d : Drawing Texel C} {history : DamageHistory}
    (hTrue : d.Truthful history) {serial from_ upTo : Nat} (hLe : from_ ≤ upTo)
    {rects : List IRect} (h : history.between serial from_ upTo = some (rects, false))
    {q : Point} (hq : ¬Covered rects q) :
    d.content serial upTo q = d.content serial from_ q := by
  unfold DamageHistory.between at h
  split at h
  · cases h
  · rename_i l hFound
    have hSerial : l.serial = serial := by simpa using List.find?_some hFound
    have hLayer := hTrue l (List.mem_of_find?_eq_some hFound)
    rw [hSerial] at hLayer
    have hAll := (collect_unchanged hLayer q (upTo - from_) from_ [] rects h hq).2
    rwa [Nat.add_sub_cancel' hLe] at hAll

-- ---------------------------------------------------------------------------
-- Members, one by one
-- ---------------------------------------------------------------------------

/-- What the source compares of two members. -/
theorem sameButFrame_iff {a b : Member} :
    sameButFrame a b = true ↔
      a.serial = b.serial ∧ a.solid = b.solid ∧ a.color = b.color ∧ a.src = b.src ∧
        a.dst = b.dst ∧ a.alpha = b.alpha ∧ a.premultiplied = b.premultiplied ∧
        a.opaque_ = b.opaque_ ∧ a.transform = b.transform ∧ a.corners = b.corners := by
  simp [sameButFrame, and_assoc]

/-- With the turn, which it does not compare, it is the whole look. -/
theorem look_eq_of_sameButFrame {a b : Member} (h : sameButFrame a b = true)
    (hTurned : a.turned = b.turned) : look a = look b := by
  obtain ⟨hSerial, hSolid, hColor, hSrc, hDst, hAlpha, hPre, hOpaque, hTransform, hCorners⟩ :=
    sameButFrame_iff.mp h
  unfold look
  simp [hSerial, hSolid, hColor, hSrc, hDst, hAlpha, hPre, hOpaque, hTransform, hCorners,
    hTurned]

/-- A pair of members no redraw in part is tried for. -/
def LooksAnew (then_ now : Member) : Prop :=
  now.serial = 0 ∨ sameButFrame now then_ = false ∨ now.generation < then_.generation ∨
    (then_.generation < now.generation ∧
      (now.transform ≠ 0 ∨ now.src.width ≤ 0 ∨ now.src.height ≤ 0))

/-- What is known of a pair whose damage was told. -/
theorem damageOf_ok {history : DamageHistory} {now then_ : Member} {damage : List IRect}
    (h : damageOf history now then_ = .ok damage) :
    ¬LooksAnew then_ now ∧
      (then_.generation < now.generation → ∃ rects whole,
        history.between now.serial then_.generation now.generation = some (rects, whole) ∧
          damage = (if whole then [now.dst] else []) ++
            rects.map fun r => singles.onto r now (singles.scaled now)) := by
  unfold damageOf at h
  unfold LooksAnew
  split at h
  · cases h
  split at h
  · cases h
  rename_i hSame hOrder
  rw [not_or, Bool.not_eq_false] at hSame
  split at h
  · rename_i hEq
    refine ⟨?_, fun hLt => by omega⟩
    rintro (hZero | hDiffers | hBack | ⟨hLt, -⟩)
    · exact hSame.1 hZero
    · rw [hSame.2] at hDiffers
      cases hDiffers
    · omega
    · omega
  split at h
  · cases h
  rename_i hTurn
  split at h
  · cases h
  rename_i rects whole hBetween
  obtain rfl : _ = damage := Except.ok.inj h
  refine ⟨?_, fun _ => ⟨rects, whole, hBetween, rfl⟩⟩
  rintro (hZero | hDiffers | hBack | ⟨-, hAnew⟩)
  · exact hSame.1 hZero
  · rw [hSame.2] at hDiffers
    cases hDiffers
  · omega
  · exact hTurn hAnew

/-- The damage of all members is that of each. -/
theorem damageOfAll_ok {history : DamageHistory} :
    ∀ {members held : List Member} {damage : List IRect},
      damageOfAll history members held = .ok damage →
      ∀ (i : Nat) (now then_ : Member), members[i]? = some now → held[i]? = some then_ →
        ∃ part, damageOf history now then_ = .ok part ∧ ∀ r ∈ part, r ∈ damage := by
  intro members
  induction members with
  | nil =>
    intro held damage h i now then_ hNow
    cases hNow
  | cons now' members ih =>
    intro held damage h i now then_ hNow hThen
    cases held with
    | nil => cases hThen
    | cons then' held =>
      unfold damageOfAll at h
      split at h
      · cases h
      rename_i part hPart
      split at h
      · cases h
      rename_i rest hRest
      obtain rfl := Except.ok.inj h
      cases i with
      | zero =>
        obtain rfl : now' = now := by simpa using hNow
        obtain rfl : then' = then_ := by simpa using hThen
        exact ⟨part, hPart, fun r hr => List.mem_append_left _ hr⟩
      | succ i =>
        obtain ⟨part', hPart', hIn⟩ := ih hRest i now then_ (by simpa using hNow)
          (by simpa using hThen)
        exact ⟨part', hPart', fun r hr => List.mem_append_right _ (hIn r hr)⟩

/-- A member some of which is on the buffer. -/
def InSight (width height : UInt32) (m : Member) : Prop :=
  ∃ p, onBuffer width height p ∧ inside m.dst p

/-- A pair of members told apart by their frames alone: turned as before and, where a
newer frame is told to have changed, in a buffer whose size fits; and where it is told to
have changed in some rectangles, not turned at all and of a size floats keep. -/
def KeepsTurn (history : DamageHistory) (width height : UInt32) (then_ now : Member) : Prop :=
  now.turned = then_.turned ∧
    (then_.generation < now.generation → ∀ rects whole,
      history.between now.serial then_.generation now.generation = some (rects, whole) →
      (whole = true → SignedSize width height) ∧
        (whole = false → rects ≠ [] →
          now.turned = noTurn ∧ SignedSize width height ∧ FloatSized now))

/-- A pair whose damage was told paints a point alike where it is turned alike and
a newer frame makes no difference to it. -/
theorem paint_of_shade {Texel C : Type} {d : Drawing Texel C} {history : DamageHistory}
    {now then_ : Member} {damage : List IRect}
    (hDamage : damageOf history now then_ = .ok damage) {p : Point}
    (hTurned : inside now.dst p → now.turned = then_.turned)
    (hNewer : inside now.dst p → then_.generation < now.generation → ∀ below,
      d.shade (look now) (d.content now.serial now.generation) p below =
        d.shade (look now) (d.content now.serial then_.generation) p below) :
    d.paint now p = d.paint then_ p := by
  obtain ⟨hAnew, -⟩ := damageOf_ok hDamage
  unfold LooksAnew at hAnew
  simp only [not_or, Bool.not_eq_false, not_and] at hAnew
  obtain ⟨-, hSame, hOrder, -⟩ := hAnew
  obtain ⟨hSerial, -, -, -, hDst, -⟩ := sameButFrame_iff.mp hSame
  funext below
  unfold Drawing.paint
  rw [← hDst, ← hSerial]
  split
  · rename_i hInside
    rw [← look_eq_of_sameButFrame hSame (hTurned hInside)]
    rcases Nat.lt_or_ge then_.generation now.generation with hLt | hGe
    · exact hNewer hInside hLt below
    · have hEq : now.generation = then_.generation := by omega
      rw [hEq]
  · rfl

/-- Where a newer frame's damage was told and none of it lies on a point of the
member, the texels the damage does not name are old ones. -/
theorem newer_unchanged {Texel C : Type} {d : Drawing Texel C} {history : DamageHistory}
    (hTrue : d.Truthful history) {now then_ : Member} {damage : List IRect}
    (hDamage : damageOf history now then_ = .ok damage)
    (hLt : then_.generation < now.generation) {p : Point} (hInside : inside now.dst p)
    (hClear : ¬Covered damage p) :
    now.transform = 0 ∧ ∃ rects,
      history.between now.serial then_.generation now.generation = some (rects, false) ∧
        ∀ q : Point,
          (∀ r ∈ rects, inside r q → inside (singles.onto r now (singles.scaled now)) p) →
          d.content now.serial now.generation q = d.content now.serial then_.generation q := by
  obtain ⟨hAnew, hNewer⟩ := damageOf_ok hDamage
  unfold LooksAnew at hAnew
  simp only [not_or, Bool.not_eq_false, not_and] at hAnew
  obtain ⟨-, -, -, hPlainly⟩ := hAnew
  obtain ⟨rects, whole, hBetween, rfl⟩ := hNewer hLt
  have hWhole : whole = false := by
    cases whole with
    | false => rfl
    | true => exact absurd ⟨now.dst, by simp, hInside⟩ hClear
  rw [hWhole] at hBetween
  refine ⟨not_not.mp (hPlainly hLt).1, rects, hBetween, fun q hReached => ?_⟩
  refine between_unchanged hTrue (Nat.le_of_lt hLt) hBetween ?_
  rintro ⟨r, hr, hDamaged⟩
  refine hClear ⟨singles.onto r now (singles.scaled now), ?_, hReached r hr hDamaged⟩
  exact List.mem_append_right _ (List.mem_map_of_mem hr)

/-- A pair that keeps its turn paints a point alike where no damage was told. -/
theorem paint_alike {Texel C : Type} {d : Drawing Texel C} {history : DamageHistory}
    (hTrue : d.Truthful history) {now then_ : Member} (hUnscaled : Unscaled now)
    {damage : List IRect} (hDamage : damageOf history now then_ = .ok damage)
    {width height : UInt32} {p : Point} (hp : onBuffer width height p)
    (hKeeps : InSight width height now → KeepsTurn history width height then_ now)
    (hClear : SignedSize width height → ¬Covered damage p) : d.paint now p = d.paint then_ p := by
  refine paint_of_shade hDamage (fun hInside => (hKeeps ⟨p, hp, hInside⟩).1)
    fun hInside hLt below => ?_
  obtain ⟨rects, whole, hBetween, hTold⟩ := (damageOf_ok hDamage).2 hLt
  obtain ⟨hWhole, hParts⟩ := (hKeeps ⟨p, hp, hInside⟩).2 hLt rects whole hBetween
  cases whole with
  | true =>
    -- all of the member is damage, the point too
    refine absurd ⟨now.dst, ?_, hInside⟩ (hClear (hWhole rfl))
    rw [hTold]
    simp
  | false =>
    by_cases hNone : rects = []
    · -- told to have changed nowhere, the frame is the old one
      have hSame : d.content now.serial now.generation = d.content now.serial then_.generation := by
        funext q
        refine between_unchanged hTrue (Nat.le_of_lt hLt) hBetween ?_
        rw [hNone]
        rintro ⟨r, hr, -⟩
        cases hr
      rw [hSame]
    · -- a newer frame, of which the texel under the point is an old one
      obtain ⟨hTurn, hSigned, hSized⟩ := hParts rfl hNone
      obtain ⟨hStraight, rects, -, hOld⟩ :=
        newer_unchanged hTrue hDamage hLt hInside (hClear hSigned)
      refine d.plain (look now) ⟨hStraight, hTurn, hUnscaled⟩ _ _ p below ?_
      exact hOld _ fun r _ hTexel => inside_onto hUnscaled hSized hInside hTexel _

-- ---------------------------------------------------------------------------
-- Where the redraw makes the picture
-- ---------------------------------------------------------------------------

/-- The buffers `Decide` has drawn in full before it asks for any damage. -/
def DrawnInFull (held : Snapshot) (width height : UInt32) (members : List Member) : Prop :=
  held.valid = false ∨ held.width ≠ width ∨ held.height ≠ height ∨
    held.members.length ≠ members.length ∨ kMostPartialInARow ≤ held.partialRun ∨
    ∃ (i : Nat) (then_ now : Member), held.members[i]? = some then_ ∧ members[i]? = some now ∧
      LooksAnew then_ now

/-- A pair with a newer frame the history cannot tell the damage of. -/
def Untold (history : DamageHistory) (held : Snapshot) (members : List Member) : Prop :=
  ∃ (i : Nat) (then_ now : Member), held.members[i]? = some then_ ∧ members[i]? = some now ∧
    then_.generation < now.generation ∧
      history.between now.serial then_.generation now.generation = none

/-- Every member that stays in sight keeps its turn. -/
def TurnsKept (history : DamageHistory) (held : Snapshot) (width height : UInt32)
    (members : List Member) : Prop :=
  ∀ (i : Nat) (then_ now : Member), held.members[i]? = some then_ → members[i]? = some now →
    InSight width height now → KeepsTurn history width height then_ now

/-- Outside every place a member has or had, both pictures are clear. -/
theorem picture_clear {Texel C : Type} (d : Drawing Texel C) {members : List Member} {p : Point}
    (h : ∀ m ∈ members, ¬inside m.dst p) : d.picture members p = d.clear := by
  refine compose_untouched fun layer hLayer below => ?_
  obtain ⟨m, hm, rfl⟩ := List.mem_map.mp hLayer
  unfold Drawing.paint
  rw [if_neg (h m hm)]

/-- A full drawing's parts leave alone only what no member touches or touched. -/
theorem gather_leaves_clear {Texel C : Type} (d : Drawing Texel C) {held members : List Member}
    {width height : UInt32} (hSigned : SignedSize width height) {engine : Engine} {p : Point}
    (hp : onBuffer width height p)
    (hLeft : ¬Covered (gather (held.map (·.dst) ++ members.map (·.dst)) (frameOf width height)
      members engine) p) :
    d.picture held p = d.picture members p := by
  have hNone : ¬Covered (held.map (·.dst) ++ members.map (·.dst)) p := fun hCovered =>
    hLeft (gather_covers rfl rfl (inside_frameOf hSigned hp) hCovered)
  rw [picture_clear d fun m hm hInside => hNone ⟨m.dst, ?_, hInside⟩,
    picture_clear d fun m hm hInside => hNone ⟨m.dst, ?_, hInside⟩]
  · exact List.mem_append_right _ (List.mem_map_of_mem hm)
  · exact List.mem_append_left _ (List.mem_map_of_mem hm)

/-- A full drawing leaves alone only what no member touches or touched. -/
theorem full_leaves_clear {Texel C : Type} (d : Drawing Texel C) {held members : List Member}
    {width height : UInt32} {engine : Engine} {why : Char} {p : Point}
    (hp : onBuffer width height p)
    (hLeft : ¬drawnAt ⟨.kFull, why, gather (held.map (·.dst) ++ members.map (·.dst))
      (frameOf width height) members engine⟩ p) :
    d.picture held p = d.picture members p := by
  unfold drawnAt at hLeft
  simp only [ne_eq, reduceCtorEq, not_false_eq_true, true_and, not_or] at hLeft
  obtain ⟨hSome, hUncovered⟩ := hLeft
  have hSigned : SignedSize width height := by
    by_contra hNot
    exact hSome (gather_eq_nil members engine fun r _ => empty_snap_frameOf hNot r)
  exact gather_leaves_clear d hSigned hp hUncovered

/-- Members whose damage was told show a point alike where each pair paints it
alike. -/
theorem picture_of_paint {Texel C : Type} {d : Drawing Texel C} {history : DamageHistory}
    {held members : List Member} (hLength : held.length = members.length)
    {damage : List IRect} (hDamage : damageOfAll history members held = .ok damage) {p : Point}
    (hAlike : ∀ (i : Nat) (then_ now : Member) (part : List IRect), held[i]? = some then_ →
      members[i]? = some now → damageOf history now then_ = .ok part →
      (∀ r ∈ part, r ∈ damage) → d.paint now p = d.paint then_ p) :
    d.picture held p = d.picture members p := by
  refine compose_congr (by simpa using hLength) fun i layer layer' hLayer hLayer' => ?_
  rw [List.getElem?_map] at hLayer hLayer'
  obtain ⟨then_, hThen, rfl⟩ := Option.map_eq_some_iff.mp hLayer
  obtain ⟨now, hNow, rfl⟩ := Option.map_eq_some_iff.mp hLayer'
  obtain ⟨part, hPart, hIn⟩ := damageOfAll_ok hDamage i now then_ hNow hThen
  exact (hAlike i then_ now part hThen hNow hPart hIn).symm

/-- Members that keep their turn show a point alike where no damage was told. -/
theorem picture_alike {Texel C : Type} {d : Drawing Texel C} {history : DamageHistory}
    (hTrue : d.Truthful history) {held members : List Member}
    (hUnscaled : ∀ m ∈ members, Unscaled m) (hLength : held.length = members.length)
    {damage : List IRect} (hDamage : damageOfAll history members held = .ok damage)
    {width height : UInt32} {p : Point} (hp : onBuffer width height p)
    (hKeeps : ∀ (i : Nat) (then_ now : Member), held[i]? = some then_ → members[i]? = some now →
      InSight width height now → KeepsTurn history width height then_ now)
    (hClear : SignedSize width height → ¬Covered damage p) :
    d.picture held p = d.picture members p := by
  refine picture_of_paint hLength hDamage fun i then_ now part hThen hNow hPart hIn => ?_
  refine paint_alike hTrue (hUnscaled now (List.mem_of_getElem? hNow)) hPart hp
    (hKeeps i then_ now hThen hNow) fun hSigned => ?_
  rintro ⟨r, hr, hInside⟩
  exact hClear hSigned ⟨r, hIn r hr, hInside⟩

/-- **Where the redraw makes the picture.** Through every exit of `Decide`, a
buffer that holds the picture of the held members, redrawn inside the plan's
parts, holds the picture of the new ones. -/
theorem decide_redraws {Texel C : Type} {d : Drawing Texel C} {history : DamageHistory}
    (hTrue : d.Truthful history) {held : Snapshot} {width height : UInt32}
    {members : List Member} (hUnscaled : ∀ m ∈ members, Unscaled m) (engine : Engine)
    (hKeeps : DrawnInFull held width height members ∨ Untold history held members ∨
      TurnsKept history held width height members)
    {old : Point → C}
    (hOld : ∀ p, onBuffer width height p → old p = d.picture held.members p) {p : Point}
    (hp : onBuffer width height p) :
    redraw (drawnAt (decide_ held width height members history engine)) (d.picture members) old p
      = d.picture members p := by
  rw [redraw_eq_iff, hOld p hp]
  unfold decide_
  split
  · -- nothing known: all of it is drawn
    intro hLeft
    exact absurd ⟨by simp, .inl ⟨rfl, rfl⟩⟩ hLeft
  rename_i hKnown
  split
  · intro hLeft
    exact absurd ⟨by simp, .inl ⟨rfl, rfl⟩⟩ hLeft
  simp only
  split
  · exact full_leaves_clear d hp
  rename_i hLength
  split
  · exact full_leaves_clear d hp
  rename_i hRun
  split
  · exact full_leaves_clear d hp
  rename_i damage hDamage
  -- damage was told for every member, so the pairs keep their turn
  have hTurns : TurnsKept history held width height members := by
    simp only [not_or, Bool.not_eq_false] at hKnown
    rcases hKeeps with (h | h | h | h | h | ⟨i, then_, now, hThen, hNow, hAnew⟩) |
      ⟨i, then_, now, hThen, hNow, hLt, hUntold⟩ | hTurns
    rotate_right
    · exact hTurns
    all_goals exfalso
    · rw [h] at hKnown
      exact Bool.false_ne_true hKnown.1
    · exact hKnown.2.1 h
    · exact hKnown.2.2 h
    · exact hLength h
    · exact hRun h
    · obtain ⟨part, hPart, -⟩ := damageOfAll_ok hDamage i now then_ hNow hThen
      exact (damageOf_ok hPart).1 hAnew
    · obtain ⟨part, hPart, -⟩ := damageOfAll_ok hDamage i now then_ hNow hThen
      obtain ⟨rects, whole, hBetween, -⟩ := (damageOf_ok hPart).2 hLt
      rw [hUntold] at hBetween
      cases hBetween
  have hAlike := picture_alike hTrue hUnscaled (by omega : held.members.length = members.length)
    hDamage hp hTurns
  have hGathered : ∀ hSigned : SignedSize width height, Covered damage p →
      Covered (gather damage (frameOf width height) members engine) p := fun hSigned =>
    gather_covers rfl rfl (inside_frameOf hSigned hp)
  split
  · -- nothing the buffer shows has changed
    rename_i hNone
    rw [hNone] at hGathered
    intro _
    refine hAlike fun hSigned hCovered => ?_
    obtain ⟨r, hr, -⟩ := hGathered hSigned hCovered
    cases hr
  split
  · exact full_leaves_clear d hp
  · intro hLeft
    unfold drawnAt at hLeft
    simp only [ne_eq, reduceCtorEq, not_false_eq_true, true_and, false_and, false_or] at hLeft
    exact hAlike fun hSigned hCovered => hLeft (hGathered hSigned hCovered)

-- ---------------------------------------------------------------------------
-- Where it does not
-- ---------------------------------------------------------------------------

/-- A buffer that holds the picture of the held members, redrawn by the plan, holds that
of the new ones: whatever members look like, where the history is true of it. -/
def RedrawsRight (held : Snapshot) (width height : UInt32) (members : List Member)
    (history : DamageHistory) (engine : Engine) : Prop :=
  ∀ (Texel C : Type) (d : Drawing Texel C) (old : Point → C), d.Truthful history →
    (∀ p, onBuffer width height p → old p = d.picture held.members p) →
    ∀ p, onBuffer width height p →
      redraw (drawnAt (decide_ held width height members history engine)) (d.picture members) old
        p = d.picture members p

/-- A drawing that hides nothing: each member over a point leaves its look. -/
def named : Drawing Unit (List Member) where
  content _ _ _ := ()
  shade m _ _ below := below ++ [m]
  clear := []
  plain _ _ _ _ _ _ _ := rfl

/-- Its picture lists the members over a point. -/
theorem picture_named (p : Point) (members : List Member) :
    named.picture members p = (members.filter fun m => inside m.dst p).map look := by
  have hGround : ∀ (ms : List Member) (ground : List Member),
      compose (ms.map named.paint) ground p
        = ground ++ (ms.filter fun m => inside m.dst p).map look := by
    intro ms
    induction ms with
    | nil => simp
    | cons m ms ih =>
      intro ground
      rw [List.map_cons, compose_cons, ih]
      unfold Drawing.paint
      by_cases hInside : inside m.dst p
      · rw [if_pos hInside, List.filter_cons_of_pos (by simpa using hInside), List.map_cons]
        show (ground ++ [look m]) ++ _ = _
        rw [List.append_assoc]
        rfl
      · rw [if_neg hInside, List.filter_cons_of_neg (by simpa using hInside)]
  exact hGround members []

/-- Lists that keep the same positions and agree on what is kept agree at each
of them. -/
theorem eq_of_kept {α β : Type} {f : α → β} {keep : α → Prop} [DecidablePred keep] :
    ∀ {as bs : List α}, as.length = bs.length →
      (∀ (i : Nat) (a b : α), as[i]? = some a → bs[i]? = some b → (keep a ↔ keep b)) →
      (as.filter fun a => keep a).map f = (bs.filter fun b => keep b).map f →
      ∀ (i : Nat) (a b : α), as[i]? = some a → bs[i]? = some b → keep a → f a = f b := by
  intro as
  induction as with
  | nil =>
    intro bs _ _ _ i a b ha
    cases ha
  | cons a' as ih =>
    intro bs hLength hKeep hEq i a b ha hb hKept
    cases bs with
    | nil => cases hLength
    | cons b' bs =>
      have hFirst := hKeep 0 a' b' rfl rfl
      have hRest := @ih bs (by simpa using hLength) fun j x y hx hy =>
        hKeep (j + 1) x y (by simpa using hx) (by simpa using hy)
      by_cases hk : keep a'
      · rw [List.filter_cons_of_pos (by simpa using hk),
          List.filter_cons_of_pos (by simpa using hFirst.mp hk), List.map_cons, List.map_cons]
          at hEq
        injection hEq with hHead hTail
        cases i with
        | zero =>
          obtain rfl : a' = a := by simpa using ha
          obtain rfl : b' = b := by simpa using hb
          exact hHead
        | succ i => exact hRest hTail i a b (by simpa using ha) (by simpa using hb) hKept
      · rw [List.filter_cons_of_neg (by simpa using hk),
          List.filter_cons_of_neg (by simpa using fun h => hk (hFirst.mpr h))] at hEq
        cases i with
        | zero =>
          obtain rfl : a' = a := by simpa using ha
          exact absurd hKept hk
        | succ i => exact hRest hEq i a b (by simpa using ha) (by simpa using hb) hKept

/-- A history in which every frame of these members changed a rectangle of no pixels. -/
def told (members : List Member) (newest : Nat) : DamageHistory where
  layers := members.map fun m => ⟨m.serial, (List.range (newest + 1)).map (⟨·, [⟨0, 0, 0, 0⟩]⟩), 0⟩

/-- What no frame changed, and all frames asked for known, has not changed. -/
theorem collect_told {newest : Nat} :
    ∀ (gs : List Nat) (rects : List IRect), (∀ g ∈ gs, g ≤ newest) →
      DamageHistory.collect ((List.range (newest + 1)).map (⟨·, [⟨0, 0, 0, 0⟩]⟩)) gs rects
        = some (rects, false) := by
  intro gs
  induction gs with
  | nil =>
    intro rects _
    rfl
  | cons g gs ih =>
    intro rects hKnown
    have hg := hKnown g (by simp)
    unfold DamageHistory.collect
    split
    · rename_i hNone
      have hMiss := List.find?_eq_none.mp hNone ⟨g, [⟨0, 0, 0, 0⟩]⟩
        (List.mem_map_of_mem (List.mem_range.mpr (by omega)))
      simp at hMiss
    rename_i f hFound
    obtain ⟨-, -, rfl⟩ := List.mem_map.mp (List.mem_of_find?_eq_some hFound)
    rw [if_neg (by simp), ih _ fun g' hg' => hKnown g' (by simp [hg'])]
    simp [empty]

/-- What such a history answers for a member it knows. -/
theorem between_told {members : List Member} {newest : Nat} {m : Member} (hm : m ∈ members)
    (from_ : Nat) {upTo : Nat} (hNewest : upTo ≤ newest) :
    (told members newest).between m.serial from_ upTo = some ([], false) := by
  unfold DamageHistory.between DamageHistory.find
  split
  · rename_i hNone
    have hMiss := List.find?_eq_none.mp hNone _ (List.mem_map_of_mem hm)
    simp at hMiss
  · rename_i l hFound
    obtain ⟨m', -, rfl⟩ := List.mem_map.mp (List.mem_of_find?_eq_some hFound)
    refine collect_told _ [] fun g hg => ?_
    rw [List.mem_range'_1] at hg
    omega

/-- It tells no damage of a pair no redraw in full is tried for. -/
theorem damageOf_told {members : List Member} {newest : Nat} {now then_ : Member}
    (hNow : now ∈ members) (hNewest : now.generation ≤ newest) (hAnew : ¬LooksAnew then_ now) :
    damageOf (told members newest) now then_ = .ok [] := by
  unfold LooksAnew at hAnew
  simp only [not_or, Bool.not_eq_false, not_and, Nat.not_lt] at hAnew
  obtain ⟨hSerial, hSame, hOrder, hTurn⟩ := hAnew
  unfold damageOf
  rw [if_neg (by simp [hSerial, hSame]), if_neg (by omega)]
  split
  · rfl
  rename_i hDiffers
  obtain ⟨hTransform, hWidth, hHeight⟩ := hTurn (by omega)
  rw [if_neg (by simp only [not_or]; exact ⟨hTransform, hWidth, hHeight⟩),
    between_told hNow then_.generation hNewest]
  rfl

/-- Members none of which has any damage have none. -/
theorem damageOfAll_none {history : DamageHistory} :
    ∀ {members held : List Member},
      (∀ (i : Nat) (then_ now : Member), held[i]? = some then_ → members[i]? = some now →
        damageOf history now then_ = .ok []) → damageOfAll history members held = .ok [] := by
  intro members
  induction members with
  | nil => simp [damageOfAll]
  | cons now members ih =>
    intro held hEach
    cases held with
    | nil => simp [damageOfAll]
    | cons then_ held =>
      unfold damageOfAll
      rw [hEach 0 then_ now rfl rfl, @ih held fun i a b ha hb =>
        hEach (i + 1) a b (by simpa using ha) (by simpa using hb)]
      rfl

/-- Some member that stays in sight is turned otherwise than before. -/
def TurnsAway (held : Snapshot) (width height : UInt32) (members : List Member) : Prop :=
  ∃ (i : Nat) (then_ now : Member), held.members[i]? = some then_ ∧ members[i]? = some now ∧
    InSight width height now ∧ now.turned ≠ then_.turned

/-- A buffer no redraw of which is tried, with a member turned otherwise, shows it as it
was turned before. -/
theorem not_redrawsRight {held : Snapshot} {width height : UInt32} {members : List Member}
    {history : DamageHistory} {engine : Engine} (hTrue : named.Truthful history)
    (hFull : ¬DrawnInFull held width height members) (hTurns : TurnsAway held width height members)
    (hPlan : decide_ held width height members history engine = ⟨.kUnchanged, 'n', []⟩) :
    ¬RedrawsRight held width height members history engine := by
  unfold DrawnInFull at hFull
  simp only [not_or, Bool.not_eq_false, ne_eq, not_not, Nat.not_le, not_exists, not_and] at hFull
  obtain ⟨-, -, -, hLength, -, hAnew⟩ := hFull
  obtain ⟨j, then_, now, hThen, hNow, ⟨p, hp, hInside⟩, hTurn⟩ := hTurns
  intro hRight
  have hStale := hRight Unit (List Member) named (named.picture held.members) hTrue
    (fun _ _ => rfl) p hp
  rw [hPlan, redraw_eq_iff] at hStale
  have hSame := hStale (by simp [drawnAt])
  rw [picture_named, picture_named] at hSame
  have hDst : ∀ (i : Nat) (a b : Member), held.members[i]? = some a → members[i]? = some b →
      (inside a.dst p ↔ inside b.dst p) := by
    intro i a b ha hb
    have hPair := hAnew i a b ha hb
    unfold LooksAnew at hPair
    simp only [not_or, Bool.not_eq_false] at hPair
    rw [(sameButFrame_iff.mp hPair.2.1).2.2.2.2.1]
  have hLook := eq_of_kept hLength hDst hSame j then_ now hThen hNow
    ((hDst j then_ now hThen hNow).mpr hInside)
  have hTurned : (look then_).turned = (look now).turned := by rw [hLook]
  exact hTurn hTurned.symm

/-- **And where it does not.** Where no exit of `Decide` draws in full, a member turned
otherwise is missed with a history that tells of no changed pixel. -/
theorem decide_misses {held : Snapshot} {width height : UInt32} {members : List Member}
    (hFull : ¬DrawnInFull held width height members)
    (hTurns : TurnsAway held width height members) :
    ∃ history, ∀ engine, engine.drawsScaledInPart = true →
      ¬RedrawsRight held width height members history engine := by
  obtain ⟨newest, hNewest⟩ : ∃ newest, ∀ m ∈ members, m.generation ≤ newest :=
    ⟨(members.map (·.generation)).foldr max ⊥, fun m hm =>
      List.le_max_of_le (List.mem_map_of_mem hm) le_rfl⟩
  refine ⟨told members newest, fun engine hEngine => ?_⟩
  refine not_redrawsRight (fun _ _ _ _ _ _ _ => rfl) hFull hTurns ?_
  unfold DrawnInFull at hFull
  simp only [not_or, Bool.not_eq_false, ne_eq, not_not, Nat.not_le, not_exists, not_and] at hFull
  obtain ⟨hValid, hWidth, hHeight, hLength, hRun, hAnew⟩ := hFull
  have hNone : damageOfAll (told members newest) members held.members = .ok [] :=
    damageOfAll_none fun i a b ha hb =>
      damageOf_told (List.mem_of_getElem? hb) (hNewest b (List.mem_of_getElem? hb))
        (hAnew i a b ha hb)
  unfold decide_
  rw [if_neg (by simp [hValid, hWidth, hHeight]), if_neg (by simp [hEngine])]
  simp only
  rw [if_neg (by simp [hLength]), if_neg (by omega), hNone]
  rfl

-- ---------------------------------------------------------------------------
-- The two together
-- ---------------------------------------------------------------------------

/-- What the source adds to a place's edges, and takes from each other, fits an
`int32_t`. -/
def EdgesFit (r : IRect) : Prop :=
  r.right + kColumnGrain ≤ 2 ^ 31 ∧ r.bottom + kRowGrain ≤ 2 ^ 31 ∧ r.width < 2 ^ 31 ∧
    r.height < 2 ^ 31

/-- A buffer `Decide` redraws as it should: nothing is known of it; or the edges of its
members fit, and some exit draws it in full before any damage is mapped, or every member
that stays in sight keeps its turn. -/
def Redrawable (history : DamageHistory) (held : Snapshot) (width height : UInt32)
    (members : List Member) : Prop :=
  (held.valid = false ∨ held.width ≠ width ∨ held.height ≠ height) ∨
    (∀ m ∈ held.members ++ members, EdgesFit m.dst) ∧
      (DrawnInFull held width height members ∨ Untold history held members ∨
        TurnsKept history held width height members)

/-- A layer of fifty pixels by fifty, under the turn given, showing this frame. -/
def tile (turned : List Rat) (generation : Nat) : Member :=
  { source := 1, generation := generation, serial := 1, src := ⟨0, 0, 50, 50⟩,
    dst := ⟨0, 0, 50, 50⟩, turned := turned }

/-- A buffer that holds it alone. -/
def holding (m : Member) : Snapshot :=
  { valid := true, width := 64, height := 64, members := [m] }

/-- A history that tells of one rectangle of its second frame. -/
def secondFrame : DamageHistory where
  layers := [{ serial := 1, frames := [⟨2, [⟨3, 3, 7, 9⟩]⟩] }]

/-- The tile turned one way, with its top-left, top-right and bottom-left
corners where they land. -/
def turnedRight : List Rat := [10, 0, 50, 10, 0, 40]

/-- And the other way, in the same box. -/
def turnedLeft : List Rat := [0, 10, 40, 0, 10, 50]

end TegraHwc.PartialRedraw
