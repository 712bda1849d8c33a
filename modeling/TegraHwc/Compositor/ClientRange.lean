import TegraHwc.Compositor.GenericCompositionPlanner
import Mathlib.Algebra.Order.BigOperators.Group.List
import Mathlib.Data.Finset.Max
import Mathlib.Data.Prod.Lex
import Mathlib.Order.Interval.Finset.Nat

/-!
# TegraHwc — the client's range, grown

What `GetExtraClientRange` of `compositor/GenericCompositionPlanner.cpp` is to
answer: the least of the windows that hold the client's layers and leave the
planes no more than they take. Planes and layers are whole numbers here and
pixels are counted without bound; the source counts in words.

## Results

* `slide_eq_iff` — where the search of the windows ends.
* `places_searched` — it tries every window that may be answered, and no other.
* `getExtraClientRange_least_iff` — where every window's pixels fit a word, the
  answer is the least window exactly when no count wraps.
* `ExtraClient.answers_iff` — and past a word it turns on how the sums wrap.
-/

namespace TegraHwc.GenericCompositionPlanner

/-- What `GetExtraClientRange` is asked: a range of the layers counted, where
an empty one starts at nought, and a cursor's plane only for a cursor on top. -/
structure ExtraClient (layers : List Entry) where
  clientStart : Nat
  clientSize : Nat
  useCursorPlane : Bool
  forcedExtraClient : Nat
  inside : clientStart + clientSize ≤
    if useCursorPlane then layers.length - 1 else layers.length
  empty : clientSize = 0 → clientStart = 0
  top : useCursorPlane = true → topIsCursor layers = true
  layersFit : layers.length ≤ sizeMax
  forcedFits : forcedExtraClient ≤ sizeMax

/-- The pixels a layer covers, without bound. -/
def pixelCount (d : ICompositorDisplay) (e : Entry) : Int :=
  match e.layer.layerData.pi.displayFrame with
  | some r => r.width * r.height
  | none => d.size.1 * d.size.2

/-- The pixels of a window's layers. -/
def pixels (d : ICompositorDisplay) (layers : List Entry) (firstZ size : Nat) : Int :=
  (((layers.drop firstZ).take size).map (pixelCount d)).sum

/-- The place of the least cost, the lowest of them. -/
structure LeastPlace (place : Nat → Prop) (cost : Nat → Int) (first : Nat) : Prop where
  isPlace : place first
  least : ∀ other, place other →
    cost first < cost other ∨ cost first = cost other ∧ first ≤ other

/-- The sums as words tell the place: it comes first among the least of them,
below the greatest word; or none is below that and the search stays where it
began. -/
def WordsTell (place : Nat → Prop) (word : Nat → UInt32) (begun first : Nat) : Prop :=
  (place first ∧ (word first).toNat < 2 ^ 32 - 1 ∧ ∀ other, place other →
      (other < first → (word first).toNat < (word other).toNat) ∧
        (first < other → (word first).toNat ≤ (word other).toNat)) ∨
    (first = begun ∧ ∀ other, place other → (word other).toNat = 2 ^ 32 - 1)

namespace ExtraClient

variable (d : ICompositorDisplay) {layers : List Entry} (q : ExtraClient layers)

/-- What the source answers. -/
def answer : Nat × Nat :=
  getExtraClientRange d layers q.clientStart q.clientSize q.useCursorPlane q.forcedExtraClient

/-- The layers that may go to the planes: all but a cursor on its own plane. -/
def stacked : Nat := if q.useCursorPlane then layers.length - 1 else layers.length

/-- A cursor above the client's range that is left to the other planes. -/
def CursorAbove : Prop :=
  q.useCursorPlane = false ∧ q.clientStart + q.clientSize < layers.length ∧
    topIsCursor layers = true

instance : Decidable q.CursorAbove := inferInstanceAs (Decidable (_ ∧ _))

/-- The planes to spare: with too few of them one is the client target's. -/
def spare : Nat :=
  if d.numAvailablePlanes < q.stacked then d.numAvailablePlanes - 1 else d.numAvailablePlanes

/-- The budget, and the layers it is for: a cursor above the range keeps a
plane while there is one. -/
def budget : Nat × Nat :=
  if q.CursorAbove ∧ 0 < q.spare d then (q.spare d - 1, q.stacked - 1)
  else (q.spare d, q.stacked)

/-- A window that holds the range. -/
def Place (size first : Nat) : Prop :=
  first + size ≤ (q.budget d).2 ∧
    ∀ z, InRange (q.clientStart, q.clientSize) z → InRange (first, size) z

/-- What the answer is to be: a window of the layers counted that holds the
range and leaves out no more than the budget, the least of its size. -/
structure Answers (range : Nat × Nat) : Prop where
  withinBudget : (q.budget d).2 - range.2 ≤ (q.budget d).1
  least : LeastPlace (q.Place d range.2) (fun first => pixels d layers first range.2) range.1

/-- How many layers the planes cannot take. -/
def needed : Nat := (q.budget d).2 - q.clientSize - (q.budget d).1

/-- How large the range is to grow. -/
def wanted : Nat :=
  q.clientSize + min (q.needed d + q.forcedExtraClient) ((q.budget d).2 - q.clientSize)

/-- No count wraps: there is a plane, and the growth is a `size_t`; or with no
plane at all the whole stack is the client's, or is forced to be. -/
def CountsHold : Prop :=
  if d.numAvailablePlanes = 0 ∧ 0 < q.stacked then
    q.clientSize = q.stacked ∨
      ¬q.CursorAbove ∧ q.stacked ≤ q.clientSize + q.forcedExtraClient
  else q.needed d + q.forcedExtraClient ≤ sizeMax

instance : Decidable (q.CountsHold d) := by unfold CountsHold; infer_instance

/-- No window's pixels are too many for a word, nor the greatest word. -/
def SumsFit : Prop :=
  ∀ first, q.Place d (q.wanted d) first →
    0 ≤ pixels d layers first (q.wanted d) ∧ pixels d layers first (q.wanted d) < 2 ^ 32 - 1

/-- The pixels counted in words tell the least window. -/
def PixelsTell : Prop :=
  ∀ first, LeastPlace (q.Place d (q.wanted d)) (fun z => pixels d layers z (q.wanted d)) first →
    WordsTell (q.Place d (q.wanted d)) (fun z => calcPixOps d layers z (q.wanted d))
      q.clientStart first

end ExtraClient

-- ---------------------------------------------------------------------------
-- Where the search ends
-- ---------------------------------------------------------------------------

theorem LeastPlace.unique {place : Nat → Prop} {cost : Nat → Int} {a b : Nat}
    (ha : LeastPlace place cost a) (hb : LeastPlace place cost b) : a = b := by
  have hab := ha.least b hb.isPlace
  have hba := hb.least a ha.isPlace
  omega

/-- Of the places from one on there is a least. -/
theorem exists_leastPlace {place : Nat → Prop} (cost : Nat → Int) {start steps : Nat}
    (hPlace : ∀ first, place first ↔ start ≤ first ∧ first < start + steps) (hSteps : 0 < steps) :
    ∃ first, LeastPlace place cost first := by
  obtain ⟨first, hFirst, hLeast⟩ := Finset.exists_min_image (Finset.Ico start (start + steps))
    (fun z => toLex (cost z, z)) ⟨start, Finset.mem_Ico.mpr ⟨le_refl _, by omega⟩⟩
  refine ⟨first, (hPlace first).mpr (Finset.mem_Ico.mp hFirst), fun other hOther => ?_⟩
  exact Prod.Lex.toLex_le_toLex.mp (hLeast other (Finset.mem_Ico.mpr ((hPlace other).mp hOther)))

/-- The words tell one place at most. -/
theorem WordsTell.unique {place : Nat → Prop} {word : Nat → UInt32} {begun a b : Nat}
    (ha : WordsTell place word begun a) (hb : WordsTell place word begun b) : a = b := by
  rcases ha with ⟨hPlaceA, hLtA, hLeastA⟩ | ⟨rfl, hNoneA⟩
  · rcases hb with ⟨hPlaceB, hLtB, hLeastB⟩ | ⟨rfl, hNoneB⟩
    · have hA := hLeastA b hPlaceB
      have hB := hLeastB a hPlaceA
      omega
    · have hB := hNoneB a hPlaceA
      omega
  · rcases hb with ⟨hPlaceB, hLtB, -⟩ | ⟨rfl, -⟩
    · have hA := hNoneA b hPlaceB
      omega
    · rfl

/-- What the search has found after some of the windows. -/
theorem slide_found (d : ICompositorDisplay) (layers : List Entry)
    (clientStart size start steps : Nat) :
    let word := fun i => calcPixOps d layers (start + i) size
    let best := (List.range steps).foldl
      (fun best i => if word i < best.1 then (word i, start + i) else best)
      ((0xFFFFFFFF : UInt32), clientStart)
    (best = (0xFFFFFFFF, clientStart) ∧ ∀ i < steps, (word i).toNat = 2 ^ 32 - 1) ∨
      ∃ k < steps, best = (word k, start + k) ∧ (word k).toNat < 2 ^ 32 - 1 ∧
        ∀ i < steps, (i < k → (word k).toNat < (word i).toNat) ∧
          (k < i → (word k).toNat ≤ (word i).toNat) := by
  intro word
  induction steps with
  | zero => exact .inl ⟨rfl, fun i hi => absurd hi (Nat.not_lt_zero i)⟩
  | succ n ih =>
    have hWord := (word n).toNat_lt
    have hTop : (0xFFFFFFFF : UInt32).toNat = 2 ^ 32 - 1 := rfl
    simp only [List.range_succ, List.foldl_append, List.foldl_cons, List.foldl_nil]
    rcases ih with ⟨hBest, hNone⟩ | ⟨k, hk, hBest, hLt, hLeast⟩
    · rw [hBest]
      by_cases hn : word n < 0xFFFFFFFF
      · refine .inr ⟨n, Nat.lt_succ_self n, if_pos hn, ?_, fun i hi => ⟨fun hin => ?_, ?_⟩⟩
        · rw [UInt32.lt_iff_toNat_lt] at hn
          omega
        · rw [UInt32.lt_iff_toNat_lt] at hn
          have := hNone i hin
          omega
        · omega
      · refine .inl ⟨if_neg hn, fun i hi => ?_⟩
        rw [UInt32.lt_iff_toNat_lt] at hn
        rcases Nat.lt_succ_iff_lt_or_eq.mp hi with hi | rfl
        · exact hNone i hi
        · omega
    · rw [hBest]
      by_cases hn : word n < word k
      · rw [if_pos hn]
        rw [UInt32.lt_iff_toNat_lt] at hn
        refine .inr ⟨n, Nat.lt_succ_self n, rfl, by omega, fun i hi => ⟨fun hin => ?_, by omega⟩⟩
        -- what was the least so far is below every window tried
        have hi := hLeast i hin
        rcases Nat.lt_trichotomy i k with hik | rfl | hki
        · have := hi.1 hik
          omega
        · omega
        · have := hi.2 hki
          omega
      · refine .inr ⟨k, Nat.lt_succ_of_lt hk, if_neg hn, hLt, fun i hi => ?_⟩
        rw [UInt32.lt_iff_toNat_lt] at hn
        rcases Nat.lt_succ_iff_lt_or_eq.mp hi with hi | rfl
        · exact hLeast i hi
        · exact ⟨by omega, by omega⟩

/-- **Where the search ends**: at the place the words tell. -/
theorem slide_eq_iff {d : ICompositorDisplay} {layers : List Entry} {place : Nat → Prop}
    {clientStart size start steps first : Nat}
    (hPlace : ∀ z, place z ↔ start ≤ z ∧ z < start + steps) :
    slide d layers clientStart size start steps = first ↔
      WordsTell place (fun z => calcPixOps d layers z size) clientStart first := by
  have hTells : WordsTell place (fun z => calcPixOps d layers z size) clientStart
      (slide d layers clientStart size start steps) := by
    have hOffset : ∀ {z}, place z → ∃ i < steps, z = start + i := by
      intro z hz
      obtain ⟨hFrom, hTo⟩ := (hPlace z).mp hz
      exact ⟨z - start, by omega, by omega⟩
    unfold slide
    rcases slide_found d layers clientStart size start steps with ⟨hBest, hNone⟩ |
      ⟨k, hk, hBest, hLt, hLeast⟩
    · refine .inr ⟨congrArg Prod.snd hBest, fun other hOther => ?_⟩
      obtain ⟨i, hi, rfl⟩ := hOffset hOther
      exact hNone i hi
    · have hSecond := congrArg Prod.snd hBest
      simp only at hSecond ⊢
      rw [hSecond]
      refine .inl ⟨(hPlace _).mpr ⟨by omega, by omega⟩, hLt, fun other hOther => ?_⟩
      obtain ⟨i, hi, rfl⟩ := hOffset hOther
      have hAt := hLeast i hi
      exact ⟨fun h => hAt.1 (by omega), fun h => hAt.2 (by omega)⟩
  constructor
  · rintro rfl
    exact hTells
  · exact hTells.unique

-- ---------------------------------------------------------------------------
-- The windows tried
-- ---------------------------------------------------------------------------

/-- A window holds a range that is not empty where it reaches over its ends. -/
theorem holds_iff {start size first width : Nat} (hSize : 0 < size) :
    (∀ z, InRange (start, size) z → InRange (first, width) z) ↔
      first ≤ start ∧ start + size ≤ first + width := by
  unfold InRange
  simp only
  constructor
  · intro h
    have hFrom := h start (by omega)
    have hTo := h (start + size - 1) (by omega)
    omega
  · intro h z hz
    omega

namespace ExtraClient

variable {d : ICompositorDisplay} {layers : List Entry} (q : ExtraClient layers)

/-- The budget is for layers that the range lies within. -/
theorem inside_budget : q.clientStart + q.clientSize ≤ (q.budget d).2 := by
  have hInside := q.inside
  unfold budget
  split
  · rename_i hKept
    obtain ⟨⟨hUse, hAbove, -⟩, -⟩ := hKept
    simp only [stacked, hUse, Bool.false_eq_true, if_false]
    omega
  · exact hInside

/-- What the source counts, in these words: its planes to spare may have wrapped. -/
theorem counted_eq :
    counted d layers q.clientStart q.clientSize q.useCursorPlane =
      let spare :=
        if d.numAvailablePlanes < q.stacked then lessOne d.numAvailablePlanes
        else d.numAvailablePlanes
      if q.CursorAbove ∧ 0 < spare then (spare - 1, q.stacked - 1) else (spare, q.stacked) := by
  have hKept : ∀ spare : Nat, (q.useCursorPlane = false ∧ 0 < spare ∧ 0 < q.stacked ∧
      q.clientStart + q.clientSize < q.stacked ∧ topIsCursor layers = true) ↔
      q.CursorAbove ∧ 0 < spare := by
    intro spare
    unfold CursorAbove stacked
    constructor
    · rintro ⟨hUse, hSpare, -, hAbove, hTop⟩
      rw [hUse] at hAbove
      exact ⟨⟨hUse, hAbove, hTop⟩, hSpare⟩
    · rintro ⟨⟨hUse, hAbove, hTop⟩, hSpare⟩
      rw [hUse]
      exact ⟨rfl, hSpare, Nat.lt_of_le_of_lt (Nat.zero_le _) hAbove, hAbove, hTop⟩
  exact if_congr (hKept _) rfl rfl

/-- With a plane, or without a layer, the source counts the budget. -/
theorem counted_eq_budget (h : ¬(d.numAvailablePlanes = 0 ∧ 0 < q.stacked)) :
    counted d layers q.clientStart q.clientSize q.useCursorPlane = q.budget d := by
  have hSpare : (if d.numAvailablePlanes < q.stacked then lessOne d.numAvailablePlanes
      else d.numAvailablePlanes) = q.spare d := by
    unfold spare
    split
    · exact if_neg (by omega)
    · rfl
  rw [counted_eq, hSpare]
  rfl

/-- With none the planes to spare turn to the greatest count. -/
theorem counted_of_none (h : d.numAvailablePlanes = 0 ∧ 0 < q.stacked) :
    counted d layers q.clientStart q.clientSize q.useCursorPlane =
      if q.CursorAbove then (sizeMax - 1, q.stacked - 1) else (sizeMax, q.stacked) := by
  have hSpare : (if d.numAvailablePlanes < q.stacked then lessOne d.numAvailablePlanes
      else d.numAvailablePlanes) = sizeMax := by
    rw [if_pos (by omega), h.1]
    rfl
  have hMany : 0 < sizeMax := by decide
  rw [counted_eq, hSpare]
  simp only [hMany, and_true]

/-- And the budget is nought, with the whole stack to be drawn. -/
theorem budget_of_none (h : d.numAvailablePlanes = 0 ∧ 0 < q.stacked) :
    q.budget d = (0, q.stacked) := by
  have hSpare : q.spare d = 0 := by
    unfold spare
    rw [if_pos (by omega)]
    omega
  unfold budget
  rw [hSpare, if_neg (by omega)]

/-- The windows that may be answered, in numbers. -/
theorem place_iff {size : Nat} (hSize : q.clientSize ≤ size) (hFits : size ≤ (q.budget d).2)
    (first : Nat) :
    q.Place d size first ↔
      (if q.clientSize = 0 then 0 else q.clientStart - (size - q.clientSize)) ≤ first ∧
        first ≤ (if q.clientSize = 0 then (q.budget d).2 - size
          else min q.clientStart ((q.budget d).2 - size)) := by
  unfold Place
  split
  · rename_i hEmpty
    have hNone : ∀ z, InRange (q.clientStart, q.clientSize) z → InRange (first, size) z := by
      intro z hz
      unfold InRange at hz
      simp only at hz
      omega
    constructor
    · rintro ⟨hIn, -⟩
      omega
    · intro hFirst
      exact ⟨by omega, hNone⟩
  · rename_i hSome
    rw [holds_iff (Nat.pos_of_ne_zero hSome)]
    omega

/-- How many windows the source counts its steps to be. It starts as far below the
range as the growth goes, or at the bottom where that is nearer. -/
theorem steps_eq {start size layersSize : Nat} (hInside : start + size ≤ layersSize)
    (extra : Nat) :
    1 + min (min (min (layersSize - (start + size)) extra) (min start extra))
        (layersSize - (start - extra + (size + extra))) =
      min start (layersSize - (size + extra)) + 1 - (start - extra) := by
  rcases le_total extra start with hAbove | hBottom
  · have hEnd : layersSize - (start - extra + (size + extra)) = layersSize - (start + size) := by
      omega
    rw [hEnd, min_eq_right hAbove]
    omega
  · have hFirst : start - extra = 0 := Nat.sub_eq_zero_of_le hBottom
    rw [hFirst, min_eq_left hBottom]
    omega

/-- **The windows tried.** However the planes were counted, the search tries the
windows of the layers counted that hold the range, from the lowest to the highest. -/
theorem answer_eq {availPlanes layersSize : Nat}
    (hCounted : counted d layers q.clientStart q.clientSize q.useCursorPlane =
      (availPlanes, layersSize)) (hInside : q.clientStart + q.clientSize ≤ layersSize) :
    let extra := min ((layersSize - q.clientSize - availPlanes + q.forcedExtraClient) %
      (sizeMax + 1)) (layersSize - q.clientSize)
    let start := if q.clientSize = 0 then 0 else q.clientStart - extra
    let last := if q.clientSize = 0 then layersSize - (q.clientSize + extra)
      else min q.clientStart (layersSize - (q.clientSize + extra))
    q.answer d =
      if (availPlanes < layersSize - q.clientSize ∨ 0 < q.forcedExtraClient) ∧
          q.clientSize < layersSize then
        (slide d layers q.clientStart (q.clientSize + extra) start (last + 1 - start),
          q.clientSize + extra)
      else (q.clientStart, q.clientSize) := by
  have hNeeded : (if availPlanes < layersSize - q.clientSize then
      layersSize - q.clientSize - availPlanes else 0) =
        layersSize - q.clientSize - availPlanes := by
    split <;> omega
  unfold answer getExtraClientRange
  rw [hCounted]
  simp only [hNeeded]
  have hExtra := Nat.min_le_right ((layersSize - q.clientSize - availPlanes +
    q.forcedExtraClient) % (sizeMax + 1)) (layersSize - q.clientSize)
  generalize min ((layersSize - q.clientSize - availPlanes + q.forcedExtraClient) %
    (sizeMax + 1)) (layersSize - q.clientSize) = extra at hExtra ⊢
  by_cases hSearch : (availPlanes < layersSize - q.clientSize ∨ 0 < q.forcedExtraClient) ∧
      q.clientSize < layersSize
  · rw [if_pos hSearch, if_pos hSearch]
    by_cases hEmpty : q.clientSize = 0
    · have hSteps : 1 + layersSize - extra = layersSize - (q.clientSize + extra) + 1 - 0 := by
        omega
      rw [if_neg (by omega), if_pos hEmpty, if_pos hEmpty, hSteps, hEmpty, Nat.zero_add]
    · have hStart : q.clientStart - min q.clientStart extra = q.clientStart - extra := by omega
      rw [if_pos hEmpty, if_neg hEmpty, if_neg hEmpty, hStart, steps_eq hInside extra]
  · rw [if_neg hSearch, if_neg hSearch]

theorem inside_counted {availPlanes layersSize : Nat}
    (hCounted : counted d layers q.clientStart q.clientSize q.useCursorPlane =
      (availPlanes, layersSize)) : q.clientStart + q.clientSize ≤ layersSize := by
  have hRoom := counted_room (d := d) q.inside
  rwa [hCounted] at hRoom

/-- The range grown as wanted leaves the planes no more than their budget. -/
theorem wanted_withinBudget : (q.budget d).2 - q.wanted d ≤ (q.budget d).1 := by
  unfold wanted needed
  omega

theorem wanted_le : q.wanted d ≤ (q.budget d).2 := by
  have hInside := q.inside_budget (d := d)
  unfold wanted
  omega

theorem le_wanted : q.clientSize ≤ q.wanted d := Nat.le_add_right _ _

theorem stacked_le : q.stacked ≤ sizeMax := by
  have hFit := q.layersFit
  unfold stacked
  split <;> omega

theorem budget_le : (q.budget d).2 ≤ q.stacked := by
  unfold budget
  split
  · exact Nat.sub_le _ _
  · exact le_refl _

/-- A sum that wraps is below what was added to. -/
theorem wrapped_lt {a b greatest : Nat} (ha : a ≤ greatest) (hb : b ≤ greatest)
    (h : greatest < a + b) : (a + b) % (greatest + 1) < a := by
  rw [Nat.mod_eq_sub_mod (by omega), Nat.mod_eq_of_lt (by omega)]
  omega

/-- **Where a count wraps** the answer leaves out more than the budget. -/
theorem over_of_not_counts (h : ¬q.CountsHold d) :
    (q.budget d).1 < (q.budget d).2 - (q.answer d).2 := by
  have hForced := q.forcedFits
  have hStacked := q.stacked_le
  unfold CountsHold at h
  split at h
  · rename_i hNone
    have hCounted := q.counted_of_none hNone
    rw [q.budget_of_none hNone]
    split at hCounted
    · -- the cursor keeps a plane there is not
      have hInside := q.inside_counted hCounted
      rw [q.answer_eq hCounted hInside]
      split <;> simp only <;> omega
    · rename_i hKept
      have hInside := q.inside_counted hCounted
      have hPart : q.clientSize ≠ q.stacked := fun hAll => h (.inl hAll)
      have hShort : ¬q.stacked ≤ q.clientSize + q.forcedExtraClient :=
        fun hAll => h (.inr ⟨hKept, hAll⟩)
      have hSum : (q.stacked - q.clientSize - sizeMax + q.forcedExtraClient) % (sizeMax + 1) =
          q.forcedExtraClient := by
        rw [Nat.mod_eq_of_lt] <;> omega
      rw [q.answer_eq hCounted hInside, hSum]
      split <;> simp only <;> omega
  · rename_i hSome
    have hCounted := q.counted_eq_budget hSome
    have hBudget := q.budget_le (d := d)
    unfold needed at h
    cases hEq : q.budget d with
    | mk availPlanes layersSize =>
      rw [hEq] at h hCounted hBudget
      simp only at h hBudget ⊢
      have hInside := q.inside_counted hCounted
      have hSum := wrapped_lt (a := layersSize - q.clientSize - availPlanes) (by omega) hForced
        (by omega)
      rw [q.answer_eq hCounted hInside]
      generalize (layersSize - q.clientSize - availPlanes + q.forcedExtraClient) %
        (sizeMax + 1) = wrapped at hSum
      split <;> simp only <;> omega

/-- **Where no count wraps** the range grows as wanted, by the search of all the
windows that may be answered, or stays as it was when that is wanted. -/
theorem answer_of_counts (h : q.CountsHold d) :
    (q.answer d = (q.clientStart, q.clientSize) ∧ q.wanted d = q.clientSize) ∨
      ∃ start steps, (∀ z, q.Place d (q.wanted d) z ↔ start ≤ z ∧ z < start + steps) ∧
        0 < steps ∧
        q.answer d = (slide d layers q.clientStart (q.wanted d) start steps, q.wanted d) := by
  have hForced := q.forcedFits
  have hStacked := q.stacked_le
  have hPlace := q.place_iff (q.le_wanted (d := d)) q.wanted_le
  have hEmpty := q.empty
  have hWantedLe := q.wanted_le (d := d)
  have hLeWanted := q.le_wanted (d := d)
  -- the planes and layers counted, and the growth the source comes to
  obtain ⟨availPlanes, hCounted, hGrown, hStay⟩ :
      ∃ availPlanes, counted d layers q.clientStart q.clientSize q.useCursorPlane =
        (availPlanes, (q.budget d).2) ∧
        min (((q.budget d).2 - q.clientSize - availPlanes + q.forcedExtraClient) %
          (sizeMax + 1)) ((q.budget d).2 - q.clientSize) = q.wanted d - q.clientSize ∧
        (¬((availPlanes < (q.budget d).2 - q.clientSize ∨ 0 < q.forcedExtraClient) ∧
          q.clientSize < (q.budget d).2) → q.wanted d = q.clientSize) := by
    unfold CountsHold at h
    unfold wanted needed
    split at h
    · rename_i hNone
      have hCounted := q.counted_of_none hNone
      rw [q.budget_of_none hNone]
      simp only
      split at hCounted
      · rename_i hKept
        have hInside := q.inside_counted hCounted
        rcases h with hAll | ⟨hNot, -⟩
        · omega
        · exact absurd hKept hNot
      · have hAll : q.clientSize = q.stacked ∨
            q.stacked ≤ q.clientSize + q.forcedExtraClient := h.imp_right And.right
        refine ⟨sizeMax, hCounted, ?_, by omega⟩
        rw [Nat.mod_eq_of_lt (by omega)]
        omega
    · rename_i hSome
      have hCounted := q.counted_eq_budget hSome
      refine ⟨(q.budget d).1, hCounted, ?_, by omega⟩
      unfold needed at h
      rw [Nat.mod_eq_of_lt (by omega)]
      omega
  have hInside := q.inside_counted hCounted
  rw [q.answer_eq hCounted hInside, hGrown, Nat.add_sub_cancel' hLeWanted]
  split
  · refine .inr ⟨_, _, fun z => ?_, ?_, rfl⟩
    · rw [hPlace]
      split <;> omega
    · split <;> omega
  · rename_i hSame
    exact .inl ⟨rfl, hStay hSame⟩

/-- An empty window costs nothing. -/
theorem pixels_zero (firstZ : Nat) : pixels d layers firstZ 0 = 0 := by
  simp [pixels]

theorem calcPixOps_zero (firstZ : Nat) : calcPixOps d layers firstZ 0 = 0 := by
  simp [calcPixOps]

/-- A range that stays as it was is the least of its size: it is empty, or no
other window of its size holds it. -/
theorem stays_least :
    LeastPlace (q.Place d q.clientSize) (fun z => pixels d layers z q.clientSize)
        q.clientStart ∧
      WordsTell (q.Place d q.clientSize) (fun z => calcPixOps d layers z q.clientSize)
        q.clientStart q.clientStart := by
  have hInside := q.inside_budget (d := d)
  have hEmpty := q.empty
  have hPlace := q.place_iff (d := d) (le_refl q.clientSize) (by omega)
  have hHere : q.Place d q.clientSize q.clientStart := by
    rw [hPlace]
    split <;> omega
  by_cases hSize : q.clientSize = 0
  · have hStart := hEmpty hSize
    refine ⟨⟨hHere, fun other _ => .inr ⟨?_, by omega⟩⟩, .inl ⟨hHere, ?_, fun other _ => ?_⟩⟩
    · simp only [hSize, pixels_zero]
    · simp only [hSize, calcPixOps_zero]
      decide
    · simp only [hSize, calcPixOps_zero]
      omega
  · have hOnly : ∀ other, q.Place d q.clientSize other → other = q.clientStart := by
      intro other hOther
      have := (hPlace other).mp hOther
      rw [if_neg hSize, if_neg hSize] at this
      omega
    refine ⟨⟨hHere, fun other hOther => ?_⟩, ?_⟩
    · obtain rfl := hOnly other hOther
      exact .inr ⟨rfl, le_refl _⟩
    · by_cases hWord : (calcPixOps d layers q.clientStart q.clientSize).toNat < 2 ^ 32 - 1
      · refine .inl ⟨hHere, hWord, fun other hOther => ?_⟩
        obtain rfl := hOnly other hOther
        exact ⟨fun h => absurd h (Nat.lt_irrefl _), fun h => absurd h (Nat.lt_irrefl _)⟩
      · refine .inr ⟨rfl, fun other hOther => ?_⟩
        obtain rfl := hOnly other hOther
        have hWhole := (calcPixOps d layers q.clientStart q.clientSize).toNat_lt
        simp only
        omega

end ExtraClient

/-- A layer's pixels are counted up to a word. -/
theorem getPixOps_emod (d : ICompositorDisplay) (e : Entry) :
    (e.layer.getPixOps d.size : Int) = pixelCount d e % 2 ^ 32 := by
  unfold HwcLayer.getPixOps pixelCount
  cases e.layer.layerData.pi.displayFrame with
  | none => push_cast; rfl
  | some r => exact Int.toNat_of_nonneg (Int.emod_nonneg _ (by decide))

/-- And so are a window's. -/
theorem calcPixOps_emod (d : ICompositorDisplay) (layers : List Entry) (firstZ size : Nat) :
    ((calcPixOps d layers firstZ size).toNat : Int) = pixels d layers firstZ size % 2 ^ 32 := by
  have hFold : ∀ (es : List Entry) (pixops : UInt32),
      ((es.foldl (fun pixops e => pixops + UInt32.ofNat (e.layer.getPixOps d.size))
        pixops).toNat : Int) = (pixops.toNat + (es.map (pixelCount d)).sum) % 2 ^ 32 := by
    intro es
    induction es with
    | nil =>
      intro pixops
      have := pixops.toNat_lt
      simp only [List.foldl_nil, List.map_nil, List.sum_nil, Int.add_zero]
      omega
    | cons e es ih =>
      intro pixops
      have hPixels := getPixOps_emod d e
      rw [List.foldl_cons, ih, List.map_cons, List.sum_cons, UInt32.toNat_add,
        UInt32.toNat_ofNat']
      push_cast
      omega
  unfold calcPixOps pixels
  rw [hFold]
  simp

/-- **The words tell** wherever every window's pixels are below the greatest word. -/
theorem ExtraClient.pixelsTell_of_fit {d : ICompositorDisplay} {layers : List Entry}
    {q : ExtraClient layers} (hFit : q.SumsFit d) : q.PixelsTell d := by
  intro first hFirst
  have hWord : ∀ z, q.Place d (q.wanted d) z →
      ((calcPixOps d layers z (q.wanted d)).toNat : Int) = pixels d layers z (q.wanted d) := by
    intro z hz
    have hAt := hFit z hz
    rw [calcPixOps_emod]
    omega
  have hHere := hWord first hFirst.isPlace
  have hBelow := hFit first hFirst.isPlace
  refine .inl ⟨hFirst.isPlace, by simp only; omega, fun other hOther => ?_⟩
  have hThere := hWord other hOther
  have hLeast := hFirst.least other hOther
  constructor <;> intro hSide <;> simp only <;> omega

/-- The answer is the least window where no count wraps and the words tell it. -/
theorem ExtraClient.answers_iff (d : ICompositorDisplay) {layers : List Entry}
    (q : ExtraClient layers) :
    q.Answers d (q.answer d) ↔ q.CountsHold d ∧ q.PixelsTell d := by
  by_cases hCounts : q.CountsHold d
  · rcases q.answer_of_counts hCounts with ⟨hStays, hWanted⟩ |
      ⟨start, steps, hPlace, hSteps, hSlides⟩
    · -- nothing was searched, and there is nothing to search
      obtain ⟨hLeast, hTell⟩ := q.stays_least (d := d)
      have hWithin := q.wanted_withinBudget (d := d)
      rw [hStays]
      rw [hWanted] at hWithin
      refine ⟨fun _ => ⟨hCounts, fun first hFirst => ?_⟩, fun _ => ⟨hWithin, hLeast⟩⟩
      rw [hWanted] at hFirst ⊢
      obtain rfl := hFirst.unique hLeast
      exact hTell
    · rw [hSlides]
      constructor
      · intro h
        refine ⟨hCounts, fun first hFirst => ?_⟩
        exact (slide_eq_iff hPlace).mp (h.least.unique hFirst)
      · rintro ⟨-, hTell⟩
        obtain ⟨first, hFirst⟩ :=
          exists_leastPlace (fun z => pixels d layers z (q.wanted d)) hPlace hSteps
        rw [(slide_eq_iff hPlace).mpr (hTell first hFirst)]
        exact ⟨q.wanted_withinBudget, hFirst⟩
  · constructor
    · intro h
      have hOver := q.over_of_not_counts hCounts
      exact absurd h.withinBudget (by omega)
    · rintro ⟨h, -⟩
      exact absurd h hCounts

/-- No window is of more pixels than all the layers. -/
theorem ExtraClient.sumsFit_of_all {d : ICompositorDisplay} {layers : List Entry}
    (q : ExtraClient layers) (hEach : ∀ e ∈ layers, 0 ≤ pixelCount d e)
    (hAll : (layers.map (pixelCount d)).sum < 2 ^ 32 - 1) : q.SumsFit d := by
  have hNonneg : ∀ part : List Entry, (∀ e ∈ part, e ∈ layers) →
      0 ≤ (part.map (pixelCount d)).sum := fun part hPart =>
    List.sum_nonneg fun n hn => by
      obtain ⟨e, he, rfl⟩ := List.mem_map.mp hn
      exact hEach e (hPart e he)
  intro first hFirst
  have hBelow := hNonneg (layers.take first) fun e he => List.mem_of_mem_take he
  have hAbove := hNonneg ((layers.drop first).drop (q.wanted d)) fun e he =>
    List.mem_of_mem_drop (List.mem_of_mem_drop he)
  have hWindow := hNonneg ((layers.drop first).take (q.wanted d)) fun e he =>
    List.mem_of_mem_drop (List.mem_of_mem_take he)
  have hSplit : (layers.map (pixelCount d)).sum = ((layers.take first).map (pixelCount d)).sum +
      (pixels d layers first (q.wanted d) +
        (((layers.drop first).drop (q.wanted d)).map (pixelCount d)).sum) := by
    conv_lhs => rw [← List.take_append_drop first layers,
      ← List.take_append_drop (q.wanted d) (layers.drop first)]
    rw [List.map_append, List.sum_append, List.map_append, List.sum_append]
    rfl
  unfold pixels at hSplit ⊢
  omega

/-- Three layers of the frames given, none of them the client's. -/
def framed (first second third : IRect) : List Entry :=
  [(1, first), (2, second), (3, third)].map fun (id, frame) =>
    { plain id with
      layer := { (plain id).layer with
        layerData := { (plain id).layer.layerData with
          pi := { (plain id).layer.layerData.pi with displayFrame := some frame } } } }

/-- What is asked of them. -/
def ofFramed (first second third : IRect) : ExtraClient (framed first second third) where
  clientStart := 0
  clientSize := 0
  useCursorPlane := false
  forcedExtraClient := 0
  inside := Nat.zero_le _
  empty := fun _ => rfl
  top := fun h => absurd h Bool.false_ne_true
  layersFit := by simp [framed, sizeMax]
  forcedFits := Nat.zero_le _

/-- **Past a word** the least window may be missed though no count wraps: two
layers whose pixels come to a word and one more are taken for one pixel. -/
theorem wrapped_not_least :
    (ofFramed ⟨0, 0, 65536, 65536⟩ ⟨0, 0, 1, 1⟩ ⟨0, 0, 2, 2⟩).CountsHold
        { numAvailablePlanes := 2 } ∧
      ¬(ofFramed ⟨0, 0, 65536, 65536⟩ ⟨0, 0, 1, 1⟩ ⟨0, 0, 2, 2⟩).Answers
        { numAvailablePlanes := 2 }
        ((ofFramed ⟨0, 0, 65536, 65536⟩ ⟨0, 0, 1, 1⟩ ⟨0, 0, 2, 2⟩).answer
          { numAvailablePlanes := 2 }) := by
  refine ⟨by decide, fun h => ?_⟩
  have hAnswer : (ofFramed ⟨0, 0, 65536, 65536⟩ ⟨0, 0, 1, 1⟩ ⟨0, 0, 2, 2⟩).answer
      { numAvailablePlanes := 2 } = (0, 2) := by decide
  have hPlace : (ofFramed ⟨0, 0, 65536, 65536⟩ ⟨0, 0, 1, 1⟩ ⟨0, 0, 2, 2⟩).Place
      { numAvailablePlanes := 2 } 2 1 := ⟨by decide, fun z hz => absurd hz.2 (Nat.not_lt_zero z)⟩
  rw [hAnswer] at h
  have hLeast := h.least.least 1 hPlace
  revert hLeast
  decide

/-- A span that is empty starts at nought. -/
theorem spanFrom_empty (d : ICompositorDisplay) (layers : List Entry) :
    (spanFrom d layers 0 (0, 0)).2 = 0 → (spanFrom d layers 0 (0, 0)).1 = 0 := by
  have hKept : ∀ (rest : List Entry) (z : Nat) (range : Nat × Nat),
      (range.2 = 0 → range.1 = 0) → (spanFrom d rest z range).2 = 0 →
      (spanFrom d rest z range).1 = 0 := by
    intro rest
    induction rest with
    | nil => exact fun _ _ h => h
    | cons e rest ih =>
      intro z range hRange
      unfold spanFrom
      split
      · exact ih _ _ fun hNone => absurd hNone (Nat.succ_ne_zero _)
      · exact ih _ _ hRange
  exact hKept layers 0 (0, 0) fun _ => rfl

/-- What `GetClientLayers` asks. -/
def ExtraClient.ofClients {d : ICompositorDisplay} {layers : List Entry} {useCursorPlane : Bool}
    {forcedExtraClient : Nat} (hTop : useCursorPlane = true → topIsCursor layers = true)
    (hCursor : useCursorPlane = true → ∀ top, layers.getLast? = some top →
      isClientLayer d top.layer = false)
    (hLayers : layers.length ≤ sizeMax) (hForced : forcedExtraClient ≤ sizeMax) :
    ExtraClient layers where
  clientStart := (spanFrom d layers 0 (0, 0)).1
  clientSize := (spanFrom d layers 0 (0, 0)).2
  useCursorPlane := useCursorPlane
  forcedExtraClient := forcedExtraClient
  inside := spanFrom_inside hCursor
  empty := spanFrom_empty d layers
  top := hTop
  layersFit := hLayers
  forcedFits := hForced

/-- `GetClientLayers` answers what it is answered. -/
theorem getClientLayers_eq {d : ICompositorDisplay} {layers : List Entry} {useCursorPlane : Bool}
    {forcedExtraClient : Nat} (hTop : useCursorPlane = true → topIsCursor layers = true)
    (hCursor : useCursorPlane = true → ∀ top, layers.getLast? = some top →
      isClientLayer d top.layer = false)
    (hLayers : layers.length ≤ sizeMax) (hForced : forcedExtraClient ≤ sizeMax) :
    getClientLayers d layers useCursorPlane forcedExtraClient =
      (ExtraClient.ofClients hTop hCursor hLayers hForced).answer d := rfl

/-- Three layers and no plane: all of them are left to windows there are not. -/
def noPlane : ExtraClient [plain 1, plain 2, plain 3] where
  clientStart := 0
  clientSize := 0
  useCursorPlane := false
  forcedExtraClient := 0
  inside := by decide
  empty := fun _ => rfl
  top := by decide
  layersFit := by decide
  forcedFits := by decide

end TegraHwc.GenericCompositionPlanner
