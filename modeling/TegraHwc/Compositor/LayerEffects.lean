import TegraHwc.Hwc.HwcLayer
import Mathlib.Algebra.Order.Floor.Ring
import Mathlib.Data.Rat.Floor

/-!
# TegraHwc — the effects as the framework sends them

`compositor/LayerEffects.cpp`: a key and its value, both bytes, read into the
effects of a layer. A value is little-endian floats of 32 bits, a finite one
the rational it stands for; a `size_t` is 32 bits. What a float becomes as a
`size_t` that cannot hold it the language leaves open: `beyond` is what the
target makes of it.

## Results

* `applyEffectMetadata_refused` — a value refused leaves every effect as it was.
* `need_toNat` — how many words a blur is to have, while their number is a word.
* `applyEffectMetadata_exact_iff` — what is applied is exactly what is well
  formed, but for a blur whose second word is no count or counts too many.
-/

namespace TegraHwc

/-- `EffectResult`. -/
inductive EffectResult where
  | kApplied
  | kUnknownKey
  | kMalformed
  deriving DecidableEq, Repr

namespace LayerEffects

-- ---------------------------------------------------------------------------
-- Keys and values
-- ---------------------------------------------------------------------------

/-- The bytes of a name. -/
def ascii (name : String) : List UInt8 := name.toList.map fun c => UInt8.ofNat c.toNat

/-- `kEffectKeys`, each under its own name. -/
def kRoundedCorners : List UInt8 := ascii "org.lineageos.mocha.rounded_corners"
def kShadow : List UInt8 := ascii "org.lineageos.mocha.shadow"
def kBlur : List UInt8 := ascii "org.lineageos.mocha.blur"
def kStretch : List UInt8 := ascii "org.lineageos.mocha.stretch"
def kTurned : List UInt8 := ascii "org.lineageos.mocha.turned"

/-- `KeyIs`. -/
def keyIs (key name : List UInt8) : Bool := decide (key = name)

/-- The words of a value, four bytes each, the lowest first. -/
def words : List UInt8 → List Nat
  | a :: b :: c :: d :: rest =>
    (a.toNat + 2 ^ 8 * b.toNat + 2 ^ 16 * c.toNat + 2 ^ 24 * d.toNat) :: words rest
  | _ => []

/-- `std::isfinite`, of a float's bits. -/
def isFinite (bits : Nat) : Bool := decide (bits / 2 ^ 23 % 2 ^ 8 ≠ 255)

/-- The number a finite float stands for. -/
def toRat (bits : Nat) : Rat :=
  let exponent := bits / 2 ^ 23 % 2 ^ 8
  let fraction : Nat := bits % 2 ^ 23
  let size : Rat :=
    if exponent = 0 then fraction / 2 ^ 149
    else (2 ^ 23 + fraction) * 2 ^ exponent / 2 ^ 150
  if bits / 2 ^ 31 % 2 = 0 then size else -size

/-- `Floats`. -/
def floats (value : List UInt8) : Option (List Rat) :=
  if value.length % 4 ≠ 0 then none
  else if (words value).all isFinite then some ((words value).map toRat)
  else none

variable (beyond : Rat → UInt32)

/-- `static_cast<size_t>`, of a float that is not negative. -/
def toSize (f : Rat) : UInt32 :=
  if ⌊f⌋ < 2 ^ 32 then UInt32.ofNat ⌊f⌋.toNat else beyond f

/-- How many words a blur is to have, computed as a `size_t`. -/
def need (f : Rat) : UInt32 := 2 + 10 * toSize beyond f

/-- `ApplyEffectMetadata`. -/
def applyEffectMetadata (key value : List UInt8) (effects : LayerEffects) :
    EffectResult × LayerEffects :=
  match floats value with
  | none => (.kMalformed, effects)
  | some v =>
    if keyIs key kRoundedCorners then
      if v = [] then (.kApplied, { effects with corners := List.replicate 5 0 })
      else if v.length ≠ 5 ∨ v.getD 4 0 < 0 then (.kMalformed, effects)
      else (.kApplied, { effects with corners := v })
    else if keyIs key kTurned then
      if v = [] then (.kApplied, { effects with turned := List.replicate 10 0 })
      else if v.length ≠ 10 then (.kMalformed, effects)
      else (.kApplied, { effects with turned := v })
    else if keyIs key kShadow then
      if v ≠ [] ∧ v.length ≠ 17 then (.kMalformed, effects)
      else (.kApplied, { effects with shadow := v })
    else if keyIs key kBlur then
      if v ≠ [] ∧ (v.length < 2 ∨ v.getD 1 0 < 0) then (.kMalformed, effects)
      else if v ≠ [] ∧ v.length ≠ (need beyond (v.getD 1 0)).toNat then (.kMalformed, effects)
      else (.kApplied, { effects with blur := v })
    else if keyIs key kStretch then
      if v ≠ [] ∧ v.length ≠ 10 then (.kMalformed, effects)
      else (.kApplied, { effects with stretch := v })
    else (.kUnknownKey, effects)

-- ---------------------------------------------------------------------------
-- What is well formed
-- ---------------------------------------------------------------------------

/-- The layouts: none, or the words the key is said to have. -/
def Layout (key : List UInt8) (v : List Rat) : Prop :=
  (key = kRoundedCorners ∧ (v = [] ∨ v.length = 5 ∧ 0 ≤ v.getD 4 0)) ∨
    (key = kTurned ∧ (v = [] ∨ v.length = 10)) ∨
    (key = kShadow ∧ (v = [] ∨ v.length = 17)) ∨
    (key = kBlur ∧ (v = [] ∨ ∃ count : Nat, v[1]? = some (count : Rat) ∧
      v.length = 2 + 10 * count)) ∨
    (key = kStretch ∧ (v = [] ∨ v.length = 10))

/-- A value of a key's layout, all of it finite floats. -/
def WellFormed (key value : List UInt8) : Prop := ∃ v, floats value = some v ∧ Layout key v

/-- A blur whose length is right as a `size_t`, where the second word is no
whole number or the words it asks for are no `size_t`. -/
def BlurMisread (key value : List UInt8) : Prop :=
  key = kBlur ∧ ∃ v, floats value = some v ∧ 2 ≤ v.length ∧ 0 ≤ v.getD 1 0 ∧
    v.length = (need beyond (v.getD 1 0)).toNat ∧
    ((∀ count : Nat, v.getD 1 0 ≠ count) ∨ 2 ^ 32 ≤ 2 + 10 * v.getD 1 0)

variable {beyond}

theorem floats_eq_some_iff {value : List UInt8} {v : List Rat} :
    floats value = some v ↔
      value.length % 4 = 0 ∧ (∀ bits ∈ words value, isFinite bits = true) ∧
        (words value).map toRat = v := by
  unfold floats
  split
  · rename_i hRagged
    constructor
    · rintro ⟨⟩
    · rintro ⟨hWhole, -, -⟩
      exact absurd hWhole hRagged
  · rename_i hWhole
    rw [not_not] at hWhole
    split
    · rename_i hFinite
      rw [List.all_eq_true] at hFinite
      simp only [Option.some.injEq, hWhole, true_and]
      exact ⟨fun h => ⟨hFinite, h⟩, And.right⟩
    · rename_i hInfinite
      rw [List.all_eq_true] at hInfinite
      constructor
      · rintro ⟨⟩
      · rintro ⟨-, hFinite, -⟩
        exact absurd hFinite hInfinite

/-- **A value refused leaves every effect as it was.** -/
theorem applyEffectMetadata_refused {key value : List UInt8} {effects : LayerEffects}
    (h : (applyEffectMetadata beyond key value effects).1 ≠ .kApplied) :
    (applyEffectMetadata beyond key value effects).2 = effects := by
  revert h
  fun_cases applyEffectMetadata beyond key value effects
  all_goals simp

/-- The number of words a blur is to have is the source's while it is a word. -/
theorem need_toNat {f : Rat} {count : Nat} (hCount : f = count)
    (hFits : 2 + 10 * count < 2 ^ 32) : (need beyond f).toNat = 2 + 10 * count := by
  have hSize : toSize beyond f = UInt32.ofNat count := by
    unfold toSize
    rw [hCount, Int.floor_natCast, if_pos (by omega), Int.toNat_natCast]
  rw [need, hSize, UInt32.toNat_add, UInt32.toNat_mul, UInt32.toNat_ofNat']
  simp
  omega

/-- No two keys share a name. -/
theorem keys_apart :
    (kTurned ≠ kRoundedCorners ∧ kShadow ≠ kRoundedCorners ∧ kBlur ≠ kRoundedCorners ∧
      kStretch ≠ kRoundedCorners) ∧
    (kShadow ≠ kTurned ∧ kBlur ≠ kTurned ∧ kStretch ≠ kTurned) ∧
    (kBlur ≠ kShadow ∧ kStretch ≠ kShadow) ∧ kStretch ≠ kBlur := by
  decide +kernel

/-- What is asked of the words of a known key. -/
def Accepts (beyond : Rat → UInt32) (key : List UInt8) (v : List Rat) : Prop :=
  (key = kRoundedCorners ∧ (v = [] ∨ v.length = 5 ∧ 0 ≤ v.getD 4 0)) ∨
    (key = kTurned ∧ (v = [] ∨ v.length = 10)) ∨
    (key = kShadow ∧ (v = [] ∨ v.length = 17)) ∨
    (key = kBlur ∧ (v = [] ∨ 2 ≤ v.length ∧ 0 ≤ v.getD 1 0 ∧
      v.length = (need beyond (v.getD 1 0)).toNat)) ∨
    (key = kStretch ∧ (v = [] ∨ v.length = 10))

/-- What is not refused is applied. -/
theorem applied_iff {refused : Prop} [Decidable refused] {before after : LayerEffects} :
    (if refused then (EffectResult.kMalformed, before) else (.kApplied, after)).1 = .kApplied ↔
      ¬refused := by
  by_cases h : refused
  · simp [h]
  · simp [h]

/-- Words that are asked for where there are any. -/
theorem not_refused_iff {v : List Rat} {size : Nat} :
    ¬(v ≠ [] ∧ v.length ≠ size) ↔ v = [] ∨ v.length = size := by
  rw [not_and_or, not_not, not_not]

/-- A value is applied where its words are accepted. -/
theorem isApplied_iff {key value : List UInt8} {effects : LayerEffects} {v : List Rat}
    (hFloats : floats value = some v) :
    (applyEffectMetadata beyond key value effects).1 = .kApplied ↔ Accepts beyond key v := by
  obtain ⟨⟨hTurnedCorners, hShadowCorners, hBlurCorners, hStretchCorners⟩,
    ⟨hShadowTurned, hBlurTurned, hStretchTurned⟩, ⟨hBlurShadow, hStretchShadow⟩,
    hStretchBlur⟩ := keys_apart
  unfold applyEffectMetadata Accepts
  rw [hFloats]
  simp only [keyIs, decide_eq_true_eq]
  by_cases hCorners : key = kRoundedCorners
  · subst hCorners
    simp only [hTurnedCorners.symm, hShadowCorners.symm, hBlurCorners.symm,
      hStretchCorners.symm, if_true, true_and, false_and, or_false]
    by_cases hEmpty : v = []
    · simp [hEmpty]
    · rw [if_neg hEmpty, applied_iff, not_or, not_not, not_lt]
      simp [hEmpty]
  by_cases hTurned : key = kTurned
  · subst hTurned
    simp only [hTurnedCorners, hShadowTurned.symm, hBlurTurned.symm, hStretchTurned.symm,
      if_true, if_false, true_and, false_and, or_false, false_or]
    by_cases hEmpty : v = []
    · simp [hEmpty]
    · rw [if_neg hEmpty, applied_iff, not_not]
      simp [hEmpty]
  by_cases hShadow : key = kShadow
  · subst hShadow
    simp only [hShadowCorners, hShadowTurned, hBlurShadow.symm, hStretchShadow.symm, if_true,
      if_false, true_and, false_and, or_false, false_or]
    rw [applied_iff, not_refused_iff]
  by_cases hBlur : key = kBlur
  · subst hBlur
    simp only [hBlurCorners, hBlurTurned, hBlurShadow, hStretchBlur.symm, if_true, if_false,
      true_and, false_and, or_false, false_or]
    by_cases hEmpty : v = []
    · simp [hEmpty]
    · by_cases hShort : v.length < 2 ∨ v.getD 1 0 < 0
      · have hNot : ¬(2 ≤ v.length ∧ 0 ≤ v.getD 1 0 ∧
            v.length = (need beyond (v.getD 1 0)).toNat) := by
          rintro ⟨hLong, hSign, -⟩
          rcases hShort with hShort | hShort
          · omega
          · exact absurd hSign (not_le.mpr hShort)
        rw [if_pos ⟨hEmpty, hShort⟩]
        exact iff_of_false EffectResult.noConfusion (not_or.mpr ⟨hEmpty, hNot⟩)
      · rw [if_neg (fun h => hShort h.2), applied_iff, not_refused_iff]
        rw [not_or, not_lt, not_lt] at hShort
        exact or_congr_right ⟨fun hRight => ⟨hShort.1, hShort.2, hRight⟩, fun h => h.2.2⟩
  by_cases hStretch : key = kStretch
  · subst hStretch
    simp only [hStretchCorners, hStretchTurned, hStretchShadow, hStretchBlur, if_true, if_false,
      true_and, false_and, false_or]
    rw [applied_iff, not_refused_iff]
  · simp [hCorners, hTurned, hShadow, hBlur, hStretch]

theorem words_length (value : List UInt8) : (words value).length = value.length / 4 := by
  fun_induction words value with
  | case1 a b c d rest ih =>
    simp only [List.length_cons, ih]
    omega
  | case2 value hShort =>
    rcases value with _ | ⟨a, _ | ⟨b, _ | ⟨c, _ | ⟨d, rest⟩⟩⟩⟩
    · simp
    · simp
    · simp
    · simp
    · exact absurd rfl (hShort a b c d rest)

theorem floats_length {value : List UInt8} {v : List Rat} (h : floats value = some v) :
    v.length ≤ value.length := by
  obtain ⟨-, -, rfl⟩ := floats_eq_some_iff.mp h
  rw [List.length_map, words_length]
  exact Nat.div_le_self _ _

theorem second_eq_some_iff {v : List Rat} {f : Rat} :
    v[1]? = some f ↔ 2 ≤ v.length ∧ v.getD 1 0 = f := by
  rw [List.getD_eq_getElem?_getD]
  cases hSecond : v[1]? with
  | none =>
    have hShort := List.getElem?_eq_none_iff.mp hSecond
    constructor
    · rintro ⟨⟩
    · rintro ⟨hLong, -⟩
      omega
  | some g =>
    have hLong : 1 < v.length := (List.getElem?_eq_some_iff.mp hSecond).1
    rw [Option.some.injEq, Option.getD_some]
    exact ⟨fun h => ⟨hLong, h⟩, And.right⟩

/-- **The blur's length.** The words the source asks of a blur are the words its
count asks for, but where it misreads the count. -/
theorem blur_exact_iff {v : List Rat} (hFits : v.length < 2 ^ 32) :
    ((v = [] ∨ 2 ≤ v.length ∧ 0 ≤ v.getD 1 0 ∧ v.length = (need beyond (v.getD 1 0)).toNat) ↔
        (v = [] ∨ ∃ count : Nat, v[1]? = some (count : Rat) ∧ v.length = 2 + 10 * count)) ↔
      ¬(2 ≤ v.length ∧ 0 ≤ v.getD 1 0 ∧ v.length = (need beyond (v.getD 1 0)).toNat ∧
        ((∀ count : Nat, v.getD 1 0 ≠ count) ∨ 2 ^ 32 ≤ 2 + 10 * v.getD 1 0)) := by
  simp only [second_eq_some_iff]
  constructor
  · rintro hExact ⟨hLong, hSign, hLength, hMisread⟩
    rcases hExact.mp (.inr ⟨hLong, hSign, hLength⟩) with rfl | ⟨count, ⟨-, hCount⟩, hWords⟩
    · simp at hLong
    · rcases hMisread with hNone | hMany
      · exact hNone count hCount
      · rw [hCount] at hMany
        have hMany' : 2 ^ 32 ≤ 2 + 10 * count := by exact_mod_cast hMany
        omega
  · intro hRead
    refine or_congr_right ⟨?_, ?_⟩
    · rintro ⟨hLong, hSign, hLength⟩
      have hCounted : ¬((∀ count : Nat, v.getD 1 0 ≠ count) ∨ 2 ^ 32 ≤ 2 + 10 * v.getD 1 0) :=
        fun hMisread => hRead ⟨hLong, hSign, hLength, hMisread⟩
      simp only [not_or, not_forall, not_not, not_le] at hCounted
      obtain ⟨⟨count, hCount⟩, hFew⟩ := hCounted
      rw [hCount] at hFew
      have hFew' : 2 + 10 * count < 2 ^ 32 := by exact_mod_cast hFew
      exact ⟨count, ⟨hLong, hCount⟩, hLength.trans (need_toNat hCount hFew')⟩
    · rintro ⟨count, ⟨hLong, hCount⟩, hWords⟩
      refine ⟨hLong, ?_, ?_⟩
      · rw [hCount]
        exact Nat.cast_nonneg count
      · rw [need_toNat hCount (hWords ▸ hFits)]
        exact hWords

/-- **Exactly its format.** A value is applied just where it is well formed, and
changes nothing where it is not applied, exactly when it is no blur whose count
is misread. -/
theorem applyEffectMetadata_exact_iff (beyond : Rat → UInt32) (key value : List UInt8)
    (effects : LayerEffects) (hSize : value.length < 2 ^ 32) :
    (((applyEffectMetadata beyond key value effects).1 = .kApplied ↔ WellFormed key value) ∧
        ((applyEffectMetadata beyond key value effects).1 ≠ .kApplied →
          (applyEffectMetadata beyond key value effects).2 = effects)) ↔
      ¬BlurMisread beyond key value := by
  rw [and_iff_left applyEffectMetadata_refused]
  unfold WellFormed BlurMisread
  cases hFloats : floats value with
  | none => simp [applyEffectMetadata, hFloats]
  | some v =>
    have hFits : v.length < 2 ^ 32 := Nat.lt_of_le_of_lt (floats_length hFloats) hSize
    have hBlur := @blur_exact_iff beyond v hFits
    rw [isApplied_iff hFloats]
    simp only [Option.some.injEq, exists_eq_left']
    unfold Accepts Layout
    by_cases hKey : key = kBlur
    · subst hKey
      obtain ⟨⟨-, -, hCorners, -⟩, ⟨-, hTurned, -⟩, ⟨hShadow, -⟩, hStretch⟩ := keys_apart
      simp only [hCorners, hTurned, hShadow, hStretch.symm, false_and, false_or, or_false,
        true_and]
      exact hBlur
    · simp only [hKey, false_and, false_or, not_false_eq_true, iff_self]

/-- A blur of the layer's background alone: two words, and none counted. -/
theorem applyEffectMetadata_exact_background :
    ((applyEffectMetadata (fun _ => 0) kBlur [0, 0, 0x20, 0x42, 0, 0, 0, 0] {}).1 = .kApplied ↔
        WellFormed kBlur [0, 0, 0x20, 0x42, 0, 0, 0, 0]) ∧
      ((applyEffectMetadata (fun _ => 0) kBlur [0, 0, 0x20, 0x42, 0, 0, 0, 0] {}).1 ≠ .kApplied →
        (applyEffectMetadata (fun _ => 0) kBlur [0, 0, 0x20, 0x42, 0, 0, 0, 0] {}).2 = {}) := by
  refine (applyEffectMetadata_exact_iff _ _ _ _ (by decide)).mpr ?_
  rintro ⟨-, v, hFloats, -, -, -, hMisread⟩
  have hValue : floats [0, 0, 0x20, 0x42, 0, 0, 0, 0] = some [40, 0] := by decide +kernel
  obtain rfl : [40, 0] = v := Option.some.inj (hValue.symm.trans hFloats)
  rcases hMisread with hNone | hMany
  · exact hNone 0 rfl
  · revert hMany
    decide +kernel

/-- **A count that wraps.** Two words, the second of which counts so many regions
that the words asked for wrap to two. -/
theorem applyEffectMetadata_not_exact :
    ¬∀ (beyond : Rat → UInt32) (key value : List UInt8) (effects : LayerEffects),
      value.length < 2 ^ 32 →
      ((applyEffectMetadata beyond key value effects).1 = .kApplied ↔ WellFormed key value) ∧
        ((applyEffectMetadata beyond key value effects).1 ≠ .kApplied →
          (applyEffectMetadata beyond key value effects).2 = effects) := by
  intro h
  have hApplied : (applyEffectMetadata (fun _ => 0) kBlur
      [0, 0, 0x20, 0x42, 0, 0, 0, 0x4F] {}).1 = .kApplied := by decide +kernel
  obtain ⟨v, hFloats, hLayout⟩ := (h _ _ _ _ (by decide)).1.mp hApplied
  have hValue : floats [0, 0, 0x20, 0x42, 0, 0, 0, 0x4F] = some [40, 2147483648] := by
    decide +kernel
  obtain rfl : [40, 2147483648] = v := Option.some.inj (hValue.symm.trans hFloats)
  obtain ⟨⟨-, -, hCorners, -⟩, ⟨-, hTurned, -⟩, ⟨hShadow, -⟩, hStretch⟩ := keys_apart
  simp only [Layout, hCorners, hTurned, hShadow, hStretch.symm, false_and, false_or, or_false,
    true_and] at hLayout
  rcases hLayout with hNone | ⟨count, hCount, hWords⟩
  · cases hNone
  · -- no region is counted by two words
    obtain rfl : count = 0 := by
      simp only [List.length_cons, List.length_nil] at hWords
      omega
    revert hCount
    decide +kernel

end LayerEffects

namespace HwcLayer

/-- `HwcLayer::ApplyEffectMetadata`, from the bytes of the key and the value. -/
def readEffectMetadata (beyond : Rat → UInt32) (minCornerRadius : Rat) (key value : List UInt8)
    (l : HwcLayer) : EffectResult × HwcLayer :=
  let (result, effects) := LayerEffects.applyEffectMetadata beyond key value l.layerData.effects
  (result,
    l.applyEffectMetadata minCornerRadius (if result = .kApplied then some effects else none))

/-- A value refused leaves the layer as it was. -/
theorem readEffectMetadata_refused {beyond : Rat → UInt32} {minCornerRadius : Rat}
    {key value : List UInt8} {l : HwcLayer}
    (h : (l.readEffectMetadata beyond minCornerRadius key value).1 ≠ .kApplied) :
    (l.readEffectMetadata beyond minCornerRadius key value).2 = l := by
  unfold readEffectMetadata at h ⊢
  simp only at h ⊢
  rw [if_neg h]
  rfl

end HwcLayer

end TegraHwc
