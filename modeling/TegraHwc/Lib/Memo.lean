import Mathlib.Data.List.AList
import Mathlib.Data.Finset.Card

/-!
# Memo — answers remembered by key, and forgotten when there are many

A memory holds answers once given for some keys. It may forget any of them, and is
made to once it knows `most` keys, in a way of its own: all of them, or those no
longer of use. Keys and answers are of any type.

## Results

* `Faithful.remember` — what is remembered of each key is what may be answered for
  it, whatever is forgotten in between.
* `size_remember_le`  — a memory outgrows `most` only by what is of use.
* `size_lt_of_unknown` — where the keys are few, there is room for each of them.
-/

namespace Memo

variable {κ ν : Type*} [DecidableEq κ]

/-- Answers by key. -/
abbrev Memory (κ ν : Type*) := AList fun _ : κ => ν

/-- How many keys are known. -/
def size (m : Memory κ ν) : Nat := m.keys.length

/-- What is remembered of a key is what `P` says of it. -/
def Faithful (P : κ → ν → Prop) (m : Memory κ ν) : Prop :=
  ∀ k v, m.lookup k = some v → P k v

/-- A memory that says nothing another does not say. -/
def Less (m m' : Memory κ ν) : Prop :=
  ∀ k v, m.lookup k = some v → m'.lookup k = some v

/-- The answers that pass. -/
def sweep (pass : ν → Bool) (m : Memory κ ν) : Memory κ ν :=
  ⟨m.entries.filter fun e => pass e.2,
    List.nodupKeys_iff_pairwise.mpr
      ((List.nodupKeys_iff_pairwise.mp m.nodupKeys).sublist List.filter_sublist)⟩

/-- A memory with room made in it, once it knows `most` keys. -/
def roomIn (most : Nat) (forget : Memory κ ν → Memory κ ν) (m : Memory κ ν) : Memory κ ν :=
  if most ≤ size m then forget m else m

/-- One answer more. -/
def remember (most : Nat) (forget : Memory κ ν → Memory κ ν) (k : κ) (v : ν) (m : Memory κ ν) :
    Memory κ ν :=
  (roomIn most forget m).insert k v

variable {P : κ → ν → Prop} {m m' : Memory κ ν} {most : Nat} {forget : Memory κ ν → Memory κ ν}
  {k : κ} {v : ν}

-- ---------------------------------------------------------------------------
-- What a memory says
-- ---------------------------------------------------------------------------

theorem faithful_empty : Faithful P (∅ : Memory κ ν) := by
  intro k v h
  rw [AList.lookup_empty] at h
  cases h

theorem Faithful.less (h : Faithful P m') (hLess : Less m m') : Faithful P m :=
  fun k v hv => h k v (hLess k v hv)

theorem Faithful.insert (h : Faithful P m) (hv : P k v) : Faithful P (m.insert k v) := by
  intro k' v' h'
  by_cases hSame : k' = k
  · subst hSame
    rw [AList.lookup_insert] at h'
    obtain rfl := Option.some.inj h'
    exact hv
  · rw [AList.lookup_insert_ne hSame] at h'
    exact h k' v' h'

theorem less_refl (m : Memory κ ν) : Less m m := fun _ _ h => h

theorem less_empty (m : Memory κ ν) : Less ∅ m := by
  intro k v h
  rw [AList.lookup_empty] at h
  cases h

theorem less_erase (k : κ) (m : Memory κ ν) : Less (m.erase k) m := by
  intro k' v h
  by_cases hSame : k' = k
  · rw [hSame, AList.lookup_erase] at h
    cases h
  · rwa [AList.lookup_erase_ne hSame] at h

/-- What is swept is what passes of what there was. -/
theorem lookup_sweep {pass : ν → Bool} :
    (sweep pass m).lookup k = some v ↔ m.lookup k = some v ∧ pass v = true := by
  rw [← Option.mem_def, ← Option.mem_def, AList.mem_lookup_iff, AList.mem_lookup_iff]
  exact List.mem_filter

theorem less_sweep (pass : ν → Bool) (m : Memory κ ν) : Less (sweep pass m) m :=
  fun _ _ h => (lookup_sweep.mp h).1

theorem less_roomIn (hForget : Less (forget m) m) : Less (roomIn most forget m) m := by
  unfold roomIn
  split
  · exact hForget
  · exact less_refl m

theorem lookup_remember : (remember most forget k v m).lookup k = some v :=
  AList.lookup_insert _

/-- What is known of another key is known still, where it is not forgotten. -/
theorem lookup_remember_ne {k' : κ} {v' : ν} (hOther : k' ≠ k)
    (hForget : (forget m).lookup k' = some v') (hKnown : m.lookup k' = some v') :
    (remember most forget k v m).lookup k' = some v' := by
  unfold remember roomIn
  rw [AList.lookup_insert_ne hOther]
  split
  · exact hForget
  · exact hKnown

/-- **A memory stays faithful** as it is told what may be answered, whatever it
forgets to make room. -/
theorem Faithful.remember (h : Faithful P m) (hForget : Less (forget m) m) (hv : P k v) :
    Faithful P (remember most forget k v m) :=
  (h.less (less_roomIn hForget)).insert hv

-- ---------------------------------------------------------------------------
-- How much it knows
-- ---------------------------------------------------------------------------

omit [DecidableEq κ] in
@[simp] theorem size_empty : size (∅ : Memory κ ν) = 0 := rfl

theorem size_insert_le : size (m.insert k v) ≤ size m + 1 := by
  have hErased : (m.keys.erase k).length ≤ m.keys.length := (List.erase_sublist).length_le
  unfold size
  rw [AList.keys_insert, List.length_cons]
  omega

theorem size_erase_le : size (m.erase k) ≤ size m := by
  unfold size
  rw [AList.keys_erase]
  exact (List.erase_sublist).length_le

/-- **A memory outgrows `most` only by what it does not forget.** -/
theorem size_remember_le (most : Nat) (forget : Memory κ ν → Memory κ ν) (k : κ) (v : ν)
    (m : Memory κ ν) :
    size (remember most forget k v m) ≤ max most (size (forget m) + 1) := by
  have hInsert := size_insert_le (m := roomIn most forget m) (k := k) (v := v)
  unfold remember
  unfold roomIn at hInsert ⊢
  split at hInsert
  · rename_i hFull
    rw [if_pos hFull]
    omega
  · rename_i hRoom
    rw [if_neg hRoom]
    omega

/-- Where there is room, nothing is forgotten. -/
theorem remember_of_room (hRoom : size m < most) :
    remember most forget k v m = m.insert k v := by
  rw [remember, roomIn, if_neg (Nat.not_le.mpr hRoom)]

/-- A key not known before. -/
theorem size_insert_unknown (hNot : k ∉ m) : size (m.insert k v) = size m + 1 := by
  unfold size
  rw [AList.keys_insert, List.length_cons,
    List.erase_of_not_mem fun h => hNot (AList.mem_keys.mpr h)]

theorem size_le_of_known {known : Finset κ} (hKnown : ∀ k' ∈ m, k' ∈ known) :
    size m ≤ known.card := by
  have hSub : m.keys.toFinset ⊆ known := fun k' h =>
    hKnown k' (AList.mem_keys.mpr (List.mem_toFinset.mp h))
  have hCard := Finset.card_le_card hSub
  rwa [List.toFinset_card_of_nodup m.keys_nodup] at hCard

/-- There is room for each of some keys, where they are as many as fit. -/
theorem size_lt_of_unknown {known : Finset κ} (hKnown : ∀ k' ∈ m, k' ∈ known) (hk : k ∈ known)
    (hNot : k ∉ m) : size m < known.card := by
  have hLess : size m ≤ (known.erase k).card := by
    refine size_le_of_known fun k' h => Finset.mem_erase.mpr ⟨?_, hKnown k' h⟩
    rintro rfl
    exact hNot h
  have hCard := Finset.card_erase_lt_of_mem hk
  omega

/-- A memory that answers each key with an answer of its own knows no more keys than
there are answers. -/
theorem size_le_of_answers {answers : Finset ν}
    (hOwn : ∀ k k' v, m.lookup k = some v → m.lookup k' = some v → k = k')
    (hIn : ∀ k v, m.lookup k = some v → v ∈ answers) : size m ≤ answers.card := by
  have hSome : ∀ k ∈ m.keys.toFinset, ∃ v, m.lookup k = some v := fun k hk =>
    Option.isSome_iff_exists.mp (AList.lookup_isSome.mpr
      (AList.mem_keys.mpr (List.mem_toFinset.mp hk)))
  have hCard : m.keys.toFinset.card ≤ (answers.map .some).card := by
    refine Finset.card_le_card_of_injOn (fun k => m.lookup k) ?_ ?_
    · intro k hk
      obtain ⟨v, hv⟩ := hSome k hk
      show m.lookup k ∈ _
      rw [hv]
      exact Finset.mem_coe.mpr (Finset.mem_map_of_mem .some (hIn k v hv))
    · intro k hk k' _ hEq
      obtain ⟨v, hv⟩ := hSome k hk
      exact hOwn k k' v hv ((show m.lookup k = m.lookup k' from hEq).symm.trans hv)
  rwa [List.toFinset_card_of_nodup m.keys_nodup, Finset.card_map] at hCard

end Memo
