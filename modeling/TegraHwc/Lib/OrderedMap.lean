import Mathlib.Data.List.Nodup
import Mathlib.Data.List.Perm.Basic
import Mathlib.Order.Lattice

/-!
# OrderedMap — a map kept in the order of its keys

The map of a sorted container, as the list of its entries. `emplace` leaves a
key that is taken as it is. Two maps of the same entries are one list, so what
a map holds after any number of insertions is known from its members alone.

## Results

* `ascending_emplace` — an insertion keeps the order.
* `mem_emplace`       — under a key that is free it adds its entry, and no other.
* `ascending_ext`     — maps of the same entries are the same.
-/

namespace OrderedMap

variable {κ α : Type*} [LinearOrder κ]

/-- An insertion, nothing where the key is taken. -/
def emplace (k : κ) (a : α) : List (κ × α) → List (κ × α)
  | [] => [(k, a)]
  | e :: rest =>
    if k < e.1 then (k, a) :: e :: rest
    else if k = e.1 then e :: rest
    else e :: emplace k a rest

/-- In the order of the keys, each key once. -/
def Ascending (m : List (κ × α)) : Prop := m.Pairwise fun a b => a.1 < b.1

variable {k : κ} {a : α} {m m' : List (κ × α)}

theorem mem_of_mem_emplace {x : κ × α} (h : x ∈ emplace k a m) : x = (k, a) ∨ x ∈ m := by
  induction m with
  | nil => exact .inl (List.mem_singleton.mp h)
  | cons e rest ih =>
    rw [emplace] at h
    split at h
    · exact List.mem_cons.mp h
    · split at h
      · exact .inr h
      · obtain rfl | h := List.mem_cons.mp h
        · exact .inr List.mem_cons_self
        · exact (ih h).imp_right (List.mem_cons_of_mem e)

/-- Under a free key the entry is added. -/
theorem mem_emplace (hFree : ∀ e ∈ m, e.1 ≠ k) {x : κ × α} :
    x ∈ emplace k a m ↔ x = (k, a) ∨ x ∈ m := by
  refine ⟨mem_of_mem_emplace, fun h => ?_⟩
  induction m with
  | nil => exact List.mem_singleton.mpr (h.resolve_right List.not_mem_nil)
  | cons e rest ih =>
    rw [emplace]
    split
    · exact List.mem_cons.mpr h
    · rw [if_neg fun hTaken => hFree e List.mem_cons_self hTaken.symm]
      obtain rfl | h := h
      · exact List.mem_cons_of_mem e (ih (fun e he => hFree e (List.mem_cons_of_mem _ he)) (.inl rfl))
      · obtain rfl | h := List.mem_cons.mp h
        · exact List.mem_cons_self
        · exact List.mem_cons_of_mem e
            (ih (fun e he => hFree e (List.mem_cons_of_mem _ he)) (.inr h))

theorem ascending_emplace (h : Ascending m) (k : κ) (a : α) : Ascending (emplace k a m) := by
  induction m with
  | nil => exact List.pairwise_singleton _ _
  | cons e rest ih =>
    obtain ⟨hAbove, hRest⟩ := List.pairwise_cons.mp h
    rw [emplace]
    split
    · rename_i hBelow
      refine List.pairwise_cons.mpr ⟨fun x hx => ?_, h⟩
      obtain rfl | hx := List.mem_cons.mp hx
      · exact hBelow
      · exact lt_trans hBelow (hAbove x hx)
    · rename_i hNotBelow
      split
      · exact h
      · rename_i hOther
        refine List.pairwise_cons.mpr ⟨fun x hx => ?_, ih hRest⟩
        obtain rfl | hx := mem_of_mem_emplace hx
        · exact lt_of_le_of_ne (not_lt.mp hNotBelow) (Ne.symm hOther)
        · exact hAbove x hx

theorem Ascending.nodup (h : Ascending m) : m.Nodup := by
  refine List.Pairwise.imp (fun {a b} hLt => ?_) h
  rintro rfl
  exact lt_irrefl _ hLt

/-- **Maps of the same entries are the same.** -/
theorem ascending_ext (h : Ascending m) (h' : Ascending m') (hSame : ∀ x, x ∈ m ↔ x ∈ m') :
    m = m' :=
  ((List.perm_ext_iff_of_nodup h.nodup h'.nodup).mpr hSame).eq_of_pairwise
    (fun _ _ _ _ hLt hGt => absurd hLt (lt_asymm hGt)) h h'

end OrderedMap
