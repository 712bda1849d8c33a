import Mathlib.Data.List.Basic
import Mathlib.Data.List.Perm.Subperm
import Mathlib.Logic.Relation
import Mathlib.Tactic.Common

/-!
# Joining — entries of a list joined two at a time

Two entries of a list are joined: the join stands in the place of the first,
and the second is taken out. A list is joined down by a schedule of such joins,
and every entry of it lands in one of those left. Entries may meet; a join meets
whatever either of its two met, and may meet more. Entries are of any type.

## Results

* `getElem?_joinAt_moved` — where an entry that is not joined goes.
* `apart_joinAll_iff`     — nothing left meets exactly when whatever met, at the
  start or once a join was made, lands in the same entry.
* `joinAll_length_le`     — where nothing left meets, no more are left than there
  were groups of entries that meet one another.
-/

namespace Joining

variable {α : Type}

/-- The entries at `i` and `j` become one, in the place of the first; `i < j`. -/
def joinAt (join : α → α → α) (parts : List α) (i j : Nat) : List α :=
  match parts[i]?, parts[j]? with
  | some a, some b => (parts.set i (join a b)).eraseIdx j
  | _, _ => parts

/-- The entries after a schedule of joins. -/
def joinAll (join : α → α → α) (parts : List α) (joins : List (Nat × Nat)) : List α :=
  joins.foldl (fun parts ij => joinAt join parts ij.1 ij.2) parts

/-- Where a join moves the entry at a position. -/
def moved (ij : Nat × Nat) (k : Nat) : Nat :=
  if k = ij.2 then ij.1 else if k < ij.2 then k else k - 1

/-- Where a schedule of joins lands the entry at a position. -/
def landing (joins : List (Nat × Nat)) (k : Nat) : Nat :=
  joins.foldl (fun k ij => moved ij k) k

/-- Each join of a schedule is of two of the entries there are then. -/
def Valid : Nat → List (Nat × Nat) → Prop
  | _, [] => True
  | n, ij :: joins => ij.1 < ij.2 ∧ ij.2 < n ∧ Valid (n - 1) joins

theorem valid_append {n : Nat} {joins joins' : List (Nat × Nat)} (h : Valid n joins)
    (h' : Valid (n - joins.length) joins') : Valid n (joins ++ joins') := by
  induction joins generalizing n with
  | nil => exact h'
  | cons ij joins ih =>
    refine ⟨h.1, h.2.1, ih h.2.2 ?_⟩
    rwa [List.length_cons, Nat.add_comm, ← Nat.sub_sub] at h'

-- ---------------------------------------------------------------------------
-- One join
-- ---------------------------------------------------------------------------

section One

variable {join : α → α → α} {parts : List α} {i j k : Nat}

theorem joinAt_eq (hij : i < j) (hj : j < parts.length) :
    joinAt join parts i j
      = (parts.set i (join parts[i] parts[j])).eraseIdx j := by
  unfold joinAt
  rw [List.getElem?_eq_getElem (Nat.lt_trans hij hj), List.getElem?_eq_getElem hj]

theorem joinAt_length (hij : i < j) (hj : j < parts.length) :
    (joinAt join parts i j).length = parts.length - 1 := by
  rw [joinAt_eq hij hj, List.length_eraseIdx_of_lt (by simpa using hj), List.length_set]

/-- The join stands in the place of the first. -/
theorem getElem?_joinAt_first (hij : i < j) (hj : j < parts.length) :
    (joinAt join parts i j)[i]? = some (join parts[i] parts[j]) := by
  rw [joinAt_eq hij hj, List.getElem?_eraseIdx_of_lt hij,
    List.getElem?_set_self (Nat.lt_trans hij hj)]

/-- Where an entry that is not joined goes. -/
theorem getElem?_joinAt_moved (hij : i < j) (hj : j < parts.length) (hki : k ≠ i) (hkj : k ≠ j) :
    (joinAt join parts i j)[moved (i, j) k]? = parts[k]? := by
  rw [joinAt_eq hij hj]
  unfold moved
  rw [if_neg hkj]
  rcases Nat.lt_or_ge k j with hLess | hMore
  · rw [if_pos hLess, List.getElem?_eraseIdx_of_lt hLess, List.getElem?_set_ne hki.symm]
  · rw [if_neg (Nat.not_lt.mpr hMore), List.getElem?_eraseIdx_of_ge (by omega),
      List.getElem?_set_ne (by omega), show k - 1 + 1 = k by omega]

theorem moved_first (hij : i < j) : moved (i, j) i = i := by
  unfold moved
  rw [if_neg (Nat.ne_of_lt hij), if_pos hij]

theorem moved_second : moved (i, j) j = i := if_pos rfl

theorem moved_ne_first (hij : i < j) (hki : k ≠ i) (hkj : k ≠ j) : moved (i, j) k ≠ i := by
  unfold moved
  rw [if_neg hkj]
  split
  · exact hki
  · show k - 1 ≠ i
    omega

/-- Every entry there is afterwards is the join or was there before. -/
theorem exists_moved (hij : i < j) (hj : j < parts.length) {k' : Nat} {x : α}
    (h : (joinAt join parts i j)[k']? = some x) :
    k' = i ∧ x = join parts[i] parts[j] ∨
      ∃ k, k ≠ i ∧ k ≠ j ∧ moved (i, j) k = k' ∧ parts[k]? = some x := by
  by_cases hk : k' = i
  · subst hk
    rw [getElem?_joinAt_first hij hj, Option.some.injEq] at h
    exact .inl ⟨rfl, h.symm⟩
  · right
    -- the position before the second was taken out
    have hBack : ∃ k, k ≠ i ∧ k ≠ j ∧ moved (i, j) k = k' := by
      rcases Nat.lt_or_ge k' j with hLess | hMore
      · refine ⟨k', hk, by omega, ?_⟩
        unfold moved
        rw [if_neg (Nat.ne_of_lt hLess), if_pos hLess]
      · refine ⟨k' + 1, by omega, by omega, ?_⟩
        unfold moved
        rw [if_neg (by simp only; omega), if_neg (by simp only; omega)]
        rfl
    obtain ⟨k, hki, hkj, rfl⟩ := hBack
    rw [getElem?_joinAt_moved hij hj hki hkj] at h
    exact ⟨k, hki, hkj, rfl, h⟩

end One

-- ---------------------------------------------------------------------------
-- What meets
-- ---------------------------------------------------------------------------

/-- A join meets whatever either of its two met. -/
structure Grows (join : α → α → α) (meet : α → α → Prop) : Prop where
  symm : ∀ {a b}, meet a b → meet b a
  left : ∀ {a b c}, meet a c → meet (join a b) c
  right : ∀ {a b c}, meet b c → meet (join a b) c

/-- No two of the entries meet. -/
def Apart (meet : α → α → Prop) (parts : List α) : Prop :=
  ∀ (k l : Nat) (x y : α), k ≠ l → parts[k]? = some x → parts[l]? = some y → ¬meet x y

/-- Two entries that meet land in the same one. -/
def LandTogether (meet : α → α → Prop) (parts : List α) (joins : List (Nat × Nat)) : Prop :=
  ∀ (k l : Nat) (x y : α), k ≠ l → parts[k]? = some x → parts[l]? = some y → meet x y →
    landing joins k = landing joins l

/-- **Taken in.** Whatever a join meets beside its two is joined with it by a
later one. -/
def TakenIn (join : α → α → α) (meet : α → α → Prop) : List α → List (Nat × Nat) → Prop
  | _, [] => True
  | parts, ij :: joins =>
    (∀ (k : Nat) (a b x : α), k ≠ ij.1 → k ≠ ij.2 → parts[ij.1]? = some a →
        parts[ij.2]? = some b → parts[k]? = some x → meet (join a b) x →
        landing joins (moved ij k) = landing joins ij.1) ∧
      TakenIn join meet (joinAt join parts ij.1 ij.2) joins

section Meeting

variable {join : α → α → α} {meet : α → α → Prop} {parts : List α}

/-- One entry has none to meet. -/
theorem apart_of_length_le_one (h : parts.length ≤ 1) : Apart meet parts := by
  intro k l x y hne hx hy
  obtain ⟨hk, -⟩ := List.getElem?_eq_some_iff.mp hx
  obtain ⟨hl, -⟩ := List.getElem?_eq_some_iff.mp hy
  omega

theorem apart_iff_pairwise (hSymm : ∀ {a b}, meet a b → meet b a) :
    Apart meet parts ↔ parts.Pairwise fun a b => ¬meet a b := by
  rw [List.pairwise_iff_getElem]
  constructor
  · intro h k l hk hl hLess
    exact h k l _ _ (Nat.ne_of_lt hLess) (List.getElem?_eq_getElem hk) (List.getElem?_eq_getElem hl)
  · intro h k l x y hne hx hy hMeet
    obtain ⟨hk, rfl⟩ := List.getElem?_eq_some_iff.mp hx
    obtain ⟨hl, rfl⟩ := List.getElem?_eq_some_iff.mp hy
    rcases Nat.lt_or_gt_of_ne hne with hLess | hMore
    · exact h k l hk hl hLess hMeet
    · exact h l k hl hk hMore (hSymm hMeet)

/-- An entry met is met where it lands. -/
theorem exists_meets (hGrows : Grows join meet) {i j : Nat} (hij : i < j) (hj : j < parts.length)
    {k : Nat} {x : α} (hx : parts[k]? = some x) :
    ∃ x', (joinAt join parts i j)[moved (i, j) k]? = some x' ∧ ∀ c, meet x c → meet x' c := by
  by_cases hki : k = i
  · subst hki
    refine ⟨_, by rw [moved_first hij]; exact getElem?_joinAt_first hij hj, fun c hMeet => ?_⟩
    obtain ⟨_, rfl⟩ := List.getElem?_eq_some_iff.mp hx
    exact hGrows.left hMeet
  · by_cases hkj : k = j
    · subst hkj
      refine ⟨_, by rw [moved_second]; exact getElem?_joinAt_first hij hj, fun c hMeet => ?_⟩
      obtain ⟨_, rfl⟩ := List.getElem?_eq_some_iff.mp hx
      exact hGrows.right hMeet
    · exact ⟨x, by rw [getElem?_joinAt_moved hij hj hki hkj, hx], fun _ => id⟩

/-- What meets after a join met before it, or meets the join. -/
theorem landTogether_joinAt_iff (hGrows : Grows join meet) {i j : Nat} {joins : List (Nat × Nat)}
    (hij : i < j) (hj : j < parts.length) :
    LandTogether meet (joinAt join parts i j) joins ↔
      LandTogether meet parts ((i, j) :: joins) ∧
        ∀ (k : Nat) (a b x : α), k ≠ i → k ≠ j → parts[i]? = some a → parts[j]? = some b →
          parts[k]? = some x → meet (join a b) x →
          landing joins (moved (i, j) k) = landing joins i := by
  have hBox := @getElem?_joinAt_first α join parts i j hij hj
  constructor
  · intro h
    refine ⟨fun k l x y hne hx hy hMeet => ?_, fun k a b x hki hkj ha hb hx hMeet => ?_⟩
    · show landing joins (moved (i, j) k) = landing joins (moved (i, j) l)
      obtain ⟨x', hx', hx⟩ := exists_meets hGrows hij hj hx
      obtain ⟨y', hy', hy⟩ := exists_meets hGrows hij hj hy
      by_cases hSame : moved (i, j) k = moved (i, j) l
      · rw [hSame]
      · exact h _ _ x' y' hSame hx' hy' (hGrows.symm (hy _ (hGrows.symm (hx _ hMeet))))
    · obtain ⟨_, rfl⟩ := List.getElem?_eq_some_iff.mp ha
      obtain ⟨_, rfl⟩ := List.getElem?_eq_some_iff.mp hb
      have hMoved : (joinAt join parts i j)[moved (i, j) k]? = some x := by
        rw [getElem?_joinAt_moved hij hj hki hkj, hx]
      exact h _ _ _ _ (moved_ne_first hij hki hkj) hMoved hBox (hGrows.symm hMeet)
  · rintro ⟨hBefore, hMade⟩ k' l' x y hne hk hl hMeet
    have ha := List.getElem?_eq_getElem (Nat.lt_trans hij hj)
    have hb := List.getElem?_eq_getElem hj
    obtain ⟨rfl, rfl⟩ | ⟨k, hki, hkj, rfl, hx⟩ := exists_moved hij hj hk
    · obtain ⟨rfl, -⟩ | ⟨l, hli, hlj, rfl, hy⟩ := exists_moved hij hj hl
      · exact absurd rfl hne
      · exact (hMade l _ _ y hli hlj ha hb hy hMeet).symm
    · obtain ⟨rfl, rfl⟩ | ⟨l, hli, hlj, rfl, hy⟩ := exists_moved hij hj hl
      · exact hMade k _ _ x hki hkj ha hb hx (hGrows.symm hMeet)
      · refine hBefore k l x y ?_ hx hy hMeet
        rintro rfl
        exact hne rfl

/-- **Nothing left meets** exactly when whatever met at the start, or met a join
once it was made, lands together. -/
theorem apart_joinAll_iff (hGrows : Grows join meet) {joins : List (Nat × Nat)}
    (hValid : Valid parts.length joins) :
    Apart meet (joinAll join parts joins) ↔
      LandTogether meet parts joins ∧ TakenIn join meet parts joins := by
  induction joins generalizing parts with
  | nil =>
    constructor
    · intro h
      exact ⟨fun k l x y hne hx hy hMeet => absurd hMeet (h k l x y hne hx hy), trivial⟩
    · rintro ⟨h, -⟩ k l x y hne hx hy hMeet
      exact hne (h k l x y hne hx hy hMeet)
  | cons ij joins ih =>
    obtain ⟨i, j⟩ := ij
    obtain ⟨hij, hj, hRest⟩ := hValid
    have hLength := @joinAt_length α join parts i j hij hj
    show Apart meet (joinAll join (joinAt join parts i j) joins) ↔ _
    rw [ih (by rwa [hLength]), landTogether_joinAt_iff hGrows hij hj, and_assoc]
    rfl

/-- Entries that stand apart are left apart exactly when every join takes in
whatever it meets. -/
theorem apart_joinAll_iff_of_apart (hGrows : Grows join meet) {joins : List (Nat × Nat)}
    (hValid : Valid parts.length joins) (hApart : Apart meet parts) :
    Apart meet (joinAll join parts joins) ↔ TakenIn join meet parts joins := by
  rw [apart_joinAll_iff hGrows hValid]
  refine ⟨fun h => h.2, fun h => ⟨fun k l x y hne hx hy hMeet => ?_, h⟩⟩
  exact absurd hMeet (hApart k l x y hne hx hy)

end Meeting

-- ---------------------------------------------------------------------------
-- What every entry has
-- ---------------------------------------------------------------------------

section All

variable {join : α → α → α} {P : α → Prop} {parts : List α}

/-- What a join keeps, joining keeps of every entry. -/
theorem forall_joinAt (hJoin : ∀ a b, P a → P b → P (join a b)) (h : ∀ a ∈ parts, P a)
    (i j : Nat) : ∀ a ∈ joinAt join parts i j, P a := by
  unfold joinAt
  split
  · rename_i a b ha hb
    intro x hx
    rcases List.mem_or_eq_of_mem_set (List.mem_of_mem_eraseIdx hx) with hOld | rfl
    · exact h x hOld
    · exact hJoin a b (h a (List.mem_of_getElem? ha)) (h b (List.mem_of_getElem? hb))
  · exact h

theorem forall_joinAll (hJoin : ∀ a b, P a → P b → P (join a b)) (h : ∀ a ∈ parts, P a)
    (joins : List (Nat × Nat)) : ∀ a ∈ joinAll join parts joins, P a := by
  induction joins generalizing parts with
  | nil => exact h
  | cons ij joins ih => exact ih (forall_joinAt hJoin h ij.1 ij.2)

/-- A schedule of joins takes out an entry each. -/
theorem joinAll_length {joins : List (Nat × Nat)} (hValid : Valid parts.length joins) :
    (joinAll join parts joins).length = parts.length - joins.length := by
  induction joins generalizing parts with
  | nil => rfl
  | cons ij joins ih =>
    obtain ⟨hij, hj, hRest⟩ := hValid
    have hLength := @joinAt_length α join parts ij.1 ij.2 hij hj
    show (joinAll join (joinAt join parts ij.1 ij.2) joins).length = _
    rw [ih (by rwa [hLength]), hLength, List.length_cons]
    omega

theorem joinAll_append (joins joins' : List (Nat × Nat)) :
    joinAll join parts (joins ++ joins') = joinAll join (joinAll join parts joins) joins' :=
  List.foldl_append

/-- What an entry has and a join keeps, the entry it lands in has. -/
theorem exists_landing (hLeft : ∀ a b, P a → P (join a b)) (hRight : ∀ a b, P b → P (join a b))
    {joins : List (Nat × Nat)} (hValid : Valid parts.length joins) {k : Nat} {x : α}
    (hx : parts[k]? = some x) (hP : P x) :
    ∃ x', (joinAll join parts joins)[landing joins k]? = some x' ∧ P x' := by
  induction joins generalizing parts k x with
  | nil => exact ⟨x, hx, hP⟩
  | cons ij joins ih =>
    obtain ⟨i, j⟩ := ij
    obtain ⟨hij, hj, hRest⟩ := hValid
    have hLength := @joinAt_length α join parts i j hij hj
    have hMoved : ∃ x', (joinAt join parts i j)[moved (i, j) k]? = some x' ∧ P x' := by
      by_cases hki : k = i
      · subst hki
        obtain ⟨_, rfl⟩ := List.getElem?_eq_some_iff.mp hx
        exact ⟨_, by rw [moved_first hij]; exact getElem?_joinAt_first hij hj, hLeft _ _ hP⟩
      · by_cases hkj : k = j
        · subst hkj
          obtain ⟨_, rfl⟩ := List.getElem?_eq_some_iff.mp hx
          exact ⟨_, by rw [moved_second]; exact getElem?_joinAt_first hij hj, hRight _ _ hP⟩
        · exact ⟨x, by rw [getElem?_joinAt_moved hij hj hki hkj, hx], hP⟩
    obtain ⟨x', hx', hP'⟩ := hMoved
    exact ih (by rwa [hLength]) hx' hP'

/-- Every entry left is one that an entry lands in. -/
theorem exists_lands {joins : List (Nat × Nat)} (hValid : Valid parts.length joins) {k' : Nat}
    (hk : k' < (joinAll join parts joins).length) :
    ∃ k < parts.length, landing joins k = k' := by
  induction joins generalizing parts with
  | nil => exact ⟨k', hk, rfl⟩
  | cons ij joins ih =>
    obtain ⟨i, j⟩ := ij
    obtain ⟨hij, hj, hRest⟩ := hValid
    have hLength := @joinAt_length α join parts i j hij hj
    obtain ⟨k₁, hk₁, hLands⟩ := @ih (joinAt join parts i j) (by rwa [hLength]) hk
    obtain ⟨rfl, -⟩ | ⟨k, -, -, rfl, hx⟩ :=
      exists_moved hij hj (List.getElem?_eq_getElem hk₁)
    · refine ⟨k₁, Nat.lt_trans hij hj, ?_⟩
      show landing joins (moved (k₁, j) k₁) = k'
      rw [moved_first hij, hLands]
    · obtain ⟨hk, -⟩ := List.getElem?_eq_some_iff.mp hx
      exact ⟨k, hk, hLands⟩

end All

-- ---------------------------------------------------------------------------
-- Groups of entries that meet
-- ---------------------------------------------------------------------------

/-- Entries that meet, one after the other, lead from one position to another. -/
def Linked (meet : α → α → Prop) (parts : List α) : Nat → Nat → Prop :=
  Relation.ReflTransGen fun k l =>
    ∃ x y, parts[k]? = some x ∧ parts[l]? = some y ∧ meet x y

/-- The entries are in so many groups at most: that many positions, and every
position is linked with one of them. -/
def InGroups (meet : α → α → Prop) (parts : List α) (n : Nat) : Prop :=
  ∃ first : List Nat, first.length ≤ n ∧
    ∀ k < parts.length, ∃ l ∈ first, Linked meet parts k l

section Groups

variable {join : α → α → α} {meet : α → α → Prop} {parts : List α} {joins : List (Nat × Nat)}

/-- Where nothing left meets, what is linked lands in one entry. -/
theorem landing_eq_of_linked (hGrows : Grows join meet) (hValid : Valid parts.length joins)
    (hApart : Apart meet (joinAll join parts joins)) {k l : Nat} (h : Linked meet parts k l) :
    landing joins k = landing joins l := by
  have hTogether := ((apart_joinAll_iff hGrows hValid).mp hApart).1
  induction h with
  | refl => rfl
  | @tail l m _ hMeets ih =>
    obtain ⟨x, y, hx, hy, hMeet⟩ := hMeets
    by_cases hSame : l = m
    · rw [ih, hSame]
    · exact ih.trans (hTogether l m x y hSame hx hy hMeet)

/-- **No more are left than there were groups.** -/
theorem joinAll_length_le (hGrows : Grows join meet) (hValid : Valid parts.length joins)
    (hApart : Apart meet (joinAll join parts joins)) {n : Nat} (h : InGroups meet parts n) :
    (joinAll join parts joins).length ≤ n := by
  obtain ⟨first, hFirst, hLinked⟩ := h
  have hLands : List.range (joinAll join parts joins).length ⊆ first.map (landing joins) := by
    intro k' hk'
    obtain ⟨k, hk, rfl⟩ := exists_lands hValid (List.mem_range.mp hk')
    obtain ⟨l, hl, hLink⟩ := hLinked k hk
    exact List.mem_map.mpr ⟨l, hl, (landing_eq_of_linked hGrows hValid hApart hLink).symm⟩
  have hFew := (List.nodup_range.subperm hLands).length_le
  rw [List.length_range, List.length_map] at hFew
  exact Nat.le_trans hFew hFirst

end Groups

end Joining
