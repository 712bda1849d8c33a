import Mathlib.Data.List.Induction
import Mathlib.Data.List.Pairwise
import Mathlib.Tactic.Common

/-!
# Thinning — a list thinned from its start

Each element of a list is kept where none kept before it is close to it.
Closeness need not be transitive, so what is kept depends on the order.

## Results

* `thin_pairwise` — of two elements kept, the first is not close to the second.
* `exists_close`  — every element dropped has one kept that is close to it.
* `mem_thin_iff`  — an element is kept just where none kept before it is close.
-/

namespace Thinning

variable {α : Type*} (close : α → α → Bool)

/-- The next element, after those kept. -/
def keep (kept : List α) (x : α) : List α :=
  if kept.any (close · x) then kept else kept ++ [x]

/-- What is kept of a list. -/
def thin (l : List α) : List α := l.foldl (keep close) []

variable {close} {l m : List α} {x : α}

@[simp] theorem thin_nil : thin close ([] : List α) = [] := rfl

@[simp] theorem thin_concat : thin close (l ++ [x]) = keep close (thin close l) x := by
  unfold thin
  rw [List.foldl_append]
  rfl

/-- What is close to none kept is kept. -/
theorem keep_far (h : ∀ y ∈ l, close y x = false) : keep close l x = l ++ [x] := by
  unfold keep
  rw [if_neg]
  simpa using h

/-- What is close to one kept is dropped. -/
theorem keep_close {y : α} (hy : y ∈ l) (h : close y x = true) : keep close l x = l := by
  unfold keep
  rw [if_pos (List.any_eq_true.mpr ⟨y, hy, h⟩)]

/-- Whether an element is dropped can be asked of those kept. -/
theorem keep_cases :
    (∃ y ∈ l, close y x = true) ∧ keep close l x = l ∨
      (∀ y ∈ l, close y x = false) ∧ keep close l x = l ++ [x] := by
  by_cases h : ∃ y ∈ l, close y x = true
  · obtain ⟨y, hy, hClose⟩ := h
    exact .inl ⟨⟨y, hy, hClose⟩, keep_close hy hClose⟩
  · have hFar : ∀ y ∈ l, close y x = false := fun y hy =>
      Bool.eq_false_iff.mpr fun hClose => h ⟨y, hy, hClose⟩
    exact .inr ⟨hFar, keep_far hFar⟩

/-- What is kept of a list stays kept as the list goes on. -/
theorem thin_of_initial : thin close l <+: thin close (l ++ m) := by
  induction m using List.reverseRecOn with
  | nil =>
    simp
  | append_singleton m x ih =>
    rw [← List.append_assoc, thin_concat]
    obtain ⟨-, hSame⟩ | ⟨-, hMore⟩ := @keep_cases _ close (thin close (l ++ m)) x
    · rw [hSame]
      exact ih
    · rw [hMore]
      exact ih.trans (List.prefix_append _ _)

theorem thin_sublist : (thin close l).Sublist l := by
  induction l using List.reverseRecOn with
  | nil => exact List.Sublist.refl _
  | append_singleton l x ih =>
    rw [thin_concat]
    obtain ⟨-, hSame⟩ | ⟨-, hMore⟩ := @keep_cases _ close (thin close l) x
    · rw [hSame]
      exact ih.trans (List.sublist_append_left _ _)
    · rw [hMore]
      exact ih.append (List.Sublist.refl _)

/-- **What is kept lies apart.** -/
theorem thin_pairwise : (thin close l).Pairwise fun y x => close y x = false := by
  induction l using List.reverseRecOn with
  | nil => exact List.Pairwise.nil
  | append_singleton l x ih =>
    rw [thin_concat]
    obtain ⟨-, hSame⟩ | ⟨hFar, hMore⟩ := @keep_cases _ close (thin close l) x
    · rw [hSame]
      exact ih
    · rw [hMore, List.pairwise_append]
      refine ⟨ih, List.pairwise_singleton _ _, fun y hy z hz => ?_⟩
      obtain rfl := List.mem_singleton.mp hz
      exact hFar y hy

/-- Where closeness goes both ways, so does lying apart. -/
theorem thin_apart (hComm : ∀ a b, close a b = close b a) {y : α} (hx : x ∈ thin close l)
    (hy : y ∈ thin close l) (hNe : x ≠ y) : close x y = false :=
  have : Std.Symm fun a b => close a b = false := ⟨fun a b h => (hComm b a).trans h⟩
  thin_pairwise.forall hx hy hNe

/-- **What is dropped has a neighbour kept.** -/
theorem exists_close (hx : x ∈ l) (hDropped : x ∉ thin close l) :
    ∃ y ∈ thin close l, close y x = true := by
  induction l using List.reverseRecOn with
  | nil => cases hx
  | append_singleton l z ih =>
    rw [thin_concat] at hDropped ⊢
    have hKept : thin close l <+: keep close (thin close l) z := by
      rw [← thin_concat]
      exact thin_of_initial
    rcases List.mem_append.mp hx with hEarlier | hLast
    · obtain ⟨y, hy, hClose⟩ := ih hEarlier fun h => hDropped (hKept.subset h)
      exact ⟨y, hKept.subset hy, hClose⟩
    · obtain rfl := List.mem_singleton.mp hLast
      obtain ⟨⟨y, hy, hClose⟩, -⟩ | ⟨-, hMore⟩ := @keep_cases _ close (thin close l) x
      · exact ⟨y, hKept.subset hy, hClose⟩
      · rw [hMore] at hDropped
        exact absurd (List.mem_append_right _ (List.mem_singleton_self x)) hDropped

/-- **When an element is kept**: just where none kept before it is close. -/
theorem mem_thin_iff (hOnce : (l ++ x :: m).Nodup) :
    x ∈ thin close (l ++ x :: m) ↔ ∀ y ∈ thin close l, close y x = false := by
  rw [List.append_cons] at hOnce ⊢
  obtain ⟨hFirst, -, -⟩ := List.nodup_append.mp hOnce
  have hNew : x ∉ thin close l := fun h =>
    (List.nodup_append.mp hFirst).2.2 x (thin_sublist.subset h) x (List.mem_singleton_self x) rfl
  constructor
  · intro hKept y hy
    have hBefore : x ∈ thin close (l ++ [x]) := by
      by_contra hDropped
      obtain ⟨z, hz, hClose⟩ := exists_close (List.mem_append_right l (List.mem_singleton_self x))
        hDropped
      obtain ⟨later, hLater⟩ := @thin_of_initial _ close (l ++ [x]) m
      have hPairs := @thin_pairwise _ close (l ++ [x] ++ m)
      rw [← hLater] at hKept hPairs
      rcases List.mem_append.mp hKept with h | h
      · exact hDropped h
      · rw [(List.pairwise_append.mp hPairs).2.2 z hz x h] at hClose
        cases hClose
    rw [thin_concat] at hBefore
    obtain ⟨-, hSame⟩ | ⟨hFar, -⟩ := @keep_cases _ close (thin close l) x
    · rw [hSame] at hBefore
      exact absurd hBefore hNew
    · exact hFar y hy
  · intro hFar
    refine thin_of_initial.subset ?_
    rw [thin_concat, keep_far hFar]
    exact List.mem_append_right _ (List.mem_singleton_self x)

end Thinning
