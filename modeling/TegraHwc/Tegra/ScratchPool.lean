import TegraHwc.Lib.Rotation
import Mathlib.Data.List.Induction

/-!
# TegraHwc — the merge engine's slots

`tegra/ScratchPool.cpp`: the buffers the merge engine draws into, strictly in
turn. `Next` hands out the slot whose turn it is with the fence that says when
it may be written, `Rewind` gives the turn back, and `Presented` says that the
slot last handed out went up against a fence.

## Results

* `next_rewind`  — a turn given back and taken again hands out the same slot
  with the same fence.
* `turns_keeps`  — a pool whose every turn was ended knows what is on the
  panel, and what replaced each slot there.
* `next_safe`    — the slot handed out is not on the panel, and its fence is
  the one of the frame that replaced it.
-/

namespace TegraHwc

open Rotation

/-- `ScratchPool`. -/
abbrev ScratchPool (F : Type) := Slots F

namespace ScratchPool

variable {F : Type}

/-- `Create`: so many slots, none of them ever shown. -/
def create (n : Nat) : ScratchPool F := Slots.ofSize n

/-- `Next`: the slot whose turn it is, with the fence it is free at. -/
def next (pool : ScratchPool F) : Option (Nat × Option F) × ScratchPool F :=
  if pool.size = 0 then (none, pool)
  else (some (Slots.next pool, pool.ready (Slots.next pool)), pool.advance)

/-- `Rewind`. -/
def rewind (pool : ScratchPool F) : ScratchPool F :=
  if pool.size = 0 then pool else pool.retreat

/-- `Presented`. -/
def presented (pool : ScratchPool F) (fence : F) : ScratchPool F := pool.present (some fence)

-- ---------------------------------------------------------------------------
-- What is asked of a pool
-- ---------------------------------------------------------------------------

/-- One call of the pool. -/
inductive Op (F : Type) where
  | next
  | rewind
  | presented (fence : F)
  deriving DecidableEq, Repr

/-- The pool after a call. -/
def after (pool : ScratchPool F) : Op F → ScratchPool F
  | .next => pool.next.2
  | .rewind => pool.rewind
  | .presented fence => pool.presented fence

/-- The pool after some calls, the oldest first. -/
def afterAll (pool : ScratchPool F) (ops : List (Op F)) : ScratchPool F := ops.foldl after pool

/-- Calls in which each `Next` is followed by exactly one of `Presented` and
`Rewind`, and neither comes without it; and whether the last turn taken is
still to be ended. -/
inductive Turns : List (Op F) → Bool → Prop
  | nil : Turns [] false
  | next {ops : List (Op F)} (hBefore : Turns ops false) : Turns (ops ++ [.next]) true
  | rewind {ops : List (Op F)} (hBefore : Turns ops true) : Turns (ops ++ [.rewind]) false
  | presented {ops : List (Op F)} (hBefore : Turns ops true) (fence : F) :
      Turns (ops ++ [.presented fence]) false

/-- The frames shown by some calls, newest first: which slot, against which
fence. -/
def shows (pool : ScratchPool F) (ops : List (Op F)) : Shows F :=
  (ops.foldl (fun (st : ScratchPool F × Shows F) op =>
    (st.1.after op,
      match op with
      | .presented fence => (st.1.at_, some fence) :: st.2
      | .next | .rewind => st.2)) (pool, [])).2

@[simp] theorem afterAll_nil (pool : ScratchPool F) : pool.afterAll [] = pool := rfl

@[simp] theorem afterAll_snoc (pool : ScratchPool F) (ops : List (Op F)) (op : Op F) :
    pool.afterAll (ops ++ [op]) = (pool.afterAll ops).after op := by
  simp [afterAll]

@[simp] theorem shows_nil (pool : ScratchPool F) : pool.shows [] = [] := rfl

/-- A call more shows a frame more, or the same frames. -/
theorem shows_snoc (pool : ScratchPool F) (ops : List (Op F)) (op : Op F) :
    pool.shows (ops ++ [op]) =
      match op with
      | .presented fence => ((pool.afterAll ops).at_, some fence) :: pool.shows ops
      | .next | .rewind => pool.shows ops := by
  have hPool : ∀ (ops : List (Op F)) (st : ScratchPool F × Shows F),
      (ops.foldl (fun (st : ScratchPool F × Shows F) op =>
        (st.1.after op,
          match op with
          | .presented fence => (st.1.at_, some fence) :: st.2
          | .next | .rewind => st.2)) st).1 = st.1.afterAll ops := by
    intro ops
    induction ops with
    | nil => exact fun _ => rfl
    | cons op ops ih => exact fun st => ih _
  unfold shows
  rw [List.foldl_append]
  cases op with
  | next => rfl
  | rewind => rfl
  | presented fence =>
    show (_, _) :: _ = _
    rw [hPool]

/-- Every frame was shown against a fence. -/
theorem shows_fenced (pool : ScratchPool F) (ops : List (Op F)) :
    ∀ frame ∈ pool.shows ops, frame.2 ≠ none := by
  induction ops using List.reverseRecOn with
  | nil => simp
  | append_singleton ops op ih =>
    rw [shows_snoc]
    cases op with
    | next => exact ih
    | rewind => exact ih
    | presented fence =>
      intro frame hFrame
      rcases List.mem_cons.mp hFrame with rfl | hFrame
      · exact Option.some_ne_none fence
      · exact ih frame hFrame

-- ---------------------------------------------------------------------------
-- Over every sequence of turns
-- ---------------------------------------------------------------------------

/-- A turn given back and taken again hands out the same slot with the same
fence. -/
theorem next_rewind {pool : ScratchPool F} (h : pool.at_ < pool.size) :
    (pool.next.2.rewind).next = pool.next := by
  have hSome : pool.size ≠ 0 := by omega
  have hBack : pool.next.2.rewind = pool := by
    unfold rewind next
    rw [if_neg hSome]
    show (if pool.advance.size = 0 then pool.advance else pool.advance.retreat) = pool
    rw [Slots.size_advance, if_neg hSome, retreat_advance h]
  rw [hBack]

/-- The pool after its turns: its size, what it knows of the panel, and how far
it is ahead of the slot shown there. -/
structure Kept (n : Nat) (ops : List (Op F)) (outstanding : Bool) : Prop where
  size : ((create n : ScratchPool F).afterAll ops).size = n
  keeps : Keeps ((create n : ScratchPool F).afterAll ops) ((create n).shows ops)
  ahead : Ahead ((create n : ScratchPool F).afterAll ops) (if outstanding then 1 else 0)

/-- Every turn ended leaves the slot last handed out on the panel, or the turn
where it was. -/
theorem turns_keeps {n : Nat} (hn : 0 < n) {ops : List (Op F)} {outstanding : Bool}
    (hTurns : Turns ops outstanding) : Kept n ops outstanding := by
  induction hTurns with
  | nil => exact ⟨Slots.size_ofSize n, keeps_ofSize hn, ahead_ofSize⟩
  | @next ops _ ih =>
    have hAfter : (create n : ScratchPool F).afterAll (ops ++ [.next])
        = ((create n : ScratchPool F).afterAll ops).advance := by
      rw [afterAll_snoc]
      unfold after next
      rw [if_neg (by rw [ih.size]; omega)]
    refine ⟨?_, ?_, ?_⟩
    · rw [hAfter, Slots.size_advance, ih.size]
    · rw [hAfter, shows_snoc]
      exact keeps_advance ih.keeps
    · rw [hAfter]
      exact ahead_advance ih.ahead
  | @rewind ops _ ih =>
    have hAfter : (create n : ScratchPool F).afterAll (ops ++ [.rewind])
        = ((create n : ScratchPool F).afterAll ops).retreat := by
      rw [afterAll_snoc]
      unfold after rewind
      rw [if_neg (by rw [ih.size]; omega)]
    refine ⟨?_, ?_, ?_⟩
    · rw [hAfter, Slots.size_retreat, ih.size]
    · rw [hAfter, shows_snoc]
      exact keeps_retreat ih.keeps
    · rw [hAfter]
      exact ahead_retreat (by rw [ih.size]; exact hn) ih.ahead
  | @presented ops _ fence ih =>
    have hAfter : (create n : ScratchPool F).afterAll (ops ++ [.presented fence])
        = ((create n : ScratchPool F).afterAll ops).present (some fence) := by
      rw [afterAll_snoc]
      rfl
    refine ⟨?_, ?_, ?_⟩
    · rw [hAfter, Slots.size_present, ih.size]
    · rw [hAfter, shows_snoc]
      exact keeps_present ih.keeps (some fence)
    · rw [hAfter]
      exact ahead_present ih.keeps (some fence)

/-- Where every frame had a fence, no fence is kept for a slot exactly when no
frame replaced it. -/
theorem replacedBy_fenced {shows : Shows F} (hFenced : ∀ frame ∈ shows, frame.2 ≠ none)
    (k : Nat) : replacedBy shows k ≠ some none := by
  induction shows with
  | nil => simp [replacedBy]
  | cons first rest ih =>
    cases rest with
    | nil => simp [replacedBy]
    | cons second rest =>
      unfold replacedBy
      split
      · simp
      split
      · intro hEq
        exact hFenced first (by simp) (Option.some.inj hEq)
      · exact ih fun frame hFrame => hFenced frame (List.mem_cons_of_mem _ hFrame)

/-- What `Next` must keep to, of the frames shown before it: the slot handed
out is not on the panel, and its fence is the one of the frame that replaced
its last showing. -/
structure Safe (shows : Shows F) (slot : Nat) (ready : Option F) : Prop where
  hidden : shows.head?.map Prod.fst ≠ some slot
  fence : ∀ f, ready = some f ↔ replacedBy shows slot = some (some f)
  /-- None exactly where it was never shown and then replaced. -/
  unshown : ready = none ↔ replacedBy shows slot = none

/-- **The slot handed out is safe to draw into.** -/
theorem next_safe {n : Nat} (hn : 2 ≤ n) {ops : List (Op F)} (hTurns : Turns ops false) :
    ∃ slot ready, ((create n : ScratchPool F).afterAll ops).next.1 = some (slot, ready) ∧
      Safe ((create n : ScratchPool F).shows ops) slot ready := by
  obtain ⟨hSize, hKeeps, hAhead⟩ := turns_keeps (by omega : 0 < n) hTurns
  set pool := (create n : ScratchPool F).afterAll ops with hPool
  have hLt : Slots.next pool < pool.size := Nat.mod_lt _ (by omega)
  have hReady := hKeeps.freed (Slots.next pool) hLt
  have hFenced := replacedBy_fenced (shows_fenced (create n : ScratchPool F) ops)
    (Slots.next pool)
  refine ⟨Slots.next pool, pool.ready (Slots.next pool), ?_, ?_, ?_, ?_⟩
  · unfold next
    rw [if_neg (by omega)]
  · rw [hKeeps.shown]
    intro hEq
    split at hEq
    · -- one turn ahead of the panel is no whole turn of two slots or more
      have hOne := (next_eq_showing_iff hKeeps hAhead).mp (Option.some.inj hEq).symm
      rw [hSize, if_neg Bool.false_ne_true, Nat.zero_add, Nat.mod_eq_of_lt (by omega)] at hOne
      omega
    · cases hEq
  · intro f
    rw [hReady]
    cases hReplaced : replacedBy ((create n : ScratchPool F).shows ops) (Slots.next pool) with
    | none => simp
    | some fence => simp
  · rw [hReady]
    cases hReplaced : replacedBy ((create n : ScratchPool F).shows ops) (Slots.next pool) with
    | none => simp
    | some fence =>
      cases fence with
      | none => exact absurd hReplaced hFenced
      | some f => simp

end ScratchPool

end TegraHwc
