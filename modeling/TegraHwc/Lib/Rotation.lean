import Mathlib.Data.List.Basic
import Mathlib.Data.Nat.ModEq
import Mathlib.Tactic.Common

/-!
# Rotation — buffers taken strictly in turn

A ring of buffers drawn into one after another while a reader shows one of
them. The ring keeps the index last handed out, the buffer being shown and,
for each buffer, the fence of the show that took it off the screen. A buffer
is lent out with that fence beside it; the borrower waits, the ring does not.

Nothing here says who draws or who shows. `F` is any type of fences, and a
show may come without one.

## Results

* `Keeps` with `keeps_advance`, `keeps_retreat`, `keeps_present` — the fence
  kept for a buffer is the one that replaced its last showing, whatever the
  order of the three operations.
* `Ahead` with `ahead_advance`, `ahead_retreat`, `ahead_present` — how far
  the index has run ahead of the buffer being shown.
* `next_eq_showing_iff`  — the next buffer is the one being shown exactly
  when that distance is one short of a whole turn.
-/

namespace Rotation

variable {F : Type*}

/-- The ring: what frees each buffer, the one last handed out, the one being
shown. -/
structure Slots (F : Type*) where
  freed : List (Option F)
  at_ : Nat := 0
  showing : Nat := 0
  anythingShowing : Bool := false
  deriving DecidableEq, Repr

namespace Slots

/-- A ring of `n` buffers none of which was ever shown. -/
def ofSize (n : Nat) : Slots F := { freed := List.replicate n none }

/-- How many buffers there are. -/
def size (r : Slots F) : Nat := r.freed.length

/-- The buffer whose turn is next. -/
def next (r : Slots F) : Nat := (r.at_ + 1) % r.size

/-- The fence kept for a buffer. -/
def ready (r : Slots F) (k : Nat) : Option F := r.freed[k]?.join

/-- The next buffer takes its turn. -/
def advance (r : Slots F) : Slots F := { r with at_ := r.next }

/-- The last turn is given back. -/
def retreat (r : Slots F) : Slots F := { r with at_ := (r.at_ + r.size - 1) % r.size }

/-- The buffer last handed out goes up against `fence`, which frees the one
it replaces; nothing says yet what frees it itself. -/
def present (r : Slots F) (fence : Option F) : Slots F :=
  { r with
    freed :=
      (if r.anythingShowing then r.freed.set r.showing fence else r.freed).set r.at_ none
    showing := r.at_
    anythingShowing := true }

@[simp] theorem size_advance (r : Slots F) : r.advance.size = r.size := rfl

@[simp] theorem size_retreat (r : Slots F) : r.retreat.size = r.size := rfl

@[simp] theorem size_present (r : Slots F) (fence : Option F) :
    (r.present fence).size = r.size := by
  unfold present size
  split <;> simp

@[simp] theorem size_ofSize (n : Nat) : (ofSize n : Slots F).size = n := by
  simp [ofSize, size]

end Slots

-- ---------------------------------------------------------------------------
-- The fence kept for a buffer
-- ---------------------------------------------------------------------------

/-- The shows so far, newest first: which buffer, against which fence. -/
abbrev Shows (F : Type*) := List (Nat × Option F)

/-- The fence of the show that replaced the last showing of buffer `k`; none
while it is being shown still, or never was. -/
def replacedBy : Shows F → Nat → Option (Option F)
  | [], _ => none
  | [_], _ => none
  | (s, fence) :: (s', fence') :: rest, k =>
    if s = k then none
    else if s' = k then some fence
    else replacedBy ((s', fence') :: rest) k

/-- The ring keeps what its shows say. -/
structure Keeps (r : Slots F) (shows : Shows F) : Prop where
  at_lt : r.at_ < r.size
  showing_lt : r.showing < r.size
  shown : shows.head?.map Prod.fst = if r.anythingShowing then some r.showing else none
  freed : ∀ k < r.size, r.ready k = (replacedBy shows k).join

/-- A ring just made keeps the empty history. -/
theorem keeps_ofSize {n : Nat} (hn : 0 < n) : Keeps (Slots.ofSize n : Slots F) [] where
  at_lt := by
    rw [Slots.size_ofSize]
    exact hn
  showing_lt := by
    rw [Slots.size_ofSize]
    exact hn
  shown := rfl
  freed := by
    intro k hk
    rw [Slots.size_ofSize] at hk
    simp [Slots.ofSize, Slots.ready, hk, replacedBy]

/-- Taking a turn shows nothing. -/
theorem keeps_advance {r : Slots F} {shows : Shows F} (h : Keeps r shows) :
    Keeps r.advance shows :=
  { h with at_lt := Nat.mod_lt _ (Nat.zero_lt_of_lt h.at_lt) }

/-- Giving a turn back shows nothing. -/
theorem keeps_retreat {r : Slots F} {shows : Shows F} (h : Keeps r shows) :
    Keeps r.retreat shows :=
  { h with at_lt := Nat.mod_lt _ (Nat.zero_lt_of_lt h.at_lt) }

/-- A show frees the buffer it replaces, and nothing else changes hands. -/
theorem keeps_present {r : Slots F} {shows : Shows F} (h : Keeps r shows) (fence : Option F) :
    Keeps (r.present fence) ((r.at_, fence) :: shows) where
  at_lt := by
    rw [Slots.size_present]
    exact h.at_lt
  showing_lt := by
    rw [Slots.size_present]
    exact h.at_lt
  shown := rfl
  freed := by
    intro k hk
    rw [Slots.size_present] at hk
    have hOld := h.freed k hk
    have hShown := h.shown
    have hkLen : k < r.freed.length := hk
    by_cases hAt : r.at_ = k
    · -- the buffer just put up: no fence yet, and none is due
      have hNone : replacedBy ((r.at_, fence) :: shows) k = none := by
        cases shows with
        | nil => rfl
        | cons first rest => simp [replacedBy, hAt]
      rw [hNone]
      unfold Slots.present Slots.ready
      split <;> simp [hAt, hkLen]
    · unfold Slots.present Slots.ready
      rw [Slots.ready] at hOld
      cases shows with
      | nil =>
        have hNothing : r.anythingShowing = false := by simpa using hShown
        simp only [hNothing, Bool.false_eq_true, if_false, List.getElem?_set_ne hAt, hOld,
          replacedBy]
      | cons first rest =>
        obtain ⟨s, fence'⟩ := first
        have hAny : r.anythingShowing = true := by
          by_contra hNot
          simp [hNot] at hShown
        have hs : s = r.showing := by simpa [hAny] using hShown
        simp only [hAny, if_true, List.getElem?_set_ne hAt, replacedBy, hAt, if_false]
        by_cases hShowing : r.showing = k
        · -- the buffer this show replaces
          simp [hs, hShowing, hkLen]
        · rw [List.getElem?_set_ne hShowing, hOld, hs, if_neg hShowing]

-- ---------------------------------------------------------------------------
-- The distance from the buffer being shown
-- ---------------------------------------------------------------------------

/-- The index has taken `n` turns since the buffer being shown. -/
def Ahead (r : Slots F) (n : Nat) : Prop := r.at_ = (r.showing + n) % r.size

theorem ahead_ofSize {n : Nat} : Ahead (Slots.ofSize n : Slots F) 0 := by
  simp [Ahead, Slots.ofSize]

theorem ahead_advance {r : Slots F} {n : Nat} (h : Ahead r n) : Ahead r.advance (n + 1) := by
  unfold Ahead at *
  show (r.at_ + 1) % r.size = (r.showing + (n + 1)) % r.size
  rw [h, Nat.mod_add_mod, Nat.add_assoc]

theorem ahead_retreat {r : Slots F} {n : Nat} (hPos : 0 < r.size) (h : Ahead r (n + 1)) :
    Ahead r.retreat n := by
  unfold Ahead at *
  show (r.at_ + r.size - 1) % r.size = (r.showing + n) % r.size
  have hMod := Nat.mod_add_mod (r.showing + (n + 1)) r.size (r.size - 1)
  rw [← h] at hMod
  rw [Nat.add_sub_assoc hPos, hMod]
  have hSum : r.showing + (n + 1) + (r.size - 1) = r.showing + n + r.size := by omega
  rw [hSum, Nat.add_mod_right]

theorem ahead_present {r : Slots F} {shows : Shows F} (hKeeps : Keeps r shows)
    (fence : Option F) : Ahead (r.present fence) 0 := by
  unfold Ahead
  rw [Slots.size_present, Nat.add_zero]
  exact (Nat.mod_eq_of_lt hKeeps.at_lt).symm

/-- The next buffer is the one being shown exactly when the index is one
short of a whole turn ahead of it. -/
theorem next_eq_showing_iff {r : Slots F} {shows : Shows F} {n : Nat} (hKeeps : Keeps r shows)
    (h : Ahead r n) : r.next = r.showing ↔ (n + 1) % r.size = 0 := by
  have hlt := hKeeps.showing_lt
  have hNext : r.next = (r.showing + (n + 1)) % r.size := ahead_advance h
  rw [hNext]
  constructor
  · intro hEq
    have hMod : (r.showing + (n + 1)) % r.size = (r.showing + 0) % r.size := by
      rw [hEq, Nat.add_zero, Nat.mod_eq_of_lt hlt]
    have hCancel : (n + 1) % r.size = 0 % r.size := Nat.ModEq.add_left_cancel' r.showing hMod
    rwa [Nat.zero_mod] at hCancel
  · intro hZero
    rw [Nat.add_mod, hZero, Nat.add_zero, Nat.mod_mod, Nat.mod_eq_of_lt hlt]

/-- Giving the last turn back undoes it. -/
theorem retreat_advance {r : Slots F} (h : r.at_ < r.size) : r.advance.retreat = r := by
  have hAt : (r.next + r.size - 1) % r.size = r.at_ := by
    by_cases hLast : r.at_ + 1 = r.size
    · have hNext : r.next = 0 := by rw [Slots.next, hLast, Nat.mod_self]
      rw [hNext, Nat.zero_add, ← hLast, Nat.add_sub_cancel, Nat.mod_eq_of_lt (Nat.lt_succ_self _)]
    · have hNext : r.next = r.at_ + 1 := Nat.mod_eq_of_lt (by omega)
      have hSum : r.at_ + 1 + r.size - 1 = r.at_ + r.size := by omega
      rw [hNext, hSum, Nat.add_mod_right, Nat.mod_eq_of_lt h]
  show { r with at_ := (r.next + r.size - 1) % r.size } = r
  rw [hAt]

end Rotation
