import TegraHwc.Compositor.LayerData
import Mathlib.Data.List.Perm.Basic
import Mathlib.Data.List.Range
import Mathlib.Tactic.Common

/-!
# TegraHwc — choosing the group to merge

`compositor/MergeGroup.cpp`: which `width` layers of the stack go into the
merging window, and which live or foreign layers are lowered beneath them to
make them adjacent. The search is the source's own depth-first walk with its
cut and its budget of steps; the group under way is `members`, the layers
lowered beneath it `lowered`, both in the order they were taken.

## Results

* `walk_bestIs` — what holds of every group the walk records holds of the best
  one, with the budget exhausted or not.
* `chooseMergeGroup_good` — `ChooseMergeGroup` answers only good choices.
* `walk_reaches` — a run that shares a turn is never missed, nor bettered by a
  worse group.
* `chooseMergeGroup_valid` — the groups answered are valid, and never worse
  than a run.
-/

namespace TegraHwc

/-- `GroupMember`. -/
structure GroupMember where
  live : Bool := false
  frame : Option IRect := none
  turn : Nat := 0
  deriving DecidableEq, Repr

/-- `GroupChoice`. -/
structure GroupChoice where
  order : List Nat
  begin_ : Nat
  width : Nat
  live : Nat
  lowered : Nat
  deriving DecidableEq, Repr

namespace MergeGroup

/-- `Overlaps`: a layer whose place is not known covers everything. -/
def overlaps (a b : GroupMember) : Bool :=
  match a.frame, b.frame with
  | some p, some q =>
    decide (max p.left q.left < min p.right q.right) &&
      decide (max p.top q.top < min p.bottom q.bottom)
  | _, _ => true

/-- `Overlaps` of two layers of the stack. -/
def overlapsAt (stack : List GroupMember) (a b : Nat) : Bool :=
  match stack[a]?, stack[b]? with
  | some p, some q => overlaps p q
  | _, _ => true

/-- `kSteps`. -/
def kSteps : Nat := 4096

/-- What the search carries from one start to the next: its budget and the
best group so far. -/
structure Search where
  steps : Nat := kSteps
  best : Option GroupChoice := none
  deriving DecidableEq, Repr

/-- The cut: a branch already no better than the best so far. -/
def Search.cuts (s : Search) (live lowered : Nat) : Bool :=
  match s.best with
  | none => false
  | some best =>
    decide (best.live < live) || (live == best.live && decide (best.lowered ≤ lowered))

/-- `Record`: the stack as it is seated around the group. -/
def record (stack : List GroupMember) (width begin_ next live : Nat)
    (members lowered : List Nat) : GroupChoice where
  order := List.range begin_ ++ lowered ++ members ++ List.range' next (stack.length - next)
  begin_ := begin_ + lowered.length
  width := width
  live := live
  lowered := lowered.length

/-- `Walk`, over the layers of the stack from index `i` up. -/
def walk (stack : List GroupMember) (width begin_ turn : Nat) :
    List GroupMember → Nat → Nat → List Nat → List Nat → Search → Search
  | rest, i, live, members, lowered, s₀ =>
    let s := { s₀ with steps := s₀.steps - 1 }
    if s.cuts live lowered.length then s
    else if members.length = width then
      { s with best := some (record stack width begin_ i live members lowered) }
    else
      match rest with
      | [] => s
      | layer :: rest =>
        let foreign : Bool := layer.turn != turn
        let s₁ :=
          if foreign then s
          else
            walk stack width begin_ turn rest (i + 1) (live + if layer.live then 1 else 0)
              (members ++ [i]) lowered s
        if (layer.live || foreign) && decide (0 < s₁.steps) then
          let above := stack.length - i - 1
          let room := decide (width - members.length ≤ above)
          let clear := members.all fun m => !overlapsAt stack m i
          if room && clear then
            walk stack width begin_ turn rest (i + 1) live members (lowered ++ [i]) s₁
          else s₁
        else s₁

/-- `From`: the groups that start at `begin_`. -/
def searchFrom (stack : List GroupMember) (width : Nat) (s : Search) (begin_ : Nat) : Search :=
  match stack[begin_]? with
  | none => s
  | some first =>
    walk stack width begin_ first.turn (stack.drop (begin_ + 1)) (begin_ + 1)
      (if first.live then 1 else 0) [begin_] [] s

/-- `ChooseMergeGroup`. -/
def chooseMergeGroup (stack : List GroupMember) (width : Nat) : Option GroupChoice :=
  if width = 0 ∨ stack.length < width then none
  else ((List.range (stack.length - width + 1)).foldl (searchFrom stack width) {}).best

-- ---------------------------------------------------------------------------
-- Good choices
-- ---------------------------------------------------------------------------

/-- The order keeps every overlapping pair of layers as it came: a layer
placed above one that was above it overlaps it nowhere. -/
def KeepsOrder (stack : List GroupMember) (order : List Nat) : Prop :=
  order.Pairwise fun a b => b < a → overlapsAt stack b a = false

/-- What a choice must be, whatever group it names. -/
structure Good (stack : List GroupMember) (width : Nat) (c : GroupChoice) : Prop where
  perm : c.order.Perm (List.range stack.length)
  keepsOrder : KeepsOrder stack c.order
  /-- The group: as many members as asked, adjacent from `begin_`, in their
  own order and with one turn. -/
  group : ∃ below members above turn,
    c.order = below ++ members ++ above ∧ below.length = c.begin_ ∧ members.length = width ∧
      members.Pairwise (· < ·) ∧ (∀ m ∈ members, (stack[m]?).map GroupMember.turn = some turn) ∧
      c.live = members.countP fun m => (stack[m]?.map GroupMember.live).getD false
  /-- With nothing lowered, nothing is moved. -/
  unmoved : c.lowered = 0 → c.order = List.range stack.length

/-- The group under way, when the walk stands before layer `i`. -/
structure Picked (stack : List GroupMember) (begin_ turn i live : Nat)
    (members lowered : List Nat) : Prop where
  start : begin_ < i
  inside : i ≤ stack.length
  /-- Every layer from the start is a member or lowered. -/
  all : (lowered ++ members).Perm (List.range' begin_ (i - begin_))
  loweredInOrder : lowered.Pairwise (· < ·)
  membersInOrder : members.Pairwise (· < ·)
  /-- What was lowered covers no member that was below it. -/
  clear : ∀ l ∈ lowered, ∀ m ∈ members, m < l → overlapsAt stack m l = false
  oneTurn : ∀ m ∈ members, (stack[m]?).map GroupMember.turn = some turn
  liveCount : live = members.countP fun m => (stack[m]?.map GroupMember.live).getD false

namespace Picked

variable {stack : List GroupMember} {begin_ turn i live : Nat} {members lowered : List Nat}

/-- A layer taken lies from the start to where the walk stands. -/
theorem bounds (h : Picked stack begin_ turn i live members lowered) {k : Nat}
    (hk : k ∈ lowered ++ members) : begin_ ≤ k ∧ k < i := by
  have hMem := h.all.mem_iff.mp hk
  have hStart := h.start
  rw [List.mem_range'_1] at hMem
  omega

/-- The walk stands one layer further. -/
theorem range_succ (h : Picked stack begin_ turn i live members lowered) :
    List.range' begin_ (i + 1 - begin_) = List.range' begin_ (i - begin_) ++ [i] := by
  have hStart := h.start
  have hLen : i + 1 - begin_ = (i - begin_) + 1 := by omega
  rw [hLen, List.range'_concat]
  have hLast : begin_ + 1 * (i - begin_) = i := by omega
  rw [hLast]

/-- A layer that shares the turn joins the group. -/
theorem take (h : Picked stack begin_ turn i live members lowered) {layer : GroupMember}
    (hLayer : stack[i]? = some layer) (hTurn : layer.turn = turn) :
    Picked stack begin_ turn (i + 1) (live + if layer.live then 1 else 0) (members ++ [i])
      lowered where
  start := Nat.lt_succ_of_lt h.start
  inside := (List.getElem?_eq_some_iff.mp hLayer).1
  all := by
    rw [h.range_succ, ← List.append_assoc]
    exact h.all.append_right [i]
  loweredInOrder := h.loweredInOrder
  membersInOrder := by
    refine List.pairwise_append.mpr ⟨h.membersInOrder, List.pairwise_singleton _ _, ?_⟩
    intro m hm k hk
    rw [List.mem_singleton.mp hk]
    exact (h.bounds (List.mem_append_right _ hm)).2
  clear := by
    intro l hl m hm hlt
    rcases List.mem_append.mp hm with hm | hm
    · exact h.clear l hl m hm hlt
    · -- the new member stands above everything lowered so far
      rw [List.mem_singleton.mp hm] at hlt
      have hBound := (h.bounds (List.mem_append_left _ hl)).2
      omega
  oneTurn := by
    intro m hm
    rcases List.mem_append.mp hm with hm | hm
    · exact h.oneTurn m hm
    · rw [List.mem_singleton.mp hm, hLayer, Option.map_some, hTurn]
  liveCount := by
    rw [List.countP_append, ← h.liveCount]
    cases hLive : layer.live <;> simp [hLayer, hLive]

/-- A layer that covers no member is lowered beneath the group. -/
theorem lower (h : Picked stack begin_ turn i live members lowered)
    (hInside : i < stack.length) (hClear : ∀ m ∈ members, overlapsAt stack m i = false) :
    Picked stack begin_ turn (i + 1) live members (lowered ++ [i]) where
  start := Nat.lt_succ_of_lt h.start
  inside := hInside
  all := by
    rw [h.range_succ, List.append_assoc]
    have hSwap : (lowered ++ ([i] ++ members)).Perm (lowered ++ members ++ [i]) := by
      rw [List.append_assoc]
      exact (List.perm_append_comm).append_left lowered
    exact hSwap.trans (h.all.append_right [i])
  loweredInOrder := by
    refine List.pairwise_append.mpr ⟨h.loweredInOrder, List.pairwise_singleton _ _, ?_⟩
    intro l hl k hk
    rw [List.mem_singleton.mp hk]
    exact (h.bounds (List.mem_append_left _ hl)).2
  membersInOrder := h.membersInOrder
  clear := by
    intro l hl m hm hlt
    rcases List.mem_append.mp hl with hl | hl
    · exact h.clear l hl m hm hlt
    · rw [List.mem_singleton.mp hl]
      exact hClear m hm
  oneTurn := h.oneTurn
  liveCount := h.liveCount

end Picked

/-- The layers below the start, the group and its lowered ones, and the
layers above are the whole stack. -/
theorem range_split {b i n : Nat} (hStart : b ≤ i) (hInside : i ≤ n) :
    List.range n = List.range b ++ List.range' b (i - b) ++ List.range' i (n - i) := by
  have hLow : List.range b ++ List.range' b (i - b) = List.range' 0 i := by
    have hAppend := List.range'_append_1 (s := 0) (m := b) (n := i - b)
    rwa [Nat.zero_add, Nat.add_sub_cancel' hStart, ← List.range_eq_range'] at hAppend
  have hAll := List.range'_append_1 (s := 0) (m := i) (n := n - i)
  rw [Nat.zero_add, Nat.add_sub_cancel' hInside] at hAll
  rw [hLow, hAll, List.range_eq_range']

/-- **A recorded choice is good.** -/
theorem record_good {stack : List GroupMember} {width begin_ turn i live : Nat}
    {members lowered : List Nat} (h : Picked stack begin_ turn i live members lowered)
    (hWidth : members.length = width) :
    Good stack width (record stack width begin_ i live members lowered) where
  perm := by
    rw [range_split (Nat.le_of_lt h.start) h.inside]
    show (List.range begin_ ++ lowered ++ members ++ _).Perm _
    rw [List.append_assoc (List.range begin_)]
    exact (h.all.append_left _).append_right _
  keepsOrder := by
    show (List.range begin_ ++ lowered ++ members ++ _).Pairwise _
    have hInOrder : ∀ {l : List Nat}, l.Pairwise (· < ·) →
        l.Pairwise fun a b => b < a → overlapsAt stack b a = false := by
      intro l hl
      refine hl.imp fun {a b} hlt hgt => ?_
      omega
    rw [List.append_assoc (List.range begin_), List.append_assoc, List.pairwise_append,
      List.pairwise_append, List.pairwise_append]
    refine ⟨hInOrder List.pairwise_lt_range, ⟨⟨hInOrder h.loweredInOrder,
      hInOrder h.membersInOrder, ?_⟩, hInOrder List.pairwise_lt_range', ?_⟩, ?_⟩
    · intro l hl m hm hlt
      exact h.clear l hl m hm hlt
    · -- the layers above were never passed
      intro a ha b hb hlt
      have hBound := (h.bounds ha).2
      rw [List.mem_range'_1] at hb
      omega
    · -- nor were those below the start
      intro a ha b hb hlt
      rw [List.mem_range] at ha
      rcases List.mem_append.mp hb with hb | hb
      · have hBound := (h.bounds hb).1
        omega
      · have hStart := h.start
        rw [List.mem_range'_1] at hb
        omega
  group := by
    refine ⟨List.range begin_ ++ lowered, members, List.range' i (stack.length - i), turn, rfl,
      ?_, hWidth, h.membersInOrder, h.oneTurn, h.liveCount⟩
    simp [record]
  unmoved := by
    intro hNone
    obtain rfl : lowered = [] := List.length_eq_zero_iff.mp hNone
    have hMembers : members = List.range' begin_ (i - begin_) :=
      List.Perm.eq_of_pairwise (fun a b _ _ hab hba => by omega) h.membersInOrder
        List.pairwise_lt_range' (by simpa using h.all)
    rw [range_split (Nat.le_of_lt h.start) h.inside]
    simp [record, hMembers]

/-- The layers from `i` up are layer `i` and those above it. -/
theorem of_drop_eq_cons {stack rest : List GroupMember} {layer : GroupMember} {i : Nat}
    (hRest : layer :: rest = stack.drop i) :
    stack[i]? = some layer ∧ rest = stack.drop (i + 1) := by
  have hHead := congrArg List.head? hRest
  have hTail := congrArg List.tail hRest
  rw [List.head?_drop, List.head?_cons, eq_comm] at hHead
  rw [List.tail_drop, List.tail_cons] at hTail
  exact ⟨hHead, hTail⟩

/-- The group under way, as the walk alone can have reached it. -/
structure Reached (stack : List GroupMember) (width begin_ turn i live : Nat)
    (members lowered : List Nat) : Prop
    extends Picked stack begin_ turn i live members lowered where
  first : members.head? = some begin_
  /-- A full group has just taken its last member. -/
  last : members.length = width → members.getLast? = some (i - 1)
  lowerable : ∀ k ∈ lowered, ∃ layer, stack[k]? = some layer ∧
    (layer.live = true ∨ layer.turn ≠ turn)

namespace Reached

variable {stack : List GroupMember} {width begin_ turn i live : Nat} {members lowered : List Nat}

theorem first_mem (h : Reached stack width begin_ turn i live members lowered) :
    begin_ ∈ members := List.mem_of_mem_head? h.first

theorem take (h : Reached stack width begin_ turn i live members lowered) {layer : GroupMember}
    (hLayer : stack[i]? = some layer) (hTurn : layer.turn = turn) :
    Reached stack width begin_ turn (i + 1) (live + if layer.live then 1 else 0)
      (members ++ [i]) lowered where
  toPicked := h.toPicked.take hLayer hTurn
  first := by rw [List.head?_append, h.first, Option.some_or]
  last := fun _ => List.getLast?_concat
  lowerable := h.lowerable

theorem lower (h : Reached stack width begin_ turn i live members lowered) {layer : GroupMember}
    (hShort : members.length ≠ width) (hLayer : stack[i]? = some layer)
    (hMay : layer.live = true ∨ layer.turn ≠ turn)
    (hClear : ∀ m ∈ members, overlapsAt stack m i = false) :
    Reached stack width begin_ turn (i + 1) live members (lowered ++ [i]) where
  toPicked := h.toPicked.lower (List.getElem?_eq_some_iff.mp hLayer).1 hClear
  first := h.first
  last := fun hFull => absurd hFull hShort
  lowerable := by
    intro k hk
    rcases List.mem_append.mp hk with hk | hk
    · exact h.lowerable k hk
    · obtain rfl := List.mem_singleton.mp hk
      exact ⟨layer, hLayer, hMay⟩

end Reached

/-- What holds of the best group so far, when there is one. -/
def BestIs (Q : GroupChoice → Prop) (s : Search) : Prop :=
  ∀ c, s.best = some c → Q c

/-- **What holds of every group recorded holds of the best one**, wherever the
cut and the budget end the walk. The induction is on the layers still above. -/
theorem walk_bestIs {stack : List GroupMember} {width begin_ turn : Nat} {Q : GroupChoice → Prop}
    (hRecord : ∀ i live members lowered, Reached stack width begin_ turn i live members lowered →
      members.length = width → Q (record stack width begin_ i live members lowered)) :
    ∀ (rest : List GroupMember) (i live : Nat) (members lowered : List Nat) (s : Search),
      rest = stack.drop i → Reached stack width begin_ turn i live members lowered →
      BestIs Q s → BestIs Q (walk stack width begin_ turn rest i live members lowered s) := by
  intro rest
  induction rest with
  | nil =>
    intro i live members lowered s hRest hReached hBest
    unfold walk
    simp only
    split
    · exact hBest
    · split
      · rename_i hWidth
        intro c hc
        obtain rfl := Option.some.inj hc
        exact hRecord _ _ _ _ hReached hWidth
      · exact hBest
  | cons layer rest ih =>
    intro i live members lowered s hRest hReached hBest
    obtain ⟨hLayer, hNext⟩ := of_drop_eq_cons hRest
    unfold walk
    simp only
    split
    · exact hBest
    split
    · rename_i hWidth
      intro c hc
      obtain rfl := Option.some.inj hc
      exact hRecord _ _ _ _ hReached hWidth
    rename_i hShort
    -- the layer joins the group where it shares the turn
    set s₁ := if (layer.turn != turn) = true then { s with steps := s.steps - 1 } else
      walk stack width begin_ turn rest (i + 1) (live + if layer.live then 1 else 0)
        (members ++ [i]) lowered { s with steps := s.steps - 1 } with hs₁
    have hBest₁ : BestIs Q s₁ := by
      rw [hs₁]
      split
      · exact hBest
      · rename_i hTurn
        exact ih _ _ _ _ _ hNext (hReached.take hLayer (by simpa using hTurn)) hBest
    -- and may be lowered beneath it
    split
    · rename_i hMay
      have hLive : layer.live = true ∨ layer.turn ≠ turn := by
        simpa using (Bool.and_eq_true_iff.mp hMay).1
      split
      · rename_i hRoom
        have hClear : ∀ m ∈ members, overlapsAt stack m i = false := by
          simpa using (Bool.and_eq_true_iff.mp hRoom).2
        exact ih _ _ _ _ _ hNext (hReached.lower hShort hLayer hLive hClear) hBest₁
      · exact hBest₁
    · exact hBest₁

/-- A group of one layer, just begun. -/
theorem picked_start {stack : List GroupMember} {begin_ : Nat} {first : GroupMember}
    (hFirst : stack[begin_]? = some first) :
    Picked stack begin_ first.turn (begin_ + 1) (if first.live then 1 else 0) [begin_] [] where
  start := Nat.lt_succ_self _
  inside := (List.getElem?_eq_some_iff.mp hFirst).1
  all := by
    have hOne : begin_ + 1 - begin_ = 1 := by omega
    simp [hOne]
  loweredInOrder := List.Pairwise.nil
  membersInOrder := List.pairwise_singleton _ _
  clear := by
    intro l hl
    cases hl
  oneTurn := by
    intro m hm
    rw [List.mem_singleton.mp hm, hFirst]
    rfl
  liveCount := by
    cases hLive : first.live <;> simp [hFirst, hLive]

theorem reached_start {stack : List GroupMember} {width begin_ : Nat} {first : GroupMember}
    (hFirst : stack[begin_]? = some first) :
    Reached stack width begin_ first.turn (begin_ + 1) (if first.live then 1 else 0) [begin_] []
    where
  toPicked := picked_start hFirst
  first := rfl
  last := fun _ => rfl
  lowerable := by
    intro k hk
    cases hk

/-- Every start keeps what holds of the best. -/
theorem searchFrom_bestIs {stack : List GroupMember} {width begin_ : Nat} {Q : GroupChoice → Prop}
    (hRecord : ∀ turn i live members lowered,
      Reached stack width begin_ turn i live members lowered → members.length = width →
      Q (record stack width begin_ i live members lowered)) {s : Search} (hBest : BestIs Q s) :
    BestIs Q (searchFrom stack width s begin_) := by
  unfold searchFrom
  split
  · exact hBest
  · rename_i first hFirst
    exact walk_bestIs (hRecord first.turn) _ _ _ _ _ _ rfl (reached_start hFirst) hBest

/-- And so do the starts one after another. -/
theorem foldl_searchFrom_bestIs {stack : List GroupMember} {width : Nat}
    {Q : GroupChoice → Prop} {begins : List Nat}
    (hRecord : ∀ begin_ ∈ begins, ∀ turn i live members lowered,
      Reached stack width begin_ turn i live members lowered → members.length = width →
      Q (record stack width begin_ i live members lowered)) {s : Search} (hBest : BestIs Q s) :
    BestIs Q (begins.foldl (searchFrom stack width) s) := by
  induction begins generalizing s with
  | nil => exact hBest
  | cons begin_ begins ih =>
    exact ih (fun b hb => hRecord b (List.mem_cons_of_mem _ hb))
      (searchFrom_bestIs (hRecord begin_ (List.mem_cons_self ..)) hBest)

/-- What holds of every group recorded holds of the answer. -/
theorem chooseMergeGroup_is {stack : List GroupMember} {width : Nat} {Q : GroupChoice → Prop}
    (hRecord : ∀ begin_ turn i live members lowered,
      Reached stack width begin_ turn i live members lowered → members.length = width →
      Q (record stack width begin_ i live members lowered))
    {c : GroupChoice} (hChoice : chooseMergeGroup stack width = some c) : Q c := by
  unfold chooseMergeGroup at hChoice
  split at hChoice
  · cases hChoice
  · exact foldl_searchFrom_bestIs (fun begin_ _ => hRecord begin_) (fun c hc => by cases hc) c
      hChoice

/-- **`ChooseMergeGroup` answers only good choices.** -/
theorem chooseMergeGroup_good {stack : List GroupMember} {width : Nat} {c : GroupChoice}
    (hChoice : chooseMergeGroup stack width = some c) : Good stack width c :=
  chooseMergeGroup_is (fun _ _ _ _ _ _ hReached hWidth => record_good hReached.toPicked hWidth)
    hChoice

-- ---------------------------------------------------------------------------
-- Valid, and never worse than a run
-- ---------------------------------------------------------------------------

/-- How many of some layers are live. -/
def liveCount (stack : List GroupMember) (ks : List Nat) : Nat :=
  ks.countP fun k => (stack[k]?.map GroupMember.live).getD false

/-- A group, and the stack seated around it. -/
structure Valid (stack : List GroupMember) (width : Nat) (c : GroupChoice) : Prop where
  perm : c.order.Perm (List.range stack.length)
  /-- Layers that overlap stay in the order they came. -/
  inOrder : ∀ (i j a b : Nat), i < j → c.order[i]? = some a → c.order[j]? = some b →
    overlapsAt stack a b = true → a < b
  asked : c.width = width
  /-- The members lie adjacent from `begin_`, in their own order, and share a
  turn; `live` counts those that are live, and `lowered` the layers beneath
  them that came from above one of them. -/
  group : ∃ below members above turn,
    c.order = below ++ members ++ above ∧ below.length = c.begin_ ∧ members.length = width ∧
      members.Pairwise (· < ·) ∧ (∀ m ∈ members, (stack[m]?).map GroupMember.turn = some turn) ∧
      c.live = liveCount stack members ∧
      c.lowered = below.countP fun k => members.any fun m => decide (m < k)

/-- A contiguous run of layers that share a turn. -/
structure SameTurnRun (stack : List GroupMember) (width begin_ : Nat) : Prop where
  nonempty : 0 < width
  inside : begin_ + width ≤ stack.length
  oneTurn : ∃ turn, ∀ k, begin_ ≤ k → k < begin_ + width →
    (stack[k]?).map GroupMember.turn = some turn

/-- A pixel lies in a frame. -/
def InFrame (frame : IRect) (x y : Int) : Prop :=
  frame.left ≤ x ∧ x < frame.right ∧ frame.top ≤ y ∧ y < frame.bottom

/-- Two layers overlap just where the place of one is not known or they share a
pixel. -/
theorem overlaps_iff (a b : GroupMember) :
    overlaps a b = true ↔ ∀ p ∈ a.frame, ∀ q ∈ b.frame, ∃ x y, InFrame p x y ∧ InFrame q x y := by
  unfold overlaps InFrame
  cases a.frame with
  | none => simp
  | some p =>
    cases b.frame with
    | none => simp
    | some q =>
      simp only [Option.mem_some_iff, forall_eq', Bool.and_eq_true, decide_eq_true_eq]
      constructor
      · rintro ⟨hColumns, hRows⟩
        exact ⟨max p.left q.left, max p.top q.top, by omega, by omega⟩
      · rintro ⟨x, y, hP, hQ⟩
        omega

theorem overlaps_comm (a b : GroupMember) : overlaps a b = overlaps b a := by
  unfold overlaps
  cases a.frame with
  | none => cases b.frame <;> rfl
  | some p =>
    cases b.frame with
    | none => rfl
    | some q =>
      simp only
      rw [Int.max_comm p.left, Int.min_comm p.right, Int.max_comm p.top, Int.min_comm p.bottom]

theorem overlapsAt_comm (stack : List GroupMember) (a b : Nat) :
    overlapsAt stack a b = overlapsAt stack b a := by
  unfold overlapsAt
  cases stack[a]? <;> cases stack[b]? <;> simp [overlaps_comm]

/-- A recorded choice counts the layers lowered. -/
theorem record_lowered {stack : List GroupMember} {begin_ turn i live : Nat}
    {members lowered : List Nat} (h : Picked stack begin_ turn i live members lowered)
    (hFirst : begin_ ∈ members) :
    lowered.length =
      (List.range begin_ ++ lowered).countP fun k => members.any fun m => decide (m < k) := by
  have hBelow : (List.range begin_).countP (fun k => members.any fun m => decide (m < k)) = 0 := by
    rw [List.countP_eq_zero]
    intro k hk hAny
    obtain ⟨m, hm, hlt⟩ := List.any_eq_true.mp hAny
    have hBound := (h.bounds (List.mem_append_right _ hm)).1
    have hLow := List.mem_range.mp hk
    have hPassed := of_decide_eq_true hlt
    omega
  have hLowered : lowered.countP (fun k => members.any fun m => decide (m < k)) =
      lowered.length := by
    rw [List.countP_eq_length]
    intro k hk
    -- the group starts at `begin_`, and a lowered layer is not a member
    have hBound := (h.bounds (List.mem_append_left _ hk)).1
    have hNodup : (lowered ++ members).Nodup := h.all.nodup_iff.mpr List.nodup_range'
    have hNe : k ≠ begin_ := fun hEq =>
      (List.nodup_append.mp hNodup).2.2 k hk begin_ hFirst hEq
    exact List.any_eq_true.mpr ⟨begin_, hFirst, decide_eq_true (by omega)⟩
  rw [List.countP_append, hBelow, hLowered, Nat.zero_add]

/-- **A recorded choice is valid.** -/
theorem record_valid {stack : List GroupMember} {width begin_ turn i live : Nat}
    {members lowered : List Nat} (h : Picked stack begin_ turn i live members lowered)
    (hFirst : begin_ ∈ members) (hWidth : members.length = width) :
    Valid stack width (record stack width begin_ i live members lowered) where
  perm := (record_good h hWidth).perm
  inOrder := by
    intro p q a b hpq ha hb hOverlap
    have hGood := record_good h hWidth
    have hNodup := hGood.perm.nodup_iff.mpr List.nodup_range
    obtain ⟨hp, hpa⟩ := List.getElem?_eq_some_iff.mp ha
    obtain ⟨hq, hqb⟩ := List.getElem?_eq_some_iff.mp hb
    have hKeeps := List.pairwise_iff_getElem.mp hGood.keepsOrder p q hp hq hpq
    have hNe := List.pairwise_iff_getElem.mp hNodup p q hp hq hpq
    rw [hpa, hqb] at hKeeps hNe
    rcases Nat.lt_trichotomy a b with hlt | hEq | hgt
    · exact hlt
    · exact absurd hEq hNe
    · rw [overlapsAt_comm, hKeeps hgt] at hOverlap
      cases hOverlap
  asked := rfl
  group := by
    refine ⟨List.range begin_ ++ lowered, members, List.range' i (stack.length - i), turn, rfl,
      ?_, hWidth, h.membersInOrder, h.oneTurn, h.liveCount, record_lowered h hFirst⟩
    simp [record]

/-- A group with no more than `n` live members has been found. -/
def Found (n : Nat) (s : Search) : Prop := ∃ c, s.best = some c ∧ c.live ≤ n

/-- A cut is made only by a group with no more live members. -/
theorem found_of_cuts {s : Search} {live lowered n : Nat} (hCut : s.cuts live lowered = true)
    (hLive : live ≤ n) : Found n s := by
  unfold Search.cuts at hCut
  split at hCut
  · cases hCut
  · rename_i best hBest
    simp only [Bool.or_eq_true, Bool.and_eq_true, decide_eq_true_eq, beq_iff_eq] at hCut
    refine ⟨best, hBest, ?_⟩
    omega

/-- A group that is recorded has no more live members than the one it
replaces. -/
theorem live_le_of_not_cuts {s : Search} {live lowered n : Nat}
    (hCut : ¬s.cuts live lowered = true) (hFound : Found n s) : live ≤ n := by
  obtain ⟨best, hBest, hLe⟩ := hFound
  unfold Search.cuts at hCut
  rw [hBest] at hCut
  simp only [Bool.or_eq_true, Bool.and_eq_true, decide_eq_true_eq, beq_iff_eq] at hCut
  omega

/-- What every step and every record past the cut keeps, the walk keeps. -/
theorem walk_keeps {stack : List GroupMember} {width begin_ turn : Nat} {P : Search → Prop}
    (hStep : ∀ s, P s → P { s with steps := s.steps - 1 })
    (hRecord : ∀ s i live members lowered, ¬s.cuts live lowered.length = true → P s →
      P { s with best := some (record stack width begin_ i live members lowered) }) :
    ∀ (rest : List GroupMember) (i live : Nat) (members lowered : List Nat) (s : Search),
      P s → P (walk stack width begin_ turn rest i live members lowered s) := by
  intro rest
  induction rest with
  | nil =>
    intro i live members lowered s hs
    unfold walk
    simp only
    split
    · exact hStep s hs
    rename_i hCut
    split
    · exact hRecord _ _ _ _ _ hCut (hStep s hs)
    · exact hStep s hs
  | cons layer rest ih =>
    intro i live members lowered s hs
    unfold walk
    simp only
    split
    · exact hStep s hs
    rename_i hCut
    split
    · exact hRecord _ _ _ _ _ hCut (hStep s hs)
    set s₁ := if (layer.turn != turn) = true then { s with steps := s.steps - 1 } else
      walk stack width begin_ turn rest (i + 1) (live + if layer.live then 1 else 0)
        (members ++ [i]) lowered { s with steps := s.steps - 1 } with hs₁
    have hTaken : P s₁ := by
      rw [hs₁]
      split
      · exact hStep s hs
      · exact ih _ _ _ _ _ (hStep s hs)
    split
    · split
      · exact ih _ _ _ _ _ hTaken
      · exact hTaken
    · exact hTaken

/-- **The walk never loses what was found.** -/
theorem walk_found {stack : List GroupMember} {width begin_ turn n : Nat} (rest : List GroupMember)
    (i live : Nat) (members lowered : List Nat) (s : Search) (hFound : Found n s) :
    Found n (walk stack width begin_ turn rest i live members lowered s) := by
  refine walk_keeps (fun _ h => h) ?_ rest i live members lowered s hFound
  intro s i live members lowered hCut hs
  exact ⟨_, rfl, live_le_of_not_cuts hCut hs⟩

/-- **The run is walked first.** From a group under way with nothing lowered,
layers that all share the turn and fill the group leave one found that is no
worse than they. Neither the cut nor the budget can stop it: a member is taken
with no step to spare, and a cut means that as good a group was found. -/
theorem walk_reaches {stack : List GroupMember} {width begin_ turn n : Nat} :
    ∀ (rest : List GroupMember) (i live : Nat) (members : List Nat) (s : Search),
      rest = stack.drop i → members.length ≤ width →
      (∀ k, i ≤ k → k < i + (width - members.length) →
        (stack[k]?).map GroupMember.turn = some turn) →
      live + liveCount stack (List.range' i (width - members.length)) ≤ n →
      Found n (walk stack width begin_ turn rest i live members [] s) := by
  intro rest
  induction rest with
  | nil =>
    intro i live members s hRest hShort hTurns hLive
    unfold walk
    simp only
    split
    · rename_i hCut
      exact found_of_cuts hCut (by omega)
    split
    · exact ⟨_, rfl, by simp only [record]; omega⟩
    · rename_i hNotFull
      -- there is no layer left, and the run wants one
      have hTurn := hTurns i (le_refl i) (by omega)
      have hNone : stack[i]? = none := by
        rw [← List.head?_drop, ← hRest]
        rfl
      rw [hNone] at hTurn
      cases hTurn
  | cons layer rest ih =>
    intro i live members s hRest hShort hTurns hLive
    obtain ⟨hLayer, hNext⟩ := of_drop_eq_cons hRest
    unfold walk
    simp only
    split
    · rename_i hCut
      exact found_of_cuts hCut (by omega)
    split
    · exact ⟨_, rfl, by simp only [record]; omega⟩
    rename_i hNotFull
    have hTurn := hTurns i (le_refl i) (by omega)
    rw [hLayer, Option.map_some, Option.some.injEq] at hTurn
    have hTaken : Found n (walk stack width begin_ turn rest (i + 1)
        (live + if layer.live then 1 else 0) (members ++ [i]) []
        { s with steps := s.steps - 1 }) := by
      have hLeft : width - members.length = (width - (members ++ [i]).length) + 1 := by
        rw [List.length_append, List.length_singleton]
        omega
      refine ih _ _ _ _ hNext (by simp only [List.length_append, List.length_singleton]; omega)
        (fun k hk hlt => hTurns k (by omega) (by omega)) ?_
      rw [hLeft, List.range'_succ, liveCount, List.countP_cons] at hLive
      simp only [hLayer, Option.map_some, Option.getD_some] at hLive
      rw [liveCount]
      omega
    simp only [hTurn, bne_self_eq_false, Bool.false_eq_true, if_false]
    generalize walk stack width begin_ turn rest (i + 1) (live + if layer.live then 1 else 0)
      (members ++ [i]) [] { s with steps := s.steps - 1 } = s₁ at hTaken ⊢
    split
    · split
      · exact walk_found _ _ _ _ _ _ hTaken
      · exact hTaken
    · exact hTaken

/-- A start keeps what was found. -/
theorem searchFrom_found {stack : List GroupMember} {width begin_ n : Nat} {s : Search}
    (hFound : Found n s) : Found n (searchFrom stack width s begin_) := by
  unfold searchFrom
  split
  · exact hFound
  · exact walk_found _ _ _ _ _ _ hFound

/-- The start of a run finds a group no worse than it. -/
theorem searchFrom_reaches {stack : List GroupMember} {width begin_ : Nat}
    (hRun : SameTurnRun stack width begin_) (s : Search) :
    Found (liveCount stack (List.range' begin_ width)) (searchFrom stack width s begin_) := by
  have hNonempty := hRun.nonempty
  have hInside := hRun.inside
  obtain ⟨turn, hTurns⟩ := hRun.oneTurn
  obtain ⟨first, hFirst⟩ : ∃ first, stack[begin_]? = some first :=
    ⟨_, List.getElem?_eq_getElem (by omega)⟩
  have hTurn := hTurns begin_ (le_refl _) (by omega)
  rw [hFirst, Option.map_some, Option.some.injEq] at hTurn
  obtain ⟨rest, rfl⟩ : ∃ rest, width = rest + 1 := ⟨width - 1, by omega⟩
  unfold searchFrom
  rw [hFirst]
  refine walk_reaches _ _ _ _ _ rfl (by simp) (fun k hk hlt => ?_) ?_
  · rw [hTurn]
    simp only [List.length_singleton] at hlt
    exact hTurns k (by omega) (by omega)
  · rw [liveCount, liveCount, List.range'_succ, List.countP_cons, hFirst]
    simp only [List.length_singleton, Nat.add_sub_cancel, Option.map_some, Option.getD_some]
    omega

/-- **The merge group.** `ChooseMergeGroup` answers only valid groups, and
wherever a contiguous run of that width shares a turn it answers one with no
more live members than the run. -/
theorem chooseMergeGroup_valid (stack : List GroupMember) (width : Nat) :
    (∀ c, chooseMergeGroup stack width = some c → Valid stack width c) ∧
      ∀ begin_, SameTurnRun stack width begin_ →
        ∃ c, chooseMergeGroup stack width = some c ∧
          c.live ≤ liveCount stack (List.range' begin_ width) := by
  refine ⟨fun c hChoice => chooseMergeGroup_is
    (fun _ _ _ _ _ _ hReached hWidth =>
      record_valid hReached.toPicked hReached.first_mem hWidth) hChoice, ?_⟩
  intro begin_ hRun
  have hNonempty := hRun.nonempty
  have hInside := hRun.inside
  have hAll : ∀ (begins : List Nat) (s : Search), (begin_ ∈ begins ∨
      Found (liveCount stack (List.range' begin_ width)) s) →
      Found (liveCount stack (List.range' begin_ width))
        (begins.foldl (searchFrom stack width) s) := by
    intro begins
    induction begins with
    | nil =>
      intro s hs
      rcases hs with hs | hs
      · cases hs
      · exact hs
    | cons b begins ih =>
      intro s hs
      rw [List.foldl_cons]
      apply ih
      rcases hs with hs | hs
      · rcases List.mem_cons.mp hs with rfl | hs
        · exact .inr (searchFrom_reaches hRun s)
        · exact .inl hs
      · exact .inr (searchFrom_found hs)
  unfold chooseMergeGroup
  rw [if_neg (by omega)]
  exact hAll _ {} (.inl (List.mem_range.mpr (by omega)))

end MergeGroup

end TegraHwc
