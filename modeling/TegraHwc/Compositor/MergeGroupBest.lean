import TegraHwc.Compositor.MergeGroup
import Mathlib.Data.List.Nodup
import Mathlib.Data.Prod.Lex

/-!
# TegraHwc — the best group to merge

What the walk of `compositor/MergeGroup.cpp` is worth while its budget lasts.
An admissible group fixes the branch of the walk that takes its members and
lowers the layers between them; `membersBelow` and `loweredBelow` are where
that branch stands before a layer. The cut ends the branch only below a group
that is no worse.

## Results

* `record_admissible` — every group recorded is admissible, at the price it
  is recorded with.
* `walk_bounds` — with steps to spare, the walk leaves a group no dearer than
  any admissible group of its start.
* `chooseMergeGroup_best` — the answer is the least of the admissible groups.
-/

namespace TegraHwc

/-- What the group chosen costs: its live members first, then the layers lowered. -/
def GroupChoice.price (c : GroupChoice) : ℕ ×ₗ ℕ := toLex (c.live, c.lowered)

/-- The original index of the group's first member: the layers lowered are
seated between those below it and the group. -/
def GroupChoice.first (c : GroupChoice) : Nat := c.begin_ - c.lowered

namespace MergeGroup

/-- The layers a group has between its first and its last member. -/
def between (members : List Nat) : List Nat :=
  let first := members.head?.getD 0
  let last := members.getLast?.getD 0
  (List.range' first (last - first)).filter fun k => !members.contains k

/-- A group that may be merged: members of one turn in their own order, and
between them only layers that may be lowered beneath those below. -/
structure Admissible (stack : List GroupMember) (width turn : Nat) (members : List Nat) :
    Prop where
  nonempty : members ≠ []
  asked : members.length = width
  rising : members.Pairwise (· < ·)
  oneTurn : ∀ m ∈ members, (stack[m]?).map GroupMember.turn = some turn
  lowerable : ∀ k ∈ between members, ∃ layer, stack[k]? = some layer ∧
    (layer.live = true ∨ layer.turn ≠ turn)
  clear : ∀ k ∈ between members, ∀ m ∈ members, m < k → overlapsAt stack m k = false

/-- What a group costs. -/
def price (stack : List GroupMember) (members : List Nat) : ℕ ×ₗ ℕ :=
  toLex (liveCount stack members, (between members).length)

/-- The search over every start, as `ChooseMergeGroup` leaves it. -/
def searched (stack : List GroupMember) (width : Nat) : Search :=
  (List.range (stack.length - width + 1)).foldl (searchFrom stack width) {}

/-- The steps `ChooseMergeGroup` spends. -/
def spent (stack : List GroupMember) (width : Nat) : Nat :=
  if width = 0 ∨ stack.length < width then 0 else kSteps - (searched stack width).steps

-- ---------------------------------------------------------------------------
-- The group as a branch of the walk
-- ---------------------------------------------------------------------------

/-- The members the branch has taken before layer `i`. -/
def membersBelow (all : List Nat) (i : Nat) : List Nat := all.filter fun m => decide (m < i)

/-- The layers the branch has lowered before layer `i`. -/
def loweredBelow (begin_ : Nat) (all : List Nat) (i : Nat) : List Nat :=
  (List.range' begin_ (i - begin_)).filter fun k => !all.contains k

theorem membersBelow_of_le {all : List Nat} {i : Nat} (h : ∀ m ∈ all, i ≤ m) :
    membersBelow all i = [] := by
  rw [membersBelow, List.filter_eq_nil_iff]
  intro m hm
  have := h m hm
  simpa using this

/-- The branch takes layer `i` when it is a member. -/
theorem membersBelow_succ {all : List Nat} (hRising : all.Pairwise (· < ·)) (i : Nat) :
    membersBelow all (i + 1) = membersBelow all i ++ if i ∈ all then [i] else [] := by
  induction all with
  | nil => simp [membersBelow]
  | cons m all ih =>
    obtain ⟨hAbove, hRest⟩ := List.pairwise_cons.mp hRising
    have hTail := ih hRest
    simp only [membersBelow] at hTail ⊢
    rcases Nat.lt_trichotomy m i with hlt | rfl | hgt
    · have hNe : i ≠ m := by omega
      rw [List.filter_cons_of_pos (by simpa using Nat.lt_succ_of_lt hlt),
        List.filter_cons_of_pos (by simpa using hlt), hTail, List.cons_append]
      simp [hNe]
    · -- nothing above the member is below the next layer
      have hNone : membersBelow all (m + 1) = [] := membersBelow_of_le fun k hk => hAbove k hk
      have hBelow : membersBelow all m = [] :=
        membersBelow_of_le fun k hk => Nat.le_of_lt (hAbove k hk)
      simp only [membersBelow] at hNone hBelow
      rw [List.filter_cons_of_pos (by simp), List.filter_cons_of_neg (by simp), hNone, hBelow]
      simp
    · have hNe : i ≠ m := by omega
      rw [List.filter_cons_of_neg (by simp; omega), List.filter_cons_of_neg (by simp; omega),
        hTail]
      simp [hNe]

/-- And lowers it when it is not. -/
theorem loweredBelow_succ {begin_ i : Nat} (all : List Nat) (hStart : begin_ ≤ i) :
    loweredBelow begin_ all (i + 1) =
      loweredBelow begin_ all i ++ if i ∈ all then [] else [i] := by
  have hLen : i + 1 - begin_ = (i - begin_) + 1 := by omega
  have hLast : begin_ + 1 * (i - begin_) = i := by omega
  rw [loweredBelow, hLen, List.range'_concat, hLast, List.filter_append, loweredBelow]
  congr 1
  by_cases hi : i ∈ all <;> simp [hi]

/-- Members and layers lowered never become fewer on the way. -/
theorem liveCount_membersBelow_le (stack : List GroupMember) (all : List Nat) (i : Nat) :
    liveCount stack (membersBelow all i) ≤ liveCount stack all :=
  (List.filter_sublist).countP_le

/-- A member taken is counted where it is live. -/
theorem liveCount_concat {stack : List GroupMember} {i : Nat} {layer : GroupMember}
    (hLayer : stack[i]? = some layer) (taken : List Nat) :
    liveCount stack (taken ++ [i]) = liveCount stack taken + if layer.live then 1 else 0 := by
  rw [liveCount, List.countP_append, liveCount]
  simp [hLayer, List.countP_cons]

theorem loweredBelow_length_le {begin_ i last : Nat} (all : List Nat) (hLast : i ≤ last) :
    (loweredBelow begin_ all i).length ≤ (loweredBelow begin_ all last).length := by
  have hSub : (List.range' begin_ (i - begin_)).Sublist (List.range' begin_ (last - begin_)) :=
    List.range'_sublist_right.mpr (by omega)
  exact (hSub.filter _).length_le

section Branch

variable {stack : List GroupMember} {width turn begin_ last : Nat} {all : List Nat}

theorem Admissible.inside (h : Admissible stack width turn all) {m : Nat} (hm : m ∈ all) :
    m < stack.length := by
  by_contra hOut
  have hTurn := h.oneTurn m hm
  rw [List.getElem?_eq_none (by omega)] at hTurn
  cases hTurn

theorem Admissible.nodup (h : Admissible stack width turn all) : all.Nodup :=
  h.rising.imp fun hlt => Nat.ne_of_lt hlt

theorem Admissible.bounds (h : Admissible stack width turn all) (hFirst : all.head? = some begin_)
    (hLast : all.getLast? = some last) {m : Nat} (hm : m ∈ all) : begin_ ≤ m ∧ m ≤ last := by
  constructor
  · cases all with
    | nil => cases hm
    | cons b rest =>
      obtain rfl := Option.some.inj hFirst
      rcases List.mem_cons.mp hm with rfl | hm
      · exact le_refl _
      · exact ((List.pairwise_cons.mp h.rising).1 m hm).le
  · obtain ⟨init, hEq⟩ := List.getLast?_eq_some_iff.mp hLast
    have hRising := h.rising
    rw [hEq] at hRising hm
    rcases List.mem_append.mp hm with hm | hm
    · exact ((List.pairwise_append.mp hRising).2.2 m hm last (List.mem_singleton_self _)).le
    · exact (List.mem_singleton.mp hm).le

theorem between_eq (hFirst : all.head? = some begin_) (hLast : all.getLast? = some last) :
    between all = loweredBelow begin_ all last := by
  rw [between, hFirst, hLast]
  rfl

/-- The last member is taken, not lowered. -/
theorem between_eq_succ (h : Admissible stack width turn all) (hFirst : all.head? = some begin_)
    (hLast : all.getLast? = some last) : between all = loweredBelow begin_ all (last + 1) := by
  have hMem : last ∈ all := List.mem_of_getLast? hLast
  rw [between_eq hFirst hLast, loweredBelow_succ all (h.bounds hFirst hLast hMem).1, if_pos hMem,
    List.append_nil]

theorem membersBelow_all (h : Admissible stack width turn all) (hFirst : all.head? = some begin_)
    (hLast : all.getLast? = some last) : membersBelow all (last + 1) = all := by
  rw [membersBelow, List.filter_eq_self]
  intro m hm
  have := (h.bounds hFirst hLast hm).2
  simp only [decide_eq_true_eq]
  omega

theorem membersBelow_start (h : Admissible stack width turn all)
    (hFirst : all.head? = some begin_) (hLast : all.getLast? = some last) :
    membersBelow all (begin_ + 1) = [begin_] := by
  rw [membersBelow_succ h.rising, if_pos (List.mem_of_mem_head? hFirst),
    membersBelow_of_le fun m hm => (h.bounds hFirst hLast hm).1, List.nil_append]

theorem loweredBelow_start (hFirst : all.head? = some begin_) :
    loweredBelow begin_ all (begin_ + 1) = [] := by
  rw [loweredBelow_succ all (le_refl _), if_pos (List.mem_of_mem_head? hFirst), loweredBelow,
    Nat.sub_self]
  rfl

/-- A layer lowered overlaps no member taken before it. -/
theorem clear_below (h : Admissible stack width turn all) {i : Nat} (hBetween : i ∈ between all) :
    ((membersBelow all i).all fun m => !overlapsAt stack m i) = true := by
  rw [List.all_eq_true]
  intro m hm
  obtain ⟨hIn, hLt⟩ := List.mem_filter.mp hm
  rw [h.clear i hBetween m hIn (of_decide_eq_true hLt)]
  rfl

/-- **The room check never excludes a group that can be completed**: the members
still to come stand above the layer lowered. -/
theorem room (h : Admissible stack width turn all) {i : Nat} (hi : i ∉ all) :
    width - (membersBelow all i).length ≤ stack.length - i - 1 := by
  have hSplit : (membersBelow all i).length + (all.filter fun m => !decide (m < i)).length =
      width := by
    rw [← h.asked, membersBelow]
    exact (List.length_eq_length_filter_add _).symm
  have hAbove : (all.filter fun m => !decide (m < i)).length ≤
      (List.range' (i + 1) (stack.length - i - 1)).length := by
    refine (h.nodup.filter _).length_le_of_subset ?_
    intro m hm
    obtain ⟨hMem, hNot⟩ := List.mem_filter.mp hm
    have hNe : m ≠ i := fun hEq => hi (hEq ▸ hMem)
    have hInside := h.inside hMem
    simp only [Bool.not_eq_true', decide_eq_false_iff_not] at hNot
    rw [List.mem_range'_1]
    omega
  rw [List.length_range'] at hAbove
  omega

end Branch

-- ---------------------------------------------------------------------------
-- The cut, the budget and the best so far
-- ---------------------------------------------------------------------------

/-- A group no dearer than `p` has been found. -/
def Bounded (p : ℕ ×ₗ ℕ) (s : Search) : Prop := ∃ c, s.best = some c ∧ c.price ≤ p

/-- A group has been found that is cheaper than `p`, or as dear and starts no
higher than `b`. -/
def NoWorse (p : ℕ ×ₗ ℕ) (b : Nat) (s : Search) : Prop :=
  ∃ c, s.best = some c ∧ (c.price < p ∨ c.price = p ∧ c.first ≤ b)

/-- The cut is made below a group that is no dearer. -/
theorem cuts_iff {s : Search} {live lowered : Nat} :
    s.cuts live lowered = true ↔ Bounded (toLex (live, lowered)) s := by
  unfold Search.cuts Bounded GroupChoice.price
  cases s.best with
  | none => simp
  | some best =>
    simp only [Bool.or_eq_true, Bool.and_eq_true, decide_eq_true_eq, beq_iff_eq,
      Option.some.injEq, exists_eq_left', Prod.Lex.toLex_le_toLex]
    omega

/-- A group recorded past the cut is cheaper than the one it replaces. -/
theorem record_cheaper {stack : List GroupMember} {width begin_ i live : Nat}
    {members lowered : List Nat} {s : Search} {best : GroupChoice}
    (hCut : ¬s.cuts live lowered.length = true) (hBest : s.best = some best) :
    (record stack width begin_ i live members lowered).price < best.price := by
  by_contra hNot
  exact hCut (cuts_iff.mpr ⟨best, hBest, not_lt.mp hNot⟩)

/-- **The walk never loses what was found.** -/
theorem walk_noWorse {stack : List GroupMember} {width begin_ turn b : Nat} {p : ℕ ×ₗ ℕ}
    (rest : List GroupMember) (i live : Nat) (members lowered : List Nat) (s : Search)
    (hFound : NoWorse p b s) :
    NoWorse p b (walk stack width begin_ turn rest i live members lowered s) := by
  refine walk_keeps (fun _ h => h) ?_ rest i live members lowered s hFound
  intro s i live members lowered hCut ⟨best, hBest, hLe⟩
  refine ⟨_, rfl, .inl ?_⟩
  rcases hLe with hLt | ⟨hEq, -⟩
  · exact (record_cheaper hCut hBest).trans hLt
  · exact hEq ▸ record_cheaper hCut hBest

theorem walk_bounded {stack : List GroupMember} {width begin_ turn : Nat} {p : ℕ ×ₗ ℕ}
    (rest : List GroupMember) (i live : Nat) (members lowered : List Nat) (s : Search)
    (hFound : Bounded p s) :
    Bounded p (walk stack width begin_ turn rest i live members lowered s) := by
  refine walk_keeps (fun _ h => h) ?_ rest i live members lowered s hFound
  intro s i live members lowered hCut ⟨best, hBest, hLe⟩
  exact ⟨_, rfl, (record_cheaper hCut hBest).le.trans hLe⟩

/-- The budget is only ever spent. -/
theorem walk_steps_le {stack : List GroupMember} {width begin_ turn : Nat}
    (rest : List GroupMember) (i live : Nat) (members lowered : List Nat) (s : Search) :
    (walk stack width begin_ turn rest i live members lowered s).steps ≤ s.steps :=
  walk_keeps (P := fun t => t.steps ≤ s.steps) (fun t h => (Nat.sub_le t.steps 1).trans h)
    (fun _ _ _ _ _ _ h => h) rest i live members lowered s (le_refl _)

-- ---------------------------------------------------------------------------
-- No admissible group is missed
-- ---------------------------------------------------------------------------

section Branch

variable {stack : List GroupMember} {width turn begin_ last : Nat} {all : List Nat}

/-- On its way the branch is never dearer than the group it ends with. -/
theorem price_below_le (h : Admissible stack width turn all) (hFirst : all.head? = some begin_)
    (hLast : all.getLast? = some last) {i : Nat} (hi : i ≤ last + 1) :
    toLex (liveCount stack (membersBelow all i), (loweredBelow begin_ all i).length) ≤
      price stack all := by
  rw [price, between_eq_succ h hFirst hLast]
  exact Prod.Lex.toLex_mono
    ⟨liveCount_membersBelow_le stack all i, loweredBelow_length_le all hi⟩

/-- **No admissible group is missed.** With steps to spare at the end, the walk
leaves a group no dearer than any it could have completed: it follows the
group's own branch until the group is recorded or a cut shows one as good. -/
theorem walk_bounds (h : Admissible stack width turn all) (hFirst : all.head? = some begin_)
    (hLast : all.getLast? = some last) :
    ∀ (rest : List GroupMember) (i : Nat) (s : Search), rest = stack.drop i → begin_ < i →
      i ≤ last + 1 →
      0 < (walk stack width begin_ turn rest i (liveCount stack (membersBelow all i))
        (membersBelow all i) (loweredBelow begin_ all i) s).steps →
      Bounded (price stack all) (walk stack width begin_ turn rest i
        (liveCount stack (membersBelow all i)) (membersBelow all i)
        (loweredBelow begin_ all i) s) := by
  have hEnd := h.inside (List.mem_of_getLast? hLast)
  intro rest
  induction rest with
  | nil =>
    intro i s hRest hStart hi hSteps
    have hLen : stack.length ≤ i := List.drop_eq_nil_iff.mp hRest.symm
    obtain rfl : i = last + 1 := by omega
    have hBelow := price_below_le h hFirst hLast hi
    have hFull : (membersBelow all (last + 1)).length = width := by
      rw [membersBelow_all h hFirst hLast, h.asked]
    unfold walk
    simp only [hFull, if_true]
    split
    · rename_i hCut
      obtain ⟨c, hc, hLe⟩ := cuts_iff.mp hCut
      exact ⟨c, hc, hLe.trans hBelow⟩
    · exact ⟨_, rfl, hBelow⟩
  | cons layer rest ih =>
    intro i s hRest hStart hi hSteps
    obtain ⟨hLayer, hNext⟩ := of_drop_eq_cons hRest
    have hBelow := price_below_le h hFirst hLast hi
    revert hSteps
    unfold walk
    simp only
    split
    · rename_i hCut
      intro _
      obtain ⟨c, hc, hLe⟩ := cuts_iff.mp hCut
      exact ⟨c, hc, hLe.trans hBelow⟩
    split
    · intro _
      exact ⟨_, rfl, hBelow⟩
    rename_i hShort
    have hInside : i ≤ last := by
      by_contra hOut
      obtain rfl : i = last + 1 := by omega
      rw [membersBelow_all h hFirst hLast, h.asked] at hShort
      exact hShort rfl
    have hMembers := membersBelow_succ h.rising i
    have hLowered := loweredBelow_succ all (Nat.le_of_lt hStart)
    by_cases hMem : i ∈ all
    · -- a member: the branch that takes it
      rw [if_pos hMem] at hMembers hLowered
      rw [List.append_nil] at hLowered
      have hTurn := h.oneTurn i hMem
      rw [hLayer, Option.map_some, Option.some.injEq] at hTurn
      have hTaken := ih (i + 1) { s with steps := s.steps - 1 } hNext (by omega) (by omega)
      rw [hMembers, hLowered, liveCount_concat hLayer] at hTaken
      simp only [hTurn, bne_self_eq_false, Bool.false_eq_true, if_false]
      generalize walk stack width begin_ turn rest (i + 1)
        (liveCount stack (membersBelow all i) + if layer.live then 1 else 0)
        (membersBelow all i ++ [i]) (loweredBelow begin_ all i)
        { s with steps := s.steps - 1 } = s₁ at hTaken ⊢
      split
      · split
        · intro hSteps
          exact walk_bounded _ _ _ _ _ _
            (hTaken (Nat.lt_of_lt_of_le hSteps (walk_steps_le _ _ _ _ _ _)))
        · exact hTaken
      · exact hTaken
    · -- a layer between the members: the branch that lowers it
      rw [if_neg hMem] at hMembers hLowered
      rw [List.append_nil] at hMembers
      have hBetween : i ∈ between all := by
        rw [between_eq_succ h hFirst hLast, loweredBelow, List.mem_filter, List.mem_range'_1]
        refine ⟨by omega, by simpa using hMem⟩
      obtain ⟨layer', hLayer', hMay⟩ := h.lowerable i hBetween
      obtain rfl : layer = layer' := Option.some.inj (hLayer.symm.trans hLayer')
      have hClear := clear_below h hBetween
      have hRoom := room h hMem
      have hMay' : (layer.live || layer.turn != turn) = true := by simpa using hMay
      generalize (if (layer.turn != turn) = true then { s with steps := s.steps - 1 } else
        walk stack width begin_ turn rest (i + 1)
          (liveCount stack (membersBelow all i) + if layer.live then 1 else 0)
          (membersBelow all i ++ [i]) (loweredBelow begin_ all i)
          { s with steps := s.steps - 1 }) = s₁
      have hLower := ih (i + 1) s₁ hNext (by omega) (by omega)
      rw [hMembers, hLowered] at hLower
      rw [hMay', hClear, Bool.true_and, Bool.and_true]
      split
      · simpa only [hRoom, decide_true, if_true] using hLower
      · -- the budget was spent before the layer could be lowered
        rename_i hSpent
        intro hSteps
        exact absurd (decide_eq_true hSteps) hSpent

end Branch

-- ---------------------------------------------------------------------------
-- Every group recorded is admissible
-- ---------------------------------------------------------------------------

/-- Two lists that rise and have the same entries are the same. -/
theorem eq_of_rising {l₁ l₂ : List Nat} (h₁ : l₁.Pairwise (· < ·)) (h₂ : l₂.Pairwise (· < ·))
    (hMem : ∀ k, k ∈ l₁ ↔ k ∈ l₂) : l₁ = l₂ := by
  have hNodup₁ : l₁.Nodup := h₁.imp fun hlt => Nat.ne_of_lt hlt
  have hNodup₂ : l₂.Nodup := h₂.imp fun hlt => Nat.ne_of_lt hlt
  exact List.Perm.eq_of_pairwise (fun a b _ _ hab hba => absurd hab (Nat.lt_asymm hba)) h₁ h₂
    ((List.perm_ext_iff_of_nodup hNodup₁ hNodup₂).mpr hMem)

/-- What a full group lowered are the layers between its members. -/
theorem Reached.between_eq {stack : List GroupMember} {width begin_ turn i live : Nat}
    {members lowered : List Nat} (h : Reached stack width begin_ turn i live members lowered)
    (hWidth : members.length = width) : between members = lowered := by
  have hLast := h.last hWidth
  have hStart := h.start
  have hNodup : (lowered ++ members).Nodup := h.all.nodup_iff.mpr List.nodup_range'
  rw [between, h.first, hLast, Option.getD_some, Option.getD_some]
  refine eq_of_rising (.filter _ List.pairwise_lt_range') h.loweredInOrder fun k => ?_
  rw [List.mem_filter, List.mem_range'_1]
  simp only [Bool.not_eq_true', List.contains_eq_mem, decide_eq_false_iff_not]
  have hAll : k ∈ lowered ∨ k ∈ members ↔ begin_ ≤ k ∧ k < begin_ + (i - begin_) := by
    rw [← List.mem_append, h.all.mem_iff, List.mem_range'_1]
  constructor
  · rintro ⟨hRange, hNot⟩
    exact (hAll.mpr (by omega)).resolve_right hNot
  · intro hk
    have hNot : k ∉ members := fun hIn => (List.nodup_append.mp hNodup).2.2 k hk k hIn rfl
    have hRange := hAll.mp (.inl hk)
    have hNe : k ≠ i - 1 := fun hEq => hNot (hEq ▸ List.mem_of_getLast? hLast)
    exact ⟨by omega, hNot⟩

/-- **A group recorded is admissible**, at the price it is recorded with. -/
theorem record_admissible {stack : List GroupMember} {width begin_ turn i live : Nat}
    {members lowered : List Nat} (h : Reached stack width begin_ turn i live members lowered)
    (hWidth : members.length = width) :
    Admissible stack width turn members ∧
      (record stack width begin_ i live members lowered).price = price stack members := by
  have hBetween := h.between_eq hWidth
  refine ⟨⟨?_, hWidth, h.membersInOrder, h.oneTurn, ?_, ?_⟩, ?_⟩
  · exact List.ne_nil_of_mem h.first_mem
  · rw [hBetween]
    exact h.lowerable
  · rw [hBetween]
    exact h.clear
  · rw [price, hBetween, GroupChoice.price, liveCount, ← h.liveCount]
    rfl

-- ---------------------------------------------------------------------------
-- The answer
-- ---------------------------------------------------------------------------

/-- The stack seated around a group: the layers below it, those lowered, its
members, and the layers above. -/
def seated (stack : List GroupMember) (members : List Nat) : List Nat :=
  let first := members.head?.getD 0
  let next := members.getLast?.getD 0 + 1
  List.range first ++ between members ++ members ++ List.range' next (stack.length - next)

/-- What an answer is: an admissible group, seated and counted. -/
structure Answers (stack : List GroupMember) (width : Nat) (c : GroupChoice)
    (members : List Nat) : Prop where
  admissible : ∃ turn, Admissible stack width turn members
  order : c.order = seated stack members
  first : members.head? = some c.first
  asked : c.width = width
  price : c.price = price stack members

theorem record_answers {stack : List GroupMember} {width begin_ turn i live : Nat}
    {members lowered : List Nat} (h : Reached stack width begin_ turn i live members lowered)
    (hWidth : members.length = width) :
    Answers stack width (record stack width begin_ i live members lowered) members where
  admissible := ⟨turn, (record_admissible h hWidth).1⟩
  order := by
    have hStart := h.start
    have hNext : i - 1 + 1 = i := by omega
    rw [seated, h.between_eq hWidth, h.first, h.last hWidth, Option.getD_some, Option.getD_some,
      hNext]
    rfl
  first := by
    rw [h.first]
    simp [GroupChoice.first, record]
  asked := rfl
  price := (record_admissible h hWidth).2

/-- The members of a group that starts at `begin_` fit above it. -/
theorem Admissible.fits {stack : List GroupMember} {width turn begin_ : Nat} {all : List Nat}
    (h : Admissible stack width turn all) (hFirst : all.head? = some begin_) :
    begin_ + width ≤ stack.length := by
  obtain ⟨last, hLast⟩ : ∃ last, all.getLast? = some last :=
    ⟨_, List.getLast?_eq_some_getLast h.nonempty⟩
  have hStart := h.inside (List.mem_of_mem_head? hFirst)
  have hLength : all.length ≤ (List.range' begin_ (stack.length - begin_)).length := by
    refine h.nodup.length_le_of_subset ?_
    intro m hm
    have hFrom := (h.bounds hFirst hLast hm).1
    have hTo := h.inside hm
    rw [List.mem_range'_1]
    omega
  rw [List.length_range', h.asked] at hLength
  omega

theorem searchFrom_steps_le (stack : List GroupMember) (width : Nat) (s : Search) (begin_ : Nat) :
    (searchFrom stack width s begin_).steps ≤ s.steps := by
  unfold searchFrom
  split
  · exact le_refl _
  · exact walk_steps_le _ _ _ _ _ _

theorem foldl_searchFrom_steps_le (stack : List GroupMember) (width : Nat) (begins : List Nat)
    (s : Search) : (begins.foldl (searchFrom stack width) s).steps ≤ s.steps := by
  induction begins generalizing s with
  | nil => exact le_refl _
  | cons b begins ih => exact (ih _).trans (searchFrom_steps_le stack width s b)

theorem foldl_searchFrom_noWorse {stack : List GroupMember} {width b : Nat} {p : ℕ ×ₗ ℕ}
    (begins : List Nat) {s : Search} (hFound : NoWorse p b s) :
    NoWorse p b (begins.foldl (searchFrom stack width) s) := by
  induction begins generalizing s with
  | nil => exact hFound
  | cons start begins ih =>
    apply ih
    unfold searchFrom
    split
    · exact hFound
    · exact walk_noWorse _ _ _ _ _ _ hFound

/-- A start leaves a group no dearer than any admissible group it begins. -/
theorem searchFrom_bounds {stack : List GroupMember} {width turn begin_ : Nat} {all : List Nat}
    {s : Search} (h : Admissible stack width turn all) (hFirst : all.head? = some begin_)
    (hSteps : 0 < (searchFrom stack width s begin_).steps) :
    Bounded (price stack all) (searchFrom stack width s begin_) := by
  obtain ⟨last, hLast⟩ : ∃ last, all.getLast? = some last :=
    ⟨_, List.getLast?_eq_some_getLast h.nonempty⟩
  have hMem : begin_ ∈ all := List.mem_of_mem_head? hFirst
  have hBound := h.bounds hFirst hLast hMem
  have hTurn := h.oneTurn begin_ hMem
  obtain ⟨first, hLayer, rfl⟩ := Option.map_eq_some_iff.mp hTurn
  have hLive : liveCount stack (membersBelow all (begin_ + 1)) = if first.live then 1 else 0 := by
    rw [membersBelow_start h hFirst hLast, liveCount]
    simp [hLayer, List.countP_cons]
  have hWalk := walk_bounds h hFirst hLast _ (begin_ + 1) s rfl (Nat.lt_succ_self _) (by omega)
  rw [hLive, membersBelow_start h hFirst hLast, loweredBelow_start hFirst] at hWalk
  unfold searchFrom at hSteps ⊢
  rw [hLayer] at hSteps ⊢
  exact hWalk hSteps

/-- After the search no admissible group is cheaper than the best found, nor as
dear and begun lower. -/
theorem searched_noWorse {stack : List GroupMember} {width turn begin_ : Nat} {all : List Nat}
    (hSteps : 0 < (searched stack width).steps) (h : Admissible stack width turn all)
    (hFirst : all.head? = some begin_) :
    NoWorse (price stack all) begin_ (searched stack width) := by
  have hFits := h.fits hFirst
  have hSplit := range_split (n := stack.length - width + 1) (Nat.le_succ begin_) (by omega)
  have hOne : begin_ + 1 - begin_ = 1 := by omega
  rw [hOne, List.range'_one] at hSplit
  unfold searched at hSteps ⊢
  rw [hSplit, List.foldl_append, List.foldl_append, List.foldl_cons, List.foldl_nil] at hSteps ⊢
  apply foldl_searchFrom_noWorse
  obtain ⟨c, hc, hLe⟩ := searchFrom_bounds h hFirst
    (Nat.lt_of_lt_of_le hSteps (foldl_searchFrom_steps_le ..))
  refine ⟨c, hc, ?_⟩
  rcases lt_or_eq_of_le hLe with hLt | hEq
  · exact .inl hLt
  -- no group begun higher has been recorded yet
  have hBegun : ∀ b ≤ begin_, ∀ turn i live members lowered,
      Reached stack width b turn i live members lowered → members.length = width →
      (record stack width b i live members lowered).first ≤ begin_ := by
    intro b hb turn i live members lowered _ _
    simpa [GroupChoice.first, record] using hb
  refine .inr ⟨hEq, searchFrom_bestIs (Q := fun c => c.first ≤ begin_)
    (hBegun begin_ (le_refl _)) (foldl_searchFrom_bestIs (fun b hb => ?_) ?_) c hc⟩
  · exact hBegun b (Nat.le_of_lt (List.mem_range.mp hb))
  · intro c hc
    cases hc

/-- **The best group within the budget.** While the search spends fewer steps
than it has, an answer is an admissible group, and none is cheaper, nor as
dear and begun lower; without an answer there is no admissible group. -/
theorem chooseMergeGroup_best (stack : List GroupMember) (width : Nat)
    (hSteps : spent stack width < kSteps) :
    (∀ c, chooseMergeGroup stack width = some c →
      ∃ members, Answers stack width c members ∧
        ∀ turn others first, Admissible stack width turn others → others.head? = some first →
          c.price < price stack others ∨ c.price = price stack others ∧ c.first ≤ first) ∧
      (chooseMergeGroup stack width = none →
        ∀ turn others, ¬Admissible stack width turn others) := by
  constructor
  · intro c hChoice
    refine ⟨_, chooseMergeGroup_is (Q := fun c => ∃ members, Answers stack width c members)
      (fun _ _ _ _ _ _ hReached hWidth => ⟨_, record_answers hReached hWidth⟩) hChoice
      |>.choose_spec, ?_⟩
    intro turn others first hOthers hFirst
    unfold chooseMergeGroup at hChoice
    split at hChoice
    · cases hChoice
    rename_i hWidth
    rw [spent, if_neg hWidth] at hSteps
    obtain ⟨best, hBest, hLe⟩ := searched_noWorse (by omega) hOthers hFirst
    obtain rfl : best = c := Option.some.inj (hBest.symm.trans hChoice)
    exact hLe
  · intro hNone turn others hOthers
    obtain ⟨first, hFirst⟩ : ∃ first, others.head? = some first :=
      ⟨_, List.head?_eq_some_head hOthers.nonempty⟩
    have hFits := hOthers.fits hFirst
    have hAsked : 0 < width := hOthers.asked ▸ List.length_pos_of_ne_nil hOthers.nonempty
    unfold chooseMergeGroup at hNone
    rw [if_neg (by omega)] at hNone
    rw [spent, if_neg (by omega)] at hSteps
    obtain ⟨best, hBest, -⟩ := searched_noWorse (by omega) hOthers hFirst
    rw [searched, hNone] at hBest
    cases hBest

/-- Two still layers and a live one between them that covers neither. -/
def liveBetween : List GroupMember :=
  [{ frame := some ⟨0, 0, 10, 10⟩ }, { live := true, frame := some ⟨20, 0, 30, 10⟩ },
    { frame := some ⟨0, 0, 10, 10⟩ }]

theorem chooseMergeGroup_best_liveBetween :
    chooseMergeGroup liveBetween 2 = some ⟨[1, 0, 2], 1, 2, 0, 1⟩ ∧
      ∀ turn others first, Admissible liveBetween 2 turn others → others.head? = some first →
        toLex (0, 1) < price liveBetween others ∨
          toLex (0, 1) = price liveBetween others ∧ 0 ≤ first := by
  have hChoice : chooseMergeGroup liveBetween 2 = some ⟨[1, 0, 2], 1, 2, 0, 1⟩ := by decide
  obtain ⟨members, -, hLeast⟩ := (chooseMergeGroup_best liveBetween 2 (by decide)).1 _ hChoice
  exact ⟨hChoice, hLeast⟩

end MergeGroup

end TegraHwc
