import TegraHwc.Compositor.PartialRedraw
import TegraHwc.Lib.Joining

/-!
# TegraHwc — the parts a redraw is gathered into

`Gather` of `compositor/PartialRedraw.cpp`, loop by loop. Each of its three
loops is a schedule of joins: the first joins what meets or is near, the second
gives a part that only clears to one that draws, the third joins down to the
most one picture is drawn in. Each leaves what it is for; what the first leaves,
no two of it meeting, the later two may undo, since a box around two parts may
reach over a third.

## Results

* `gather_sound`     — the parts lie inside the bounds, cover the places from the
  origin on, are few enough, and each draws something where it has to.
* `gather_apart`     — no two of them share a pixel where the places come in few
  groups.
* `gather_apart_iff` — nor where the later loops take in what they reach over.
-/

namespace TegraHwc.PartialRedraw

open Joining

-- ---------------------------------------------------------------------------
-- Positions
-- ---------------------------------------------------------------------------

/-- The pairs of positions are positions of the list. -/
theorem snd_lt_of_mem_pairs {n : Nat} {ij : Nat × Nat} (h : ij ∈ pairs n) : ij.2 < n := by
  obtain ⟨i, -, hi⟩ := List.mem_flatMap.mp h
  obtain ⟨j, hj, rfl⟩ := List.mem_map.mp hi
  rw [List.mem_range'_1] at hj
  show j < n
  omega

theorem mem_pairs {n i j : Nat} (hij : i < j) (hj : j < n) : (i, j) ∈ pairs n := by
  refine List.mem_flatMap.mpr ⟨i, List.mem_range.mpr (hij.trans hj), ?_⟩
  refine List.mem_map.mpr ⟨j, List.mem_range'_1.mpr ?_, rfl⟩
  omega

/-- And the pair that grows the least is. -/
theorem leastGrowth_snd_lt {parts : List IRect} (h : 2 ≤ parts.length) :
    (leastGrowth parts).2 < parts.length := by
  unfold leastGrowth
  refine List.foldlRecOn (motive := fun ij : Nat × Nat => ij.2 < parts.length) _ _ h
    fun best hBest ij hij => ?_
  split
  · exact snd_lt_of_mem_pairs hij
  · exact hBest

/-- The part a clearing one is given to is one of the parts. -/
theorem bestFor_lt {members : List Member} {parts : List IRect} {i : Nat}
    (h : 2 ≤ parts.length) : bestFor members parts i < parts.length := by
  unfold bestFor
  refine List.foldlRecOn (motive := fun best => best < parts.length) _ _ ?_
    fun best hBest j hj => ?_
  · split <;> omega
  · split
    · exact List.mem_range.mp hj
    · exact hBest

-- ---------------------------------------------------------------------------
-- The loops as schedules of joins
-- ---------------------------------------------------------------------------

/-- The joins of the first loop. -/
def nearJoins : Nat → List IRect → List (Nat × Nat)
  | 0, _ => []
  | fuel + 1, parts =>
    match
      (pairs parts.length).find? fun ij =>
        near (parts.getD ij.1 ⟨0, 0, 0, 0⟩) (parts.getD ij.2 ⟨0, 0, 0, 0⟩) with
    | none => []
    | some ij => ij :: nearJoins fuel (joinAt parts ij.1 ij.2)

/-- The joins of the second. -/
def emptyJoins (members : List Member) : Nat → List IRect → List (Nat × Nat)
  | 0, _ => []
  | fuel + 1, parts =>
    match parts.findIdx? fun part => !drawsSomething members part with
    | none => []
    | some i =>
      if parts.length = 1 then []
      else
        let best := bestFor members parts i
        (min i best, max i best) ::
          emptyJoins members fuel (joinAt parts (min i best) (max i best))

/-- The joins of the third. -/
def downJoins : Nat → List IRect → List (Nat × Nat)
  | 0, _ => []
  | fuel + 1, parts =>
    if parts.length ≤ kMostParts then []
    else
      leastGrowth parts :: downJoins fuel (joinAt parts (leastGrowth parts).1 (leastGrowth parts).2)

section Loops

variable {members : List Member} {parts : List IRect}

theorem joinAt_eq_joining (i j : Nat) : joinAt parts i j = Joining.joinAt join parts i j := by
  unfold joinAt Joining.joinAt
  cases parts[i]? with
  | none => rfl
  | some a =>
    cases parts[j]? with
    | none => rfl
    | some b => rfl

/-- The head of a schedule, and the joins after it. -/
theorem joinAll_cons (ij : Nat × Nat) (joins : List (Nat × Nat)) :
    joinAll join parts (ij :: joins) = joinAll join (joinAt parts ij.1 ij.2) joins := by
  rw [joinAt_eq_joining]
  rfl

theorem joinNear_eq (fuel : Nat) :
    joinNear fuel parts = joinAll join parts (nearJoins fuel parts) := by
  induction fuel generalizing parts with
  | zero => rfl
  | succ fuel ih =>
    unfold joinNear nearJoins
    cases (pairs parts.length).find? fun ij =>
        near (parts.getD ij.1 ⟨0, 0, 0, 0⟩) (parts.getD ij.2 ⟨0, 0, 0, 0⟩) with
    | none => rfl
    | some ij =>
      rw [joinAll_cons]
      exact ih

theorem joinEmpty_eq (fuel : Nat) :
    joinEmpty members fuel parts = joinAll join parts (emptyJoins members fuel parts) := by
  induction fuel generalizing parts with
  | zero => rfl
  | succ fuel ih =>
    unfold joinEmpty emptyJoins
    cases parts.findIdx? fun part => !drawsSomething members part with
    | none => rfl
    | some i =>
      simp only
      split
      · rfl
      · rw [joinAll_cons]
        exact ih

theorem joinDown_eq (fuel : Nat) :
    joinDown fuel parts = joinAll join parts (downJoins fuel parts) := by
  induction fuel generalizing parts with
  | zero => rfl
  | succ fuel ih =>
    unfold joinDown downJoins
    split
    · rfl
    · rw [joinAll_cons]
      exact ih

/-- A join of two of the parts leaves one less. -/
theorem length_joinAt {i j : Nat} (hij : i < j) (hj : j < parts.length) :
    (joinAt parts i j).length = parts.length - 1 := by
  rw [joinAt_eq_joining, joinAt_length hij hj]

theorem nearJoins_valid (fuel : Nat) : Valid parts.length (nearJoins fuel parts) := by
  induction fuel generalizing parts with
  | zero => trivial
  | succ fuel ih =>
    unfold nearJoins
    split
    · trivial
    · rename_i ij hFound
      have hMem := List.mem_of_find?_eq_some hFound
      have hij := lt_of_mem_pairs hMem
      have hj := snd_lt_of_mem_pairs hMem
      refine ⟨hij, hj, ?_⟩
      rw [← length_joinAt hij hj]
      exact ih

theorem emptyJoins_valid (fuel : Nat) : Valid parts.length (emptyJoins members fuel parts) := by
  induction fuel generalizing parts with
  | zero => trivial
  | succ fuel ih =>
    unfold emptyJoins
    split
    · trivial
    · rename_i i hFound
      have hi : i < parts.length := by
        obtain ⟨hi, -⟩ := List.findIdx?_eq_some_iff_getElem.mp hFound
        exact hi
      split
      · trivial
      · have hne := bestFor_ne members parts i
        have hBest := @bestFor_lt members parts i (by omega)
        have hij : min i (bestFor members parts i) < max i (bestFor members parts i) := by omega
        have hj : max i (bestFor members parts i) < parts.length := by omega
        refine ⟨hij, hj, ?_⟩
        rw [← length_joinAt hij hj]
        exact ih

theorem downJoins_valid (fuel : Nat) : Valid parts.length (downJoins fuel parts) := by
  induction fuel generalizing parts with
  | zero => trivial
  | succ fuel ih =>
    unfold downJoins
    split
    · trivial
    · rename_i hMany
      have hij := leastGrowth_lt parts
      have hj := @leastGrowth_snd_lt parts (by unfold kMostParts at hMany; omega)
      refine ⟨hij, hj, ?_⟩
      rw [← length_joinAt hij hj]
      exact ih

end Loops

-- ---------------------------------------------------------------------------
-- What each loop is for
-- ---------------------------------------------------------------------------

/-- Two rectangles meet, as `Meet` has it. -/
def Meets (a b : IRect) : Prop := meet a b = true

theorem meet_iff {a b : IRect} : meet a b = true ↔
    a.left < b.right ∧ b.left < a.right ∧ a.top < b.bottom ∧ b.top < a.bottom := by
  unfold meet
  simp only [Bool.and_eq_true, decide_eq_true_eq]
  constructor
  · rintro ⟨⟨⟨h₁, h₂⟩, h₃⟩, h₄⟩
    exact ⟨h₁, h₂, h₃, h₄⟩
  · rintro ⟨h₁, h₂, h₃, h₄⟩
    exact ⟨⟨⟨h₁, h₂⟩, h₃⟩, h₄⟩

theorem join_grows : Grows join Meets where
  symm := by
    intro a b h
    obtain ⟨h₁, h₂, h₃, h₄⟩ := meet_iff.mp h
    exact meet_iff.mpr ⟨h₂, h₁, h₄, h₃⟩
  left := by
    intro a b c h
    obtain ⟨h₁, h₂, h₃, h₄⟩ := meet_iff.mp h
    refine meet_iff.mpr ⟨?_, ?_, ?_, ?_⟩ <;> simp only [join] <;> omega
  right := by
    intro a b c h
    obtain ⟨h₁, h₂, h₃, h₄⟩ := meet_iff.mp h
    refine meet_iff.mpr ⟨?_, ?_, ?_, ?_⟩ <;> simp only [join] <;> omega

section Purposes

variable {members : List Member} {parts : List IRect}

/-- The first loop leaves no two parts that meet. -/
theorem joinNear_apart {fuel : Nat} (hFuel : parts.length ≤ fuel) :
    Apart Meets (joinNear fuel parts) := by
  induction fuel generalizing parts with
  | zero =>
    obtain rfl := List.length_eq_zero_iff.mp (Nat.le_zero.mp hFuel)
    intro k l x y _ hx
    cases hx
  | succ fuel ih =>
    unfold joinNear
    split
    · rename_i hNone
      rw [apart_iff_pairwise join_grows.symm, List.pairwise_iff_getElem]
      intro i j hi hj hij hMeet
      refine List.find?_eq_none.mp hNone (i, j) (mem_pairs hij hj) ?_
      simp only [List.getD_eq_getElem?_getD, List.getElem?_eq_getElem hi,
        List.getElem?_eq_getElem hj, Option.getD_some]
      exact Bool.or_eq_true_iff.mpr (.inl hMeet)
    · rename_i i j hFound
      have hMem := List.mem_of_find?_eq_some hFound
      refine ih ?_
      rw [length_joinAt (lt_of_mem_pairs hMem) (snd_lt_of_mem_pairs hMem)]
      omega

/-- The second leaves every part drawing something, or one part. -/
theorem joinEmpty_draws {fuel : Nat} (hFuel : parts.length ≤ fuel) :
    (∀ part ∈ joinEmpty members fuel parts, drawsSomething members part = true) ∨
      (joinEmpty members fuel parts).length = 1 := by
  induction fuel generalizing parts with
  | zero =>
    obtain rfl := List.length_eq_zero_iff.mp (Nat.le_zero.mp hFuel)
    exact .inl fun part hPart => (nomatch hPart)
  | succ fuel ih =>
    unfold joinEmpty
    split
    · rename_i hNone
      left
      intro part hPart
      have := List.findIdx?_eq_none_iff.mp hNone part hPart
      simpa using this
    · rename_i i hFound
      split
      · rename_i hOne
        exact .inr hOne
      · rename_i hNot
        obtain ⟨hi, -⟩ := List.findIdx?_eq_some_iff_getElem.mp hFound
        have hne := bestFor_ne members parts i
        have hBest := @bestFor_lt members parts i (by omega)
        refine ih ?_
        rw [length_joinAt (by omega) (by omega)]
        omega

/-- The third leaves no more than a picture is drawn in. -/
theorem joinDown_length_le {fuel : Nat} (hFuel : parts.length ≤ fuel + kMostParts) :
    (joinDown fuel parts).length ≤ kMostParts := by
  induction fuel generalizing parts with
  | zero => simpa [joinDown] using hFuel
  | succ fuel ih =>
    unfold joinDown
    split
    · assumption
    · rename_i hMany
      have hij := leastGrowth_lt parts
      have hj := @leastGrowth_snd_lt parts (by unfold kMostParts at hMany; omega)
      refine ih ?_
      rw [length_joinAt hij hj]
      omega

/-- A single part is not joined to anything. -/
theorem joinDown_single {fuel : Nat} (h : parts.length = 1) : joinDown fuel parts = parts := by
  cases fuel with
  | zero => rfl
  | succ fuel =>
    unfold joinDown
    rw [if_pos (by unfold kMostParts; omega)]

end Purposes

-- ---------------------------------------------------------------------------
-- What is gathered
-- ---------------------------------------------------------------------------

/-- The parts of some places on the engine's edges, before any is joined. -/
def snapped (places : List IRect) (frame : IRect) : List IRect :=
  (places.map (snap frame)).filter fun p => !empty p

/-- And as the first loop leaves them. -/
def nearest (places : List IRect) (frame : IRect) : List IRect :=
  joinNear (snapped places frame).length (snapped places frame)

/-- The joins of the two later loops. -/
def laterJoins (members : List Member) (engine : Engine) (parts : List IRect) : List (Nat × Nat) :=
  let first := if engine.drawsEmptyPart then [] else emptyJoins members parts.length parts
  let left := joinAll join parts first
  first ++ downJoins left.length left

section Gathering

variable {places : List IRect} {frame : IRect} {members : List Member} {engine : Engine}

/-- What there is to gather: nothing, one box, or what the loops make. -/
theorem gather_cases :
    (snapped places frame = [] ∧ gather places frame members engine = []) ∨
      (engine.drawsManyParts = false ∧ snapped places frame ≠ [] ∧
        gather places frame members engine = [bounds (snapped places frame)]) ∨
      (engine.drawsManyParts = true ∧
        gather places frame members engine
          = joinAll join (nearest places frame)
              (laterJoins members engine (nearest places frame))) := by
  unfold gather
  simp only
  split
  · rename_i hNone
    exact .inl ⟨hNone, rfl⟩
  rename_i hSome
  split
  · rename_i hOne
    exact .inr (.inl ⟨by simpa using hOne, hSome, rfl⟩)
  · rename_i hMany
    refine .inr (.inr ⟨by simpa using hMany, ?_⟩)
    unfold laterJoins
    simp only
    rw [joinAll_append, ← joinDown_eq]
    by_cases hEmpty : engine.drawsEmptyPart = true
    · rw [if_pos hEmpty, if_pos hEmpty]
      rfl
    · rw [if_neg hEmpty, if_neg hEmpty, ← joinEmpty_eq]
      rfl

theorem nearest_apart : Apart Meets (nearest places frame) := joinNear_apart le_rfl

theorem laterJoins_valid (parts : List IRect) :
    Valid parts.length (laterJoins members engine parts) := by
  unfold laterJoins
  simp only
  have hFirst : Valid parts.length
      (if engine.drawsEmptyPart = true then [] else emptyJoins members parts.length parts) := by
    split
    · trivial
    · exact emptyJoins_valid _
  refine valid_append hFirst ?_
  rw [← @joinAll_length _ join _ _ hFirst]
  exact downJoins_valid _

/-- What the snapped places have, and a join keeps, every part has. -/
theorem gather_all {P : IRect → Prop} (hJoin : ∀ a b, P a → P b → P (join a b))
    (hSnapped : ∀ r ∈ snapped places frame, P r) :
    ∀ part ∈ gather places frame members engine, P part := by
  obtain ⟨-, hEq⟩ | ⟨-, hSome, hEq⟩ | ⟨-, hEq⟩ := @gather_cases places frame members engine
  · simp [hEq]
  · rw [hEq]
    intro part hPart
    rw [List.mem_singleton.mp hPart]
    -- the box around the snapped places
    generalize snapped places frame = parts at hSnapped hSome
    cases parts with
    | nil => exact absurd rfl hSome
    | cons r rest =>
      show P (rest.foldl join r)
      have hRest := fun q hq => hSnapped q (List.mem_cons_of_mem r hq)
      have hBox := hSnapped r (by simp)
      clear hSnapped hSome hPart hEq
      induction rest generalizing r with
      | nil => exact hBox
      | cons q rest ih =>
        exact ih (join r q) (fun p hp => hRest p (List.mem_cons_of_mem q hp))
          (hJoin r q hBox (hRest q (by simp)))
  · rw [hEq]
    refine forall_joinAll hJoin ?_ _
    rw [nearest, joinNear_eq]
    exact forall_joinAll hJoin hSnapped _

/-- A rectangle that lies inside another. -/
def LiesIn (outer r : IRect) : Prop :=
  outer.left ≤ r.left ∧ outer.top ≤ r.top ∧ r.right ≤ outer.right ∧ r.bottom ≤ outer.bottom

theorem mem_snapped {r : IRect} (h : r ∈ snapped places frame) :
    LiesIn frame r ∧ empty r = false := by
  obtain ⟨hMap, hEmpty⟩ := List.mem_filter.mp h
  obtain ⟨q, -, rfl⟩ := List.mem_map.mp hMap
  exact ⟨⟨le_max_right _ _, le_max_right _ _, min_le_right _ _, min_le_right _ _⟩,
    by simpa using hEmpty⟩

theorem gather_liesIn : ∀ part ∈ gather places frame members engine, LiesIn frame part := by
  refine gather_all (fun a b ha hb => ?_) fun r hr => (mem_snapped hr).1
  unfold LiesIn join at *
  simp only
  omega

/-- At most `kMostParts` parts are gathered. -/
theorem gather_length_le (places : List IRect) (frame : IRect) (members : List Member)
    (engine : Engine) : (gather places frame members engine).length ≤ kMostParts := by
  unfold gather
  simp only
  split
  · simp
  split
  · simp [kMostParts]
  · exact joinDown_length_le (by omega)

/-- One where the engine draws a picture in one go. -/
theorem gather_length_le_one (hOne : engine.drawsManyParts = false) :
    (gather places frame members engine).length ≤ 1 := by
  obtain ⟨-, hEq⟩ | ⟨-, -, hEq⟩ | ⟨hMany, -⟩ := @gather_cases places frame members engine
  · simp [hEq]
  · simp [hEq]
  · rw [hOne] at hMany
    cases hMany

theorem drawsSomething_join {a : IRect} (b : IRect) (h : drawsSomething members a = true) :
    drawsSomething members (join a b) = true := by
  obtain ⟨m, hm, hMeet⟩ := List.any_eq_true.mp h
  exact List.any_eq_true.mpr ⟨m, hm, join_grows.symm (join_grows.left (join_grows.symm hMeet))⟩

theorem drawsSomething_join_right (a : IRect) {b : IRect}
    (h : drawsSomething members b = true) : drawsSomething members (join a b) = true := by
  obtain ⟨m, hm, hMeet⟩ := List.any_eq_true.mp h
  exact List.any_eq_true.mpr ⟨m, hm, join_grows.symm (join_grows.right (join_grows.symm hMeet))⟩

/-- For an engine that draws no part without a member, each part has one, or is
the only part. -/
theorem gather_draws (hEmpty : engine.drawsEmptyPart = false) :
    (∀ part ∈ gather places frame members engine, drawsSomething members part = true) ∨
      (gather places frame members engine).length ≤ 1 := by
  by_cases hMany : engine.drawsManyParts = true
  · unfold gather
    simp only [hMany, hEmpty, Bool.not_true, Bool.false_eq_true, if_false]
    split
    · exact .inr (by simp)
    · generalize joinNear _ _ = parts
      obtain hAll | hOne := @joinEmpty_draws members parts parts.length le_rfl
      · left
        rw [joinDown_eq]
        have hJoin : ∀ a b, drawsSomething members a = true → drawsSomething members b = true →
            drawsSomething members (join a b) = true := fun a b ha _ => drawsSomething_join b ha
        exact forall_joinAll hJoin hAll _
      · right
        rw [joinDown_single hOne, hOne]
  · exact .inr (gather_length_le_one (by simpa using hMany))

/-- **What `Gather` promises.** The parts lie inside the bounds; every pixel of
a place that lies inside them too, from the origin on, is in a part; there are
few enough of them, one for an engine that draws a picture in one go; and where
the engine draws no part without a member, each part meets one, or is the only
part. -/
theorem gather_sound (places : List IRect) (frame : IRect) (members : List Member)
    (engine : Engine) :
    (∀ part ∈ gather places frame members engine, LiesIn frame part) ∧
      (∀ p : Point, 0 ≤ p.1 → 0 ≤ p.2 → inside frame p → Covered places p →
        Covered (gather places frame members engine) p) ∧
      (gather places frame members engine).length ≤ kMostParts ∧
      (engine.drawsManyParts = false → (gather places frame members engine).length ≤ 1) ∧
      (engine.drawsEmptyPart = false → ∀ part ∈ gather places frame members engine,
        (∃ m ∈ members, meet m.dst part = true) ∨
          gather places frame members engine = [part]) := by
  refine ⟨gather_liesIn, fun p hx hy => gather_covers_from hx hy, gather_length_le _ _ _ _,
    gather_length_le_one, fun hEmpty part hPart => ?_⟩
  obtain hAll | hOne := @gather_draws places frame members engine hEmpty
  · obtain ⟨m, hm, hMeet⟩ := List.any_eq_true.mp (hAll part hPart)
    exact .inl ⟨m, hm, hMeet⟩
  · right
    have hPos := List.length_pos_of_mem hPart
    obtain ⟨only, hOnly⟩ := List.length_eq_one_iff.mp (by omega :
      (gather places frame members engine).length = 1)
    rw [hOnly] at hPart ⊢
    rw [List.mem_singleton.mp hPart]

/-- **Before the origin a pixel is lost**: edges are rounded towards nought, and
there that is inwards. -/
theorem gather_uncovers :
    ¬∀ (places : List IRect) (frame : IRect) (members : List Member) (engine : Engine) (p : Point),
      inside frame p → Covered places p → Covered (gather places frame members engine) p := by
  intro h
  have hCovered := h [⟨-5, 0, 16, 16⟩] ⟨-16, 0, 32, 32⟩ [] {} (-5, 0) (by decide) (by decide)
  revert hCovered
  decide

-- ---------------------------------------------------------------------------
-- Parts that share a pixel
-- ---------------------------------------------------------------------------

/-- No two of the parts share a pixel. -/
def Disjoint_ (parts : List IRect) : Prop :=
  parts.Pairwise fun a b => ∀ p, ¬(inside a p ∧ inside b p)

/-- Two rectangles that are not empty share a pixel just where they meet. -/
theorem meets_iff {a b : IRect} (ha : empty a = false) (hb : empty b = false) :
    Meets a b ↔ ∃ p, inside a p ∧ inside b p := by
  unfold empty at ha hb
  rw [Bool.or_eq_false_iff, decide_eq_false_iff_not, decide_eq_false_iff_not] at ha hb
  unfold Meets inside
  rw [meet_iff]
  constructor
  · rintro ⟨h₁, h₂, h₃, h₄⟩
    refine ⟨(max a.left b.left, max a.top b.top), ?_⟩
    simp only
    omega
  · rintro ⟨p, hp, hq⟩
    omega

theorem gather_not_empty : ∀ part ∈ gather places frame members engine, empty part = false := by
  refine gather_all (fun a b ha hb => ?_) fun r hr => (mem_snapped hr).2
  unfold empty join at *
  rw [Bool.or_eq_false_iff, decide_eq_false_iff_not, decide_eq_false_iff_not] at *
  simp only
  omega

theorem gather_disjoint_iff_apart : Disjoint_ (gather places frame members engine) ↔
    Apart Meets (gather places frame members engine) := by
  rw [apart_iff_pairwise join_grows.symm]
  have hSome := @gather_not_empty places frame members engine
  generalize gather places frame members engine = parts at hSome
  unfold Disjoint_
  rw [List.pairwise_iff_getElem, List.pairwise_iff_getElem]
  constructor
  · intro h i j hi hj hij hMeet
    obtain ⟨p, hp⟩ := (meets_iff (hSome _ (List.getElem_mem hi)) (hSome _ (List.getElem_mem hj))).mp
      hMeet
    exact h i j hi hj hij p hp
  · intro h i j hi hj hij p hp
    exact h i j hi hj hij ((meets_iff (hSome _ (List.getElem_mem hi))
      (hSome _ (List.getElem_mem hj))).mpr ⟨p, hp⟩)

/-- No pixel is in two parts where the engine draws a picture in one go, or no
join of the later loops makes a box that reaches over a part it never takes in. -/
theorem gather_apart_iff (places : List IRect) (frame : IRect) (members : List Member)
    (engine : Engine) :
    Disjoint_ (gather places frame members engine) ↔
      engine.drawsManyParts = false ∨
        TakenIn join Meets (nearest places frame)
          (laterJoins members engine (nearest places frame)) := by
  rw [gather_disjoint_iff_apart]
  obtain ⟨hNone, hEq⟩ | ⟨hOne, -, hEq⟩ | ⟨hMany, hEq⟩ := @gather_cases places frame members engine
  · have hNearest : nearest places frame = [] := by
      unfold nearest
      rw [hNone]
      rfl
    have hJoins : laterJoins members engine [] = [] := by
      unfold laterJoins
      cases engine.drawsEmptyPart <;> rfl
    rw [hEq, hNearest, hJoins]
    exact ⟨fun _ => .inr trivial, fun _ => apart_of_length_le_one (by simp)⟩
  · exact ⟨fun _ => .inl hOne, fun _ => apart_of_length_le_one (by simp [hEq])⟩
  · rw [hEq, hMany, apart_joinAll_iff_of_apart join_grows (laterJoins_valid _) nearest_apart]
    exact ⟨.inr, fun h => h.resolve_left (by decide)⟩

/-- The first loop leaves no more parts than there are groups of places that meet. -/
theorem nearest_length_le {n : Nat} (h : InGroups Meets (snapped places frame) n) :
    (nearest places frame).length ≤ n := by
  have hApart := @nearest_apart places frame
  rw [nearest, joinNear_eq] at hApart ⊢
  exact joinAll_length_le join_grows (nearJoins_valid _) hApart h

/-- Every group of places that meet has one that a member meets. -/
def GroupsDraw (members : List Member) (parts : List IRect) : Prop :=
  ∀ k < parts.length, ∃ l part, Linked Meets parts k l ∧ parts[l]? = some part ∧
    ∃ m ∈ members, meet m.dst part = true

/-- Then every part the first loop leaves draws something. -/
theorem nearest_draws (h : GroupsDraw members (snapped places frame)) :
    ∀ part ∈ nearest places frame, drawsSomething members part = true := by
  have hApart := @nearest_apart places frame
  rw [nearest, joinNear_eq] at hApart ⊢
  have hValid := @nearJoins_valid (snapped places frame) (snapped places frame).length
  intro part hPart
  obtain ⟨k', hk', rfl⟩ := List.getElem_of_mem hPart
  obtain ⟨k, hk, rfl⟩ := exists_lands hValid hk'
  obtain ⟨l, place, hLinked, hPlace, m, hm, hMeet⟩ := h k hk
  have hLands := landing_eq_of_linked join_grows hValid hApart hLinked
  have hDraws : drawsSomething members place = true := List.any_eq_true.mpr ⟨m, hm, hMeet⟩
  -- the part is the one the place that is drawn over lands in
  obtain ⟨landed, hLanded, hKept⟩ :=
    @exists_landing _ join (fun part => drawsSomething members part = true) _
      (fun _ b => drawsSomething_join b) (fun a _ => drawsSomething_join_right a) _ hValid _ _
      hPlace hDraws
  rw [← hLands, List.getElem?_eq_getElem hk', Option.some.injEq] at hLanded
  rw [hLanded]
  exact hKept

/-- The later loops leave few parts alone that all draw something, or need not. -/
theorem laterJoins_of_few {parts : List IRect} (hFew : parts.length ≤ kMostParts)
    (hDraws : engine.drawsEmptyPart = true ∨
      ∀ part ∈ parts, drawsSomething members part = true) :
    laterJoins members engine parts = [] := by
  have hEmpty : (if engine.drawsEmptyPart = true then []
      else emptyJoins members parts.length parts) = [] := by
    split
    · rfl
    · rename_i hNot
      have hAll := hDraws.resolve_left hNot
      cases parts.length with
      | zero => rfl
      | succ fuel =>
        unfold emptyJoins
        rw [List.findIdx?_eq_none_iff.mpr fun part hPart => by rw [hAll part hPart]; rfl]
  unfold laterJoins
  rw [hEmpty]
  show downJoins parts.length parts = []
  cases parts.length with
  | zero => rfl
  | succ fuel =>
    unfold downJoins
    rw [if_pos hFew]

/-- The places ask nothing of the later loops, or leave them no third part to
reach over: the engine draws a picture in one go; or they come in two groups of
places that meet, at most; or in as many as one picture is drawn in, and each
group is drawn over by a member where the engine needs one. -/
def FewGroups (places : List IRect) (frame : IRect) (members : List Member)
    (engine : Engine) : Prop :=
  engine.drawsManyParts = false ∨ InGroups Meets (snapped places frame) 2 ∨
    InGroups Meets (snapped places frame) kMostParts ∧
      (engine.drawsEmptyPart = true ∨ GroupsDraw members (snapped places frame))

/-- Five places on a display of 1920 by 1200: two columns, a third layer in the
gap between their lower ends, and two in the far corners. -/
def fivePlaces : List IRect :=
  [⟨0, 0, 320, 640⟩, ⟨640, 0, 960, 640⟩, ⟨400, 592, 560, 1200⟩, ⟨1600, 0, 1920, 160⟩,
    ⟨1600, 1040, 1920, 1200⟩]

/-- Three places are enough where one is drawn over by nothing and the engine
needs a member for a part: it is given to the other column. -/
theorem gather_overlaps_undrawn :
    ¬Disjoint_ (gather [⟨0, 0, 320, 640⟩, ⟨640, 0, 960, 640⟩, ⟨400, 592, 560, 1200⟩]
      ⟨0, 0, 1920, 1200⟩ [{ dst := ⟨0, 0, 320, 640⟩ }, { dst := ⟨400, 592, 560, 1200⟩ }]
      ⟨true, true, false⟩) := by
  intro hParts
  have hGathered : gather [⟨0, 0, 320, 640⟩, ⟨640, 0, 960, 640⟩, ⟨400, 592, 560, 1200⟩]
      ⟨0, 0, 1920, 1200⟩ [{ dst := ⟨0, 0, 320, 640⟩ }, { dst := ⟨400, 592, 560, 1200⟩ }]
      ⟨true, true, false⟩ = [⟨0, 0, 960, 640⟩, ⟨400, 592, 560, 1200⟩] := by
    decide +kernel
  rw [hGathered] at hParts
  have hFirst := (List.pairwise_cons.mp hParts).1 ⟨400, 592, 560, 1200⟩ (List.mem_cons_self ..)
  exact hFirst (400, 600) (by decide)

end Gathering

end TegraHwc.PartialRedraw
