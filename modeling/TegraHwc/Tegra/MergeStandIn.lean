import TegraHwc.Tegra.TegraAtomicStateManager

/-!
# TegraHwc — which group may stand in for another

`QueueMerge` of `tegra/TegraAtomicStateManager.cpp` marks a drawing as one the
engine need not come to where the group remembered may stand in for the one
queued: "the same members, a newer frame of some or moved within the group". It
asks the memory, which answers with the first difference it finds. A group whose
first difference is such a one may hold other layers after it.

## Results

* `compareMembers_firstChange` — a verdict speaks of the first member changed.
* `queueMerge_droppable`       — when a drawing is marked.
* `queueMerge_standsIn_iff`    — when the group remembered is then the same one.
-/

namespace TegraHwc

open Runs PartialRedraw

-- ---------------------------------------------------------------------------
-- The first difference
-- ---------------------------------------------------------------------------

namespace PictureMemory

/-- The position of the first member that is not the one remembered. -/
def firstChange (members remembered : List Member) : Nat :=
  (members.zip remembered).findIdx fun mr => decide (compareMember false mr.1 mr.2 ≠ .kSame)

/-- The members before the first one changed are the ones remembered. -/
theorem sameKey_of_lt_firstChange {members remembered : List Member} {i : Nat} {m r : Member}
    (hm : members[i]? = some m) (hr : remembered[i]? = some r)
    (h : i < firstChange members remembered) : SameKey m r := by
  have hZip : (members.zip remembered)[i]? = some (m, r) :=
    List.getElem?_zip_eq_some.mpr ⟨hm, hr⟩
  obtain ⟨hi, hAt⟩ := List.getElem?_eq_some_iff.mp hZip
  have hSame := List.not_of_lt_findIdx h
  rw [hAt] at hSame
  exact compareMember_iff.mp (by simpa using hSame)

end PictureMemory

-- ---------------------------------------------------------------------------
-- Marking a drawing
-- ---------------------------------------------------------------------------

/-- The verdicts on which the last group may stand in. -/
def Verdict.standsIn : Verdict → Bool
  | .kChangedFrame | .kChangedGeometry | .kChangedBlend => true
  | _ => false

/-- A picture remembered is the group queued but for its members' frames, places
and blending: the same size, the same layers in the same order, each under the
same turn. -/
structure SameGroup (memory : PictureMemory) (merge : Merge) : Prop where
  remembered : memory.remembered = true
  width : merge.width = memory.width
  height : merge.height = memory.height
  layers : (mergeMembers merge).map (·.serial) = memory.members.map (·.serial)
  turn : (mergeMembers merge).map (·.transform) = memory.members.map (·.transform)

namespace Manager

variable {m : Manager} {c : Config} {jobs : VicJobs} {merge : Merge} {forced : Int}

/-- `QueueMerge`, from the merge queued before to the one it leaves queued. -/
def queueAnew (m : Manager) (c : Config) (jobs : VicJobs) (merge : Merge) (forced : Int) :
    Manager × VicJobs :=
  let dropped := m.dropPendingMerge jobs
  dropped.1.queueMerge c dropped.2 merge forced

/-- A group comes to be queued: there is a worker and an engine for it, it has
layers of one turn, and a slot to go into. -/
structure ComesToQueue (m : Manager) (c : Config) (merge : Merge) : Prop where
  worker : c.vicWorkerWanted = true
  engine : c.hasEngine = true
  layers : merge.layers ≠ []
  turn : (uniformTurn merge.transforms).isSome = true
  slot : m.scratch.next.1.isSome = true

theorem mayStandIn_iff : m.mayStandIn c merge = true ↔
    c.mergeCache = true ∧ m.lastMergeFence.isSome = true ∧
      (m.judgeMerge merge).standsIn = true := by
  unfold mayStandIn Verdict.standsIn
  cases m.judgeMerge merge <;> simp only [Bool.and_eq_true, and_assoc]

/-- Letting a queued merge go forgets nothing of the group remembered. -/
theorem dropPendingMerge_remembers :
    (m.dropPendingMerge jobs).1.pendingMerge = none ∧
      (m.dropPendingMerge jobs).1.mergeMemory = m.mergeMemory ∧
      (m.dropPendingMerge jobs).1.lastMergeFence = m.lastMergeFence := by
  unfold dropPendingMerge
  split
  · rename_i hNone
    exact ⟨hNone, rfl, rfl⟩
  · exact ⟨rfl, rfl, rfl⟩

/-- What is marked: a group that comes to be queued, and that the one remembered
may stand in for. -/
theorem queueMerge_droppable (hNone : m.pendingMerge = none) :
    (∃ p, (m.queueMerge c jobs merge forced).1.pendingMerge = some p ∧ p.droppable = true) ↔
      ComesToQueue m c merge ∧ m.mayStandIn c merge = true := by
  have hNot : ∀ p, m.pendingMerge ≠ some p := by simp [hNone]
  unfold queueMerge
  by_cases hEngine : c.vicWorkerWanted = false ∨ c.hasEngine = false ∨ merge.layers = []
  · rw [if_pos hEngine]
    refine ⟨fun ⟨p, hp, _⟩ => absurd hp (hNot p), fun ⟨hComes, _⟩ => ?_⟩
    obtain h | h | h := hEngine
    · rw [hComes.worker] at h
      cases h
    · rw [hComes.engine] at h
      cases h
    · exact absurd h hComes.layers
  rw [if_neg hEngine]
  by_cases hSame : c.mergeCache = true ∧ m.judgeMerge merge = .kSame
  · rw [if_pos hSame]
    refine ⟨fun ⟨p, hp, _⟩ => absurd hp (hNot p), fun ⟨_, hMay⟩ => ?_⟩
    obtain ⟨-, -, hStands⟩ := mayStandIn_iff.mp hMay
    rw [hSame.2] at hStands
    cases hStands
  rw [if_neg hSame]
  cases hTurn : uniformTurn merge.transforms with
  | none =>
    refine ⟨fun ⟨p, hp, _⟩ => absurd hp (hNot p), fun ⟨hComes, _⟩ => ?_⟩
    have := hComes.turn
    rw [hTurn] at this
    cases this
  | some turn =>
    cases hNext : m.nextSlot with
    | mk answer m₁ =>
      obtain ⟨rfl, rfl⟩ | ⟨hSlot, hSome, rfl⟩ := nextSlot_cases hNext
      · refine ⟨fun ⟨p, hp, _⟩ => absurd hp (hNot p), fun ⟨hComes, _⟩ => ?_⟩
        -- the pool had a slot to give
        unfold nextSlot at hNext
        split at hNext
        · rename_i hEmpty
          have := hComes.slot
          rw [hEmpty] at this
          cases this
        · cases hNext
      obtain ⟨slot, ready, rfl⟩ : ∃ slot ready, answer = some (slot, ready) := by
        obtain ⟨⟨slot, ready⟩, rfl⟩ := Option.ne_none_iff_exists'.mp hSome
        exact ⟨slot, ready, rfl⟩
      obtain ⟨history, hRecord⟩ := record_eq (m.ask .next) (mergeMembers merge) merge.damages
      simp only [hRecord]
      have hComes : ComesToQueue m c merge := by
        rw [not_or, not_or, Bool.not_eq_false, Bool.not_eq_false] at hEngine
        exact ⟨hEngine.1, hEngine.2.1, hEngine.2.2, by rw [hTurn]; rfl, by rw [hSlot]; rfl⟩
      split
      · constructor
        · rintro ⟨p, hp, hDroppable⟩
          obtain rfl := Option.some.inj hp
          exact ⟨hComes, hDroppable⟩
        · exact fun ⟨_, hMay⟩ => ⟨_, rfl, hMay⟩
      · constructor
        · rintro ⟨p, hp, hDroppable⟩
          obtain rfl := Option.some.inj hp
          exact ⟨hComes, hDroppable⟩
        · exact fun ⟨_, hMay⟩ => ⟨_, rfl, hMay⟩

/-- A drawing is marked against the group remembered. -/
theorem queueAnew_droppable :
    (∃ p, (m.queueAnew c jobs merge forced).1.pendingMerge = some p ∧ p.droppable = true) ↔
      ComesToQueue (m.dropPendingMerge jobs).1 c merge ∧ m.mayStandIn c merge = true := by
  obtain ⟨hNone, hMemory, hFence⟩ := @dropPendingMerge_remembers m jobs
  unfold queueAnew
  rw [queueMerge_droppable hNone, mayStandIn_iff, mayStandIn_iff, judgeMerge, judgeMerge, hMemory,
    hFence]

/-- **The layers stay.** Each member is of the layer remembered in its place,
and from the first one changed on each is turned as it was. -/
def LayersStay (memory : PictureMemory) (merge : Merge) : Prop :=
  ∀ (i : Nat) (m r : Member), (mergeMembers merge)[i]? = some m → memory.members[i]? = some r →
    m.serial = r.serial ∧
      (PictureMemory.firstChange (mergeMembers merge) memory.members ≤ i →
        m.transform = r.transform)

/-- A group that may stand in is the same one just where its layers stay. -/
theorem sameGroup_iff (hMay : m.mayStandIn c merge = true) :
    SameGroup m.mergeMemory merge ↔ LayersStay m.mergeMemory merge := by
  obtain ⟨-, -, hStands⟩ := mayStandIn_iff.mp hMay
  unfold judgeMerge PictureMemory.judge PictureMemory.compare at hStands
  split at hStands
  · cases hStands
  split at hStands
  · cases hStands
  split at hStands
  · cases hStands
  rename_i hRemembered hLength hSize
  rw [Bool.not_eq_false] at hRemembered
  rw [not_not] at hLength
  rw [not_or, not_not, not_not] at hSize
  constructor
  · intro hSame i mem r hm hr
    have hLayer := congrArg (·[i]?) hSame.layers
    have hTurn := congrArg (·[i]?) hSame.turn
    simp only [List.getElem?_map, hm, hr, Option.map_some, Option.some.injEq] at hLayer hTurn
    exact ⟨hLayer, fun _ => hTurn⟩
  · intro hStay
    refine ⟨hRemembered, hSize.1, hSize.2, ?_, ?_⟩
    · refine List.ext_getElem (by simpa using hLength) fun i hi hi' => ?_
      rw [List.length_map] at hi hi'
      rw [List.getElem_map, List.getElem_map]
      exact (hStay i _ _ (List.getElem?_eq_getElem hi) (List.getElem?_eq_getElem hi')).1
    · refine List.ext_getElem (by simpa using hLength) fun i hi hi' => ?_
      rw [List.length_map] at hi hi'
      rw [List.getElem_map, List.getElem_map]
      have hm := List.getElem?_eq_getElem hi
      have hr := List.getElem?_eq_getElem hi'
      -- before the first change the comparison has asked; from it on it has not
      rcases Nat.lt_or_ge i
        (PictureMemory.firstChange (mergeMembers merge) m.mergeMemory.members) with hBefore | hFrom
      · exact (PictureMemory.sameKey_of_lt_firstChange hm hr hBefore).placement.transform
      · exact (hStay i _ _ hm hr).2 hFrom

/-- **Which group stands in.** A drawing the engine need not come to has the
group remembered stand in for it, and that is the same group exactly where the
layers stay. -/
theorem queueMerge_standsIn_iff (m : Manager) (c : Config) (jobs : VicJobs) (merge : Merge)
    (forced : Int) :
    (∀ p, (m.queueAnew c jobs merge forced).1.pendingMerge = some p → p.droppable = true →
        SameGroup m.mergeMemory merge) ↔
      (ComesToQueue (m.dropPendingMerge jobs).1 c merge → m.mayStandIn c merge = true →
        LayersStay m.mergeMemory merge) := by
  have hMarked := @queueAnew_droppable m c jobs merge forced
  constructor
  · intro hAll hComes hMay
    obtain ⟨p, hp, hDroppable⟩ := hMarked.mpr ⟨hComes, hMay⟩
    exact (sameGroup_iff hMay).mp (hAll p hp hDroppable)
  · intro hStay p hp hDroppable
    obtain ⟨hComes, hMay⟩ := hMarked.mp ⟨p, hp, hDroppable⟩
    exact (sameGroup_iff hMay).mpr (hStay hComes hMay)

end Manager

-- ---------------------------------------------------------------------------
-- A group with another layer
-- ---------------------------------------------------------------------------

namespace System

/-- A group of two layers: a frame of the first, and which the second is. -/
def twoLayers (generation second : Nat) : Merge :=
  { layers :=
      [{ source := ⟨0, 0, 32, 32⟩, display := ⟨0, 0, 32, 32⟩ },
        { source := ⟨0, 0, 32, 32⟩, display := ⟨0, 32, 32, 64⟩ }]
    sourceIds := [1, second], generations := [generation, 1], serials := [1, second]
    transforms := [0, 0], width := 32, height := 64 }

/-- A frame of such a group, drawn by the worker and shown. -/
def twoLayersShown : List Action :=
  [.validate (twoLayers 1 2), .queueMerge (-1), .take, .workerCompose (some 6), .workerDone,
    .execute { merge := twoLayers 1 2 }, .resolve, .judge (fun _ => false) (-1),
    .flip (some (some 9))]

/-- **Another layer's group.** The first layer has a newer frame, the second has
made way for a third: the drawing may be dropped, and the group that stands in
for it holds the second. -/
theorem queueMerge_standsIn_other :
    ¬∀ (actions : List Action) (s : System), (machine {}).run (init 3) actions = some s →
      ∀ (merge : Merge) (p : PendingMerge),
        (s.manager.queueAnew {} s.jobs merge (-1)).1.pendingMerge = some p →
        p.droppable = true → SameGroup s.manager.mergeMemory merge := by
  intro hAll
  have hSame := hAll twoLayersShown _ rfl (twoLayers 2 3) _ rfl rfl
  have hLayers : [1, 3] = [1, 2] := hSame.layers
  revert hLayers
  decide

end System

end TegraHwc
