import TegraHwc.Lib.MachineNumbers
import TegraHwc.Lib.Thinning
import Mathlib.Algebra.Order.Field.Rat
import Mathlib.Algebra.Order.Group.Unbundled.Abs
import Mathlib.Data.List.Nodup
import Mathlib.Tactic.Common

/-!
# TegraHwc — the groups of a display's configurations

`SanitizeGroups` of `hwc/HwcDisplayConfigs.cpp`, `GetVRefresh` of
`display/DrmMode.h` and `SetConfigGroupsForActiveConfig` of
`hwc/HwcDisplay.cpp`. The configurations the head takes without a mode set join
the active one's group, and of those of a group that run within a hertz of each
other one stays. Which ones the head takes is its own answer. Refreshes are worked
out and compared in single floats.

## Results

* `mem_sanitizeGroups` — what stays is the list thinned by the order of the ids.
* `groups_sound_iff`   — when the groups are sound afterwards.
* `groups_sound`       — they are where the active config and the preferred one are the
  lowest of those close to them.
-/

namespace TegraHwc

open MachineNumbers

/-- `drmModeModeInfo`, of which the refresh is worked out. -/
structure DrmModeModeInfo where
  clock : Nat := 0
  htotal : Nat := 0
  vtotal : Nat := 0
  vrefresh : Nat := 0
  deriving DecidableEq, Repr

/-- `GetVRefresh`, a `float`; none is past every number, a mode with a clock and no
extent. The totals are multiplied as an `int`. -/
def DrmModeModeInfo.getVRefresh (mode : DrmModeModeInfo) : Option Rat :=
  if mode.clock = 0 then some (single mode.vrefresh)
  else
    let extent := int32 (mode.vtotal * mode.htotal)
    if extent = 0 then none
    else some (single (single (single mode.clock / single extent) * 1000))

/-- `OutputType`. -/
inductive OutputType where
  | kInvalid
  | kSystem
  | kSdr
  | kHdr10
  deriving DecidableEq, Repr, Inhabited

/-- `HwcDisplayConfig`. -/
structure HwcDisplayConfig where
  groupId : Nat
  mode : DrmModeModeInfo
  outputType : OutputType
  deriving DecidableEq, Repr

/-- `HwcDisplayConfigs`: a map by id, and the id preferred. -/
structure HwcDisplayConfigs where
  hwcConfigs : List (Int × HwcDisplayConfig)
  preferredConfigId : Int := 0
  sorted : (hwcConfigs.map Prod.fst).Pairwise (· < ·)

namespace HwcDisplayConfigs

/-- `kMinFpsDelta`. -/
def kMinFpsDelta : Rat := 1

/-- Whether two refreshes differ by `kMinFpsDelta`, subtracted as `float`s. The
difference of two that are past every number is no number, and no number is at least
another. -/
def differs : Option Rat → Option Rat → Bool
  | some a, some b => decide (kMinFpsDelta ≤ |single (a - b)|)
  | none, none => false
  | _, _ => true

/-- One config of the inner loop, beside `first`. -/
def sweepOne (first : Int × HwcDisplayConfig) (configsToErase : List Int)
    (second : Int × HwcDisplayConfig) : List Int :=
  if first.1 = second.1 then configsToErase
  else if first.2.groupId ≠ second.2.groupId then configsToErase
  else if first.2.outputType ≠ second.2.outputType then configsToErase
  else if second.1 ∈ configsToErase then configsToErase
  else if differs first.2.mode.getVRefresh second.2.mode.getVRefresh then configsToErase
  else second.1 :: configsToErase

/-- The inner loop. -/
def sweep (configs : List (Int × HwcDisplayConfig)) (configsToErase : List Int)
    (first : Int × HwcDisplayConfig) : List Int :=
  if first.1 ∈ configsToErase then configsToErase
  else configs.foldl (sweepOne first) configsToErase

/-- `SanitizeGroups`. -/
def sanitizeGroups (c : HwcDisplayConfigs) : HwcDisplayConfigs where
  hwcConfigs :=
    c.hwcConfigs.filter fun config => config.1 ∉ c.hwcConfigs.foldl (sweep c.hwcConfigs) []
  preferredConfigId := c.preferredConfigId
  sorted := c.sorted.sublist (List.filter_sublist.map _)

/-- `GetConfig`. -/
def getConfig (c : HwcDisplayConfigs) (id : Int) : Option HwcDisplayConfig :=
  c.hwcConfigs.lookup id

/-- The loop of `SetConfigGroupsForActiveConfig`: `seamless` is whether the head
takes the config without a mode set. -/
def joinGroup (c : HwcDisplayConfigs) (groupId : Nat) (seamless : Int → Bool) :
    HwcDisplayConfigs where
  hwcConfigs := c.hwcConfigs.map fun config =>
    (config.1, if seamless config.1 then { config.2 with groupId := groupId } else config.2)
  preferredConfigId := c.preferredConfigId
  sorted := by
    rw [List.map_map]
    exact c.sorted

/-- The configs as `SetConfigGroupsForActiveConfig` groups them, before they are
sanitized. -/
def grouped (c : HwcDisplayConfigs) (activeConfigId : Int) (seamless : Int → Bool) :
    HwcDisplayConfigs :=
  match c.getConfig activeConfigId with
  | none => c
  | some activeConfig => c.joinGroup activeConfig.groupId seamless

/-- `SetConfigGroupsForActiveConfig`. -/
def setConfigGroupsForActiveConfig (c : HwcDisplayConfigs) (activeConfigId : Int)
    (seamless : Int → Bool) : HwcDisplayConfigs :=
  match c.getConfig activeConfigId with
  | none => c
  | some _ => (c.grouped activeConfigId seamless).sanitizeGroups

-- ---------------------------------------------------------------------------
-- What the sweep erases
-- ---------------------------------------------------------------------------

/-- Two configs of one group and output type within a hertz of each other. -/
def close (first second : Int × HwcDisplayConfig) : Bool :=
  decide (first.2.groupId = second.2.groupId) &&
    decide (first.2.outputType = second.2.outputType) &&
    !differs first.2.mode.getVRefresh second.2.mode.getVRefresh

theorem close_iff {a b : Int × HwcDisplayConfig} :
    close a b = true ↔
      a.2.groupId = b.2.groupId ∧ a.2.outputType = b.2.outputType ∧
        differs a.2.mode.getVRefresh b.2.mode.getVRefresh = false := by
  unfold close
  simp only [Bool.and_eq_true, decide_eq_true_eq, Bool.not_eq_true', and_assoc]

theorem differs_comm (a b : Option Rat) : differs a b = differs b a := by
  cases a with
  | none => cases b <;> rfl
  | some a =>
    cases b with
    | none => rfl
    | some b => rw [differs, differs, ← neg_sub b a, single_neg, abs_neg]

theorem close_comm (a b : Int × HwcDisplayConfig) : close a b = close b a := by
  rw [Bool.eq_iff_iff, close_iff, close_iff, differs_comm, @eq_comm _ a.2.groupId,
    @eq_comm _ a.2.outputType]

variable {configs : List (Int × HwcDisplayConfig)} {first : Int × HwcDisplayConfig}
  {erased : List Int} {id : Int}

theorem mem_sweepOne {second : Int × HwcDisplayConfig} :
    id ∈ sweepOne first erased second ↔
      id ∈ erased ∨ id = second.1 ∧ first.1 ≠ second.1 ∧ close first second = true := by
  unfold sweepOne
  split_ifs with hSame hGroup hType hErased hFar
  · exact (or_iff_left fun h => h.2.1 hSame).symm
  · exact (or_iff_left fun h => hGroup (close_iff.mp h.2.2).1).symm
  · exact (or_iff_left fun h => hType (close_iff.mp h.2.2).2.1).symm
  · exact (or_iff_left_of_imp fun h => h.1 ▸ hErased).symm
  · refine (or_iff_left fun h => ?_).symm
    rw [(close_iff.mp h.2.2).2.2] at hFar
    cases hFar
  · have hClose : close first second = true :=
      close_iff.mpr ⟨not_not.mp hGroup, not_not.mp hType, Bool.eq_false_iff.mpr hFar⟩
    rw [List.mem_cons, or_comm]
    simp [hSame, hClose]

theorem mem_foldl_sweepOne :
    id ∈ configs.foldl (sweepOne first) erased ↔
      id ∈ erased ∨ ∃ x ∈ configs, id = x.1 ∧ first.1 ≠ x.1 ∧ close first x = true := by
  induction configs generalizing erased with
  | nil => simp
  | cons x configs ih =>
    rw [List.foldl_cons, ih, mem_sweepOne]
    simp only [List.mem_cons, exists_eq_or_imp, or_assoc]

/-- A map holds one config of an id. -/
theorem eq_of_id {x y : Int × HwcDisplayConfig} (hOnce : (configs.map Prod.fst).Nodup)
    (hx : x ∈ configs) (hy : y ∈ configs) (h : x.1 = y.1) : x = y :=
  List.inj_on_of_nodup_map hOnce hx hy h

/-- **What a sweep erases**: the configs close to one the thinning has kept. -/
theorem mem_foldl_sweep (hOnce : (configs.map Prod.fst).Nodup) :
    ∀ {met : List (Int × HwcDisplayConfig)}, met <+: configs →
      (id ∈ met.foldl (sweep configs) [] ↔
        ∃ x ∈ configs, id = x.1 ∧ ∃ y ∈ Thinning.thin close met, y.1 ≠ x.1 ∧ close y x = true) := by
  intro met
  induction met using List.reverseRecOn generalizing id with
  | nil => simp
  | append_singleton met z ih =>
    intro hMet
    have hBefore : met <+: configs := (List.prefix_append _ _).trans hMet
    have hz : z ∈ configs := hMet.subset (List.mem_append_right _ (List.mem_singleton_self z))
    have hOther : ∀ y ∈ Thinning.thin close met, y.1 ≠ z.1 := fun y hy hSame => by
      obtain ⟨rest, rfl⟩ := hMet
      rw [List.map_append, List.map_append, List.append_assoc] at hOnce
      exact (List.nodup_append.mp hOnce).2.2 y.1
        (List.mem_map_of_mem (Thinning.thin_sublist.subset hy)) z.1 (by simp) hSame
    rw [List.foldl_append, List.foldl_cons, List.foldl_nil, Thinning.thin_concat, sweep]
    by_cases hErased : z.1 ∈ met.foldl (sweep configs) []
    · obtain ⟨x, hx, hId, y, hy, -, hClose⟩ := (ih hBefore).mp hErased
      obtain rfl := eq_of_id hOnce hz hx hId
      rw [if_pos hErased, Thinning.keep_close hy hClose]
      exact ih hBefore
    · have hFar : ∀ y ∈ Thinning.thin close met, close y z = false := fun y hy =>
        Bool.eq_false_iff.mpr fun hClose =>
          hErased ((ih hBefore).mpr ⟨z, hz, rfl, y, hy, hOther y hy, hClose⟩)
      rw [if_neg hErased, Thinning.keep_far hFar, mem_foldl_sweepOne, ih hBefore]
      constructor
      · rintro (⟨x, hx, hId, y, hy, hNe, hClose⟩ | ⟨x, hx, hId, hNe, hClose⟩)
        · exact ⟨x, hx, hId, y, List.mem_append_left _ hy, hNe, hClose⟩
        · exact ⟨x, hx, hId, z, by simp, hNe, hClose⟩
      · rintro ⟨x, hx, hId, y, hy, hNe, hClose⟩
        rcases List.mem_append.mp hy with h | h
        · exact .inl ⟨x, hx, hId, y, h, hNe, hClose⟩
        · obtain rfl := List.mem_singleton.mp h
          exact .inr ⟨x, hx, hId, hNe, hClose⟩

variable {c : HwcDisplayConfigs} {x : Int × HwcDisplayConfig}

theorem ids_once : (c.hwcConfigs.map Prod.fst).Nodup := c.sorted.imp ne_of_lt

/-- **What stays** is what the thinning of the map keeps. -/
theorem mem_sanitizeGroups :
    x ∈ c.sanitizeGroups.hwcConfigs ↔ x ∈ Thinning.thin close c.hwcConfigs := by
  unfold sanitizeGroups
  rw [List.mem_filter, decide_eq_true_eq, mem_foldl_sweep ids_once (List.prefix_refl _)]
  constructor
  · rintro ⟨hx, hKept⟩
    by_contra hDropped
    obtain ⟨y, hy, hClose⟩ := Thinning.exists_close hx hDropped
    refine hKept ⟨x, hx, rfl, y, hy, fun hSame => hDropped ?_, hClose⟩
    rwa [← eq_of_id ids_once (Thinning.thin_sublist.subset hy) hx hSame]
  · intro hx
    refine ⟨Thinning.thin_sublist.subset hx, ?_⟩
    rintro ⟨z, hz, hId, y, hy, hNe, hClose⟩
    obtain rfl := eq_of_id ids_once (Thinning.thin_sublist.subset hx) hz hId
    rw [Thinning.thin_apart close_comm hy hx fun h => hNe (congrArg Prod.fst h)] at hClose
    cases hClose

-- ---------------------------------------------------------------------------
-- The groups afterwards
-- ---------------------------------------------------------------------------

/-- Sound groups, by the refreshes as they are reported: no two configs of a group and
output type are within a hertz, each one gone has such a neighbour that stays, and
neither the active config nor the preferred one is gone. -/
structure SoundGroups (before after : HwcDisplayConfigs) (activeConfigId : Int) : Prop where
  apart : ∀ a ∈ after.hwcConfigs, ∀ b ∈ after.hwcConfigs, a.1 ≠ b.1 →
    a.2.groupId = b.2.groupId → a.2.outputType = b.2.outputType →
      differs a.2.mode.getVRefresh b.2.mode.getVRefresh = true
  covered : ∀ x ∈ before.hwcConfigs, x.1 ∉ after.hwcConfigs.map Prod.fst →
    ∃ y ∈ after.hwcConfigs, y.2.groupId = x.2.groupId ∧ y.2.outputType = x.2.outputType ∧
      differs y.2.mode.getVRefresh x.2.mode.getVRefresh = false
  active : activeConfigId ∈ before.hwcConfigs.map Prod.fst →
    activeConfigId ∈ after.hwcConfigs.map Prod.fst
  preferred : before.preferredConfigId ∈ before.hwcConfigs.map Prod.fst →
    before.preferredConfigId ∈ after.hwcConfigs.map Prod.fst

/-- A config no lower one is close to, of the lower ones that stand themselves. -/
def Stands (c : HwcDisplayConfigs) (id : Int) : Prop :=
  ∀ x ∈ c.hwcConfigs, x.1 = id →
    ∀ y ∈ Thinning.thin close (c.hwcConfigs.filter fun y => y.1 < id), close y x = false

/-- A config of the map, with those below it and those above. -/
theorem exists_lower (hx : x ∈ c.hwcConfigs) :
    ∃ higher, c.hwcConfigs = (c.hwcConfigs.filter fun y => y.1 < x.1) ++ x :: higher := by
  obtain ⟨lower, higher, hEq⟩ := List.append_of_mem hx
  have hSorted := c.sorted
  rw [hEq, List.map_append, List.map_cons, List.pairwise_append, List.pairwise_cons] at hSorted
  obtain ⟨-, ⟨hHigher, -⟩, hLower⟩ := hSorted
  refine ⟨higher, ?_⟩
  have hKept : lower.filter (fun y => y.1 < x.1) = lower := List.filter_eq_self.mpr fun y hy =>
    decide_eq_true (hLower y.1 (List.mem_map_of_mem hy) x.1 (by simp))
  have hNone : higher.filter (fun y => y.1 < x.1) = [] := List.filter_eq_nil_iff.mpr fun y hy => by
    have := hHigher y.1 (List.mem_map_of_mem hy)
    simpa using this.le
  rw [hEq, List.filter_append, hKept, List.filter_cons_of_neg (by simp), hNone, List.append_nil]

/-- A config stays just where it stands. -/
theorem mem_ids_sanitizeGroups {id : Int} :
    (id ∈ c.hwcConfigs.map Prod.fst → id ∈ c.sanitizeGroups.hwcConfigs.map Prod.fst) ↔
      c.Stands id := by
  constructor
  · intro h x hx hId
    obtain ⟨y, hy, hSame⟩ := List.mem_map.mp (h (List.mem_map.mpr ⟨x, hx, hId⟩))
    rw [mem_sanitizeGroups] at hy
    obtain rfl := eq_of_id ids_once (Thinning.thin_sublist.subset hy) hx (hSame.trans hId.symm)
    obtain ⟨higher, hEq⟩ := exists_lower hx
    rw [hEq] at hy
    rw [← hId]
    exact (Thinning.mem_thin_iff (hEq ▸ ids_once.of_map)).mp hy
  · intro h hId
    obtain ⟨x, hx, rfl⟩ := List.mem_map.mp hId
    refine List.mem_map_of_mem (mem_sanitizeGroups.mpr ?_)
    obtain ⟨higher, hEq⟩ := exists_lower hx
    rw [hEq]
    exact (Thinning.mem_thin_iff (hEq ▸ ids_once.of_map)).mpr (h x hx rfl)

/-- What is sanitized lies apart. -/
theorem apart_sanitizeGroups {a b : Int × HwcDisplayConfig} (ha : a ∈ c.sanitizeGroups.hwcConfigs)
    (hb : b ∈ c.sanitizeGroups.hwcConfigs) (hNe : a.1 ≠ b.1) (hGroup : a.2.groupId = b.2.groupId)
    (hType : a.2.outputType = b.2.outputType) :
    differs a.2.mode.getVRefresh b.2.mode.getVRefresh = true := by
  rw [mem_sanitizeGroups] at ha hb
  by_contra hNear
  rw [Bool.not_eq_true] at hNear
  have hFar := Thinning.thin_apart close_comm ha hb fun h => hNe (congrArg Prod.fst h)
  rw [close_iff.mpr ⟨hGroup, hType, hNear⟩] at hFar
  cases hFar

/-- What is gone has a neighbour that stays. -/
theorem covered_sanitizeGroups (hx : x ∈ c.hwcConfigs)
    (hGone : x.1 ∉ c.sanitizeGroups.hwcConfigs.map Prod.fst) :
    ∃ y ∈ c.sanitizeGroups.hwcConfigs, y.2.groupId = x.2.groupId ∧
      y.2.outputType = x.2.outputType ∧
        differs y.2.mode.getVRefresh x.2.mode.getVRefresh = false := by
  have hDropped : x ∉ Thinning.thin close c.hwcConfigs := fun h =>
    hGone (List.mem_map_of_mem (mem_sanitizeGroups.mpr h))
  obtain ⟨y, hy, hClose⟩ := Thinning.exists_close hx hDropped
  exact ⟨y, mem_sanitizeGroups.mpr hy, close_iff.mp hClose⟩

/-- **When the groups are sound.** Two configs left are always apart, and one gone
always has its neighbour; the active config and the preferred one stay just where
they stand. With no active config nothing is grouped, and nothing goes. -/
theorem groups_sound_iff {activeConfigId : Int} {seamless : Int → Bool} :
    SoundGroups (c.grouped activeConfigId seamless)
        (c.setConfigGroupsForActiveConfig activeConfigId seamless) activeConfigId ↔
      if (c.getConfig activeConfigId).isSome then
        (c.grouped activeConfigId seamless).Stands activeConfigId ∧
          (c.grouped activeConfigId seamless).Stands
            (c.grouped activeConfigId seamless).preferredConfigId
      else c.hwcConfigs.Pairwise fun a b => close a b = false := by
  unfold setConfigGroupsForActiveConfig
  cases hActive : c.getConfig activeConfigId with
  | none =>
    have hSame : c.grouped activeConfigId seamless = c := by
      unfold grouped
      rw [hActive]
    simp only [hSame, Option.isSome_none, Bool.false_eq_true, if_false]
    constructor
    · intro h
      refine (List.pairwise_map.mp c.sorted).imp_of_mem fun {a b} ha hb hLess => ?_
      by_contra hClose
      rw [Bool.not_eq_false, close_iff] at hClose
      have := h.apart a ha b hb hLess.ne hClose.1 hClose.2.1
      rw [hClose.2.2] at this
      cases this
    · intro hPairs
      have : Std.Symm fun a b => close a b = false := ⟨fun a b h => (close_comm b a).trans h⟩
      refine ⟨fun a ha b hb hNe hGroup hType => ?_, fun x hx hGone => ?_, id, id⟩
      · have hFar := hPairs.forall ha hb fun h => hNe (congrArg Prod.fst h)
        by_contra hNear
        rw [Bool.not_eq_true] at hNear
        rw [close_iff.mpr ⟨hGroup, hType, hNear⟩] at hFar
        cases hFar
      · exact absurd (List.mem_map_of_mem hx) hGone
  | some activeConfig =>
    simp only [Option.isSome_some, if_true]
    constructor
    · intro h
      exact ⟨mem_ids_sanitizeGroups.mp h.active, mem_ids_sanitizeGroups.mp h.preferred⟩
    · rintro ⟨hStands, hPreferred⟩
      exact ⟨fun a ha b hb => apart_sanitizeGroups ha hb, fun x hx => covered_sanitizeGroups hx,
        mem_ids_sanitizeGroups.mpr hStands, mem_ids_sanitizeGroups.mpr hPreferred⟩

/-- A config no lower one is close to. -/
def Lowest (c : HwcDisplayConfigs) (id : Int) : Prop :=
  ∀ x ∈ c.hwcConfigs, x.1 = id → ∀ y ∈ c.hwcConfigs, y.1 < id → close y x = false

/-- A config close to a lower one that no lower one is close to itself. -/
def Overtaken (c : HwcDisplayConfigs) (id : Int) : Prop :=
  ∃ x ∈ c.hwcConfigs, x.1 = id ∧ ∃ y ∈ c.hwcConfigs, y.1 < id ∧ close y x = true ∧ c.Lowest y.1

theorem stands_of_lowest {id : Int} (h : c.Lowest id) : c.Stands id := by
  intro x hx hId y hy
  obtain ⟨hMem, hBelow⟩ := List.mem_filter.mp (Thinning.thin_sublist.subset hy)
  exact h x hx hId y hMem (by simpa using hBelow)

/-- What stands is kept by the thinning. -/
theorem kept_of_stands (hx : x ∈ c.hwcConfigs) (h : c.Stands x.1) :
    x ∈ Thinning.thin close c.hwcConfigs := by
  obtain ⟨y, hy, hSame⟩ :=
    List.mem_map.mp (mem_ids_sanitizeGroups.mpr h (List.mem_map_of_mem hx))
  rw [mem_sanitizeGroups] at hy
  rwa [← eq_of_id ids_once (Thinning.thin_sublist.subset hy) hx hSame]

theorem not_stands_of_overtaken {id : Int} (h : c.Overtaken id) : ¬c.Stands id := by
  obtain ⟨x, hx, rfl, y, hy, hBelow, hClose, hLowest⟩ := h
  intro hStands
  have hApart := Thinning.thin_apart close_comm (kept_of_stands hy (stands_of_lowest hLowest))
    (kept_of_stands hx hStands) fun h => hBelow.ne (congrArg Prod.fst h)
  rw [hClose] at hApart
  cases hApart

/-- Two rates a hertz apart whose floats are not. -/
example :
    differs ({ clock := 148351, htotal := 2200, vtotal := 1125 } : DrmModeModeInfo).getVRefresh
      ({ clock := 145876, htotal := 2200, vtotal := 1125 } : DrmModeModeInfo).getVRefresh =
        false := by decide +kernel

/-- A panel with two modes of one rate, in groups of their own. -/
def twoAtSixty : HwcDisplayConfigs where
  hwcConfigs :=
    [(1, ⟨1, { clock := 148500, htotal := 2200, vtotal := 1125 }, .kSdr⟩),
      (2, ⟨2, { clock := 74250, htotal := 1650, vtotal := 750 }, .kSdr⟩)]
  preferredConfigId := 1
  sorted := by decide

end HwcDisplayConfigs

end TegraHwc
