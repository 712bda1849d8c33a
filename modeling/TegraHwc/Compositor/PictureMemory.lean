import TegraHwc.Compositor.LayerData
import Mathlib.Data.List.Forall2
import Mathlib.Tactic.Common

/-!
# TegraHwc — the memory of the last picture drawn

`compositor/PictureMemory.cpp`: the members of the last picture an engine
drew, and why a new picture is not that one. A picture is recognised by its
members alone: whose pixels, which frame of them, where they go, and how they
are blended, turned and shaped.

## Results

* `judge_kSame_iff`     — when the remembered picture is recognised.
* `sameButFrames_iff`   — when it is, newer frames of its layers aside.
-/

namespace TegraHwc

/-- `PictureMemory::Member`. -/
structure Member where
  source : Nat := 0
  generation : Nat := 0
  serial : Nat := 0
  solid : Bool := false
  color : List Rat := List.replicate 4 0
  src : FRect := ⟨0, 0, 0, 0⟩
  dst : IRect := ⟨0, 0, 0, 0⟩
  alpha : Rat := 1
  premultiplied : Bool := true
  opaque_ : Bool := false
  transform : Nat := 0
  corners : List Rat := List.replicate 5 0
  turned : List Rat := List.replicate 6 0
  deriving DecidableEq, Repr

/-- `PictureMemory::Verdict`. -/
inductive Verdict where
  | kSame
  | kFirstSight
  | kChangedShape
  | kChangedSize
  | kNameless
  | kChangedIdentity
  | kChangedFrame
  | kChangedGeometry
  | kChangedBlend
  | kChangedTransform
  | kChangedEffects
  deriving DecidableEq, Repr

/-- `PictureMemory`. -/
structure PictureMemory where
  remembered : Bool := false
  width : UInt32 := 0
  height : UInt32 := 0
  members : List Member := []
  deriving DecidableEq, Repr

namespace PictureMemory

/-- Where a member goes and how it is drawn, asked the same way whether its
frames are set aside or not. -/
def comparePlacement (m r : Member) : Verdict :=
  if m.src ≠ r.src ∨ m.dst ≠ r.dst then .kChangedGeometry
  else if m.alpha ≠ r.alpha ∨ m.premultiplied ≠ r.premultiplied ∨ m.opaque_ ≠ r.opaque_ then
    .kChangedBlend
  else if m.transform ≠ r.transform then .kChangedTransform
  else if m.corners ≠ r.corners ∨ m.turned ≠ r.turned then .kChangedEffects
  else .kSame

/-- One member against the remembered one. -/
def compareMember (framesAside : Bool) (m r : Member) : Verdict :=
  if framesAside then
    -- a newer frame may come in another of the layer's buffers
    if m.serial = 0 then .kNameless
    else if m.solid ≠ r.solid ∨ m.serial ≠ r.serial ∨ m.color ≠ r.color then .kChangedIdentity
    else comparePlacement m r
  else if m.solid = false ∧ m.source = 0 then .kNameless
  else if m.solid ≠ r.solid ∨ m.source ≠ r.source ∨ m.color ≠ r.color then .kChangedIdentity
  else if m.generation ≠ r.generation then .kChangedFrame
  else comparePlacement m r

/-- The loop of `Compare`: the first verdict that is not `kSame`. -/
def compareMembers (framesAside : Bool) : List Member → List Member → Verdict
  | m :: ms, r :: rs =>
    match compareMember framesAside m r with
    | .kSame => compareMembers framesAside ms rs
    | verdict => verdict
  | _, _ => .kSame

/-- `Compare`. -/
def compare (memory : PictureMemory) (width height : UInt32) (members : List Member)
    (framesAside : Bool) : Verdict :=
  if memory.remembered = false then .kFirstSight
  else if members.length ≠ memory.members.length then .kChangedShape
  else if width ≠ memory.width ∨ height ≠ memory.height then .kChangedSize
  else compareMembers framesAside members memory.members

/-- `Judge`. -/
def judge (memory : PictureMemory) (width height : UInt32) (members : List Member) : Verdict :=
  memory.compare width height members false

/-- `SameButFrames`. -/
def sameButFrames (memory : PictureMemory) (width height : UInt32) (members : List Member) :
    Bool :=
  memory.compare width height members true = .kSame

/-- `Remember`. -/
def remember (width height : UInt32) (members : List Member) : PictureMemory :=
  { remembered := true, width := width, height := height, members := members }

/-- `Forget`. -/
def forget (memory : PictureMemory) : PictureMemory := { memory with remembered := false }

-- ---------------------------------------------------------------------------
-- When a picture is recognised
-- ---------------------------------------------------------------------------

/-- Two members placed, blended, turned and shaped alike. -/
structure SamePlacement (m r : Member) : Prop where
  src : m.src = r.src
  dst : m.dst = r.dst
  alpha : m.alpha = r.alpha
  premultiplied : m.premultiplied = r.premultiplied
  opaque_ : m.opaque_ = r.opaque_
  transform : m.transform = r.transform
  corners : m.corners = r.corners
  turned : m.turned = r.turned

theorem comparePlacement_iff {m r : Member} :
    comparePlacement m r = .kSame ↔ SamePlacement m r := by
  unfold comparePlacement
  constructor
  · intro h
    split at h
    · cases h
    split at h
    · cases h
    split at h
    · cases h
    split at h
    · cases h
    · rename_i hGeometry hBlend hTransform hEffects
      simp only [ne_eq, not_or, not_not] at hGeometry hBlend hTransform hEffects
      exact ⟨hGeometry.1, hGeometry.2, hBlend.1, hBlend.2.1, hBlend.2.2, hTransform,
        hEffects.1, hEffects.2⟩
  · rintro ⟨hSrc, hDst, hAlpha, hPre, hOpaque, hTransform, hCorners, hTurned⟩
    simp [hSrc, hDst, hAlpha, hPre, hOpaque, hTransform, hCorners, hTurned]

/-- The key a picture is recognised by: the buffer and its frame. -/
structure SameKey (m r : Member) : Prop where
  named : m.solid = true ∨ m.source ≠ 0
  solid : m.solid = r.solid
  source : m.source = r.source
  color : m.color = r.color
  generation : m.generation = r.generation
  placement : SamePlacement m r

/-- The key a picture is recognised by, frames aside: the layer. -/
structure SameLayer (m r : Member) : Prop where
  named : m.serial ≠ 0
  solid : m.solid = r.solid
  serial : m.serial = r.serial
  color : m.color = r.color
  placement : SamePlacement m r

theorem compareMember_iff {m r : Member} : compareMember false m r = .kSame ↔ SameKey m r := by
  unfold compareMember
  simp only [Bool.false_eq_true, if_false]
  constructor
  · intro h
    split at h
    · cases h
    split at h
    · cases h
    split at h
    · cases h
    · rename_i hNamed hIdentity hFrame
      simp only [ne_eq, not_or, not_not, not_and_or, Bool.not_eq_false] at hNamed hIdentity hFrame
      exact ⟨hNamed, hIdentity.1, hIdentity.2.1, hIdentity.2.2, hFrame, comparePlacement_iff.mp h⟩
  · rintro ⟨hNamed, hSolid, hSource, hColor, hGeneration, hPlacement⟩
    rw [if_neg, if_neg, if_neg]
    · exact comparePlacement_iff.mpr hPlacement
    · simp [hGeneration]
    · simp [hSolid, hSource, hColor]
    · rintro ⟨hNot, hZero⟩
      rcases hNamed with hNamed | hNamed
      · rw [hNot] at hNamed
        cases hNamed
      · exact hNamed hZero

theorem compareMember_framesAside_iff {m r : Member} :
    compareMember true m r = .kSame ↔ SameLayer m r := by
  unfold compareMember
  simp only [if_true]
  constructor
  · intro h
    split at h
    · cases h
    split at h
    · cases h
    · rename_i hNamed hIdentity
      simp only [ne_eq, not_or, not_not] at hIdentity
      exact ⟨hNamed, hIdentity.1, hIdentity.2.1, hIdentity.2.2, comparePlacement_iff.mp h⟩
  · rintro ⟨hNamed, hSolid, hSerial, hColor, hPlacement⟩
    rw [if_neg hNamed, if_neg]
    · exact comparePlacement_iff.mpr hPlacement
    · simp [hSolid, hSerial, hColor]

/-- The members compare equal one by one. -/
theorem compareMembers_iff {framesAside : Bool} {ms rs : List Member}
    (hLength : ms.length = rs.length) :
    compareMembers framesAside ms rs = .kSame ↔
      List.Forall₂ (fun m r => compareMember framesAside m r = .kSame) ms rs := by
  induction ms generalizing rs with
  | nil =>
    obtain rfl : rs = [] := List.length_eq_zero_iff.mp hLength.symm
    simp [compareMembers]
  | cons m ms ih =>
    cases rs with
    | nil => cases hLength
    | cons r rs =>
      have hRest := @ih rs (by simpa using hLength)
      rw [List.forall₂_cons, ← hRest, compareMembers]
      cases h : compareMember framesAside m r <;> simp

/-- A comparison says `kSame` of a picture of the same size whose members
compare equal one by one. -/
theorem compare_iff {memory : PictureMemory} {width height : UInt32} {members : List Member}
    {framesAside : Bool} :
    memory.compare width height members framesAside = .kSame ↔
      memory.remembered = true ∧ width = memory.width ∧ height = memory.height ∧
        List.Forall₂ (fun m r => compareMember framesAside m r = .kSame) members
          memory.members := by
  unfold compare
  constructor
  · intro h
    split at h
    · cases h
    split at h
    · cases h
    split at h
    · cases h
    · rename_i hRemembered hLength hSize
      simp only [ne_eq, not_or, not_not] at hLength hSize
      exact ⟨by simpa using hRemembered, hSize.1, hSize.2, (compareMembers_iff hLength).mp h⟩
  · rintro ⟨hRemembered, hWidth, hHeight, hAll⟩
    have hLength := hAll.length_eq
    rw [if_neg (by simp [hRemembered]), if_neg (by simp [hLength]),
      if_neg (by simp [hWidth, hHeight])]
    exact (compareMembers_iff hLength).mpr hAll

/-- **When the remembered picture is recognised.** -/
theorem judge_kSame_iff {memory : PictureMemory} {width height : UInt32}
    {members : List Member} :
    memory.judge width height members = .kSame ↔
      memory.remembered = true ∧ width = memory.width ∧ height = memory.height ∧
        List.Forall₂ SameKey members memory.members := by
  rw [judge, compare_iff]
  simp only [compareMember_iff]

/-- **When it is, newer frames aside.** -/
theorem sameButFrames_iff {memory : PictureMemory} {width height : UInt32}
    {members : List Member} :
    memory.sameButFrames width height members = true ↔
      memory.remembered = true ∧ width = memory.width ∧ height = memory.height ∧
        List.Forall₂ SameLayer members memory.members := by
  rw [sameButFrames, decide_eq_true_iff, compare_iff]
  simp only [compareMember_framesAside_iff]

end PictureMemory

end TegraHwc
