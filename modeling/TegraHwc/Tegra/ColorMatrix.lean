import TegraHwc.Lib.MachineNumbers
import TegraHwc.Lib.Runs
import Mathlib.Algebra.Order.Ring.Unbundled.Rat
import Mathlib.Data.Matrix.Mul
import Mathlib.Data.Rat.Floor
import Mathlib.Tactic.NormNum

/-!
# TegraHwc — the colour a head holds

`ProgramColorMatrix` of `tegra/TegraAtomicStateManager.cpp` and the colour
pipeline of `tegra/DcHead.cpp` under it. The kernel keeps the last programme it
took, a predecessor's to begin with; whether it takes a write is the frame's to
say. Numbers are exact, the power function a parameter.

The matrix is remembered before its write and the two flags after it: a frame
that carries the matrix of a refused write again does nothing, and no later frame
of that matrix does.

## Results

* `kept_step`         — what every frame keeps of the memories and the head.
* `color_follows_iff` — the head follows the matrices but for one refused and
  carried again.
-/

namespace TegraHwc

open MachineNumbers (lroundf)
open Runs

-- ---------------------------------------------------------------------------
-- The head
-- ---------------------------------------------------------------------------

/-- `tegra_dc_ext_cmu`: a degamma table, a matrix stage of coefficients in ten bits
of two's complement, Q1.8, and a regamma table. -/
structure Cmu where
  cmuEnable : Bool
  csc : Fin 3 → Fin 3 → Nat
  lut1 : Fin 256 → Nat
  lut2 : Fin 960 → Nat

namespace DcHead

/-- A cast to `__u16`. -/
def toU16 (v : Int) : Nat := (v % 0x10000).toNat

section Boot

variable (powf : ℚ → ℚ → ℚ)

def srgbEncode (linear : ℚ) : ℚ :=
  if linear ≤ 0.0031308 then linear * 12.92 else 1.055 * powf linear (1 / 2.4) - 0.055

def srgbDecode (encoded : ℚ) : ℚ :=
  if encoded ≤ 0.04045 then encoded / 12.92 else powf ((encoded + 0.055) / 1.055) 2.4

/-- The value a regamma slot covers. -/
def lut2Covers (slot : Nat) : Nat := if slot < 512 then slot else 512 + (slot - 512) * 8

/-- `rememberBootCmu`: home is computed, and the same each time. -/
def bootCmu : Cmu where
  cmuEnable := true
  csc r c := if r = c then 256 else 0
  lut1 i := toU16 (lroundf (4095 * srgbDecode powf (i.val / 255)))
  lut2 i := toU16 (lroundf (255 * srgbEncode powf (lut2Covers i.val / 4095)))

/-- `fillIdentityTables`. -/
def fillIdentityTables (cmu : Cmu) : Cmu :=
  { cmu with
    lut1 := fun i => i.val <<< 4
    lut2 := fun i => min ((lut2Covers i.val + 8) >>> 4) 255 }

/-- What `setColorMatrix` writes. -/
def colorMatrixCmu (matrix : Matrix (Fin 3) (Fin 3) ℚ) (offset : ℚ) : Cmu :=
  let boot := bootCmu powf
  { boot with
    csc := fun r c => (max (-0x200) (min 0x1ff (lroundf (matrix r c * 256))) % 0x400).toNat
    lut2 := if offset = 0 then boot.lut2 else
      fun i => (max 0 (min 255 (boot.lut2 i + lroundf (offset * 255)))).toNat }

/-- What `setInversion` writes. -/
def inversionCmu (tint : Fin 3 → ℚ) : Cmu :=
  let boot := bootCmu powf
  { fillIdentityTables boot with
    lut1 := fun i => (255 - i.val) <<< 4
    csc := fun r c =>
      if r = c then (max 0 (min 0x1ff (lroundf (tint c * 256)))).toNat else boot.csc r c }

/-- `TEGRA_DC_EXT_SET_CMU_ALIGNED`: the kernel's answer, and what it holds then. -/
def setCmu (held cmu : Cmu) (taken : Bool) : Bool × Cmu := (taken, if taken then cmu else held)

def setColorMatrix (held : Cmu) (matrix : Matrix (Fin 3) (Fin 3) ℚ) (offset : ℚ) (taken : Bool) :
    Bool × Cmu :=
  setCmu held (colorMatrixCmu powf matrix offset) taken

def setInversion (held : Cmu) (tint : Fin 3 → ℚ) (taken : Bool) : Bool × Cmu :=
  setCmu held (inversionCmu powf tint) taken

def writeBootState (held : Cmu) (taken : Bool) : Bool × Cmu := setCmu held (bootCmu powf) taken

end Boot

end DcHead

-- ---------------------------------------------------------------------------
-- The matrix
-- ---------------------------------------------------------------------------

/-- `HalColorTransformMatrix`, by column and row: the fourth column is the offset,
the bottom row the projective weight. -/
abbrev HalColorTransformMatrix := Fin 4 → Fin 4 → ℚ

namespace HalColorTransformMatrix

def kEps : ℚ := 1e-4

/-- `kPanelToSrgb`. -/
def kPanelToSrgb : Matrix (Fin 3) (Fin 3) ℚ :=
  fun r c => [1.014, -0.057, 0.043, -0.092, 1.218, -0.126, -0.073, -0.115, 1.188].getD
    (r.val * 3 + c.val) 0

/-- `kInvert`. -/
def kInvert : Matrix (Fin 3) (Fin 3) ℚ :=
  fun r c => [0.402, -1.174, -0.228, -0.598, -0.174, -0.228, -0.599, -1.175, 0.772].getD
    (r.val * 3 + c.val) 0

variable (m : HalColorTransformMatrix)

def identity : Bool := decide (∀ c r, |m c r - if c = r then 1 else 0| < kEps)

/-- The matrix without its offset, by row and column. -/
def rm : Matrix (Fin 3) (Fin 3) ℚ := fun r c => m c.castSucc r.castSucc

/-- The offset of a channel. -/
def added (r : Fin 3) : ℚ := m 3 r.castSucc

def offset : ℚ := (m.added 0 + m.added 1 + m.added 2) / 3

def hasOffset : Bool := decide (∃ r, kEps < |m.added r|)

def negative : Bool :=
  (List.finRange 3).any fun r => (List.finRange 3).any fun c => decide (m.rm r c < -kEps)

/-- A row's factor over the inversion's, by least squares. -/
def tint (r : Fin 3) : ℚ := m.rm r ⬝ᵥ kInvert r / kInvert r ⬝ᵥ kInvert r

/-- The inversion, bare or under a tint. -/
def family : Bool :=
  decide (∀ r, 0 < m.tint r ∧ |m.added r - m.tint r| < 0.05) &&
    decide (∀ r c, |m.rm r c - m.tint r * kInvert r c| < 0.05)

def inverts : Bool := m.negative && m.hasOffset && decide (0.4 < m.offset) && m.family

def diagonal : Bool := decide (∀ r c, r ≠ c → |m.rm r c| < kEps)

variable (powf : ℚ → ℚ → ℚ) (calibratedHome : Bool)

/-- The factors of a diagonal matrix, brought to linear light. -/
def bridged : Matrix (Fin 3) (Fin 3) ℚ :=
  if m.diagonal then fun r c => if r = c then powf (m.rm r c) 2.1 else m.rm r c else m.rm

/-- The largest coefficient. -/
def peak (a : Matrix (Fin 3) (Fin 3) ℚ) : ℚ :=
  (List.finRange 3).foldl (fun peak r =>
    (List.finRange 3).foldl (fun peak c => max peak |a r c|) peak) 0

/-- The coefficients the head is given: where home is calibrated, the panel's
correction over the matrix, scaled down whole to fit. -/
def coefficients : Matrix (Fin 3) (Fin 3) ℚ :=
  if calibratedHome then
    let composed := kPanelToSrgb * m.bridged powf
    if 1.99 < peak composed then (1.99 / peak composed) • composed else composed
  else m.bridged powf

/-- The pipeline's resting state. -/
def home : Cmu :=
  if calibratedHome then DcHead.colorMatrixCmu powf kPanelToSrgb 0 else DcHead.bootCmu powf

/-- The programme a matrix asks for. -/
def asks : Cmu :=
  if m.identity then home powf calibratedHome
  else if m.inverts then DcHead.inversionCmu powf m.tint
  else if m.hasOffset then home powf calibratedHome
  else DcHead.colorMatrixCmu powf (m.coefficients powf calibratedHome) 0

end HalColorTransformMatrix

-- ---------------------------------------------------------------------------
-- The memories
-- ---------------------------------------------------------------------------

/-- `CmuCounters`. -/
structure CmuCounters where
  applied : Nat := 0
  restored : Nat := 0
  skippedOffset : Nat := 0
  approximated : Nat := 0
  deriving DecidableEq, Repr

/-- What `TegraAtomicStateManager` remembers of the head's colour, and the
programme the head holds. `refused`, whether the head refused the write of the
matrix last seen, is kept beside the code's own. -/
structure HeadColor where
  held : Cmu
  lastColorMatrix : HalColorTransformMatrix := fun _ _ => 0
  colorMatrixSeen : Bool := false
  cscProgrammed : Bool := false
  bootStateWritten : Bool := false
  cmu : CmuCounters := {}
  refused : Bool := false

namespace HeadColor

open HalColorTransformMatrix

section Code

variable (powf : ℚ → ℚ → ℚ) (calibratedHome : Bool)

/-- The `restore` of `ProgramColorMatrix`, and what the head answered where it was
asked. -/
def restore (s : HeadColor) (taken : Bool) : HeadColor × Option Bool :=
  if !s.cscProgrammed && s.bootStateWritten then (s, none)
  else
    let (written, held) :=
      if calibratedHome then DcHead.setColorMatrix powf s.held kPanelToSrgb 0 taken
      else DcHead.writeBootState powf s.held taken
    if written then
      ({ s with
          held := held
          cmu := if s.cscProgrammed then { s.cmu with restored := s.cmu.restored + 1 } else s.cmu
          cscProgrammed := false
          bootStateWritten := true }, some true)
    else ({ s with held := held }, some false)

/-- What follows the write of a transform. -/
def applied (s : HeadColor) (answer : Bool × Cmu) (approximated : Bool) :
    HeadColor × Option Bool :=
  let (written, held) := answer
  if written then
    ({ s with
        held := held
        cscProgrammed := true
        bootStateWritten := true
        cmu := { s.cmu with
          applied := s.cmu.applied + 1
          approximated := if approximated then s.cmu.approximated + 1 else s.cmu.approximated } },
      some true)
  else ({ s with held := held }, some false)

/-- What runs once for each change of matrix. -/
def change (s : HeadColor) (m : HalColorTransformMatrix) (taken : Bool) :
    HeadColor × Option Bool :=
  if m.identity then s.restore powf calibratedHome taken
  else if m.inverts then
    s.applied (DcHead.setInversion powf s.held m.tint taken) true
  else if m.hasOffset then
    let (s, answer) := s.restore powf calibratedHome taken
    ({ s with cmu := { s.cmu with skippedOffset := s.cmu.skippedOffset + 1 } }, answer)
  else
    s.applied (DcHead.setColorMatrix powf s.held (m.coefficients powf calibratedHome) 0 taken)
      (!m.diagonal)

/-- `ProgramColorMatrix`. -/
def programColorMatrix (s : HeadColor) (m : HalColorTransformMatrix) (taken : Bool) :
    HeadColor × Option Bool :=
  if s.colorMatrixSeen && decide (m = s.lastColorMatrix) then (s, none)
  else
    let s := { s with lastColorMatrix := m, colorMatrixSeen := true }
    let (s, answer) := s.change powf calibratedHome m taken
    ({ s with refused := decide (answer = some false) }, answer)

/-- A frame executed: the matrix it carries, if any, and whether the head takes a
write. -/
structure Frame where
  colorMatrix : Option HalColorTransformMatrix
  taken : Bool

/-- The frame carries the very matrix whose write the head refused. -/
def CarriesRefused (s : HeadColor) (f : Frame) : Prop :=
  s.refused = true ∧ f.colorMatrix = some s.lastColorMatrix

instance (s : HeadColor) (f : Frame) : Decidable (s.CarriesRefused f) :=
  inferInstanceAs (Decidable (_ ∧ _))

/-- What is told of a frame that carries a matrix: the programme it asks for, the
programme the head then holds, the head's answer where it was asked, and whether
the matrix is one whose write was refused. -/
structure Report where
  asked : Cmu
  held : Cmu
  answer : Option Bool
  again : Bool

/-- The frames, executed. -/
def machine : Machine HeadColor Frame Report where
  step s f := some <|
    match f.colorMatrix with
    | none => s
    | some m => (s.programColorMatrix powf calibratedHome m f.taken).1
  events s f :=
    match f.colorMatrix with
    | none => []
    | some m =>
      let (after, answer) := s.programColorMatrix powf calibratedHome m f.taken
      [⟨m.asks powf calibratedHome, after.held, answer, decide (s.CarriesRefused f)⟩]

/-- The head holds what the matrix asks for, or refused in this very frame; and a
refused write is tried again. -/
structure Report.Followed (r : Report) : Prop where
  holds : r.held = r.asked ∨ r.answer = some false
  tried : r.again = true → r.answer ≠ none

end Code

-- ---------------------------------------------------------------------------
-- What every frame keeps
-- ---------------------------------------------------------------------------

variable {powf : ℚ → ℚ → ℚ} {calibratedHome : Bool} {s s' : HeadColor}
  {m : HalColorTransformMatrix} {taken : Bool} {f : Frame}

/-- A pipeline the flags say is untouched is at home. -/
def Resting (powf : ℚ → ℚ → ℚ) (calibratedHome : Bool) (s : HeadColor) : Prop :=
  s.cscProgrammed = false → s.bootStateWritten = true → s.held = home powf calibratedHome

/-- What is kept over a run: the flags do not lie, and the head holds what the
matrix last seen asks for, but for a write it refused. -/
structure Kept (powf : ℚ → ℚ → ℚ) (calibratedHome : Bool) (s : HeadColor) : Prop where
  resting : Resting powf calibratedHome s
  follows : s.colorMatrixSeen = true → s.refused = false →
    s.held = s.lastColorMatrix.asks powf calibratedHome
  seen : s.refused = true → s.colorMatrixSeen = true

/-- What a write, or none, leaves behind: the programme is held or was refused. -/
structure Leaves (powf : ℚ → ℚ → ℚ) (calibratedHome : Bool) (s : HeadColor) (wanted : Cmu)
    (r : HeadColor × Option Bool) : Prop where
  resting : Resting powf calibratedHome r.1
  holds : r.1.held = wanted ∨ r.2 = some false
  lastColorMatrix : r.1.lastColorMatrix = s.lastColorMatrix
  colorMatrixSeen : r.1.colorMatrixSeen = s.colorMatrixSeen

theorem restore_leaves (hResting : Resting powf calibratedHome s) :
    Leaves powf calibratedHome s (home powf calibratedHome)
      (s.restore powf calibratedHome taken) := by
  unfold restore
  split
  · rename_i hUntouched
    rw [Bool.and_eq_true, Bool.not_eq_true'] at hUntouched
    exact ⟨hResting, Or.inl (hResting hUntouched.1 hUntouched.2), rfl, rfl⟩
  · cases taken with
    | false =>
      have hSame : (if calibratedHome then DcHead.setColorMatrix powf s.held kPanelToSrgb 0 false
          else DcHead.writeBootState powf s.held false) = (false, s.held) := by
        cases calibratedHome <;> rfl
      rw [hSame]
      exact ⟨hResting, Or.inr rfl, rfl, rfl⟩
    | true =>
      have hHome : (if calibratedHome then DcHead.setColorMatrix powf s.held kPanelToSrgb 0 true
          else DcHead.writeBootState powf s.held true) = (true, home powf calibratedHome) := by
        cases calibratedHome <;> rfl
      rw [hHome]
      exact ⟨fun _ _ => rfl, Or.inl rfl, rfl, rfl⟩

theorem applied_leaves {cmu : Cmu} {approximated : Bool}
    (hResting : Resting powf calibratedHome s) :
    Leaves powf calibratedHome s cmu (s.applied (DcHead.setCmu s.held cmu taken) approximated) := by
  cases taken with
  | false => exact ⟨hResting, Or.inr rfl, rfl, rfl⟩
  | true => exact ⟨fun hOff => (nomatch hOff), Or.inl rfl, rfl, rfl⟩

/-- **A change of matrix** leaves the head with its programme, or refusing it. -/
theorem change_leaves (hResting : Resting powf calibratedHome s) :
    Leaves powf calibratedHome s (m.asks powf calibratedHome)
      (s.change powf calibratedHome m taken) := by
  unfold change asks
  split
  · exact restore_leaves hResting
  split
  · exact applied_leaves hResting
  split
  · obtain ⟨hRests, hHolds, hLast, hSeen⟩ := @restore_leaves _ _ _ taken hResting
    exact ⟨hRests, hHolds, hLast, hSeen⟩
  · exact applied_leaves hResting

/-- A matrix carried again costs the comparison alone. -/
theorem programColorMatrix_again (hSeen : s.colorMatrixSeen = true)
    (hSame : m = s.lastColorMatrix) :
    s.programColorMatrix powf calibratedHome m taken = (s, none) := by
  unfold programColorMatrix
  rw [if_pos (by simp [hSeen, hSame])]

/-- What a matrix that is not the one last seen leaves behind. -/
theorem programColorMatrix_changed (hKept : Kept powf calibratedHome s)
    (hNew : ¬(s.colorMatrixSeen = true ∧ m = s.lastColorMatrix)) :
    Kept powf calibratedHome (s.programColorMatrix powf calibratedHome m taken).1 ∧
      ((s.programColorMatrix powf calibratedHome m taken).1.held = m.asks powf calibratedHome ∨
        (s.programColorMatrix powf calibratedHome m taken).2 = some false) := by
  have hLeaves := @change_leaves powf calibratedHome
    { s with lastColorMatrix := m, colorMatrixSeen := true } m taken hKept.resting
  unfold programColorMatrix
  rw [if_neg (by simpa using hNew)]
  refine ⟨⟨hLeaves.resting, fun _ hTaken => ?_, fun _ => hLeaves.colorMatrixSeen⟩, hLeaves.holds⟩
  rcases hLeaves.holds with hHeld | hRefused
  · exact hHeld.trans (congrArg (fun m => asks m powf calibratedHome) hLeaves.lastColorMatrix.symm)
  · simp [hRefused] at hTaken

theorem kept_init {held : Cmu} : Kept powf calibratedHome { held := held } where
  resting _ hWritten := (nomatch hWritten)
  follows hSeen := (nomatch hSeen)
  seen hRefused := (nomatch hRefused)

/-- **Every frame keeps the memories true.** -/
theorem kept_step (hKept : Kept powf calibratedHome s)
    (hStep : (machine powf calibratedHome).step s f = some s') : Kept powf calibratedHome s' := by
  obtain rfl := Option.some.inj hStep
  cases f.colorMatrix with
  | none => exact hKept
  | some m =>
    by_cases hSame : s.colorMatrixSeen = true ∧ m = s.lastColorMatrix
    · simp only [programColorMatrix_again hSame.1 hSame.2]
      exact hKept
    · exact (programColorMatrix_changed hKept hSame).1

/-- The report of a frame is as wanted just where it does not carry the matrix of a
refused write again. -/
theorem followed_iff (hKept : Kept powf calibratedHome s) :
    (∀ r ∈ (machine powf calibratedHome).events s f, r.Followed) ↔ ¬s.CarriesRefused f := by
  unfold machine CarriesRefused
  cases hCarried : f.colorMatrix with
  | none => simp [hCarried]
  | some m =>
    simp only [List.forall_mem_singleton, hCarried, Option.some.injEq]
    by_cases hSame : s.colorMatrixSeen = true ∧ m = s.lastColorMatrix
    · rw [programColorMatrix_again hSame.1 hSame.2]
      constructor
      · rintro ⟨-, hTried⟩ hAgain
        exact hTried (decide_eq_true hAgain) rfl
      · intro hNot
        have hTaken : s.refused = false := by simpa [hSame.2] using hNot
        refine ⟨Or.inl ?_, fun hAgain => absurd (of_decide_eq_true hAgain) hNot⟩
        rw [hSame.2]
        exact hKept.follows hSame.1 hTaken
    · have hNot : ¬(s.refused = true ∧ m = s.lastColorMatrix) := fun hAgain =>
        hSame ⟨hKept.seen hAgain.1, hAgain.2⟩
      exact iff_of_true ⟨(programColorMatrix_changed hKept hSame).2,
        fun hAgain => absurd (of_decide_eq_true hAgain) hNot⟩ hNot

/-- **The head's colour follows the matrices** of a run, whatever the head held
before it, just where no frame carries the very matrix whose write the head
refused. -/
theorem color_follows_iff (powf : ℚ → ℚ → ℚ) (calibratedHome : Bool) (held : Cmu)
    (frames : List Frame) :
    (∀ r ∈ (machine powf calibratedHome).trace { held := held } frames, r.Followed) ↔
      (machine powf calibratedHome).Meets (fun s f => ¬s.CarriesRefused f) { held := held }
        frames :=
  Machine.trace_iff_meets_of_total (I := Kept powf calibratedHome) (fun _ _ => ⟨_, rfl⟩)
    (fun _ _ _ hKept _ => kept_step hKept) (fun _ _ => followed_iff) kept_init frames

/-- A desaturation: neither near the identity nor diagonal, with no offset. -/
def desaturated : HalColorTransformMatrix := fun c r =>
  if c = 3 ∨ r = 3 then if c = r then 1 else 0 else if c = r then 0.8 else 0.1

def unchanged : HalColorTransformMatrix := fun c r => if c = r then 1 else 0

/-- A write refused, and the matrix carried on. -/
def refusedOnce : List Frame :=
  [⟨some unchanged, true⟩, ⟨some desaturated, false⟩, ⟨some desaturated, true⟩]

/-- It is a plain matrix, to be given as it is. -/
theorem desaturated_plain : desaturated.identity = false ∧ desaturated.inverts = false ∧
    desaturated.hasOffset = false ∧ desaturated.diagonal = false := by
  decide +kernel

theorem desaturated_csc : (desaturated.asks powf false).csc 0 0 = 205 := by
  obtain ⟨hIdentity, hInverts, hOffset, hDiagonal⟩ := desaturated_plain
  have hFirst : desaturated.coefficients powf false 0 0 = 0.8 := by
    unfold coefficients bridged
    rw [hDiagonal]
    rfl
  unfold asks
  rw [hIdentity, hInverts, hOffset]
  simp only [Bool.false_eq_true, if_false, DcHead.colorMatrixCmu, hFirst]
  decide +kernel

theorem desaturated_refused (hNew : desaturated ≠ s.lastColorMatrix) :
    s.programColorMatrix powf false desaturated false =
      ({ s with lastColorMatrix := desaturated, colorMatrixSeen := true, refused := true },
        some false) := by
  obtain ⟨hIdentity, hInverts, hOffset, -⟩ := desaturated_plain
  unfold programColorMatrix change
  rw [hIdentity, hInverts, hOffset, if_neg (by simp [hNew])]
  rfl

/-- The last frame leaves the head at home, and asks it nothing. -/
theorem refused_not_retried :
    ¬∃ powf, ∀ r ∈ (machine powf false).trace { held := DcHead.bootCmu powf } refusedOnce,
      r.held = r.asked ∨ r.answer = some false := by
  rintro ⟨powf, hFollowed⟩
  have hIdentity : unchanged.identity = true := by decide +kernel
  have hNew : desaturated ≠ unchanged := by decide +kernel
  have hHome : programColorMatrix powf false { held := DcHead.bootCmu powf } unchanged true =
      ({ held := DcHead.bootCmu powf, lastColorMatrix := unchanged, colorMatrixSeen := true,
         bootStateWritten := true }, some true) := by
    unfold programColorMatrix change
    rw [hIdentity]
    rfl
  have hLast := hFollowed ⟨desaturated.asks powf false, DcHead.bootCmu powf, none, true⟩ (by
    simp [Machine.trace, machine, refusedOnce, hHome, desaturated_refused, hNew,
      programColorMatrix_again, CarriesRefused])
  rcases hLast with hHeld | hRefused
  · have hCell := congrArg (fun cmu => cmu.csc 0 0) hHeld
    rw [desaturated_csc] at hCell
    cases hCell
  · cases hRefused

end HeadColor

end TegraHwc
