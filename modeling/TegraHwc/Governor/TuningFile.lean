import TegraHwc.Lib.CText
import Mathlib.Logic.Function.Basic

/-!
# TegraHwc — the tuning file

`governor/Tuning.cpp`: the settings the governor is tuned by, the file that
overrides them and the kernel's node one of them is read from. An `unsigned
long` is the target's, of thirty-two bits. A file that cannot be opened is no
file; of a complaint its line, its words and its detail are kept.

## Results

* `readTuningFile_tuning` — what a file leaves of the settings.
* `number_unlike_iff`     — the values read as another number than they are.
-/

namespace TegraHwc.TuningFile

open CText

-- ---------------------------------------------------------------------------
-- The settings
-- ---------------------------------------------------------------------------

/-- A field of `Tuning`. -/
inductive TuningKey where
  | factorPct | pixelsPerClock | jobKcycles | minColdMhz | coldCapMhz | cpuKhz | cpuCapMs
  | cpuLowKhz | pauseMs | cpuPauseLift | submitMeasured | submitSmooth | coldMeasured | holdMs
  | powergateMs | warmAhead | leadUs | submitWarmUs | submitColdUs | submitColdSlowUs
  | leadMinUs | latchMarginUs | phaseMaxAgePeriods | nextSubmitUs | budgetEmptyUs
  | budgetWaitedUs | fencePatienceMs | orphanMs | profilePollMs | gpuBoost | gpuCapMhz
  | gpuPixelsPerKclock
  deriving DecidableEq, Repr

namespace TuningKey

/-- The field's name, verbatim. -/
def name : TuningKey → String
  | .factorPct => "factor_pct"
  | .pixelsPerClock => "pixels_per_clock"
  | .jobKcycles => "job_kcycles"
  | .minColdMhz => "min_cold_mhz"
  | .coldCapMhz => "cold_cap_mhz"
  | .cpuKhz => "cpu_khz"
  | .cpuCapMs => "cpu_cap_ms"
  | .cpuLowKhz => "cpu_low_khz"
  | .pauseMs => "pause_ms"
  | .cpuPauseLift => "cpu_pause_lift"
  | .submitMeasured => "submit_measured"
  | .submitSmooth => "submit_smooth"
  | .coldMeasured => "cold_measured"
  | .holdMs => "hold_ms"
  | .powergateMs => "powergate_ms"
  | .warmAhead => "warm_ahead"
  | .leadUs => "lead_us"
  | .submitWarmUs => "submit_warm_us"
  | .submitColdUs => "submit_cold_us"
  | .submitColdSlowUs => "submit_cold_slow_us"
  | .leadMinUs => "lead_min_us"
  | .latchMarginUs => "latch_margin_us"
  | .phaseMaxAgePeriods => "phase_max_age_periods"
  | .nextSubmitUs => "next_submit_us"
  | .budgetEmptyUs => "budget_empty_us"
  | .budgetWaitedUs => "budget_waited_us"
  | .fencePatienceMs => "fence_patience_ms"
  | .orphanMs => "orphan_ms"
  | .profilePollMs => "profile_poll_ms"
  | .gpuBoost => "gpu_boost"
  | .gpuCapMhz => "gpu_cap_mhz"
  | .gpuPixelsPerKclock => "gpu_pixels_per_kclock"

end TuningKey

/-- `tuningKeys`. -/
def tuningKeys : List TuningKey :=
  [.factorPct, .pixelsPerClock, .jobKcycles, .minColdMhz, .coldCapMhz, .cpuKhz, .cpuCapMs,
   .cpuLowKhz, .pauseMs, .cpuPauseLift, .submitMeasured, .submitSmooth, .coldMeasured, .holdMs,
   .powergateMs, .warmAhead, .leadUs, .submitWarmUs, .submitColdUs, .submitColdSlowUs,
   .leadMinUs, .latchMarginUs, .phaseMaxAgePeriods, .nextSubmitUs, .budgetEmptyUs,
   .budgetWaitedUs, .fencePatienceMs, .orphanMs, .profilePollMs, .gpuBoost, .gpuCapMhz,
   .gpuPixelsPerKclock]

/-- `Tuning`: what each field holds. -/
abbrev Tuning := TuningKey → UInt32

namespace Tuning

/-- The defaults, the measured ones. -/
def defaults : Tuning
  | .factorPct => 125
  | .pixelsPerClock => 2
  | .jobKcycles => 250
  | .minColdMhz => 504
  | .coldCapMhz => 756
  | .cpuKhz => 1044000
  | .cpuCapMs => 5
  | .cpuLowKhz => 400000
  | .pauseMs => 100
  | .cpuPauseLift => 0
  | .submitMeasured => 1
  | .submitSmooth => 3
  | .coldMeasured => 1
  | .holdMs => 17
  | .powergateMs => 500
  | .warmAhead => 0
  | .leadUs => 1500
  | .submitWarmUs => 250
  | .submitColdUs => 600
  | .submitColdSlowUs => 1200
  | .leadMinUs => 1000
  | .latchMarginUs => 700
  | .phaseMaxAgePeriods => 120
  | .nextSubmitUs => 6500
  | .budgetEmptyUs => 7200
  | .budgetWaitedUs => 23000
  | .fencePatienceMs => 500
  | .orphanMs => 100
  | .profilePollMs => 250
  | .gpuBoost => 1
  | .gpuCapMhz => 324
  | .gpuPixelsPerKclock => 3100

end Tuning

-- ---------------------------------------------------------------------------
-- The reading
-- ---------------------------------------------------------------------------

/-- `UINT32_MAX`. -/
def uint32Max : Nat := 4294967295

/-- The target's `ULONG_MAX`. -/
def ulongMax : Nat := 4294967295

/-- What `Trim` strips in front. -/
def isBlank (c : Char) : Bool := c == ' ' || c == '\t'

/-- What it strips behind. -/
def isTail (c : Char) : Bool := isBlank c || c == '\n' || c == '\r'

/-- `Trim`. -/
def trim (line : List Char) : List Char :=
  ((line.takeWhile (· ≠ '#')).dropWhile isBlank).rdropWhile isTail

/-- `Complain`, less the path. -/
structure Complaint where
  line : Nat
  what : String
  detail : Option (List Char)
  deriving DecidableEq, Repr

/-- What `ReadTuningFile` holds as it goes. -/
structure Reading where
  tuning : Tuning
  number : Nat := 0
  complaints : List Complaint := []

namespace Reading

def complain (r : Reading) (what : String) (detail : Option (List Char)) : Reading :=
  { r with complaints := r.complaints ++ [{ line := r.number, what := what, detail := detail }] }

end Reading

/-- The number a value is read as: one unsigned decimal and nothing else.
`strtoul` takes a sign and wraps; a setting here is never negative. -/
def readNumber (value : List Char) : Option Nat :=
  let parsed := strtoul ulongMax value
  if value.head? = some '-' ∨ value.head? = some '+' ∨ parsed.2 = value ∨ parsed.2 ≠ [] ∨
      uint32Max < parsed.1 then none
  else some parsed.1

/-- The two sides of a text's first `=`. -/
def fields (text : List Char) : Option (List Char × List Char) :=
  if '=' ∈ text then
    some (trim (text.takeWhile (· ≠ '=')), trim (text.dropWhile (· ≠ '=')).tail)
  else none

/-- The row of `tuningKeys` of a name. -/
def keyNamed (name : List Char) : Option TuningKey :=
  tuningKeys.find? fun key => key.name.toList = name

/-- One turn of the loop of `ReadTuningFile`, on what was read into `line`. -/
def readLine (r : Reading) (line : List Char) : Reading :=
  let r := { r with number := r.number + 1 }
  let text := trim (cString line)
  if text = [] then r
  else match fields text with
    | none => r.complain "not a name=value line" none
    | some (name, value) =>
      match readNumber value with
      | none => r.complain "not a number" (some value)
      | some parsed =>
        match keyNamed name with
        | none => r.complain "no such setting" (some name)
        | some key => { r with tuning := Function.update r.tuning key (UInt32.ofNat parsed) }

/-- Two that divide. -/
def divisors (t : Tuning) : Tuning :=
  let t := if t .factorPct = 0 then Function.update t .factorPct 100 else t
  if t .pixelsPerClock = 0 then Function.update t .pixelsPerClock 1 else t

/-- `ReadTuningFile`: whether there was a file, and what it left. The buffer is
of 160 bytes, the last of them the NUL's. -/
def readTuningFile (file : Option (List Char)) (t : Tuning) : Bool × Reading :=
  match file with
  | none => (false, { tuning := t })
  | some file =>
    let r := (reads 159 file).foldl readLine { tuning := t }
    (true, { r with tuning := divisors r.tuning })

/-- `ReadPowergateDelay`, through a buffer of 32 bytes. -/
def readPowergateDelay (file : Option (List Char)) (t : Tuning) : Bool × Tuning :=
  match file with
  | none => (false, t)
  | some file =>
    if file = [] then (false, t)
    else match readNumber (trim (cString (fgets 31 file).1)) with
      | none => (false, t)
      | some parsed => (true, Function.update t .powergateMs (UInt32.ofNat parsed))

/-- What `TegraGovernor::Start` leaves of the settings: the kernel's node, and
the tuning file over it. -/
def startTuning (delay conf : Option (List Char)) : Tuning :=
  (readTuningFile conf (readPowergateDelay delay Tuning.defaults).2).2.tuning

-- ---------------------------------------------------------------------------
-- What a line asks
-- ---------------------------------------------------------------------------

/-- A decimal number not above `UINT32_MAX`. -/
def plainNumber (value : List Char) : Option Nat :=
  if Digits value ∧ decimal value ≤ uint32Max then some (decimal value) else none

/-- The setting a `name=value` text is, numbers read so. -/
def nameValue (number : List Char → Option Nat) (text : List Char) : Option (TuningKey × UInt32) :=
  (fields (trim text)).bind fun nv =>
    (number nv.2).bind fun n => (keyNamed nv.1).map fun key => (key, UInt32.ofNat n)

/-- The setting the loop makes of what one read put into its buffer. -/
def setting (line : List Char) : Option (TuningKey × UInt32) := nameValue readNumber (cString line)

/-- The setting a whole line asks for. -/
def asked (line : List Char) : Option (TuningKey × UInt32) := nameValue plainNumber line

/-- What the loop sets on its way through one line of the file. -/
def settings (line : List Char) : List (TuningKey × UInt32) := (reads 159 line).filterMap setting

/-- The last of these that is the key's. -/
def lastFor (key : TuningKey) (made : List (TuningKey × UInt32)) : Option UInt32 :=
  (made.filter fun s => s.1 = key).getLast?.map Prod.snd

/-- A value of a key once the divisors are seen to. -/
def orDivisor (key : TuningKey) (value : UInt32) : UInt32 :=
  if value ≠ 0 then value
  else if key = .factorPct then 100
  else if key = .pixelsPerClock then 1
  else 0

/-- A file is read by its lines: on the way through each line the loop sets what
the line asks and nothing else, and what is left of each field is what the last
line to ask for it asks, or what the field was. -/
structure ReadByLines (file : List Char) : Prop where
  sets : ∀ line ∈ lines file, settings line = (asked line).toList
  leaves : ∀ t key, (readTuningFile (some file) t).2.tuning key =
    orDivisor key ((lastFor key ((lines file).filterMap asked)).getD (t key))

/-- A number too large for the field. -/
def OutOfRange (value : List Char) : Prop := Digits value ∧ uint32Max < decimal value

theorem keyNamed_name (key : TuningKey) : keyNamed key.name.toList = some key := by
  cases key <;> rfl

/-- A text with an `=` is its name and its value, split at the first. -/
theorem fields_iff {text n v : List Char} :
    fields text = some (n, v) ↔
      ∃ name value, text = name ++ '=' :: value ∧ '=' ∉ name ∧ trim name = n ∧ trim value = v := by
  have hsplit : ∀ {name value : List Char}, '=' ∉ name →
      fields (name ++ '=' :: value) = some (trim name, trim value) := by
    intro name value hname
    have hall : ∀ c ∈ name, decide (c ≠ '=') = true := by
      intro c hc
      rw [decide_eq_true_eq]
      rintro rfl
      exact hname hc
    unfold fields
    rw [if_pos (by simp), List.takeWhile_append_of_pos hall, List.dropWhile_append_of_pos hall]
    simp
  constructor
  · intro h
    by_cases heq : '=' ∈ text
    · obtain ⟨name, value, rfl, hname⟩ := List.eq_append_cons_of_mem heq
      rw [hsplit hname, Option.some.injEq, Prod.mk.injEq] at h
      exact ⟨name, value, rfl, hname, h.1, h.2⟩
    · rw [fields, if_neg heq] at h
      cases h
  · rintro ⟨name, value, rfl, hname, rfl, rfl⟩
    exact hsplit hname

theorem nameValue_iff {number : List Char → Option Nat} {text : List Char} {key : TuningKey}
    {v : UInt32} : nameValue number text = some (key, v) ↔ ∃ name value n,
      fields (trim text) = some (name, value) ∧ keyNamed name = some key ∧
      number value = some n ∧ v = UInt32.ofNat n := by
  simp only [nameValue, Option.bind_eq_some_iff, Option.map_eq_some_iff, Prod.mk.injEq]
  constructor
  · rintro ⟨⟨name, value⟩, hfields, n, hn, key', hkey, rfl, rfl⟩
    exact ⟨name, value, n, hfields, hkey, hn, rfl⟩
  · rintro ⟨name, value, n, hfields, hkey, hn, rfl⟩
    exact ⟨(name, value), hfields, n, hn, key, hkey, rfl, rfl⟩

theorem plainNumber_iff {value : List Char} {n : Nat} :
    plainNumber value = some n ↔ Digits value ∧ decimal value = n ∧ n ≤ uint32Max := by
  unfold plainNumber
  split
  · rename_i h
    rw [Option.some.injEq]
    constructor
    · rintro rfl
      exact ⟨h.1, rfl, h.2⟩
    · exact fun hn => hn.2.1
  · rename_i h
    constructor
    · intro hn
      cases hn
    · rintro ⟨hdigits, rfl, hle⟩
      exact absurd ⟨hdigits, hle⟩ h

/-- A whole line asks for a setting when, comment and blanks off, it is the
setting's name, `=` and a decimal in range. -/
theorem asked_iff {line : List Char} {key : TuningKey} {v : UInt32} :
    asked line = some (key, v) ↔ ∃ name value,
      trim line = name ++ '=' :: value ∧ '=' ∉ name ∧ keyNamed (trim name) = some key ∧
      Digits (trim value) ∧ decimal (trim value) ≤ uint32Max ∧
      v = UInt32.ofNat (decimal (trim value)) := by
  rw [asked, nameValue_iff]
  constructor
  · rintro ⟨_, _, n, hfields, hkey, hn, hv⟩
    obtain ⟨name, value, htrim, hname, rfl, rfl⟩ := fields_iff.mp hfields
    obtain ⟨hdigits, rfl, hle⟩ := plainNumber_iff.mp hn
    exact ⟨name, value, htrim, hname, hkey, hdigits, hle, hv⟩
  · rintro ⟨name, value, htrim, hname, hkey, hdigits, hle, hv⟩
    exact ⟨_, _, _, fields_iff.mpr ⟨name, value, htrim, hname, rfl, rfl⟩, hkey,
      plainNumber_iff.mpr ⟨hdigits, rfl, hle⟩, hv⟩

-- ---------------------------------------------------------------------------
-- How a value is read
-- ---------------------------------------------------------------------------

theorem isSpace_or_isDigit_head {value : List Char} (h : Digits value ∨ Led value) :
    ∃ c rest, value = c :: rest ∧ (c.isDigit = true ∨ isspace c = true) := by
  rcases h with ⟨hne, hall⟩ | ⟨blanks, sign, digits, rfl, hne, hblanks, -⟩
  · obtain ⟨c, rest, rfl⟩ := List.exists_cons_of_ne_nil hne
    exact ⟨c, rest, rfl, Or.inl (hall c (by simp))⟩
  · obtain ⟨c, rest, rfl⟩ := List.exists_cons_of_ne_nil hne
    exact ⟨c, rest ++ sign ++ digits, by simp, Or.inr (hblanks c (by simp))⟩

/-- Neither digits nor blanks before them begin with a sign. -/
theorem head_not_sign {value : List Char} (h : Digits value ∨ Led value) :
    value.head? ≠ some '-' ∧ value.head? ≠ some '+' := by
  obtain ⟨c, rest, rfl, hc⟩ := isSpace_or_isDigit_head h
  rw [List.head?_cons, ne_eq, Option.some.injEq, ne_eq, Option.some.injEq]
  constructor
  · rintro rfl
    revert hc
    decide
  · rintro rfl
    revert hc
    decide

/-- A value led by blanks is not digits alone. -/
theorem led_not_digits {value : List Char} (h : Led value) : ¬ Digits value := by
  obtain ⟨blanks, sign, digits, rfl, hne, hblanks, -⟩ := h
  obtain ⟨c, rest, rfl⟩ := List.exists_cons_of_ne_nil hne
  intro hdigits
  have hc := hblanks c (by simp)
  rw [isDigit_not_isspace (hdigits.2 c (by simp))] at hc
  cases hc

/-- The loop reads a number where there are digits alone, or digits with blanks
and perhaps a sign before them. -/
theorem readNumber_isSome_iff {value : List Char} :
    (readNumber value).isSome ↔ Digits value ∨ Led value := by
  have hle : ¬ uint32Max < (strtoul ulongMax value).1 := Nat.not_lt.mpr strtoul_le
  by_cases hsign : value.head? = some '-' ∨ value.head? = some '+'
  · have hnone : readNumber value = none := by
      unfold readNumber
      rw [if_pos (hsign.imp_right Or.inl)]
    rw [hnone]
    refine iff_of_false (by simp) fun h => ?_
    exact hsign.elim (head_not_sign h).1 (head_not_sign h).2
  obtain ⟨hminus, hplus⟩ := not_or.mp hsign
  rw [← @strtoul_takes ulongMax value hminus hplus, readNumber]
  simp only [hminus, hplus, hle, false_or, or_false]
  split
  · rename_i h
    refine iff_of_false (by simp) ?_
    rintro ⟨hsome, hall⟩
    rcases h with h | h
    · exact hsome h
    · exact h hall
  · rename_i h
    obtain ⟨hsome, hall⟩ := not_or.mp h
    exact iff_of_true rfl ⟨hsome, not_not.mp hall⟩

/-- Digits are read as their number, or as the largest there is. -/
theorem readNumber_digits {value : List Char} (h : Digits value) :
    readNumber value = some (min (decimal value) ulongMax) := by
  obtain ⟨hminus, hplus⟩ := head_not_sign (Or.inl h)
  have hle : ¬ uint32Max < min (decimal value) ulongMax := Nat.not_lt.mpr (Nat.min_le_right _ _)
  unfold readNumber
  simp only [strtoul_digits h, hminus, hplus, hle, false_or, or_false, ne_eq, not_true_eq_false,
    if_neg (Ne.symm h.1)]

/-- The values read as another number than they are, or as one when they are
none: those out of range, and those led by blanks `Trim` leaves. -/
theorem number_unlike_iff {value : List Char} :
    readNumber value ≠ plainNumber value ↔ OutOfRange value ∨ Led value := by
  by_cases hdigits : Digits value
  · have hled : ¬ Led value := fun hled => led_not_digits hled hdigits
    rw [readNumber_digits hdigits]
    rcases Nat.lt_or_ge uint32Max (decimal value) with hout | hin
    · have hplain : plainNumber value = none := by
        unfold plainNumber
        rw [if_neg (fun h => absurd h.2 (Nat.not_le.mpr hout))]
      rw [hplain]
      exact iff_of_true (by simp) (Or.inl ⟨hdigits, hout⟩)
    · have hplain : plainNumber value = some (decimal value) :=
        plainNumber_iff.mpr ⟨hdigits, rfl, hin⟩
      rw [hplain, Nat.min_eq_left (show decimal value ≤ ulongMax from hin)]
      refine iff_of_false (by simp) ?_
      rintro (⟨-, hout⟩ | hled')
      · exact absurd hin (Nat.not_le.mpr hout)
      · exact hled hled'
  · have hplain : plainNumber value = none := by
      unfold plainNumber
      rw [if_neg (fun h => hdigits h.1)]
    rw [hplain, ← Option.isSome_iff_ne_none, readNumber_isSome_iff]
    constructor
    · rintro (h | h)
      · exact absurd h hdigits
      · exact Or.inr h
    · rintro (h | h)
      · exact absurd h.1 hdigits
      · exact Or.inr h

-- ---------------------------------------------------------------------------
-- What a file leaves
-- ---------------------------------------------------------------------------

/-- One setting made. -/
def make (t : Tuning) (s : TuningKey × UInt32) : Tuning := Function.update t s.1 s.2

/-- A turn of the loop makes the setting of what was read, if it is one. -/
theorem readLine_tuning (r : Reading) (line : List Char) :
    (readLine r line).tuning = (setting line).toList.foldl make r.tuning := by
  unfold readLine setting nameValue
  dsimp only
  by_cases htext : trim (cString line) = []
  · rw [if_pos htext, htext]
    rfl
  · rw [if_neg htext]
    cases fields (trim (cString line)) with
    | none => rfl
    | some nv =>
      dsimp only [Option.bind_some]
      cases readNumber nv.2 with
      | none => rfl
      | some parsed =>
        dsimp only [Option.bind_some]
        cases keyNamed nv.1 with
        | none => rfl
        | some key => rfl

/-- The loop makes the settings of its reads, in their order. -/
theorem foldl_readLine_tuning (r : Reading) (read : List (List Char)) :
    (read.foldl readLine r).tuning = (read.filterMap setting).foldl make r.tuning := by
  induction read generalizing r with
  | nil => rfl
  | cons line rest ih =>
    rw [List.foldl_cons, ih, readLine_tuning]
    cases hs : setting line with
    | none => rw [List.filterMap_cons_none hs]; rfl
    | some s => rw [List.filterMap_cons_some hs]; rfl

/-- What is left of a field is the last value made of it, or what it was. -/
theorem foldl_make (key : TuningKey) (made : List (TuningKey × UInt32)) (t : Tuning) :
    made.foldl make t key = (lastFor key made).getD (t key) := by
  induction made using List.reverseRecOn with
  | nil => rfl
  | append_singleton made s ih =>
    rw [List.foldl_append, List.foldl_cons, List.foldl_nil, make, lastFor, List.filter_append]
    by_cases hs : s.1 = key
    · subst hs
      simp
    · rw [Function.update_of_ne (Ne.symm hs), ih]
      simp [hs, lastFor]

/-- A setting given a value where it is nought. -/
theorem given_apply (t : Tuning) (setting key : TuningKey) (value : UInt32) :
    (if t setting = 0 then Function.update t setting value else t) key =
      if key = setting ∧ t key = 0 then value else t key := by
  by_cases hkey : key = setting
  · subst hkey
    by_cases hzero : t key = 0 <;> simp [hzero]
  · by_cases hzero : t setting = 0 <;> simp [hkey, hzero]

theorem divisors_apply (t : Tuning) (key : TuningKey) :
    divisors t key = orDivisor key (t key) := by
  unfold divisors orDivisor
  rw [given_apply, given_apply]
  by_cases hfactor : key = .factorPct
  · subst hfactor
    by_cases hzero : t .factorPct = 0 <;> simp [hzero]
  · by_cases hzero : t key = 0 <;> simp [hfactor, hzero]

/-- What a file leaves of a field is the last setting its reads make of it, the
divisors seen to. -/
theorem readTuningFile_tuning (file : List Char) (t : Tuning) (key : TuningKey) :
    (readTuningFile (some file) t).2.tuning key =
      orDivisor key ((lastFor key ((lines file).flatMap settings)).getD (t key)) := by
  unfold readTuningFile
  dsimp only
  rw [divisors_apply, foldl_readLine_tuning, foldl_make, reads_eq_lines (by omega),
    List.filterMap_flatMap]
  rfl

/-- The kernel's delay is read where the file holds digits, as the tuning file's
values are; nothing but the delay is set, and nothing at all where it is not. -/
theorem readPowergateDelay_cases (file : Option (List Char)) (t : Tuning) :
    readPowergateDelay file t = (false, t) ∨
      ∃ text n, file = some text ∧ readNumber (trim (cString (fgets 31 text).1)) = some n ∧
        readPowergateDelay file t = (true, Function.update t .powergateMs (UInt32.ofNat n)) := by
  cases file with
  | none => exact Or.inl rfl
  | some text =>
    unfold readPowergateDelay
    dsimp only
    by_cases hempty : text = []
    · rw [if_pos hempty]
      exact Or.inl rfl
    · rw [if_neg hempty]
      cases hn : readNumber (trim (cString (fgets 31 text).1)) with
      | none => exact Or.inl rfl
      | some n => exact Or.inr ⟨text, n, rfl, hn, rfl⟩

end TegraHwc.TuningFile
