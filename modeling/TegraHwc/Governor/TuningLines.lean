import TegraHwc.Governor.TuningFile

/-!
# TegraHwc — the tuning file, line by line

`ReadTuningFile` reads through a buffer of 160 bytes: a line longer than it is
read in stretches, each taken for a line of its own, and of any stretch only
what comes before its first NUL. What a whole line asks is set where its text
lies in one stretch and no other stretch is a setting by itself.

## Results

* `setting_stretch_iff`      — the stretches that make the setting a line asks.
* `readTuningFile_lines_iff` — a file is read by its lines exactly when no line
  of it is cut across its text, or into one of its own, led by odd blanks or out
  of range.
-/

namespace TegraHwc.TuningFile

open CText

-- ---------------------------------------------------------------------------
-- The condition
-- ---------------------------------------------------------------------------

/-- A line the buffer holds, and a C string. -/
def Fits (line : List Char) : Prop := line.length ≤ 159 ∧ nul ∉ line

/-- A line that gives a setting a number out of range, or one with blanks before
it that `Trim` does not strip and `strtoul` does. -/
def Misread (line : List Char) : Prop :=
  ∃ key value, fields (trim line) = some (key, value) ∧ (keyNamed key).isSome ∧
    (OutOfRange value ∨ Led value)

/-- A text that is a setting: a known name, `=` and a number. -/
def IsSetting (text : List Char) : Prop :=
  ∃ name value, fields (trim text) = some (name, value) ∧ (keyNamed name).isSome ∧
    (Digits value ∨ Led value)

/-- A text that gives the key that value. -/
def Gives (text : List Char) (key : TuningKey) (v : UInt32) : Prop :=
  ∃ name value n, fields (trim text) = some (name, value) ∧ keyNamed name = some key ∧
    readNumber value = some n ∧ v = UInt32.ofNat n

/-- Where the text of a line begins, its blanks in front passed over. -/
def textStart (line : List Char) : Nat := (line.takeWhile isBlank).length

/-- Where it ends, before its blanks behind and its comment. -/
def textStop (line : List Char) : Nat := textStart line + (trim line).length

/-- The value of a line's text is noughts alone, and the first of them stands
before the place. -/
def NoughtsBefore (line : List Char) (place : Nat) : Prop :=
  ∃ name value, fields (trim line) = some (name, value) ∧ (∀ c ∈ value, c = '0') ∧
    textStop line - value.length < place

/-- A stretch keeps what its line asks: it begins before the text and holds it to
the end, or into the noughts that are all of its value; or it lies in the comment
behind the text and says the same again. -/
def Keeps (line : List Char) (key : TuningKey) (v : UInt32) (i : Nat) : Prop :=
  159 * i ≤ textStart line ∧
      (textStop line ≤ 159 * (i + 1) ∨ NoughtsBefore line (159 * (i + 1))) ∨
    textStop line ≤ 159 * i ∧ Gives (cString (stretch 159 line i)) key v

/-- A line the loop reads as what it asks. One the buffer holds must not be
misread. Of another one stretch keeps what the line asks, if it asks a setting,
and no other stretch is one by itself. -/
structure ReadsRight (line : List Char) : Prop where
  held : Fits line → ¬ Misread line
  unasked : ¬ Fits line → asked line = none → ∀ i, ¬ IsSetting (cString (stretch 159 line i))
  kept : ¬ Fits line → ∀ key v, asked line = some (key, v) →
    ∃ i, Keeps line key v i ∧ ∀ j, j ≠ i → ¬ IsSetting (cString (stretch 159 line j))

-- ---------------------------------------------------------------------------
-- Texts
-- ---------------------------------------------------------------------------

/-- A character no blank, comment, `=` or NUL: all a name or a number is of. -/
def Plain (c : Char) : Prop := isTail c = false ∧ c ≠ '#' ∧ c ≠ '=' ∧ c ≠ nul

theorem isTail_of_isBlank {c : Char} (h : isBlank c = true) : isTail c = true := by
  simp [isTail, h]

theorem isTail_ne {c : Char} (h : isTail c = true) : c ≠ '#' ∧ c ≠ '=' ∧ c ≠ nul := by
  refine ⟨?_, ?_, ?_⟩ <;> rintro rfl <;> revert h <;> decide

theorem plain_of_isDigit {c : Char} (h : c.isDigit = true) : Plain c := by
  have hSpace := isDigit_not_isspace h
  refine ⟨?_, ?_, ?_, ?_⟩
  · revert hSpace
    simp only [isspace, isTail, isBlank, Bool.or_eq_false_iff]
    tauto
  all_goals rintro rfl; revert h; decide

instance (c : Char) : Decidable (Plain c) := inferInstanceAs (Decidable (_ ∧ _ ∧ _ ∧ _))

theorem plain_name (key : TuningKey) : ∀ c ∈ key.name.toList, Plain c := by
  have hAll : (key.name.toList.all fun c => decide (Plain c)) = true := by
    cases key <;> decide
  exact fun c hc => of_decide_eq_true (List.all_eq_true.mp hAll c hc)

theorem name_ne_nil (key : TuningKey) : key.name.toList ≠ [] := by
  cases key <;> decide

theorem equals_not_mem_tails {l : List Char} (h : ∀ c ∈ l, isTail c = true) : '=' ∉ l :=
  fun hMem => (isTail_ne (h _ hMem)).2.1 rfl

theorem equals_not_mem_plain {l : List Char} (h : ∀ c ∈ l, Plain c) : '=' ∉ l :=
  fun hMem => (h _ hMem).2.2.1 rfl

/-- Before the `=` of a setting there is none. -/
theorem equals_not_mem_name (key : TuningKey) {gap : List Char}
    (hGap : ∀ c ∈ gap, isTail c = true) : '=' ∉ key.name.toList ++ gap := by
  intro hMem
  exact (List.mem_append.mp hMem).elim (equals_not_mem_plain (plain_name key))
    (equals_not_mem_tails hGap)

theorem keyNamed_eq {name : List Char} {key : TuningKey} (h : keyNamed name = some key) :
    name = key.name.toList := by
  unfold keyNamed at h
  exact (of_decide_eq_true (List.find?_eq_some_iff_append.mp h).1).symm

/-- Where characters were dropped, none of their kind comes first. -/
theorem not_head_dropWhile {p : Char → Bool} {l : List Char} {c : Char}
    (h : (l.dropWhile p).head? = some c) : p c = false := by
  have hHead := List.head?_dropWhile_not p l
  rw [h] at hHead
  simpa using hHead

/-- A text with nothing to strip. -/
structure Bare (text : List Char) : Prop where
  note : '#' ∉ text
  front : ∀ c ∈ text.head?, isBlank c = false
  behind : ∀ c ∈ text.getLast?, isTail c = false

theorem bare_of_plain {text : List Char} (h : ∀ c ∈ text, Plain c) : Bare text := by
  refine ⟨fun hNote => (h _ hNote).2.1 rfl, fun c hc => ?_, fun c hc => ?_⟩
  · cases hBlank : isBlank c with
    | false => rfl
    | true =>
      have hTail := isTail_of_isBlank hBlank
      rw [(h c (List.mem_of_mem_head? hc)).1] at hTail
      cases hTail
  · exact (h c (List.mem_of_getLast? hc)).1

/-- What `Trim` strips leaves its text bare. -/
theorem line_split (line : List Char) : ∃ tails note,
    line = line.takeWhile isBlank ++ (trim line ++ (tails ++ note)) ∧ Bare (trim line) ∧
      (∀ c ∈ tails, isTail c = true) ∧ note.takeWhile (· ≠ '#') = [] := by
  have hBlank : ∀ c, isBlank c = true → decide (c ≠ '#') = true := fun c hc =>
    decide_eq_true (isTail_ne (isTail_of_isBlank hc)).1
  have hLead : (line.takeWhile (· ≠ '#')).takeWhile isBlank = line.takeWhile isBlank := by
    rw [List.takeWhile_takeWhile]
    congr 1
    funext c
    cases hc : isBlank c with
    | false => simp
    | true => simpa [hc] using hBlank c hc
  have hText : trim line =
      ((line.takeWhile (· ≠ '#')).dropWhile isBlank).rdropWhile isTail := rfl
  refine ⟨((line.takeWhile (· ≠ '#')).dropWhile isBlank).rtakeWhile isTail,
    line.dropWhile (· ≠ '#'), ?_, ⟨?_, ?_, ?_⟩, ?_, ?_⟩
  · rw [← List.append_assoc (trim line), hText, List.rdropWhile_append_rtakeWhile,
      ← List.append_assoc, ← hLead, List.takeWhile_append_dropWhile,
      List.takeWhile_append_dropWhile]
  · intro hMem
    rw [hText] at hMem
    have hTaken : '#' ∈ line.takeWhile (· ≠ '#') :=
      (List.dropWhile_suffix _).subset ((List.rdropWhile_prefix _ _).subset hMem)
    simpa using List.mem_takeWhile_imp hTaken
  · intro c hc
    rw [hText] at hc
    obtain ⟨rest, hRest⟩ :=
      List.rdropWhile_prefix isTail ((line.takeWhile (· ≠ '#')).dropWhile isBlank)
    refine @not_head_dropWhile isBlank (line.takeWhile (· ≠ '#')) c ?_
    rw [← hRest, List.head?_append, Option.mem_def.mp hc]
    rfl
  · intro c hc
    rw [hText] at hc
    have hSome := List.ne_nil_of_mem (List.mem_of_getLast? hc)
    have hLast := List.rdropWhile_last_not isTail _ hSome
    rw [Option.mem_def, List.getLast?_eq_some_getLast hSome, Option.some.injEq] at hc
    rwa [hc, Bool.not_eq_true] at hLast
  · intro c hc
    exact List.mem_rtakeWhile_imp hc
  · cases hNote : line.dropWhile (· ≠ '#') with
    | nil => rfl
    | cons c rest =>
      rw [List.takeWhile_cons_of_neg]
      have hFirst : decide (c ≠ '#') = false :=
        @not_head_dropWhile (fun c => decide (c ≠ '#')) line c (by rw [hNote]; rfl)
      rw [hFirst]
      exact Bool.false_ne_true

theorem takeWhile_front_nil {p : Char → Bool} {l front : List Char} (hFront : front <+: l)
    (h : l.takeWhile p = []) : front.takeWhile p = [] := by
  obtain ⟨rest, rfl⟩ := hFront
  cases front with
  | nil => rfl
  | cons c front =>
    rw [List.cons_append, List.takeWhile_cons] at h
    split at h
    · cases h
    · rename_i hNot
      rw [List.takeWhile_cons_of_neg hNot]

theorem cString_eq_self {text : List Char} (h : ∀ c ∈ text, c ≠ nul) : cString text = text :=
  List.takeWhile_eq_self_iff.mpr fun c hc => decide_eq_true (h c hc)

/-- `Trim` finds a bare text between blanks and a comment. -/
theorem trim_of_bare {lead text tails note : List Char} (hText : Bare text)
    (hLead : ∀ c ∈ lead, isBlank c = true) (hTails : ∀ c ∈ tails, isTail c = true)
    (hNote : note.takeWhile (· ≠ '#') = []) :
    trim (lead ++ (text ++ (tails ++ note))) = text := by
  have hBefore : (lead ++ (text ++ (tails ++ note))).takeWhile (· ≠ '#') =
      lead ++ (text ++ tails) := by
    rw [List.takeWhile_append_of_pos, List.takeWhile_append_of_pos, List.takeWhile_append_of_pos,
      hNote, List.append_nil]
    · exact fun c hc => decide_eq_true (isTail_ne (hTails c hc)).1
    · rintro c hc
      exact decide_eq_true fun h => hText.note (h ▸ hc)
    · exact fun c hc => decide_eq_true (isTail_ne (isTail_of_isBlank (hLead c hc))).1
  rw [trim, hBefore, List.dropWhile_append_of_pos hLead]
  cases text with
  | nil =>
    rw [List.nil_append, List.rdropWhile_eq_nil_iff]
    exact fun c hc => hTails c ((List.dropWhile_suffix _).subset hc)
  | cons first rest =>
    have hFirst : isBlank first = false := hText.front first rfl
    rw [List.cons_append, List.dropWhile_cons_of_neg (by simp [hFirst]), ← List.cons_append]
    rw [List.rdropWhile, List.reverse_append,
      List.dropWhile_append_of_pos (fun c hc => hTails c (List.mem_reverse.mp hc)),
      ← List.rdropWhile]
    refine List.rdropWhile_eq_self_iff.mpr fun hSome => ?_
    simp [hText.behind _ (List.getLast?_eq_some_getLast hSome)]

-- ---------------------------------------------------------------------------
-- A line that asks
-- ---------------------------------------------------------------------------

/-- How a line gives a key digits: blanks, the key's name, what `Trim` strips
behind it, `=`, blanks, the digits, what it strips behind them and the comment. -/
structure Written where
  lead : List Char
  gap : List Char
  blanks : List Char
  tails : List Char
  note : List Char
  lead_blank : ∀ c ∈ lead, isBlank c = true
  gap_tail : ∀ c ∈ gap, isTail c = true
  blanks_blank : ∀ c ∈ blanks, isBlank c = true
  tails_tail : ∀ c ∈ tails, isTail c = true
  note_led : note.takeWhile (· ≠ '#') = []

namespace Written

variable (w : Written) {key : TuningKey} {digits : List Char}

/-- The text, from the name to the last digit. -/
def text (key : TuningKey) (digits : List Char) : List Char :=
  key.name.toList ++ (w.gap ++ '=' :: (w.blanks ++ digits))

def line (key : TuningKey) (digits : List Char) : List Char :=
  w.lead ++ (w.text key digits ++ (w.tails ++ w.note))

theorem mem_text {c : Char} (hDigits : ∀ c ∈ digits, c.isDigit = true)
    (hc : c ∈ w.text key digits) : c = '=' ∨ Plain c ∨ isTail c = true := by
  simp only [text, List.mem_append, List.mem_cons] at hc
  obtain hName | hGap | rfl | hBlanks | hDigit := hc
  · exact .inr (.inl (plain_name key c hName))
  · exact .inr (.inr (w.gap_tail c hGap))
  · exact .inl rfl
  · exact .inr (.inr (isTail_of_isBlank (w.blanks_blank c hBlanks)))
  · exact .inr (.inl (plain_of_isDigit (hDigits c hDigit)))

theorem text_ne (hDigits : ∀ c ∈ digits, c.isDigit = true) :
    ∀ c ∈ w.text key digits, c ≠ '#' ∧ c ≠ nul := by
  intro c hc
  obtain rfl | hPlain | hTail := w.mem_text hDigits hc
  · decide
  · exact ⟨hPlain.2.1, hPlain.2.2.2⟩
  · exact ⟨(isTail_ne hTail).1, (isTail_ne hTail).2.2⟩

theorem bare_text (hDigits : ∀ c ∈ digits, c.isDigit = true) (hSome : digits ≠ [] ∨ w.blanks = []) :
    Bare (w.text key digits) := by
  refine ⟨fun h => (w.text_ne hDigits _ h).1 rfl, fun c hc => ?_, fun c hc => ?_⟩
  · obtain ⟨first, rest, hName⟩ := List.exists_cons_of_ne_nil (name_ne_nil key)
    have hFirst : Plain first := plain_name key first (by simp [hName])
    rw [text, hName, List.cons_append, List.head?_cons, Option.mem_some_iff] at hc
    subst hc
    cases hBlank : isBlank first with
    | false => rfl
    | true => exact absurd (isTail_of_isBlank hBlank) (by simp [hFirst.1])
  · rcases List.eq_nil_or_concat digits with rfl | ⟨front, last, rfl⟩
    · rw [text, hSome.resolve_left (fun h => h rfl)] at hc
      simp at hc
      subst hc
      rfl
    · rw [text, List.concat_eq_append, Option.mem_def, ← List.cons_append, ← List.append_assoc,
        ← List.append_assoc, ← List.append_assoc, List.getLast?_concat, Option.some.injEq] at hc
      subst hc
      exact (plain_of_isDigit (hDigits last (by simp))).1

/-- The two sides of the text. -/
theorem fields_text (hDigits : ∀ c ∈ digits, c.isDigit = true) :
    fields (w.text key digits) = some (key.name.toList, digits) := by
  refine fields_iff.mpr ⟨key.name.toList ++ w.gap, w.blanks ++ digits, ?_, ?_, ?_, ?_⟩
  · rw [text, List.append_assoc]
  · exact equals_not_mem_name key w.gap_tail
  · simpa using @trim_of_bare [] _ _ [] (bare_of_plain (plain_name key)) (by simp) w.gap_tail rfl
  · have hPlain : ∀ c ∈ digits, Plain c := fun c hc => plain_of_isDigit (hDigits c hc)
    simpa using @trim_of_bare _ _ [] [] (bare_of_plain hPlain) w.blanks_blank (by simp) rfl

/-- The text is what is stripped of the line, as far as its first NUL. -/
theorem trim_cString_line (hDigits : ∀ c ∈ digits, c.isDigit = true)
    (hSome : digits ≠ [] ∨ w.blanks = []) :
    trim (cString (w.line key digits)) = w.text key digits := by
  have hString : cString (w.line key digits) =
      w.lead ++ (w.text key digits ++ (w.tails ++ cString w.note)) := by
    unfold cString line
    rw [List.takeWhile_append_of_pos, List.takeWhile_append_of_pos, List.takeWhile_append_of_pos]
    · exact fun c hc => decide_eq_true (isTail_ne (w.tails_tail c hc)).2.2
    · exact fun c hc => decide_eq_true (w.text_ne hDigits c hc).2
    · exact fun c hc => decide_eq_true (isTail_ne (isTail_of_isBlank (w.lead_blank c hc))).2.2
  rw [hString]
  refine trim_of_bare (w.bare_text hDigits hSome) w.lead_blank w.tails_tail ?_
  exact takeWhile_front_nil (List.takeWhile_prefix _) w.note_led

/-- **What the loop makes of it.** -/
theorem setting_line (hDigits : ∀ c ∈ digits, c.isDigit = true) :
    setting (w.line key digits) = (readNumber digits).map fun n => (key, UInt32.ofNat n) := by
  -- with no digits the blanks before them are stripped behind the `=`
  have hSame : ∃ w' : Written, w'.line key digits = w.line key digits ∧
      (digits ≠ [] ∨ w'.blanks = []) := by
    by_cases hSome : digits = []
    · refine ⟨{ w with
        blanks := [], tails := w.blanks ++ w.tails, blanks_blank := by simp,
        tails_tail := fun c hc => ?_ }, ?_, .inr rfl⟩
      · exact (List.mem_append.mp hc).elim
          (fun h => isTail_of_isBlank (w.blanks_blank c h)) (w.tails_tail c)
      · simp [line, text, hSome]
    · exact ⟨w, rfl, .inl hSome⟩
  obtain ⟨w', hLine, hSome⟩ := hSame
  rw [← hLine, setting, nameValue, w'.trim_cString_line hDigits hSome, w'.fields_text hDigits,
    Option.bind_some, keyNamed_name]
  cases readNumber digits <;> rfl

end Written

/-- A line that asks is written so. -/
theorem written_of_asked {line : List Char} {key : TuningKey} {v : UInt32}
    (h : asked line = some (key, v)) : ∃ (w : Written) (digits : List Char),
      line = w.line key digits ∧ Digits digits ∧ decimal digits ≤ uint32Max ∧
        v = UInt32.ofNat (decimal digits) ∧ trim line = w.text key digits ∧
        textStart line = w.lead.length := by
  obtain ⟨name, value, hText, hName, hKey, hDigits, hLe, hv⟩ := asked_iff.mp h
  obtain ⟨tails, note, hLine, hBare, hTails, hNote⟩ := line_split line
  obtain ⟨gap, noteN, hNameLine, hBareN, hGap, hNoteN⟩ := line_split name
  obtain ⟨tailsV, noteV, hValueLine, hBareV, hTailsV, hNoteV⟩ := line_split value
  have hNameOf := keyNamed_eq hKey
  rw [hText] at hBare
  -- the text has no comment in it, and begins and ends with what is not stripped
  have hNoNote : ∀ {l : List Char}, l.takeWhile (· ≠ '#') = [] → '#' ∉ l → l = [] := by
    intro l hLed hNone
    rcases l with - | ⟨c, l⟩
    · rfl
    · rw [List.takeWhile_cons_of_pos] at hLed
      · cases hLed
      · exact decide_eq_true fun hc => hNone (by simp [hc])
  have hNoteN' : noteN = [] := hNoNote hNoteN fun hMem => hBare.note (by
    rw [hNameLine]; simp [hMem])
  have hNoteV' : noteV = [] := hNoNote hNoteV fun hMem => hBare.note (by
    rw [hValueLine]; simp [hMem])
  have hLeadN : name.takeWhile isBlank = [] := by
    cases hLead : name.takeWhile isBlank with
    | nil => rfl
    | cons c rest =>
      have hBlank : isBlank c = true := List.mem_takeWhile_imp (by rw [hLead]; simp)
      rw [hBare.front c (by rw [hNameLine, hLead]; rfl)] at hBlank
      cases hBlank
  have hTailsV' : tailsV = [] := by
    rcases List.eq_nil_or_concat tailsV with hNil | ⟨front, last, hConcat⟩
    · exact hNil
    · have hTail : isTail last = true := hTailsV last (by simp [hConcat])
      rw [hBare.behind last (by
        rw [hValueLine, hNoteV', hConcat]
        simp [List.getLast?_append, List.getLast?_cons])] at hTail
      cases hTail
  rw [hLeadN, hNoteN', hNameOf, List.nil_append, List.append_nil] at hNameLine
  rw [hNoteV', hTailsV', List.append_nil, List.append_nil] at hValueLine
  let w : Written :=
    { lead := line.takeWhile isBlank, gap := gap, blanks := value.takeWhile isBlank,
      tails := tails, note := note, lead_blank := fun c hc => List.mem_takeWhile_imp hc,
      gap_tail := hGap, blanks_blank := fun c hc => List.mem_takeWhile_imp hc,
      tails_tail := hTails, note_led := hNote }
  have hWritten : trim line = w.text key (trim value) := by
    rw [hText, Written.text]
    conv_lhs => rw [hNameLine, hValueLine]
    rw [List.append_assoc]
  refine ⟨w, trim value, ?_, hDigits, hLe, hv, hWritten, rfl⟩
  rw [Written.line, ← hWritten]
  exact hLine

-- ---------------------------------------------------------------------------
-- What the loop makes of a stretch
-- ---------------------------------------------------------------------------

theorem mem_takeWhile_whole {p : Char → Bool} {l front : List Char} {c : Char}
    (hFront : front <+: l) (h : c ∈ front.takeWhile p) : c ∈ l.takeWhile p := by
  obtain ⟨rest, rfl⟩ := hFront
  rw [List.takeWhile_append]
  split
  · exact List.mem_append_left _ ((List.takeWhile_prefix _).subset h)
  · exact h

/-- Where no `=` stands before the comment there is no setting. -/
theorem setting_of_not_mem {text : List Char} (h : '=' ∉ text.takeWhile (· ≠ '#')) :
    setting text = none := by
  have hNone : '=' ∉ trim (cString text) := by
    intro hMem
    have hBefore : '=' ∈ (cString text).takeWhile (· ≠ '#') :=
      (List.dropWhile_suffix _).subset ((List.rdropWhile_prefix _ _).subset hMem)
    exact h (mem_takeWhile_whole (List.takeWhile_prefix _) hBefore)
  rw [setting, nameValue, fields, if_neg hNone]
  rfl

/-- What comes before a text's first `=`. -/
theorem before_equals {a b c d : List Char} (h : a ++ '=' :: b = c ++ '=' :: d) (ha : '=' ∉ a)
    (hc : '=' ∉ c) : a = c := by
  have hBefore : ∀ {l rest : List Char}, '=' ∉ l → (l ++ '=' :: rest).takeWhile (· ≠ '=') = l := by
    intro l rest hl
    rw [List.takeWhile_append_of_pos, List.takeWhile_cons_of_neg (by simp), List.append_nil]
    exact fun e he => decide_eq_true fun hEq => hl (hEq ▸ he)
  rw [← @hBefore a b ha, h, hBefore hc]

/-- A name cut off in front is not the name. -/
theorem setting_of_cut_name {key : TuningKey} {gap : List Char} {d : Nat}
    (hGap : ∀ c ∈ gap, isTail c = true) (hd : 0 < d) (rest : List Char) (n : Nat) (v : UInt32) :
    setting (((key.name.toList ++ gap).drop d ++ '=' :: rest).take n) ≠ some (key, v) := by
  intro hSet
  obtain ⟨_, _, _, hFields, hKey, -, -⟩ := nameValue_iff.mp hSet
  obtain ⟨name, value, hText, hName, rfl, -⟩ := fields_iff.mp hFields
  have hIs := keyNamed_eq hKey
  obtain ⟨tails, note, hString, -, -, -⟩ :=
    line_split (cString (((key.name.toList ++ gap).drop d ++ '=' :: rest).take n))
  obtain ⟨more, hMore⟩ : cString (((key.name.toList ++ gap).drop d ++ '=' :: rest).take n) <+:
      (key.name.toList ++ gap).drop d ++ '=' :: rest :=
    (List.takeWhile_prefix _).trans (List.take_prefix _ _)
  rw [hString, hText] at hMore
  generalize hLead : (cString (((key.name.toList ++ gap).drop d ++ '=' :: rest).take n)).takeWhile
    isBlank = lead at hMore
  have hBlank : ∀ c ∈ lead, isBlank c = true := by
    subst hLead
    exact fun c hc => List.mem_takeWhile_imp hc
  -- what was read before the `=` is the rest of the name, and what is behind it
  have hBefore : lead ++ name = (key.name.toList ++ gap).drop d := by
    refine @before_equals _ (value ++ (tails ++ note) ++ more) _ rest (by simpa using hMore) ?_
      fun hMem => equals_not_mem_name key hGap (List.mem_of_mem_drop hMem)
    intro hMem
    rcases List.mem_append.mp hMem with hLead | hMem
    · exact equals_not_mem_tails (fun c hc => isTail_of_isBlank (hBlank c hc)) hLead
    · exact hName hMem
  rw [List.drop_append] at hBefore
  cases hRest : key.name.toList.drop d with
  | nil =>
    rw [hRest, List.nil_append] at hBefore
    have hTails : ∀ c ∈ name, isTail c = true := fun c hc =>
      hGap c (List.mem_of_mem_drop (hBefore ▸ List.mem_append_right lead hc))
    have hNothing : trim name = [] := by
      simpa using @trim_of_bare [] [] name [] ⟨by simp, by simp, by simp⟩ (by simp) hTails rfl
    exact name_ne_nil key (hIs.symm.trans hNothing)
  | cons c others =>
    have hShort : d < key.name.toList.length := by
      by_contra hLong
      rw [List.drop_of_length_le (Nat.not_lt.mp hLong)] at hRest
      cases hRest
    have hPlain : ∀ e ∈ key.name.toList.drop d, Plain e := fun e he =>
      plain_name key e (List.mem_of_mem_drop he)
    have hNoLead : lead = [] := by
      cases lead with
      | nil => rfl
      | cons e lead =>
        rw [hRest, List.cons_append, List.cons_append, List.cons.injEq] at hBefore
        have hTail := isTail_of_isBlank (hBlank e (by simp))
        rw [hBefore.1, (hPlain c (by simp [hRest])).1] at hTail
        cases hTail
    rw [hNoLead, List.nil_append, Nat.sub_eq_zero_of_le (Nat.le_of_lt hShort),
      List.drop_zero] at hBefore
    have hTrim : trim name = key.name.toList.drop d := by
      rw [hBefore]
      simpa using @trim_of_bare [] _ gap [] (bare_of_plain hPlain) (by simp) hGap rfl
    have hLength := congrArg List.length (hIs.symm.trans hTrim)
    rw [List.length_drop] at hLength
    omega

namespace Written

variable (w : Written) {key : TuningKey} {digits : List Char} {i : Nat}

/-- Where the digits begin. -/
def digitsStart (key : TuningKey) : Nat :=
  w.lead.length + key.name.toList.length + w.gap.length + 1 + w.blanks.length

theorem length_text (key : TuningKey) (digits : List Char) :
    w.lead.length + (w.text key digits).length = w.digitsStart key + digits.length := by
  simp only [text, digitsStart, List.length_append, List.length_cons]
  omega

/-- A stretch that begins before the text. -/
theorem stretch_before (hBefore : 159 * i ≤ w.lead.length) :
    stretch 159 (w.line key digits) i = (w.lead.drop (159 * i)).take 159 ++
      (w.text key digits ++ (w.tails ++ w.note)).take (159 * (i + 1) - w.lead.length) := by
  rw [stretch, line, List.drop_append_of_le_length hBefore, List.take_append, List.length_drop]
  congr 2
  omega

/-- One that holds the text to its end makes what the line gives. -/
theorem setting_whole (hDigits : ∀ c ∈ digits, c.isDigit = true)
    (hBefore : 159 * i ≤ w.lead.length)
    (hHeld : w.digitsStart key + digits.length ≤ 159 * (i + 1)) :
    setting (stretch 159 (w.line key digits) i) =
      (readNumber digits).map fun n => (key, UInt32.ofNat n) := by
  have hLength := w.length_text key digits
  let room := 159 * (i + 1) - w.lead.length - (w.text key digits).length
  let held : Written := { w with
    lead := (w.lead.drop (159 * i)).take 159
    tails := w.tails.take room
    note := w.note.take (room - w.tails.length)
    lead_blank := fun c hc => w.lead_blank c (List.mem_of_mem_drop (List.mem_of_mem_take hc))
    tails_tail := fun c hc => w.tails_tail c (List.mem_of_mem_take hc)
    note_led := takeWhile_front_nil (List.take_prefix _ _) w.note_led }
  have hStretch : stretch 159 (w.line key digits) i = held.line key digits := by
    have hText : (w.text key digits).take (159 * (i + 1) - w.lead.length) = w.text key digits :=
      List.take_of_length_le (by omega)
    rw [w.stretch_before hBefore, List.take_append, hText, List.take_append]
    rfl
  rw [hStretch, held.setting_line hDigits]

/-- One that does not makes what the digits it holds come to. -/
theorem setting_cut (hDigits : ∀ c ∈ digits, c.isDigit = true)
    (hBefore : 159 * i ≤ w.lead.length)
    (hCut : 159 * (i + 1) < w.digitsStart key + digits.length) :
    setting (stretch 159 (w.line key digits) i) =
      (readNumber (digits.take (159 * (i + 1) - w.digitsStart key))).map
        fun n => (key, UInt32.ofNat n) := by
  have hLength := w.length_text key digits
  have hText : (w.text key digits ++ (w.tails ++ w.note)).take (159 * (i + 1) - w.lead.length) =
      (w.text key digits).take (159 * (i + 1) - w.lead.length) :=
    List.take_append_of_le_length (by omega)
  have hLead : ∀ c ∈ (w.lead.drop (159 * i)).take 159, isBlank c = true := fun c hc =>
    w.lead_blank c (List.mem_of_mem_drop (List.mem_of_mem_take hc))
  rw [w.stretch_before hBefore, hText]
  by_cases hName : 159 * (i + 1) - w.lead.length ≤ (key.name.toList ++ w.gap).length
  · -- the name is all there is of it
    rw [text, ← List.append_assoc, List.take_append_of_le_length hName]
    have hNone : 159 * (i + 1) - w.digitsStart key = 0 := by
      rw [List.length_append] at hName
      unfold digitsStart
      omega
    rw [hNone, List.take_zero]
    have hQuiet : '=' ∉ (w.lead.drop (159 * i)).take 159 ++
        (key.name.toList ++ w.gap).take (159 * (i + 1) - w.lead.length) := by
      intro hMem
      rcases List.mem_append.mp hMem with hMem | hMem
      · exact equals_not_mem_tails (fun c hc => isTail_of_isBlank (hLead c hc)) hMem
      · exact equals_not_mem_name key w.gap_tail (List.mem_of_mem_take hMem)
    rw [setting_of_not_mem fun hMem => hQuiet ((List.takeWhile_prefix _).subset hMem)]
    rfl
  · rw [List.length_append] at hName
    let room := 159 * (i + 1) - w.lead.length - (key.name.toList.length + w.gap.length) - 1
    let held : Written := { w with
      lead := (w.lead.drop (159 * i)).take 159
      blanks := w.blanks.take room
      tails := []
      note := []
      lead_blank := hLead
      blanks_blank := fun c hc => w.blanks_blank c (List.mem_of_mem_take hc)
      tails_tail := by simp
      note_led := rfl }
    have hDigitsHeld : room - w.blanks.length = 159 * (i + 1) - w.digitsStart key := by
      simp only [room, digitsStart]
      omega
    have hStretch : (w.lead.drop (159 * i)).take 159 ++
        (w.text key digits).take (159 * (i + 1) - w.lead.length) =
        held.line key (digits.take (159 * (i + 1) - w.digitsStart key)) := by
      have hFull : (key.name.toList ++ w.gap).take (159 * (i + 1) - w.lead.length) =
          key.name.toList ++ w.gap :=
        List.take_of_length_le (by rw [List.length_append]; omega)
      rw [text, ← List.append_assoc, List.take_append, hFull, List.length_append,
        List.take_cons (by omega), List.take_append, hDigitsHeld]
      simp [line, text, held, room]
    rw [hStretch, held.setting_line fun c hc => hDigits c (List.mem_of_mem_take hc)]

/-- One that begins inside the text does not make what the line gives. -/
theorem setting_inside (hDigits : ∀ c ∈ digits, c.isDigit = true)
    (hInside : w.lead.length < 159 * i) (hBefore : 159 * i < w.digitsStart key + digits.length)
    (v : UInt32) : setting (stretch 159 (w.line key digits) i) ≠ some (key, v) := by
  have hDrop : (w.line key digits).drop (159 * i) =
      (w.text key digits ++ (w.tails ++ w.note)).drop (159 * i - w.lead.length) := by
    rw [line, List.drop_append, List.drop_of_length_le (Nat.le_of_lt hInside), List.nil_append]
  have hText : w.text key digits ++ (w.tails ++ w.note) =
      key.name.toList ++ w.gap ++ '=' :: (w.blanks ++ digits ++ w.tails ++ w.note) := by
    simp [text]
  rw [stretch, hDrop, hText]
  by_cases hName : 159 * i - w.lead.length ≤ (key.name.toList ++ w.gap).length
  · rw [List.drop_append_of_le_length hName]
    exact setting_of_cut_name w.gap_tail (by omega) _ _ v
  · -- past the `=` there are only blanks, digits and the comment
    have hLength : 159 * i - w.lead.length - (key.name.toList ++ w.gap).length - 1 ≤
        (w.blanks ++ digits ++ w.tails).length := by
      simp only [digitsStart, List.length_append] at hBefore ⊢
      omega
    rw [List.drop_append, List.drop_of_length_le (by omega), List.nil_append,
      List.drop_cons (by omega), List.drop_append_of_le_length hLength, setting_of_not_mem]
    · exact (Option.some_ne_none _).symm
    intro hMem
    have hLine := mem_takeWhile_whole (List.take_prefix _ _) hMem
    rw [List.takeWhile_append, w.note_led, List.append_nil] at hLine
    have hFront : '=' ∈ w.blanks ++ digits ++ w.tails := by
      split at hLine
      · exact List.mem_of_mem_drop hLine
      · exact List.mem_of_mem_drop ((List.takeWhile_prefix _).subset hLine)
    simp only [List.mem_append] at hFront
    obtain (hBlank | hDigit) | hTail := hFront
    · exact equals_not_mem_tails (fun c hc => isTail_of_isBlank (w.blanks_blank c hc)) hBlank
    · exact equals_not_mem_plain (fun c hc => plain_of_isDigit (hDigits c hc)) hDigit
    · exact equals_not_mem_tails w.tails_tail hTail

end Written

/-- The first of some digits make what all of them do where there is one and all
are noughts. -/
theorem readNumber_take_iff {key : TuningKey} {digits : List Char} {n : Nat}
    (hDigits : Digits digits) (hLe : decimal digits ≤ uint32Max) (hn : n < digits.length) :
    ((readNumber (digits.take n)).map fun n => (key, UInt32.ofNat n)) =
        some (key, UInt32.ofNat (decimal digits)) ↔
      (∀ c ∈ digits, c = '0') ∧ 0 < n := by
  rcases Nat.eq_zero_or_pos n with rfl | hSome
  · have hNone : readNumber [] = none := rfl
    rw [List.take_zero, hNone]
    simp
  have hTaken : Digits (digits.take n) := by
    refine ⟨fun hNil => ?_, fun c hc => hDigits.2 c (List.mem_of_mem_take hc)⟩
    have hLength := congrArg List.length hNil
    rw [List.length_take, List.length_nil] at hLength
    omega
  have hLess : decimal (digits.take n) ≤ decimal digits := by
    conv_rhs => rw [← List.take_append_drop n digits, decimal_append]
    exact Nat.le_add_right_of_le (Nat.le_mul_of_pos_left _ (Nat.pow_pos (by omega)))
  have hIn : decimal (digits.take n) ≤ ulongMax := hLess.trans hLe
  rw [readNumber_digits hTaken, Nat.min_eq_left hIn, Option.map_some, Option.some.injEq,
    Prod.mk.injEq, ← decimal_take_iff hDigits.2 hn, and_iff_left hSome]
  constructor
  · rintro ⟨-, hSame⟩
    have hNat := congrArg UInt32.toNat hSame
    unfold ulongMax at hIn
    unfold uint32Max at hLe
    rwa [UInt32.toNat_ofNat_of_lt' (by unfold UInt32.size; omega),
      UInt32.toNat_ofNat_of_lt' (by unfold UInt32.size; omega)] at hNat
  · intro hSame
    rw [hSame]
    exact ⟨rfl, rfl⟩

/-- **The stretches that make the setting a line asks.** -/
theorem setting_stretch_iff {line : List Char} {key : TuningKey} {v : UInt32}
    (h : asked line = some (key, v)) (i : Nat) :
    setting (stretch 159 line i) = some (key, v) ↔ Keeps line key v i := by
  obtain ⟨w, digits, hLine, hDigits, hLe, rfl, hTrim, hStart⟩ := written_of_asked h
  have hStop : textStop line = w.digitsStart key + digits.length := by
    rw [textStop, hStart, hTrim, w.length_text]
  have hNoughts : ∀ place, NoughtsBefore line place ↔
      (∀ c ∈ digits, c = '0') ∧ w.digitsStart key < place := by
    intro place
    unfold NoughtsBefore
    rw [hTrim, w.fields_text hDigits.2, hStop]
    simp
  have hLength := List.length_pos_of_ne_nil hDigits.1
  unfold Keeps
  rw [hNoughts, hStart, hStop]
  by_cases hBefore : 159 * i ≤ w.lead.length
  · have hPast : ¬ w.digitsStart key + digits.length ≤ 159 * i := by
      unfold Written.digitsStart
      omega
    rw [hLine]
    simp only [hBefore, hPast, true_and, false_and, or_false]
    by_cases hHeld : w.digitsStart key + digits.length ≤ 159 * (i + 1)
    · have hIn : min (decimal digits) ulongMax = decimal digits := Nat.min_eq_left hLe
      rw [w.setting_whole hDigits.2 hBefore hHeld, readNumber_digits hDigits, hIn]
      exact iff_of_true rfl (.inl hHeld)
    · rw [w.setting_cut hDigits.2 hBefore (Nat.not_le.mp hHeld),
        readNumber_take_iff hDigits hLe (by omega), Nat.sub_pos_iff_lt]
      simp only [hHeld, false_or]
  · simp only [hBefore, false_and, false_or]
    by_cases hInside : 159 * i < w.digitsStart key + digits.length
    · rw [hLine]
      exact iff_of_false (w.setting_inside hDigits.2 (Nat.not_le.mp hBefore) hInside _)
        fun hPast => absurd hPast.1 (Nat.not_le.mpr hInside)
    · rw [setting, nameValue_iff]
      simp only [Nat.not_lt.mp hInside, true_and]
      rfl

-- ---------------------------------------------------------------------------
-- Line by line
-- ---------------------------------------------------------------------------

/-- A line the buffer holds is one read. -/
theorem settings_of_fits {file line : List Char} (hline : line ∈ lines file) (h : Fits line) :
    settings line = (nameValue readNumber line).toList := by
  rw [settings, reads_of_short hline h.1]
  have hs : setting line = nameValue readNumber line := by
    rw [setting, cString_eq_self fun c hc hNul => h.2 (hNul ▸ hc)]
  cases hv : nameValue readNumber line with
  | none => rw [List.filterMap_cons_none (hs.trans hv)]; rfl
  | some s => rw [List.filterMap_cons_some (hs.trans hv)]; rfl

/-- Two readings of numbers make the same of a text exactly when they agree on
the value of a setting there is. A number is at most `UINT32_MAX` either way. -/
theorem nameValue_unlike_iff {line : List Char} :
    nameValue readNumber line ≠ nameValue plainNumber line ↔ Misread line := by
  constructor
  · intro h
    cases hfields : fields (trim line) with
    | none => exact absurd (by simp [nameValue, hfields]) h
    | some nv =>
      obtain ⟨name, value⟩ := nv
      cases hkey : keyNamed name with
      | none =>
        refine absurd ?_ h
        cases hr : readNumber value <;> cases hp : plainNumber value <;>
          simp [nameValue, hfields, hkey, hr, hp]
      | some key =>
        refine ⟨name, value, hfields, by rw [hkey]; rfl, number_unlike_iff.mp fun hsame => h ?_⟩
        simp [nameValue, hfields, hsame]
  · rintro ⟨name, value, hfields, hkey, hvalue⟩
    obtain ⟨key, hkey⟩ := Option.isSome_iff_exists.mp hkey
    obtain ⟨n, hn⟩ : ∃ n, readNumber value = some n := by
      rw [← Option.isSome_iff_exists, readNumber_isSome_iff]
      exact hvalue.imp_left And.left
    have hplain : plainNumber value = none := by
      unfold plainNumber
      rw [if_neg]
      rintro ⟨hdigits, hle⟩
      rcases hvalue with ⟨-, hout⟩ | hled
      · exact absurd hle (Nat.not_le.mpr hout)
      · exact led_not_digits hled hdigits
    simp [nameValue, hfields, hkey, hn, hplain]

theorem isSetting_iff {line : List Char} {i : Nat} :
    IsSetting (cString (stretch 159 line i)) ↔ setting (stretch 159 line i) ≠ none := by
  rw [Option.ne_none_iff_exists']
  constructor
  · rintro ⟨name, value, hFields, hKey, hValue⟩
    obtain ⟨key, hKey⟩ := Option.isSome_iff_exists.mp hKey
    obtain ⟨n, hn⟩ := Option.isSome_iff_exists.mp (readNumber_isSome_iff.mpr hValue)
    exact ⟨_, nameValue_iff.mpr ⟨name, value, n, hFields, hKey, hn, rfl⟩⟩
  · rintro ⟨⟨key, v⟩, hSet⟩
    obtain ⟨name, value, n, hFields, hKey, hn, -⟩ := nameValue_iff.mp hSet
    exact ⟨name, value, hFields, by rw [hKey]; rfl, readNumber_isSome_iff.mp (by rw [hn]; rfl)⟩

/-- What the loop sets on its way through a line is what the line asks exactly
when the line is read right. -/
theorem settings_iff {file line : List Char} (hline : line ∈ lines file) :
    settings line = (asked line).toList ↔ ReadsRight line := by
  have hEnd := dropLast_of_mem_lines hline
  by_cases hfits : Fits line
  · rw [settings_of_fits hline hfits, asked]
    constructor
    · intro h
      have hsame : nameValue readNumber line = nameValue plainNumber line := by
        simpa only [Option.head?_toList] using congrArg List.head? h
      exact ⟨fun _ hmis => nameValue_unlike_iff.mpr hmis hsame, fun hn => absurd hfits hn,
        fun hn => absurd hfits hn⟩
    · intro h
      rw [not_ne_iff.mp (mt nameValue_unlike_iff.mp (h.held hfits))]
  unfold settings
  cases hAsked : asked line with
  | none =>
    rw [Option.toList_none, filterMap_reads_nil_iff (by omega) rfl hEnd]
    constructor
    · intro h
      exact ⟨fun hf => absurd hf hfits, fun _ _ i hSet => isSetting_iff.mp hSet (h i),
        fun _ key v hSome => by rw [hAsked] at hSome; cases hSome⟩
    · intro h i
      exact not_ne_iff.mp (mt isSetting_iff.mpr (h.unasked hfits hAsked i))
  | some made =>
    obtain ⟨key, v⟩ := made
    rw [Option.toList_some, filterMap_reads_one_iff (by omega) rfl hEnd]
    constructor
    · rintro ⟨i, hMade, hOthers⟩
      refine ⟨fun hf => absurd hf hfits, fun _ hNone => ?_, fun _ key' v' hSome => ?_⟩
      · rw [hAsked] at hNone
        cases hNone
      · rw [hAsked, Option.some.injEq, Prod.mk.injEq] at hSome
        obtain ⟨rfl, rfl⟩ := hSome
        exact ⟨i, (setting_stretch_iff hAsked i).mp hMade,
          fun j hj hSet => isSetting_iff.mp hSet (hOthers j hj)⟩
    · intro h
      obtain ⟨i, hKeeps, hOthers⟩ := h.kept hfits key v hAsked
      exact ⟨i, (setting_stretch_iff hAsked i).mpr hKeeps,
        fun j hj => not_ne_iff.mp (mt isSetting_iff.mpr (hOthers j hj))⟩

/-- Lines that are each set as they ask make, one after the other, what they
ask. -/
theorem flatMap_settings {ls : List (List Char)}
    (h : ∀ line ∈ ls, settings line = (asked line).toList) :
    ls.flatMap settings = ls.filterMap asked := by
  induction ls with
  | nil => rfl
  | cons line rest ih =>
    rw [List.flatMap_cons, ih fun l hl => h l (List.mem_cons_of_mem _ hl), h line (by simp)]
    cases ha : asked line with
    | none => rw [List.filterMap_cons_none ha]; rfl
    | some s => rw [List.filterMap_cons_some ha]; rfl

/-- A tuning file is read by its lines, the last line to ask for a setting
having it, exactly when each of its lines is read right: one the buffer holds
gives no setting a number out of range or one after odd blanks; of another one
stretch holds the text of the setting it asks, and no other is a setting. -/
theorem readTuningFile_lines_iff (file : List Char) :
    ReadByLines file ↔ ∀ line ∈ lines file, ReadsRight line := by
  constructor
  · exact fun h line hline => (settings_iff hline).mp (h.sets line hline)
  · intro h
    have hsets : ∀ line ∈ lines file, settings line = (asked line).toList :=
      fun line hline => (settings_iff hline).mpr (h line hline)
    refine ⟨hsets, fun t key => ?_⟩
    rw [readTuningFile_tuning, flatMap_settings hsets]

/-- A number one above the largest is stored as the largest. -/
theorem readTuningFile_not_lines : ¬ ReadByLines "hold_ms=4294967296\n".toList := by
  intro h
  have hmem : "hold_ms=4294967296\n".toList ∈ lines "hold_ms=4294967296\n".toList := by decide
  have hright := (settings_iff hmem).mp (h.sets _ hmem)
  have hfields : fields (trim "hold_ms=4294967296\n".toList) =
      some ("hold_ms".toList, "4294967296".toList) := by decide
  have hdecimal : decimal "4294967296".toList = 4294967296 := rfl
  have hout : OutOfRange "4294967296".toList := by
    refine ⟨by decide, ?_⟩
    unfold uint32Max
    omega
  refine hright.held ?_ ⟨_, _, hfields, by decide, .inl hout⟩
  unfold Fits
  decide

end TegraHwc.TuningFile
