import Mathlib.Data.List.DropRight
import Mathlib.Data.List.Infix
import Mathlib.Tactic.Common
import Mathlib.Tactic.Ring

/-!
# TegraHwc — text as the C library reads it

A file is a list of bytes, each written as the character of its code. `fgets`
reads a stretch of a file into a buffer, up to a newline; `strtoul` reads a
number off the front of a string. A line is whatever ends at a newline or with
the file, however long it is.

## Results

* `reads_eq_lines`  — a file read stretch by stretch is its lines read so, one
  after the other.
* `reads_of_short`  — a line the buffer holds is read whole.
* `filterMap_reads_one_iff` — one thing is made of a line where it is made of one
  of the stretches it is read in.
* `strtoul_digits`  — what is made of digits alone.
* `strtoul_takes`   — what is taken to its last byte: blanks, a sign, digits.
-/

namespace TegraHwc.CText

-- ---------------------------------------------------------------------------
-- Reading by stretches
-- ---------------------------------------------------------------------------

/-- The byte a C string ends at. -/
def nul : Char := Char.ofNat 0

/-- The string a buffer holds: the bytes before the first NUL. -/
def cString (buffer : List Char) : List Char := buffer.takeWhile (· ≠ nul)

/-- `fgets` with room for so many bytes: what is read, and the file from there
on. -/
def fgets : Nat → List Char → List Char × List Char
  | 0, file => ([], file)
  | _ + 1, [] => ([], [])
  | room + 1, c :: file =>
    if c = '\n' then ([c], file) else (c :: (fgets room file).1, (fgets room file).2)

/-- The stretches `fgets` reads until it answers null, at most `fuel` of them. -/
def readsFrom (room : Nat) : Nat → List Char → List (List Char)
  | 0, _ => []
  | fuel + 1, file =>
    if file = [] then []
    else (fgets room file).1 :: readsFrom room fuel (fgets room file).2

/-- The stretches a file is read in, to its end: no read of a byte at least can
be made more often than there are bytes. -/
def reads (room : Nat) (file : List Char) : List (List Char) :=
  readsFrom room file.length file

/-- The lines of a text, each with the newline it ends at. -/
def lines : List Char → List (List Char)
  | [] => []
  | c :: text =>
    if c = '\n' then [c] :: lines text
    else match lines text with
      | [] => [[c]]
      | line :: rest => (c :: line) :: rest

section Reads

variable {room : Nat} {a b file : List Char}

theorem fgets_append :
    ∀ {a : List Char} (room : Nat) (b : List Char), '\n' ∉ a → fgets room (a ++ b) =
      if room ≤ a.length then (a.take room, a.drop room ++ b)
      else (a ++ (fgets (room - a.length) b).1, (fgets (room - a.length) b).2)
  | [], room, b, _ => by
    cases room with
    | zero => simp [fgets]
    | succ room => simp
  | c :: a, 0, b, _ => by simp [fgets]
  | c :: a, room + 1, b, h => by
    obtain ⟨hc, ha⟩ := not_or.mp (mt List.mem_cons.mpr h)
    have ih := fgets_append room b ha
    rw [List.cons_append, fgets, if_neg (Ne.symm hc), ih]
    by_cases hroom : room ≤ a.length
    · simp [hroom]
    · simp [hroom]

/-- A line that ends within the room is read whole, newline and all. -/
theorem fgets_line (h : '\n' ∉ a) (hroom : a.length < room) (b : List Char) :
    fgets room (a ++ '\n' :: b) = (a ++ ['\n'], b) := by
  obtain ⟨n, hn⟩ : ∃ n, room - a.length = n + 1 := ⟨room - a.length - 1, by omega⟩
  rw [fgets_append room _ h, if_neg (by omega), hn]
  simp [fgets]

/-- Of one that does not, as much is read as there is room for. -/
theorem fgets_long (h : '\n' ∉ a) (hroom : room ≤ a.length) (b : List Char) :
    fgets room (a ++ b) = (a.take room, a.drop room ++ b) := by
  rw [fgets_append room _ h, if_pos hroom]

theorem fgets_length (file : List Char) :
    (fgets room file).1.length + (fgets room file).2.length = file.length := by
  fun_induction fgets room file with
  | case1 => simp
  | case2 => simp
  | case3 => simp [Nat.add_comm]
  | case4 room c file hc ih => simp only [List.length_cons]; omega

theorem fgets_takes (hroom : 0 < room) (hfile : file ≠ []) :
    (fgets room file).2.length < file.length := by
  obtain ⟨c, rest, rfl⟩ := List.exists_cons_of_ne_nil hfile
  obtain ⟨n, rfl⟩ := Nat.exists_eq_add_of_lt hroom
  have := @fgets_length (0 + n + 1) (c :: rest)
  have : 0 < (fgets (0 + n + 1) (c :: rest)).1.length := by
    rw [fgets]
    split <;> simp
  omega

/-- Fuel over the file's length is fuel enough. -/
theorem readsFrom_enough (hroom : 0 < room) :
    ∀ {fuel : Nat} {file : List Char}, file.length ≤ fuel →
      readsFrom room fuel file = reads room file := by
  intro fuel
  induction fuel using Nat.strong_induction_on with
  | _ fuel ih =>
    intro file hfuel
    by_cases hfile : file = []
    · subst hfile
      cases fuel <;> simp [reads, readsFrom]
    · have htakes := fgets_takes hroom hfile
      obtain ⟨n, hn⟩ : ∃ n, file.length = n + 1 := ⟨file.length - 1, by omega⟩
      obtain ⟨m, rfl⟩ : ∃ m, fuel = m + 1 := ⟨fuel - 1, by omega⟩
      have hrest := @ih m (by omega) (fgets room file).2 (by omega)
      have hrest' : readsFrom room n (fgets room file).2 = reads room (fgets room file).2 := by
        rcases Nat.lt_or_ge n (m + 1) with hlt | hge
        · exact ih n hlt (by omega)
        · omega
      rw [reads, hn, readsFrom, readsFrom, if_neg hfile, if_neg hfile, hrest, hrest']

@[simp] theorem reads_nil : reads room [] = [] := rfl

/-- One read, and the reads of what it leaves. -/
theorem reads_cons (hroom : 0 < room) (hfile : file ≠ []) :
    reads room file = (fgets room file).1 :: reads room (fgets room file).2 := by
  have htakes := fgets_takes hroom hfile
  obtain ⟨n, hn⟩ : ∃ n, file.length = n + 1 := ⟨file.length - 1, by omega⟩
  rw [reads, hn, readsFrom, if_neg hfile, readsFrom_enough hroom (by omega)]

/-- Reading starts afresh after a newline. -/
theorem reads_line (hroom : 0 < room) (b : List Char) (h : '\n' ∉ a) :
    reads room (a ++ '\n' :: b) = reads room (a ++ ['\n']) ++ reads room b := by
  induction hn : a.length using Nat.strong_induction_on generalizing a with
  | _ n ih =>
    subst hn
    rw [reads_cons hroom (by simp), @reads_cons room (a ++ ['\n']) hroom (by simp)]
    rcases Nat.lt_or_ge a.length room with hlt | hge
    · rw [fgets_line h hlt, fgets_line h hlt]
      simp
    · rw [fgets_long h hge, fgets_long h hge]
      have hdrop : '\n' ∉ a.drop room := fun hmem => h (List.mem_of_mem_drop hmem)
      have hlen : (a.drop room).length < a.length := by
        rw [List.length_drop]
        omega
      rw [List.cons_append, ih _ hlen hdrop rfl]

theorem lines_line : ∀ {a : List Char} (b : List Char), '\n' ∉ a →
    lines (a ++ '\n' :: b) = (a ++ ['\n']) :: lines b
  | [], b, _ => by simp [lines]
  | c :: a, b, h => by
    obtain ⟨hc, ha⟩ := not_or.mp (mt List.mem_cons.mpr h)
    rw [List.cons_append, lines, if_neg (Ne.symm hc), lines_line b ha]
    rfl

theorem lines_last : ∀ {a : List Char}, '\n' ∉ a → a ≠ [] → lines a = [a]
  | [], _, h => absurd rfl h
  | [c], h, _ => by
    have hc : c ≠ '\n' := fun hc => h (by simp [hc])
    simp [lines, hc]
  | c :: d :: a, h, _ => by
    obtain ⟨hc, ha⟩ := not_or.mp (mt List.mem_cons.mpr h)
    rw [lines, if_neg (Ne.symm hc), lines_last ha (by simp)]

/-- A text has a first line and the rest, or no newline at all. -/
theorem line_cases (file : List Char) :
    '\n' ∉ file ∨ ∃ a b, file = a ++ '\n' :: b ∧ '\n' ∉ a := by
  by_cases h : '\n' ∈ file
  · exact Or.inr (List.eq_append_cons_of_mem h)
  · exact Or.inl h

/-- What is read of a file is what is read of its lines, one after the other. -/
theorem reads_eq_lines (hroom : 0 < room) (file : List Char) :
    reads room file = (lines file).flatMap (reads room) := by
  induction hn : file.length using Nat.strong_induction_on generalizing file with
  | _ n ih =>
    subst hn
    rcases line_cases file with hlast | ⟨a, b, rfl, ha⟩
    · by_cases hfile : file = []
      · simp [hfile, lines]
      · simp [lines_last hlast hfile]
    · rw [reads_line hroom b ha, lines_line b ha, List.flatMap_cons,
        ih b.length (by simp; omega) b rfl]

/-- A line is bytes other than a newline, with one at the end or at the end of
the text. -/
theorem mem_lines {line : List Char} (hline : line ∈ lines file) :
    ∃ a, '\n' ∉ a ∧ (line = a ++ ['\n'] ∨ line = a ∧ a ≠ []) := by
  induction hn : file.length using Nat.strong_induction_on generalizing file with
  | _ n ih =>
    subst hn
    rcases line_cases file with hlast | ⟨a, b, rfl, ha⟩
    · by_cases hfile : file = []
      · simp [hfile, lines] at hline
      · rw [lines_last hlast hfile, List.mem_singleton] at hline
        exact ⟨file, hlast, Or.inr ⟨hline, hfile⟩⟩
    · rw [lines_line b ha, List.mem_cons] at hline
      rcases hline with rfl | hrest
      · exact ⟨a, ha, Or.inl rfl⟩
      · exact ih b.length (by simp; omega) hrest rfl

/-- A line the buffer holds is read whole. -/
theorem reads_of_short {line : List Char} (hline : line ∈ lines file)
    (hroom : line.length ≤ room) : reads room line = [line] := by
  obtain ⟨a, ha, rfl | ⟨rfl, hne⟩⟩ := mem_lines hline
  · rw [List.length_append, List.length_singleton] at hroom
    rw [reads_cons (by omega) (by simp), fgets_line ha (by omega)]
    rfl
  · have hpos : 0 < line.length := List.length_pos_of_ne_nil hne
    have hread : fgets room line = (line, []) := by
      have happ := fgets_append room [] ha
      rw [List.append_nil] at happ
      rw [happ]
      split
      · simp [show room = line.length by omega]
      · obtain ⟨n, hn⟩ : ∃ n, room - line.length = n + 1 := ⟨room - line.length - 1, by omega⟩
        simp [hn, fgets]
    rw [reads_cons (by omega) hne, hread]
    rfl

end Reads

/-- What the so-manieth read of a line puts into the buffer, counted from nought. -/
def stretch (room : Nat) (line : List Char) (i : Nat) : List Char :=
  (line.drop (room * i)).take room

section Stretches

variable {room : Nat} {line : List Char} {β : Type*} {f : List Char → Option β}

@[simp] theorem stretch_zero : stretch room line 0 = line.take room := rfl

theorem stretch_succ (i : Nat) :
    stretch room line (i + 1) = stretch room (line.drop room) i := by
  rw [stretch, stretch, List.drop_drop, Nat.mul_succ, Nat.add_comm room]

theorem stretch_nil (i : Nat) : stretch room [] i = [] := by simp [stretch]

/-- A text with no newline but at its end is read a room at a time. -/
theorem fgets_of_line :
    ∀ {room : Nat} {line : List Char}, '\n' ∉ line.dropLast →
      fgets room line = (line.take room, line.drop room)
  | 0, line, _ => by simp [fgets]
  | room + 1, [], _ => rfl
  | room + 1, [c], _ => by
    rw [fgets]
    split
    · simp
    · cases room <;> simp [fgets]
  | room + 1, c :: d :: line, h => by
    rw [List.dropLast_cons_cons, List.mem_cons, not_or] at h
    rw [fgets, if_neg (Ne.symm h.1), fgets_of_line h.2]
    rfl

theorem dropLast_of_mem_lines {file : List Char} (h : line ∈ lines file) :
    '\n' ∉ line.dropLast := by
  obtain ⟨a, ha, rfl | ⟨rfl, -⟩⟩ := mem_lines h
  · rw [List.dropLast_concat]
    exact ha
  · exact fun hMem => ha (List.dropLast_subset _ hMem)

theorem not_mem_dropLast_drop (n : Nat) (h : '\n' ∉ line.dropLast) :
    '\n' ∉ (line.drop n).dropLast := by
  intro hMem
  rw [List.dropLast_eq_take, List.length_drop, List.take_drop] at hMem
  refine h ?_
  rw [List.dropLast_eq_take]
  have hTaken := List.mem_of_mem_drop hMem
  rcases Nat.lt_or_ge n line.length with hIn | hOut
  · rwa [show n + (line.length - n - 1) = line.length - 1 by omega] at hTaken
  · rw [List.drop_of_length_le (by rw [List.length_take]; omega)] at hMem
    cases hMem

/-- What is made of a line's reads is what is made of its first stretch and of
the reads of the rest. -/
theorem filterMap_reads_cons (hRoom : 0 < room) (hLine : '\n' ∉ line.dropLast)
    (hNil : f [] = none) :
    (reads room line).filterMap f =
      (f (stretch room line 0)).toList ++ (reads room (line.drop room)).filterMap f := by
  by_cases hEmpty : line = []
  · simp [hEmpty, hNil]
  rw [reads_cons hRoom hEmpty, fgets_of_line hLine, stretch_zero]
  cases hFirst : f (line.take room) with
  | none => rw [List.filterMap_cons_none hFirst]; rfl
  | some b => rw [List.filterMap_cons_some hFirst]; rfl

/-- Nothing is made of a line's reads where nothing is made of any stretch. -/
theorem filterMap_reads_nil_iff (hRoom : 0 < room) (hNil : f [] = none)
    (hLine : '\n' ∉ line.dropLast) :
    (reads room line).filterMap f = [] ↔ ∀ i, f (stretch room line i) = none := by
  induction hn : line.length using Nat.strong_induction_on generalizing line with
  | _ n ih =>
    subst hn
    by_cases hEmpty : line = []
    · simp [hEmpty, stretch_nil, hNil]
    have hShort : (line.drop room).length < line.length := by
      have hPos := List.length_pos_of_ne_nil hEmpty
      rw [List.length_drop]
      omega
    rw [filterMap_reads_cons hRoom hLine hNil, List.append_eq_nil_iff, Option.toList_eq_nil_iff,
      ih _ hShort (not_mem_dropLast_drop room hLine) rfl]
    constructor
    · rintro ⟨hFirst, hRest⟩ i
      cases i with
      | zero => exact hFirst
      | succ i => rw [stretch_succ]; exact hRest i
    · exact fun h => ⟨h 0, fun i => by rw [← stretch_succ]; exact h (i + 1)⟩

/-- One thing is made of them where it is made of one stretch and nothing of the
others. -/
theorem filterMap_reads_one_iff (hRoom : 0 < room) (hNil : f [] = none)
    (hLine : '\n' ∉ line.dropLast) {b : β} :
    (reads room line).filterMap f = [b] ↔
      ∃ i, f (stretch room line i) = some b ∧ ∀ j, j ≠ i → f (stretch room line j) = none := by
  induction hn : line.length using Nat.strong_induction_on generalizing line with
  | _ n ih =>
    subst hn
    by_cases hEmpty : line = []
    · simp [hEmpty, stretch_nil, hNil]
    have hShort : (line.drop room).length < line.length := by
      have hPos := List.length_pos_of_ne_nil hEmpty
      rw [List.length_drop]
      omega
    have hRestLine := not_mem_dropLast_drop room hLine
    rw [filterMap_reads_cons hRoom hLine hNil]
    cases hFirst : f (stretch room line 0) with
    | some first =>
      rw [Option.toList_some, List.singleton_append, List.cons.injEq,
        filterMap_reads_nil_iff hRoom hNil hRestLine]
      constructor
      · rintro ⟨rfl, hRest⟩
        refine ⟨0, hFirst, fun j hj => ?_⟩
        obtain ⟨j, rfl⟩ := Nat.exists_eq_succ_of_ne_zero hj
        rw [stretch_succ]
        exact hRest j
      · rintro ⟨i, hMade, hOthers⟩
        -- the first stretch makes something, so it is the one
        have hZero : i = 0 := by
          by_contra hOther
          rw [hOthers 0 (Ne.symm hOther)] at hFirst
          cases hFirst
        subst hZero
        rw [hFirst] at hMade
        refine ⟨Option.some.inj hMade, fun j => ?_⟩
        rw [← stretch_succ]
        exact hOthers (j + 1) (Nat.succ_ne_zero j)
    | none =>
      rw [Option.toList_none, List.nil_append, ih _ hShort hRestLine rfl]
      constructor
      · rintro ⟨i, hMade, hOthers⟩
        refine ⟨i + 1, by rw [stretch_succ]; exact hMade, fun j hj => ?_⟩
        cases j with
        | zero => exact hFirst
        | succ j => rw [stretch_succ]; exact hOthers j (fun h => hj (congrArg (· + 1) h))
      · rintro ⟨i, hMade, hOthers⟩
        cases i with
        | zero => rw [hFirst] at hMade; cases hMade
        | succ i =>
          refine ⟨i, by rw [← stretch_succ]; exact hMade, fun j hj => ?_⟩
          rw [← stretch_succ]
          exact hOthers (j + 1) (fun h => hj (Nat.succ.inj h))

end Stretches

-- ---------------------------------------------------------------------------
-- Numbers
-- ---------------------------------------------------------------------------

/-- `isspace`, in the C locale. -/
def isspace (c : Char) : Bool :=
  c == ' ' || c == '\t' || c == '\n' || c == Char.ofNat 11 || c == Char.ofNat 12 || c == '\r'

/-- The number digits stand for, base ten. -/
def decimal (digits : List Char) : Nat := Nat.ofDigitChars 10 digits 0

/-- The digits `strtoul` finds, blanks and a sign before them passed over, with
whether the sign is a minus; and what is left after them. -/
def scan (s : List Char) : Bool × List Char × List Char :=
  let body := s.dropWhile isspace
  let number := if body.head? = some '-' ∨ body.head? = some '+' then body.tail else body
  (body.head? = some '-', number.takeWhile Char.isDigit, number.dropWhile Char.isDigit)

/-- `strtoul`, base ten, where the largest `unsigned long` is `max`: the number,
and the string from the first byte that is no part of it. With no digit nothing
is taken; a number too large is the largest; a minus counts down from nought. -/
def strtoul (max : Nat) (s : List Char) : Nat × List Char :=
  if (scan s).2.1 = [] then (0, s)
  else
    (if max < decimal (scan s).2.1 then max
      else if (scan s).1 then (max + 1 - decimal (scan s).2.1) % (max + 1)
      else decimal (scan s).2.1, (scan s).2.2)

/-- Digits and nothing else. -/
def Digits (s : List Char) : Prop := s ≠ [] ∧ ∀ c ∈ s, c.isDigit = true

-- digit by digit: with characters of a finite type, all of them could be tried
instance (s : List Char) : Decidable (Digits s) :=
  haveI := List.decidableBAll (fun c : Char => c.isDigit = true) s
  inferInstanceAs (Decidable (_ ∧ _))

/-- Blanks, then perhaps a sign, then digits and nothing else. -/
def Led (s : List Char) : Prop :=
  ∃ blanks sign digits, s = blanks ++ sign ++ digits ∧
    blanks ≠ [] ∧ (∀ c ∈ blanks, isspace c = true) ∧
    (sign = [] ∨ sign = ['-'] ∨ sign = ['+']) ∧ Digits digits

section Numbers

variable {max : Nat} {s : List Char}

theorem isDigit_not_isspace {c : Char} (h : c.isDigit = true) : isspace c = false := by
  have hs : ∀ d : Char, d.isDigit = false → (c == d) = false := by
    intro d hd
    rw [beq_eq_false_iff_ne]
    rintro rfl
    rw [h] at hd
    cases hd
  simp [isspace, hs _ (by decide : Char.isDigit ' ' = false),
    hs _ (by decide : Char.isDigit '\t' = false), hs _ (by decide : Char.isDigit '\n' = false),
    hs _ (by decide : Char.isDigit '\r' = false),
    hs _ (by decide : Char.isDigit (Char.ofNat 11) = false),
    hs _ (by decide : Char.isDigit (Char.ofNat 12) = false)]

/-- Digits alone are all scanned. -/
theorem scan_digits (hs : ∀ c ∈ s, c.isDigit = true) : scan s = (false, s, []) := by
  cases s with
  | nil => rfl
  | cons c rest =>
    have hc := hs c (by simp)
    have hsign : ¬ (c = '-' ∨ c = '+') := by
      rintro (rfl | rfl)
      · revert hc; decide
      · revert hc; decide
    have hspace : (c :: rest).dropWhile isspace = c :: rest := by
      rw [List.dropWhile_cons_of_neg]
      simp [isDigit_not_isspace hc]
    obtain ⟨hminus, hplus⟩ := not_or.mp hsign
    unfold scan
    rw [hspace]
    simp only [List.head?_cons, Option.some.injEq, hminus, hplus, or_self, if_false, decide_false]
    rw [List.takeWhile_eq_self_iff.mpr hs, List.dropWhile_eq_nil_iff.mpr hs]

/-- So are those after blanks and a sign. -/
theorem scan_led {blanks sign digits : List Char} (hblanks : ∀ c ∈ blanks, isspace c = true)
    (hsign : sign = [] ∨ sign = ['-'] ∨ sign = ['+']) (hsome : digits ≠ [])
    (hdigits : ∀ c ∈ digits, c.isDigit = true) :
    (scan (blanks ++ sign ++ digits)).2 = (digits, []) := by
  obtain ⟨d, rest, rfl⟩ := List.exists_cons_of_ne_nil hsome
  have hscan := scan_digits hdigits
  have hskip : ∀ l : List Char, (blanks ++ l).dropWhile isspace = l.dropWhile isspace :=
    fun l => List.dropWhile_append_of_pos hblanks
  have htake : (d :: rest).takeWhile Char.isDigit = d :: rest :=
    List.takeWhile_eq_self_iff.mpr hdigits
  have hdrop : (d :: rest).dropWhile Char.isDigit = [] := List.dropWhile_eq_nil_iff.mpr hdigits
  rcases hsign with rfl | rfl | rfl
  · rw [List.append_nil]
    have hsame : scan (blanks ++ d :: rest) = scan (d :: rest) := by
      unfold scan
      rw [hskip]
    rw [hsame, hscan]
  · unfold scan
    rw [List.append_assoc, hskip]
    simp [isspace, htake, hdrop]
  · unfold scan
    rw [List.append_assoc, hskip]
    simp [isspace, htake, hdrop]

theorem strtoul_digits (h : Digits s) : strtoul max s = (min (decimal s) max, []) := by
  obtain ⟨hne, hs⟩ := h
  unfold strtoul
  rw [scan_digits hs, if_neg hne]
  simp only [Bool.false_eq_true, if_false, Prod.mk.injEq, and_true]
  split <;> omega

theorem decimal_append (a b : List Char) :
    decimal (a ++ b) = 10 ^ b.length * decimal a + decimal b := by
  unfold decimal
  rw [Nat.ofDigitChars_append, Nat.ofDigitChars_eq_ofDigitChars_zero]

/-- Digits stand for nought where they are noughts alone. -/
theorem decimal_eq_zero_iff (hs : ∀ c ∈ s, c.isDigit = true) :
    decimal s = 0 ↔ ∀ c ∈ s, c = '0' := by
  induction s with
  | nil => simp [decimal]
  | cons c rest ih =>
    have hc : 48 ≤ c.toNat := by
      have hDigit := hs c (by simp)
      simp only [Char.isDigit, Bool.and_eq_true, decide_eq_true_eq] at hDigit
      exact hDigit.1
    have hOne : decimal [c] = c.toNat - 48 := by simp [decimal, Nat.ofDigitChars_cons]
    have hZero : decimal [c] = 0 ↔ c = '0' := by
      rw [hOne, ← Char.toNat_inj]
      have hNought : '0'.toNat = 48 := rfl
      omega
    rw [← List.singleton_append, decimal_append, Nat.add_eq_zero_iff, Nat.mul_eq_zero,
      ih fun d hd => hs d (by simp [hd]), hZero]
    simp

/-- The first of some digits stand for what all of them do where all are
noughts. -/
theorem decimal_take_iff {n : Nat} (hs : ∀ c ∈ s, c.isDigit = true) (hn : n < s.length) :
    decimal (s.take n) = decimal s ↔ ∀ c ∈ s, c = '0' := by
  have hAll := decimal_append (s.take n) (s.drop n)
  rw [List.take_append_drop, List.length_drop] at hAll
  obtain ⟨k, hk⟩ : ∃ k, s.length - n = k + 1 := ⟨s.length - n - 1, by omega⟩
  have hTen : 10 ^ (s.length - n) * decimal (s.take n) =
      10 * (10 ^ k * decimal (s.take n)) := by
    rw [hk, Nat.pow_succ]
    ring
  have hMore : decimal (s.take n) ≤ 10 ^ k * decimal (s.take n) :=
    Nat.le_mul_of_pos_left _ (Nat.pow_pos (by omega))
  rw [← decimal_eq_zero_iff hs]
  constructor
  · intro hSame
    omega
  · intro hZero
    omega

theorem strtoul_le : (strtoul max s).1 ≤ max := by
  unfold strtoul
  split
  · exact Nat.zero_le _
  · dsimp only
    split
    · exact le_rfl
    · split
      · exact Nat.le_of_lt_succ (Nat.mod_lt _ (Nat.succ_pos _))
      · omega

/-- What is taken to its last byte, and does not begin with a sign, is digits
alone or has blanks before them. -/
theorem strtoul_takes (hminus : s.head? ≠ some '-') (hplus : s.head? ≠ some '+') :
    ((strtoul max s).2 ≠ s ∧ (strtoul max s).2 = []) ↔
      Digits s ∨ Led s := by
  constructor
  · rintro ⟨hsome, hall⟩
    unfold strtoul at hsome hall
    split at hsome
    · exact absurd rfl hsome
    rename_i hdigits
    rw [if_neg hdigits] at hall
    have hsplit : s.takeWhile isspace ++ s.dropWhile isspace = s := List.takeWhile_append_dropWhile
    unfold scan at hdigits hall
    simp only at hdigits hall
    rw [List.dropWhile_eq_nil_iff] at hall
    by_cases hblanks : s.takeWhile isspace = []
    · rw [hblanks, List.nil_append] at hsplit
      rw [hsplit, if_neg (by simp [hminus, hplus])] at hall
      refine Or.inl ⟨?_, hall⟩
      rintro rfl
      exact hdigits rfl
    · refine Or.inr ?_
      have hspaces : ∀ c ∈ s.takeWhile isspace, isspace c = true :=
        fun c hc => List.mem_takeWhile_imp hc
      have hsome : ∀ {l : List Char}, l.takeWhile Char.isDigit ≠ [] → l ≠ [] := by
        rintro l hl rfl
        exact hl rfl
      split at hall
      · rename_i hsign
        rw [if_pos hsign] at hdigits
        obtain ⟨c, number, hbody⟩ : ∃ c number, s.dropWhile isspace = c :: number := by
          cases hb : s.dropWhile isspace with
          | nil => simp [hb] at hsign
          | cons c number => exact ⟨c, number, rfl⟩
        rw [hbody] at hsign hdigits hall
        refine ⟨s.takeWhile isspace, [c], number, ?_, hblanks, hspaces, ?_, ⟨hsome hdigits, hall⟩⟩
        · rw [List.append_assoc, List.singleton_append, ← hbody, hsplit]
        · simpa using hsign
      · rename_i hsign
        rw [if_neg hsign] at hdigits
        refine ⟨s.takeWhile isspace, [], s.dropWhile isspace, ?_, hblanks, hspaces, Or.inl rfl,
          ⟨hsome hdigits, hall⟩⟩
        rw [List.append_nil, hsplit]
  · rintro (hdigits | ⟨blanks, sign, digits, rfl, hne, hblanks, hsign, hsome, hdigits⟩)
    · rw [strtoul_digits hdigits]
      exact ⟨Ne.symm hdigits.1, rfl⟩
    · have hscan : (scan (blanks ++ sign ++ digits)).2 = (digits, []) :=
        scan_led hblanks hsign hsome hdigits
      unfold strtoul
      rw [hscan, if_neg hsome]
      refine ⟨?_, rfl⟩
      simp [hne]

end Numbers

end TegraHwc.CText
