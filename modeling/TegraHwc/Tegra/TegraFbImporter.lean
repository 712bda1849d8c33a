import TegraHwc.Bufferinfo.BufferInfoNvidia
import TegraHwc.Lib.Runs

/-!
# TegraHwc — the copy of a descriptor that a buffer is shown by

`TegraFbImporter::GetOrCreateFbId` of `tegra/TegraFbImporter.h` duplicates a buffer's
descriptor and shares the copy among all who show the buffer, knowing it again by the
buffer's identity. It holds the copy weakly: whoever shows the buffer owns it, and the
copy is closed when the last of them lets go. What is left of it in the map is cleared
away when the map gets crowded.

Copies are numbered as they are made. An identity is the inode of the buffer's memory,
so a copy of a descriptor of that buffer is open on the memory of that number; none is
made where no descriptor is left.

## Results

* `getOrCreateFbId_cases` — a buffer shown already is answered by the copy it has; any
  other has one made.
* `fbImporter_shares`     — in every run a buffer that is shown has one copy, open on
  its own memory, and the map outgrows its bound only by the copies in use.
-/

namespace TegraHwc

open Memo Runs

/-- `TegraFbImporter`, with what its copies were made for: the identity asked by and
the memory the descriptor is open on; and their owners, one entry each. -/
structure TegraFbImporter where
  fbs : Memory Nat Nat := ∅
  made : List (Nat × Nat) := []
  held : List Nat := []

namespace TegraFbImporter

/-- `kMostFbsBeforeSweep`. -/
def kMostFbsBeforeSweep : Nat := 128

/-- A copy made, and noted unless its buffer has no identity. -/
def create (s : TegraFbImporter) (key : Nat) : Option Nat → Option Nat × TegraFbImporter
  | none => (none, s)
  | some memory =>
    (some s.made.length,
      { fbs :=
          if key ≠ 0 then
            remember kMostFbsBeforeSweep (sweep fun fb => decide (fb ∈ s.held)) key s.made.length
              s.fbs
          else s.fbs
        made := s.made ++ [(key, memory)]
        held := s.made.length :: s.held })

/-- `GetOrCreateFbId`, where `dup` is what a duplicate of the descriptor is open on. -/
def getOrCreateFbId (s : TegraFbImporter) (bo : Option BoInfo) (dup : Option Nat) :
    Option Nat × TegraFbImporter :=
  match bo with
  | none => (none, s)
  | some bo =>
    if bo.primeFd < 0 then (none, s)
    else
      match if bo.uniqueId ≠ 0 then s.fbs.lookup bo.uniqueId else none with
      | none => s.create bo.uniqueId dup
      | some fb =>
        if fb ∈ s.held then (some fb, { s with held := fb :: s.held })
        -- the buffer went away and took its copy with it
        else { s with fbs := s.fbs.erase bo.uniqueId }.create bo.uniqueId dup

/-- What is done with copies: one is asked for, an owner hands one on, or lets it go. -/
inductive Act where
  | get (bo : Option BoInfo) (dup : Option Nat)
  | copy (fb : Nat)
  | drop (fb : Nat)

/-- Whoever hands a copy on or lets it go owns it. -/
def step (s : TegraFbImporter) : Act → Option TegraFbImporter
  | .get bo dup => some (s.getOrCreateFbId bo dup).2
  | .copy fb => if fb ∈ s.held then some { s with held := fb :: s.held } else none
  | .drop fb => if fb ∈ s.held then some { s with held := s.held.erase fb } else none

/-- The importer and its callers. -/
def machine : Machine TegraFbImporter Act Unit where
  step := step
  events := fun _ _ => []

/-- How many copies are open. -/
def openCopies (s : TegraFbImporter) : Nat := s.held.toFinset.card

/-- A duplicate of a descriptor is open on the memory that gives the buffer its
identity. -/
def Truthful : Act → Prop
  | .get (some bo) (some memory) => bo.uniqueId ≠ 0 → memory = bo.uniqueId
  | _ => True

-- ---------------------------------------------------------------------------
-- What is kept of the copies
-- ---------------------------------------------------------------------------

/-- What holds of the copies: an entry names a copy made for its key, one that is open
is found by its key, and is open on that memory. -/
structure Kept (s : TegraFbImporter) : Prop where
  named : Faithful (fun key fb => key ≠ 0 ∧ ∃ memory, s.made[fb]? = some (key, memory)) s.fbs
  found : ∀ fb ∈ s.held, ∃ key memory, s.made[fb]? = some (key, memory) ∧
    (key ≠ 0 → s.fbs.lookup key = some fb)
  own : ∀ e ∈ s.made, e.1 ≠ 0 → e.2 = e.1

variable {s s' : TegraFbImporter}

theorem Kept.lt (h : Kept s) {fb : Nat} (hHeld : fb ∈ s.held) : fb < s.made.length := by
  obtain ⟨key, memory, hMade, -⟩ := h.found fb hHeld
  exact (List.getElem?_eq_some_iff.mp hMade).1

/-- The copies swept from the map are closed: what is left are as many as are open. -/
theorem Kept.size_swept (h : Kept s) :
    size (sweep (fun fb => decide (fb ∈ s.held)) s.fbs) ≤ s.openCopies := by
  refine size_le_of_answers (fun key key' fb hKey hKey' => ?_) fun key fb hKey => ?_
  · obtain ⟨-, memory, hMade⟩ := h.named key fb (lookup_sweep.mp hKey).1
    obtain ⟨-, memory', hMade'⟩ := h.named key' fb (lookup_sweep.mp hKey').1
    rw [hMade] at hMade'
    exact congrArg Prod.fst (Option.some.inj hMade')
  · exact List.mem_toFinset.mpr (of_decide_eq_true (lookup_sweep.mp hKey).2)

/-- What asking may do: there is nothing to copy, a copy that is open is shared, or one
is made, of a buffer none is open for; an entry of a closed one is gone by then. -/
theorem getOrCreateFbId_cases (bo : Option BoInfo) (dup : Option Nat) :
    s.getOrCreateFbId bo dup = (none, s) ∨
      (∃ b fb, bo = some b ∧ b.uniqueId ≠ 0 ∧ s.fbs.lookup b.uniqueId = some fb ∧ fb ∈ s.held ∧
        s.getOrCreateFbId bo dup = (some fb, { s with held := fb :: s.held })) ∨
      ∃ b fbs, bo = some b ∧ Less fbs s.fbs ∧ size fbs ≤ size s.fbs ∧
        (∀ key fb, s.fbs.lookup key = some fb → fb ∈ s.held → fbs.lookup key = some fb) ∧
          (b.uniqueId ≠ 0 → b.uniqueId ∉ fbs) ∧
            s.getOrCreateFbId bo dup = { s with fbs }.create b.uniqueId dup := by
  cases bo with
  | none => exact .inl rfl
  | some b =>
    by_cases hFd : b.primeFd < 0
    · exact .inl (by simp only [getOrCreateFbId, if_pos hFd])
    right
    cases hLook : (if b.uniqueId ≠ 0 then s.fbs.lookup b.uniqueId else none) with
    | none =>
      refine .inr ⟨b, s.fbs, rfl, less_refl _, le_rfl, fun _ _ h _ => h, fun hNamed => ?_, ?_⟩
      · rw [if_pos hNamed] at hLook
        exact AList.lookup_eq_none.mp hLook
      · simp only [getOrCreateFbId, if_neg hFd, hLook]
    | some fb =>
      obtain ⟨hNamed, hKnown⟩ := Option.ite_none_right_eq_some.mp hLook
      by_cases hHeld : fb ∈ s.held
      · refine .inl ⟨b, fb, rfl, hNamed, hKnown, hHeld, ?_⟩
        simp only [getOrCreateFbId, if_neg hFd, hLook, if_pos hHeld]
      · refine .inr ⟨b, s.fbs.erase b.uniqueId, rfl, less_erase _ _, size_erase_le, ?_, ?_, ?_⟩
        · intro key fb' hOther hOpen
          have hApart : key ≠ b.uniqueId := by
            rintro rfl
            obtain rfl := Option.some.inj (hKnown.symm.trans hOther)
            exact hHeld hOpen
          rwa [AList.lookup_erase_ne hApart]
        · intro _ hMem
          exact ((AList.mem_erase).mp hMem).1 rfl
        · simp only [getOrCreateFbId, if_neg hFd, hLook, if_neg hHeld]

/-- Entries of closed copies may be lost. -/
theorem Kept.thinned (h : Kept s) {fbs : Memory Nat Nat} (hLess : Less fbs s.fbs)
    (hOpen : ∀ key fb, s.fbs.lookup key = some fb → fb ∈ s.held → fbs.lookup key = some fb) :
    Kept { s with fbs } where
  named := h.named.less hLess
  found := fun fb hHeld => by
    obtain ⟨key, memory, hMade, hKnown⟩ := h.found fb hHeld
    exact ⟨key, memory, hMade, fun hNamed => hOpen key fb (hKnown hNamed) hHeld⟩
  own := h.own

/-- A copy made of a buffer that has none. -/
theorem create_kept (h : Kept s) {key : Nat} {dup : Option Nat}
    (hNew : key ≠ 0 → key ∉ s.fbs) (hOwn : ∀ memory, dup = some memory → key ≠ 0 → memory = key) :
    Kept (s.create key dup).2 := by
  cases dup with
  | none => exact h
  | some memory =>
    have hOld : Faithful (fun k fb => k ≠ 0 ∧ ∃ m, (s.made ++ [(key, memory)])[fb]? = some (k, m))
        s.fbs := by
      intro k fb hKnown
      obtain ⟨hNamed, m, hMade⟩ := h.named k fb hKnown
      refine ⟨hNamed, m, ?_⟩
      rwa [List.getElem?_append_left (List.getElem?_eq_some_iff.mp hMade).1]
    refine ⟨?_, fun fb hHeld => ?_, fun e he => ?_⟩
    · show Faithful _ (if key ≠ 0 then _ else s.fbs)
      split
      · rename_i hNamed
        exact hOld.remember (less_sweep _ _) ⟨hNamed, memory, List.getElem?_concat_length⟩
      · exact hOld
    · obtain rfl | hHeld := List.mem_cons.mp hHeld
      · refine ⟨key, memory, List.getElem?_concat_length, fun hNamed => ?_⟩
        show AList.lookup key (if key ≠ 0 then _ else s.fbs) = _
        rw [if_pos hNamed]
        exact lookup_remember
      · obtain ⟨k, m, hMade, hKnown⟩ := h.found fb hHeld
        refine ⟨k, m, ?_, fun hOther => ?_⟩
        · show (s.made ++ [(key, memory)])[fb]? = _
          rwa [List.getElem?_append_left (h.lt hHeld)]
        · have hLook := hKnown hOther
          show AList.lookup k (if key ≠ 0 then _ else s.fbs) = _
          split
          · rename_i hNamed
            have hApart : k ≠ key := by
              rintro rfl
              rw [AList.lookup_eq_none.mpr (hNew hNamed)] at hLook
              cases hLook
            exact lookup_remember_ne hApart (lookup_sweep.mpr ⟨hLook, decide_eq_true hHeld⟩) hLook
          · exact hLook
    · obtain he | he := List.mem_append.mp he
      · exact h.own e he
      · obtain rfl := List.mem_singleton.mp he
        exact hOwn memory rfl

/-- A copy made leaves no more entries than there were, than the bound, or than there
are copies open. -/
theorem create_size (h : Kept s) (key : Nat) (dup : Option Nat) :
    size (s.create key dup).2.fbs ≤
      max (size s.fbs) (max kMostFbsBeforeSweep (s.create key dup).2.openCopies) := by
  cases dup with
  | none => exact le_max_left _ _
  | some memory =>
    have hOneMore : (s.create key (some memory)).2.openCopies = s.openCopies + 1 := by
      show (s.made.length :: s.held).toFinset.card = _
      rw [List.toFinset_cons, Finset.card_insert_of_notMem fun hIn =>
        absurd (h.lt (List.mem_toFinset.mp hIn)) (lt_irrefl _)]
      rfl
    show size (if key ≠ 0 then _ else s.fbs) ≤ _
    split
    · have hSwept := h.size_swept
      have hRoom := size_remember_le kMostFbsBeforeSweep
        (sweep fun fb => decide (fb ∈ s.held)) key s.made.length s.fbs
      omega
    · exact le_max_left _ _

/-- **A step keeps the copies**, and the map within its bound. -/
theorem step_kept (h : Kept s) {a : Act} (hTrue : Truthful a) (hStep : s.step a = some s') :
    Kept s' ∧ size s'.fbs ≤ max (size s.fbs) (max kMostFbsBeforeSweep s'.openCopies) := by
  cases a with
  | get bo dup =>
    obtain rfl := Option.some.inj hStep
    rcases getOrCreateFbId_cases (s := s) bo dup with hEq | ⟨b, fb, -, -, -, hHeld, hEq⟩ |
      ⟨b, fbs, rfl, hLess, hSize, hOpen, hNew, hEq⟩
    · rw [hEq]
      exact ⟨h, le_max_left _ _⟩
    · rw [hEq]
      refine ⟨⟨h.named, fun fb' hHeld' => h.found fb' ?_, h.own⟩, le_max_left _ _⟩
      obtain rfl | hOld := List.mem_cons.mp hHeld'
      · exact hHeld
      · exact hOld
    · rw [hEq]
      have hThinned := h.thinned hLess hOpen
      refine ⟨create_kept hThinned hNew fun memory hDup => ?_, ?_⟩
      · subst hDup
        exact hTrue
      · have hMade := create_size hThinned b.uniqueId dup
        have hFewer : size ({ s with fbs } : TegraFbImporter).fbs ≤ size s.fbs := hSize
        omega
  | copy fb =>
    simp only [step, Option.ite_none_right_eq_some, Option.some.injEq] at hStep
    obtain ⟨hHeld, rfl⟩ := hStep
    refine ⟨⟨h.named, fun fb' hHeld' => h.found fb' ?_, h.own⟩, le_max_left _ _⟩
    obtain rfl | hOld := List.mem_cons.mp hHeld'
    · exact hHeld
    · exact hOld
  | drop fb =>
    simp only [step, Option.ite_none_right_eq_some, Option.some.injEq] at hStep
    obtain ⟨hHeld, rfl⟩ := hStep
    exact ⟨⟨h.named, fun fb' hHeld' => h.found fb' (List.mem_of_mem_erase hHeld'), h.own⟩,
      le_max_left _ _⟩

/-- Whoever asks for a buffer of an identity that is shown shares the copy it has,
though no descriptor be left. -/
theorem getOrCreateFbId_shared (h : Kept s) {fb key memory : Nat} (hHeld : fb ∈ s.held)
    (hMade : s.made[fb]? = some (key, memory)) (hNamed : key ≠ 0) {bo : BoInfo}
    (hKey : bo.uniqueId = key) (hFd : 0 ≤ bo.primeFd) (dup : Option Nat) :
    s.getOrCreateFbId (some bo) dup = (some fb, { s with held := fb :: s.held }) := by
  obtain ⟨key', memory', hMade', hKnown⟩ := h.found fb hHeld
  obtain ⟨rfl, -⟩ := Prod.mk.inj (Option.some.inj (hMade.symm.trans hMade'))
  subst hKey
  simp only [getOrCreateFbId, if_neg (Int.not_lt.mpr hFd), if_pos hNamed, hKnown hNamed,
    if_pos hHeld]

/-- What is answered is a copy made for that identity, and of a buffer without one, a
copy of its own. -/
theorem getOrCreateFbId_answer (h : Kept s) {bo : BoInfo} {dup : Option Nat} {fb : Nat}
    (hAnswer : (s.getOrCreateFbId (some bo) dup).1 = some fb) :
    ∃ memory, (s.getOrCreateFbId (some bo) dup).2.made[fb]? = some (bo.uniqueId, memory) ∧
      (bo.uniqueId = 0 → dup = some memory ∧ fb ∉ s.held) := by
  rcases getOrCreateFbId_cases (s := s) (some bo) dup with hEq |
    ⟨b, fb', hBo, hNamed, hKnown, -, hEq⟩ | ⟨b, fbs, hBo, -, -, -, -, hEq⟩
  · rw [hEq] at hAnswer
    cases hAnswer
  · obtain rfl := Option.some.inj hBo
    rw [hEq] at hAnswer ⊢
    obtain rfl := Option.some.inj hAnswer
    obtain ⟨-, memory, hMade⟩ := h.named _ _ hKnown
    exact ⟨memory, hMade, fun hNone => absurd hNone hNamed⟩
  · obtain rfl := Option.some.inj hBo
    rw [hEq] at hAnswer ⊢
    cases dup with
    | none => cases hAnswer
    | some memory =>
      obtain rfl := Option.some.inj hAnswer
      exact ⟨memory, List.getElem?_concat_length, fun _ =>
        ⟨rfl, fun hIn => absurd (h.lt hIn) (lt_irrefl _)⟩⟩

/-- **A buffer that is shown has one copy, open on its own memory.** In every state of
every run that asks with descriptors of the buffers it names: whatever is answered is
open on that buffer's memory; a buffer shown already is answered by the copy it has,
whoever asks and though no descriptor be left; and where no more than `most` copies are
open at a time, the map is no larger than that, or than its bound. -/
theorem fbImporter_shares (most : Nat) (acts : List Act) (s : TegraFbImporter)
    (hRun : machine.run {} acts = some s)
    (hMeets : machine.Meets (fun t a => Truthful a ∧
      ∀ t', t.step a = some t' → t'.openCopies ≤ most) {} acts) :
    (∀ bo dup fb, Truthful (.get (some bo) dup) → (s.getOrCreateFbId (some bo) dup).1 = some fb →
        ∃ memory, (s.getOrCreateFbId (some bo) dup).2.made[fb]? = some (bo.uniqueId, memory) ∧
          (bo.uniqueId ≠ 0 → memory = bo.uniqueId) ∧
            (bo.uniqueId = 0 → dup = some memory ∧ fb ∉ s.held)) ∧
      (∀ fb ∈ s.held, ∃ key memory, s.made[fb]? = some (key, memory) ∧
        (key ≠ 0 → ∀ bo dup, bo.uniqueId = key → 0 ≤ bo.primeFd →
          s.getOrCreateFbId (some bo) dup = (some fb, { s with held := fb :: s.held }))) ∧
        size s.fbs ≤ max kMostFbsBeforeSweep most := by
  have hStart : Kept {} :=
    ⟨faithful_empty, fun _ h => absurd h List.not_mem_nil, fun _ h => absurd h List.not_mem_nil⟩
  have hKept : Kept s ∧ size s.fbs ≤ max kMostFbsBeforeSweep most := by
    refine Machine.run_of_meets (I := fun s => Kept s ∧ size s.fbs ≤ max kMostFbsBeforeSweep most)
      (fun t a t' hI hC hStep => ?_) ⟨hStart, Nat.zero_le _⟩ hMeets hRun
    obtain ⟨hNext, hSize⟩ := step_kept hI.1 hC.1 hStep
    have hFew := hC.2 t' hStep
    have hBefore := hI.2
    exact ⟨hNext, by omega⟩
  refine ⟨fun bo dup fb hTrue hAnswer => ?_, fun fb hHeld => ?_, hKept.2⟩
  · obtain ⟨memory, hMade, hOwn⟩ := getOrCreateFbId_answer hKept.1 hAnswer
    have hAfter := (step_kept (a := .get (some bo) dup) hKept.1 hTrue rfl).1
    exact ⟨memory, hMade, hAfter.own _ (List.mem_of_getElem? hMade), hOwn⟩
  · obtain ⟨key, memory, hMade, -⟩ := hKept.1.found fb hHeld
    exact ⟨key, memory, hMade, fun hNamed bo dup hKey hFd =>
      getOrCreateFbId_shared hKept.1 hHeld hMade hNamed hKey hFd dup⟩

/-- A buffer no one could name. -/
def unnamed : BoInfo where
  width := 64
  height := 32
  primeFd := 11

/-- A frame of video shown twice beside such a buffer. -/
def shownTwice : List Act :=
  [.get (some BufferInfoNvidia.videoInfo) (some 100), .get (some unnamed) (some 55),
    .get (some BufferInfoNvidia.videoInfo) (some 100), .drop 0]

/-- The video is shown still, and is answered by its one copy with no descriptor left. -/
theorem fbImporter_shares_video :
    ∃ s, machine.run {} shownTwice = some s ∧ s.held = [1, 0] ∧
      (s.getOrCreateFbId (some BufferInfoNvidia.videoInfo) none).1 = some 0 ∧
        size s.fbs ≤ kMostFbsBeforeSweep := by
  obtain ⟨s, hRun⟩ := Option.isSome_iff_exists.mp
    (show (machine.run {} shownTwice).isSome = true from by decide)
  have hHeld : ((machine.run {} shownTwice).map TegraFbImporter.held) = some [1, 0] := by decide
  rw [hRun] at hHeld
  have hOpen := Option.some.inj hHeld
  have hMade : ((machine.run {} shownTwice).map TegraFbImporter.made) =
      some [(100, 100), (0, 55)] := by
    decide
  rw [hRun] at hMade
  obtain ⟨-, hShared, hSize⟩ := fbImporter_shares 2 shownTwice s hRun (by
    refine ⟨⟨fun _ => rfl, ?_⟩, ⟨fun h => absurd rfl h, ?_⟩, ⟨fun _ => rfl, ?_⟩, ⟨trivial, ?_⟩,
      trivial⟩ <;> (intro t' hStep; cases hStep; decide))
  obtain ⟨key, memory, hKey, hAnswers⟩ := hShared 0 (by rw [hOpen]; decide)
  rw [Option.some.inj hMade] at hKey
  obtain ⟨rfl, rfl⟩ := Prod.mk.inj (Option.some.inj hKey)
  refine ⟨s, hRun, hOpen, ?_, hSize⟩
  rw [hAnswers (by decide) BufferInfoNvidia.videoInfo none rfl (by decide)]

end TegraFbImporter

end TegraHwc
