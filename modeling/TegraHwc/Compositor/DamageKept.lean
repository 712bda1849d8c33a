import TegraHwc.Compositor.RedrawReach

/-!
# TegraHwc — what the history of damage keeps

`DamageHistory` of `compositor/PartialRedraw.cpp` over any sequence of `Record`
calls. A layer's frames are kept in the order of their generations, the newest
few of them; a frame told a second time, or after a newer one, is not taken
again. The layer heard from longest ago is forgotten when there are too many,
and a layer heard from after that begins anew: what is told of it then is what
`Between` answers with.

## Results

* `record_keeps`      — one call keeps the order, the sizes and the truth.
* `between_truthful`  — what `Between` answers after any calls.
-/

namespace TegraHwc.PartialRedraw

open DamageHistory

-- ---------------------------------------------------------------------------
-- The calls
-- ---------------------------------------------------------------------------

/-- A call of `Record`. -/
structure Call where
  serial : Nat
  generation : Nat
  damage : List IRect
  deriving DecidableEq, Repr

/-- The history, and beside it what each layer told of itself since it was last
forgotten. -/
structure Told where
  history : DamageHistory := {}
  heard : Nat → List Call := fun _ => []

namespace Told

/-- One call: a layer not kept after it is not remembered to have told
anything. -/
def hear (t : Told) (c : Call) : Told :=
  let history := t.history.record c.serial c.generation c.damage
  { history := history
    heard := fun serial =>
      if (history.find serial).isNone then []
      else if c.serial = serial then t.heard serial ++ [c]
      else t.heard serial }

/-- All calls, from an empty history. -/
def of (calls : List Call) : Told := calls.foldl hear {}

end Told

/-- The damage first told of a frame. -/
def firstTold (calls : List Call) (generation : Nat) : Option (List IRect) :=
  (calls.find? fun c => c.generation == generation).map (·.damage)

/-- The history keeps the frame. -/
def Keeps (history : DamageHistory) (serial generation : Nat) : Prop :=
  ∃ l, history.find serial = some l ∧ ∃ f ∈ l.frames, f.generation = generation

-- ---------------------------------------------------------------------------
-- One call
-- ---------------------------------------------------------------------------

/-- The layer of a call as the call leaves it. -/
def renewed (history : DamageHistory) (serial generation : Nat) (damage : List IRect) :
    LayerFrames :=
  let l := { (history.find serial).getD { serial := serial } with recordedAt := history.clock + 1 }
  if knows l generation then l else push l generation damage

@[simp] theorem renewed_recordedAt (history : DamageHistory) (serial generation : Nat)
    (damage : List IRect) :
    (renewed history serial generation damage).recordedAt = history.clock + 1 := by
  unfold renewed
  simp only
  split <;> rfl

theorem getD_find_serial (history : DamageHistory) (serial : Nat) :
    ((history.find serial).getD { serial := serial }).serial = serial := by
  cases hFind : history.find serial with
  | none => rfl
  | some l => exact (find_mem hFind).2

@[simp] theorem renewed_serial (history : DamageHistory) (serial generation : Nat)
    (damage : List IRect) : (renewed history serial generation damage).serial = serial := by
  have h := getD_find_serial history serial
  unfold renewed
  simp only
  split <;> exact h

/-- What is found where a layer is put before the layers of other serials. -/
theorem find_cons_others (history : DamageHistory) {l : LayerFrames} {serial : Nat}
    (hSerial : l.serial = serial) (clock s : Nat) :
    DamageHistory.find ⟨l :: history.layers.filter (fun l => l.serial != serial), clock⟩ s =
      if s = serial then some l else history.find s := by
  subst hSerial
  unfold DamageHistory.find
  rw [List.find?_cons]
  by_cases hs : s = l.serial
  · simp [hs]
  · have hNe : (l.serial == s) = false := by simpa using Ne.symm hs
    rw [hNe, if_neg hs, List.find?_filter]
    simp only
    congr 1
    funext l'
    by_cases h : l'.serial = s
    · simp [h, hs]
    · simp [h]

/-- Where the layers of one serial are taken out, the others are found. -/
theorem find_without (layers : List LayerFrames) (gone clock s : Nat) :
    DamageHistory.find ⟨layers.filter (fun l => l.serial != gone), clock⟩ s =
      if s = gone then none else DamageHistory.find ⟨layers, clock⟩ s := by
  unfold DamageHistory.find
  simp only
  rw [List.find?_filter]
  by_cases hs : s = gone
  · rw [if_pos hs, List.find?_eq_none]
    intro l _
    by_cases h : l.serial = s <;> simp [h, hs]
  · rw [if_neg hs]
    congr 1
    funext l
    by_cases h : l.serial = s
    · simp [h, hs]
    · simp [h]

/-- The layer that goes is the one heard from longest ago. -/
theorem dropOldest_eq {layers : List LayerFrames} (h : layers ≠ []) :
    ∃ l ∈ layers, (∀ l' ∈ layers, l.recordedAt ≤ l'.recordedAt) ∧
      dropOldest layers = layers.filter fun l' => l'.serial != l.serial := by
  unfold dropOldest
  cases hOldest : (layers.map (·.recordedAt)).min? with
  | none => exact absurd (List.map_eq_nil_iff.mp (List.min?_eq_none_iff.mp hOldest)) h
  | some oldest =>
    obtain ⟨hMem, hLeast⟩ := List.min?_eq_some_iff.mp hOldest
    obtain ⟨l₀, hl₀, rfl⟩ := List.mem_map.mp hMem
    simp only
    cases hSerial : ((layers.filter fun l => l.recordedAt == l₀.recordedAt).map (·.serial)).min? with
    | none =>
      have hNone := List.map_eq_nil_iff.mp (List.min?_eq_none_iff.mp hSerial)
      have : l₀ ∈ layers.filter fun l => l.recordedAt == l₀.recordedAt :=
        List.mem_filter.mpr ⟨hl₀, by simp⟩
      rw [hNone] at this
      cases this
    | some serial =>
      obtain ⟨hIn, -⟩ := List.min?_eq_some_iff.mp hSerial
      obtain ⟨l, hl, rfl⟩ := List.mem_map.mp hIn
      obtain ⟨hl, hAge⟩ := List.mem_filter.mp hl
      refine ⟨l, hl, fun l' hl' => ?_, rfl⟩
      rw [beq_iff_eq.mp hAge]
      exact hLeast _ (List.mem_map.mpr ⟨l', hl', rfl⟩)

/-- It is not the youngest where there are others. -/
theorem dropOldest_cons {l : LayerFrames} {others : List LayerFrames} (hSome : others ≠ [])
    (hYoung : ∀ l' ∈ others, l'.recordedAt < l.recordedAt)
    (hOther : ∀ l' ∈ others, l'.serial ≠ l.serial) :
    ∃ l' ∈ others,
      dropOldest (l :: others) = l :: others.filter fun l'' => l''.serial != l'.serial := by
  obtain ⟨l', hl', hLeast, hDrop⟩ := dropOldest_eq (List.cons_ne_nil l others)
  have hMem : l' ∈ others := by
    rcases List.mem_cons.mp hl' with rfl | hMem
    · obtain ⟨l'', hl''⟩ := List.exists_mem_of_ne_nil _ hSome
      have hAge := hLeast l'' (List.mem_cons_of_mem _ hl'')
      have := hYoung l'' hl''
      omega
    · exact hMem
  refine ⟨l', hMem, ?_⟩
  rw [hDrop]
  exact List.filter_cons_of_pos (by simpa using Ne.symm (hOther l' hMem))

/-- A layer that knows a frame is kept, so the others are fewer. -/
theorem others_lt_of_knows {history : DamageHistory} {serial generation : Nat}
    {l : LayerFrames} (hl : l.frames = ((history.find serial).getD { serial := serial }).frames)
    (hKnows : knows l generation = true) :
    (history.layers.filter fun l => l.serial != serial).length < history.layers.length := by
  cases hFind : history.find serial with
  | none => simp [hFind, knows, hl] at hKnows
  | some l' =>
    obtain ⟨hMem, rfl⟩ := find_mem hFind
    exact List.length_filter_lt_length_iff_exists.mpr ⟨l', hMem, by simp⟩

/-- What one call does: its layer is renewed, and where there are too many
another layer is forgotten. -/
theorem record_cases (history : DamageHistory) (serial generation : Nat) (damage : List IRect)
    (hAged : ∀ l ∈ history.layers, l.recordedAt ≤ history.clock) :
    ∃ (others : List LayerFrames) (gone : Option Nat),
      (history.record serial generation damage =
        { clock := history.clock + 1
          layers := renewed history serial generation damage :: others }) ∧
      others.Sublist history.layers ∧
      (history.layers.length ≤ kLayers → others.length < kLayers) ∧
      gone ≠ some serial ∧
      ∀ s, (history.record serial generation damage).find s =
        if gone = some s then none
        else if s = serial then some (renewed history serial generation damage)
        else history.find s := by
  have hFound := find_cons_others history (renewed_serial history serial generation damage)
    (history.clock + 1)
  have hSublist := List.filter_sublist (p := fun l => l.serial != serial) (l := history.layers)
  have hRenewed : (renewed history serial generation damage).recordedAt = history.clock + 1 :=
    renewed_recordedAt _ _ _ _
  have hSerial : (renewed history serial generation damage).serial = serial :=
    renewed_serial _ _ _ _
  generalize hLayer : renewed history serial generation damage = renewed_ at *
  unfold renewed at hLayer
  unfold DamageHistory.record
  simp only at hLayer ⊢
  split at hLayer
  · -- the frame is known: nothing is pushed and nothing goes
    rename_i hKnows
    rw [if_pos hKnows, hLayer]
    refine ⟨_, none, rfl, hSublist, fun hSize => ?_, by simp, fun s => ?_⟩
    · exact (others_lt_of_knows rfl hKnows).trans_le hSize
    · simpa using hFound s
  rename_i hKnows
  rw [if_neg hKnows, hLayer]
  split
  · -- too many layers: one of the others goes
    rename_i hMany
    have hSome : (history.layers.filter fun l => l.serial != serial) ≠ [] := by
      intro hNil
      rw [hNil] at hMany
      simp [kLayers] at hMany
    obtain ⟨l, hl, hDrop⟩ := dropOldest_cons (l := renewed_) hSome
      (fun l' hl' => by
        have := hAged l' (List.mem_of_mem_filter hl')
        omega)
      (fun l' hl' => by
        rw [hSerial]
        simpa using List.of_mem_filter hl')
    have hNe : l.serial ≠ serial := by simpa using List.of_mem_filter hl
    refine ⟨_, some l.serial, by rw [hDrop], List.filter_sublist.trans hSublist, fun hSize => ?_,
      by simpa using hNe, fun s => ?_⟩
    · have hLess : ((history.layers.filter fun l => l.serial != serial).filter
          fun l' => l'.serial != l.serial).length <
          (history.layers.filter fun l => l.serial != serial).length :=
        List.length_filter_lt_length_iff_exists.mpr ⟨l, hl, by simp⟩
      have := hSublist.length_le
      omega
    · have hKept : (renewed_.serial != l.serial) = true := by
        rw [hSerial]
        simpa using Ne.symm hNe
      have hHead := List.filter_cons_of_pos (p := fun l' : LayerFrames => l'.serial != l.serial)
        (l := history.layers.filter fun l => l.serial != serial) hKept
      rw [hDrop, ← hHead, find_without, hFound s]
      by_cases h : s = l.serial
      · simp [h]
      · rw [if_neg h, if_neg fun hEq => h (Option.some.inj hEq).symm]
  · rename_i hFew
    refine ⟨_, none, rfl, hSublist, fun _ => ?_, by simp, fun s => ?_⟩
    · simp only [List.length_cons] at hFew
      omega
    · simpa using hFound s

-- ---------------------------------------------------------------------------
-- What is kept
-- ---------------------------------------------------------------------------

/-- A layer keeps few frames in their order, each with what was first told of it,
and none that is newer was told. -/
structure LayerKeeps (l : LayerFrames) (heard : List Call) : Prop where
  few : l.frames.length ≤ kFrames
  rising : l.frames.Pairwise fun f f' => f.generation < f'.generation
  first : ∀ f ∈ l.frames, firstTold heard f.generation = some f.damage
  newest : ∀ c ∈ heard, ∃ f ∈ l.frames, c.generation ≤ f.generation

/-- And so do all layers kept, few of them; nothing is remembered of others. -/
structure HistoryKeeps (t : Told) : Prop where
  few : t.history.layers.length ≤ kLayers
  aged : ∀ l ∈ t.history.layers, l.recordedAt ≤ t.history.clock
  frames : ∀ l ∈ t.history.layers, l.frames.length ≤ kFrames
  layers : ∀ serial l, t.history.find serial = some l → LayerKeeps l (t.heard serial)
  others : ∀ serial, t.history.find serial = none → t.heard serial = []

theorem firstTold_append {heard : List Call} {c : Call} {generation : Nat} {damage : List IRect}
    (h : firstTold heard generation = some damage) :
    firstTold (heard ++ [c]) generation = some damage := by
  obtain ⟨c', hFind, hDamage⟩ := Option.map_eq_some_iff.mp h
  simp [firstTold, List.find?_append, hFind, hDamage]

theorem firstTold_new {heard : List Call} {c : Call}
    (h : ∀ c' ∈ heard, c'.generation ≠ c.generation) :
    firstTold (heard ++ [c]) c.generation = some c.damage := by
  have hNone : heard.find? (fun c' => c'.generation == c.generation) = none :=
    List.find?_eq_none.mpr fun c' hc' => by simpa using h c' hc'
  simp [firstTold, List.find?_append, hNone]

/-- A frame a layer does not know is newer than all it keeps. -/
theorem lt_of_not_knows {l : LayerFrames} {generation : Nat}
    (hRising : l.frames.Pairwise fun f f' => f.generation < f'.generation)
    (hKnows : knows l generation = false) : ∀ f ∈ l.frames, f.generation < generation := by
  rcases List.eq_nil_or_concat l.frames with hNil | ⟨before, last, hFrames⟩
  · simp [hNil]
  · rw [List.concat_eq_append] at hFrames
    rw [hFrames] at hRising ⊢
    have hLast : last.generation < generation := by simpa [knows, hFrames] using hKnows
    intro f hf
    rcases List.mem_append.mp hf with hBefore | hEnd
    · have := (List.pairwise_append.mp hRising).2.2 f hBefore last (by simp)
      omega
    · rw [List.mem_singleton.mp hEnd]
      exact hLast

/-- A frame it does not know is put after those it keeps, all but the oldest. -/
theorem push_frames (l : LayerFrames) (generation : Nat) (damage : List IRect) :
    ∃ n, (push l generation damage).frames = l.frames.drop n ++ [⟨generation, damage⟩] ∧
      (l.frames.drop n).length < kFrames := by
  have hPos : 0 < kFrames := by decide
  refine ⟨l.frames.length + 1 - kFrames, ?_, ?_⟩
  · simp only [push, List.length_append, List.length_singleton]
    exact List.drop_append_of_le_length (by omega)
  · rw [List.length_drop]
    omega

/-- A layer that keeps what it should does so after it is told of a frame. -/
theorem LayerKeeps.tell {l : LayerFrames} {heard : List Call} (h : LayerKeeps l heard) (c : Call)
    (recordedAt : Nat) :
    LayerKeeps
      (if knows { l with recordedAt := recordedAt } c.generation then
        { l with recordedAt := recordedAt }
      else push { l with recordedAt := recordedAt } c.generation c.damage)
      (heard ++ [c]) := by
  have hSame : knows { l with recordedAt := recordedAt } c.generation = knows l c.generation := rfl
  rw [hSame]
  cases hKnows : knows l c.generation with
  | true =>
    refine ⟨h.few, h.rising, fun f hf => firstTold_append (h.first f hf), fun c' hc' => ?_⟩
    rcases List.mem_append.mp hc' with hOld | hNew
    · exact h.newest c' hOld
    · rw [List.mem_singleton.mp hNew]
      cases hLast : l.frames.getLast? with
      | none => simp [knows, hLast] at hKnows
      | some last =>
        refine ⟨last, List.mem_of_getLast? hLast, ?_⟩
        simpa [knows, hLast] using hKnows
  | false =>
    have hNewer := lt_of_not_knows h.rising hKnows
    obtain ⟨n, hFrames, hLength⟩ :=
      push_frames { l with recordedAt := recordedAt } c.generation c.damage
    replace hLength : (l.frames.drop n).length < kFrames := hLength
    have hOlder : ∀ f ∈ l.frames.drop n, f.generation < c.generation :=
      fun f hf => hNewer f (List.mem_of_mem_drop hf)
    simp only [Bool.false_eq_true, if_false]
    refine ⟨?_, ?_, ?_, ?_⟩
    · rw [hFrames]
      simp only [List.length_append, List.length_singleton]
      omega
    · rw [hFrames, List.pairwise_append]
      refine ⟨h.rising.sublist (List.drop_sublist _ _), List.pairwise_singleton _ _,
        fun f hf f' hf' => ?_⟩
      rw [List.mem_singleton.mp hf']
      exact hOlder f hf
    · rw [hFrames]
      intro f hf
      rcases List.mem_append.mp hf with hOld | hNew
      · exact firstTold_append (h.first f (List.mem_of_mem_drop hOld))
      · rw [List.mem_singleton.mp hNew]
        -- what was told before is no newer than a frame kept, which is older
        refine firstTold_new fun c' hc' => ?_
        obtain ⟨f', hf', hLe⟩ := h.newest c' hc'
        have := hNewer f' hf'
        omega
    · rw [hFrames]
      intro c' hc'
      refine ⟨⟨c.generation, c.damage⟩, by simp, ?_⟩
      rcases List.mem_append.mp hc' with hOld | hNew
      · obtain ⟨f', hf', hLe⟩ := h.newest c' hOld
        have := hNewer f' hf'
        show c'.generation ≤ c.generation
        omega
      · rw [List.mem_singleton.mp hNew]

/-- The layer of a call keeps what it should after it. -/
theorem renewed_keeps {t : Told} (h : HistoryKeeps t) (c : Call) :
    LayerKeeps (renewed t.history c.serial c.generation c.damage) (t.heard c.serial ++ [c]) := by
  refine LayerKeeps.tell ?_ c (t.history.clock + 1)
  cases hFind : t.history.find c.serial with
  | none =>
    rw [h.others c.serial hFind]
    exact ⟨by simp, List.Pairwise.nil, by simp, by simp⟩
  | some l => exact h.layers c.serial l hFind

/-- The layer of a call is kept after it. -/
theorem find_hear {t : Told} (h : HistoryKeeps t) (c : Call) :
    (t.hear c).history.find c.serial =
      some (renewed t.history c.serial c.generation c.damage) := by
  obtain ⟨others, gone, -, -, -, hGone, hFind⟩ :=
    record_cases t.history c.serial c.generation c.damage h.aged
  show (t.history.record c.serial c.generation c.damage).find c.serial = _
  rw [hFind, if_neg hGone, if_pos rfl]

/-- **One call** keeps the order, the sizes and the truth. -/
theorem record_keeps {t : Told} (h : HistoryKeeps t) (c : Call) : HistoryKeeps (t.hear c) := by
  have hRenewed := renewed_keeps h c
  obtain ⟨others, gone, hRecord, hSublist, hFew, hGone, hFind⟩ :=
    record_cases t.history c.serial c.generation c.damage h.aged
  have hHistory : (t.hear c).history = t.history.record c.serial c.generation c.damage := rfl
  have hHeard : ∀ serial, (t.hear c).heard serial =
      if ((t.hear c).history.find serial).isNone then []
      else if c.serial = serial then t.heard serial ++ [c]
      else t.heard serial := fun _ => rfl
  refine ⟨?_, ?_, ?_, ?_, ?_⟩
  · rw [hHistory, hRecord]
    exact hFew h.few
  · rw [hHistory, hRecord]
    intro l hl
    rcases List.mem_cons.mp hl with rfl | hl
    · exact (renewed_recordedAt _ _ _ _).le
    · have := h.aged l (hSublist.subset hl)
      show l.recordedAt ≤ t.history.clock + 1
      omega
  · rw [hHistory, hRecord]
    intro l hl
    rcases List.mem_cons.mp hl with rfl | hl
    · exact hRenewed.few
    · exact h.frames l (hSublist.subset hl)
  · intro serial l hl
    rw [hHeard, hl]
    rw [hHistory, hFind] at hl
    simp only [Option.isNone_some, Bool.false_eq_true, if_false]
    by_cases hOther : gone = some serial
    · rw [if_pos hOther] at hl
      cases hl
    · rw [if_neg hOther] at hl
      by_cases hSerial : serial = c.serial
      · subst hSerial
        rw [if_pos rfl] at hl
        rw [if_pos rfl, ← Option.some.inj hl]
        exact hRenewed
      · rw [if_neg hSerial] at hl
        rw [if_neg (Ne.symm hSerial)]
        exact h.layers serial l hl
  · intro serial hNone
    rw [hHeard, hNone]
    rfl

/-- Any calls do. -/
theorem keeps_of (calls : List Call) : HistoryKeeps (Told.of calls) := by
  have hStart : HistoryKeeps {} :=
    ⟨by simp, by simp, by simp, by simp [DamageHistory.find], by simp⟩
  exact List.foldlRecOn calls _ hStart fun t ht c _ => record_keeps ht c

-- ---------------------------------------------------------------------------
-- What is answered
-- ---------------------------------------------------------------------------

theorem covered_append {parts parts' : List IRect} {p : Point} :
    Covered (parts ++ parts') p ↔ Covered parts p ∨ Covered parts' p := by
  unfold Covered
  simp only [List.mem_append, or_and_right, exists_or]

/-- Rectangles with nothing in them cover nothing. -/
theorem covered_filter {parts : List IRect} {p : Point} :
    Covered (parts.filter fun r => !empty r) p ↔ Covered parts p := by
  constructor
  · rintro ⟨r, hr, hIn⟩
    exact ⟨r, List.mem_of_mem_filter hr, hIn⟩
  · rintro ⟨r, hr, hIn⟩
    refine ⟨r, List.mem_filter.mpr ⟨hr, ?_⟩, hIn⟩
    obtain ⟨hl, hr', ht, hb⟩ := hIn
    simp only [empty, Bool.not_or, Bool.and_eq_true, Bool.not_eq_true', decide_eq_false_iff_not]
    omega

/-- The frames the loop went over, up to the one that changed all of the buffer:
each found, and the rectangles are theirs. -/
theorem collect_some {frames : List Frame} : ∀ (gs : List Nat) (rects out : List IRect)
    (whole : Bool), collect frames gs rects = some (out, whole) →
    ∃ seen rest, gs = seen ++ rest ∧
      (∀ g ∈ seen, ∃ f, frames.find? (fun f => f.generation == g) = some f ∧ f.damage ≠ []) ∧
      (whole = false → rest = []) ∧
      (whole = true → ∃ g rest' f, rest = g :: rest' ∧
        frames.find? (fun f => f.generation == g) = some f ∧ f.damage = []) ∧
      ∀ p, Covered out p ↔ Covered rects p ∨
        ∃ g ∈ seen, ∃ f, frames.find? (fun f => f.generation == g) = some f ∧ Covered f.damage p := by
  intro gs
  induction gs with
  | nil =>
    intro rects out whole h
    obtain ⟨rfl, rfl⟩ := Prod.mk.inj (Option.some.inj h)
    exact ⟨[], [], rfl, by simp, fun _ => rfl, (fun h => by cases h), fun p => by simp⟩
  | cons g gs ih =>
    intro rects out whole h
    simp only [collect] at h
    cases hFind : frames.find? fun f => f.generation == g with
    | none => simp [hFind] at h
    | some f =>
      rw [hFind] at h
      simp only at h
      split at h
      · rename_i hAll
        obtain ⟨rfl, rfl⟩ := Prod.mk.inj (Option.some.inj h)
        exact ⟨[], g :: gs, rfl, by simp, (fun h => by cases h),
          fun _ => ⟨g, gs, f, rfl, hFind, hAll⟩, fun p => by simp⟩
      · rename_i hPart
        obtain ⟨seen, rest, hSplit, hSeen, hUpTo, hWhole, hCovered⟩ := ih _ _ _ h
        refine ⟨g :: seen, rest, by rw [hSplit]; rfl, ?_, hUpTo, hWhole, fun p => ?_⟩
        · intro g' hg'
          rcases List.mem_cons.mp hg' with rfl | hg'
          · exact ⟨f, hFind, hPart⟩
          · exact hSeen g' hg'
        · rw [hCovered, covered_append, covered_filter]
          simp [hFind, or_assoc]

/-- Where the loop gives up, a frame it met is not found. -/
theorem collect_none {frames : List Frame} : ∀ (gs : List Nat) (rects : List IRect),
    collect frames gs rects = none →
    ∃ g ∈ gs, frames.find? (fun f => f.generation == g) = none := by
  intro gs
  induction gs with
  | nil => intro rects h; simp [collect] at h
  | cons g gs ih =>
    intro rects h
    simp only [collect] at h
    cases hFind : frames.find? fun f => f.generation == g with
    | none => exact ⟨g, by simp, hFind⟩
    | some f =>
      rw [hFind] at h
      simp only at h
      split at h
      · cases h
      · obtain ⟨g', hg', hNone⟩ := ih _ h
        exact ⟨g', by simp [hg'], hNone⟩

/-- The rectangles tell of the frames after `from_` up to `last`: each was told
of since the layer was last forgotten and is kept, and they are what was told
first of all of them. -/
def TellsOf (t : Told) (serial from_ last : Nat) (rects : List IRect) : Prop :=
  (∀ g, from_ < g → g ≤ last →
    Keeps t.history serial g ∧ ∃ damage, firstTold (t.heard serial) g = some damage) ∧
  ∀ p, Covered rects p ↔
    ∃ g damage, from_ < g ∧ g ≤ last ∧ firstTold (t.heard serial) g = some damage ∧
      Covered damage p

section Answer

variable {t : Told} (h : HistoryKeeps t) {serial : Nat} {l : LayerFrames}
  (hLayer : t.history.find serial = some l)

include h hLayer in
/-- A frame found in a layer is kept, with what was first told of it. -/
theorem of_found {g : Nat} {f : Frame}
    (hFound : l.frames.find? (fun f => f.generation == g) = some f) :
    Keeps t.history serial g ∧ firstTold (t.heard serial) g = some f.damage := by
  have hMem := List.mem_of_find?_eq_some hFound
  have hGeneration : f.generation = g := by simpa using List.find?_some hFound
  refine ⟨⟨l, hLayer, f, hMem, hGeneration⟩, ?_⟩
  rw [← hGeneration]
  exact (h.layers serial l hLayer).first f hMem

include h hLayer in
theorem tellsOf_of_found {from_ last : Nat} {rects : List IRect}
    (hFound : ∀ g, from_ < g → g ≤ last →
      ∃ f, l.frames.find? (fun f => f.generation == g) = some f)
    (hCovered : ∀ p, Covered rects p ↔
      ∃ g f, from_ < g ∧ g ≤ last ∧ l.frames.find? (fun f => f.generation == g) = some f ∧
        Covered f.damage p) : TellsOf t serial from_ last rects := by
  refine ⟨fun g hAfter hUpTo => ?_, fun p => ?_⟩
  · obtain ⟨f, hf⟩ := hFound g hAfter hUpTo
    obtain ⟨hKept, hFirst⟩ := of_found h hLayer hf
    exact ⟨hKept, f.damage, hFirst⟩
  · rw [hCovered]
    constructor
    · rintro ⟨g, f, hAfter, hUpTo, hf, hIn⟩
      exact ⟨g, f.damage, hAfter, hUpTo, (of_found h hLayer hf).2, hIn⟩
    · rintro ⟨g, damage, hAfter, hUpTo, hFirst, hIn⟩
      obtain ⟨f, hf⟩ := hFound g hAfter hUpTo
      have hSame := (of_found h hLayer hf).2.symm.trans hFirst
      rw [← Option.some.inj hSame] at hIn
      exact ⟨g, f, hAfter, hUpTo, hf, hIn⟩

/-- An answer is of the frames kept of the layer. -/
theorem between_some {history : DamageHistory} {from_ upTo : Nat} {answer : List IRect × Bool}
    (hBetween : history.between serial from_ upTo = some answer) :
    ∃ l, history.find serial = some l ∧
      collect l.frames (List.range' (from_ + 1) (upTo - from_)) [] = some answer := by
  unfold between at hBetween
  cases hLayer : history.find serial with
  | none => simp [hLayer] at hBetween
  | some l =>
    rw [hLayer] at hBetween
    exact ⟨l, rfl, hBetween⟩

include h in
/-- An answer of parts of the buffer tells of all frames asked for, none of which
changed all of it. -/
theorem between_parts {from_ upTo : Nat} {rects : List IRect}
    (hBetween : t.history.between serial from_ upTo = some (rects, false)) :
    TellsOf t serial from_ upTo rects ∧
      ∀ g, from_ < g → g ≤ upTo → firstTold (t.heard serial) g ≠ some [] := by
  obtain ⟨l, hLayer, hCollect⟩ := between_some hBetween
  obtain ⟨seen, rest, hSplit, hSeen, hUpTo, -, hCovered⟩ := collect_some _ _ _ _ hCollect
  rw [hUpTo rfl, List.append_nil] at hSplit
  have hMem : ∀ g, g ∈ seen ↔ from_ < g ∧ g ≤ upTo := by
    intro g
    rw [← hSplit, List.mem_range'_1]
    omega
  refine ⟨tellsOf_of_found h hLayer (fun g hAfter hLe => ?_) fun p => ?_, fun g hAfter hLe => ?_⟩
  · obtain ⟨f, hf, -⟩ := hSeen g ((hMem g).mpr ⟨hAfter, hLe⟩)
    exact ⟨f, hf⟩
  · rw [hCovered]
    simp only [not_covered_nil, false_or, hMem]
    constructor
    · rintro ⟨g, ⟨hAfter, hLe⟩, f, hf, hIn⟩
      exact ⟨g, f, hAfter, hLe, hf, hIn⟩
    · rintro ⟨g, f, hAfter, hLe, hf, hIn⟩
      exact ⟨g, ⟨hAfter, hLe⟩, f, hf, hIn⟩
  · obtain ⟨f, hf, hPart⟩ := hSeen g ((hMem g).mpr ⟨hAfter, hLe⟩)
    rw [(of_found h hLayer hf).2]
    exact fun hEq => hPart (Option.some.inj hEq)

include h in
/-- An answer of all of the buffer tells of the frames up to the first that
changed all of it. -/
theorem between_whole {from_ upTo : Nat} {rects : List IRect}
    (hBetween : t.history.between serial from_ upTo = some (rects, true)) :
    ∃ last, from_ < last ∧ last ≤ upTo ∧ firstTold (t.heard serial) last = some [] ∧
      (∀ g, from_ < g → g < last → firstTold (t.heard serial) g ≠ some []) ∧
      TellsOf t serial from_ last rects := by
  obtain ⟨l, hLayer, hCollect⟩ := between_some hBetween
  obtain ⟨seen, rest, hSplit, hSeen, -, hWhole, hCovered⟩ := collect_some _ _ _ _ hCollect
  obtain ⟨last, rest', fLast, rfl, hLast, hAll⟩ := hWhole rfl
  obtain ⟨k, hk, rfl, hRest⟩ := List.range'_eq_append_iff.mp hSplit
  obtain ⟨hPlace, hMore, -⟩ := List.range'_eq_cons_iff.mp hRest.symm
  have hMem : ∀ g, g ∈ List.range' (from_ + 1) k ↔ from_ < g ∧ g < last := by
    intro g
    rw [List.mem_range'_1]
    omega
  have hFound : ∀ g, from_ < g → g ≤ last →
      ∃ f, l.frames.find? (fun f => f.generation == g) = some f := by
    intro g hAfter hLe
    by_cases hEq : g = last
    · exact ⟨fLast, hEq ▸ hLast⟩
    · obtain ⟨f, hf, -⟩ := hSeen g ((hMem g).mpr ⟨hAfter, by omega⟩)
      exact ⟨f, hf⟩
  have hFirst := (of_found h hLayer hLast).2
  rw [hAll] at hFirst
  refine ⟨last, by omega, by omega, hFirst, fun g hAfter hLt => ?_,
    tellsOf_of_found h hLayer hFound fun p => ?_⟩
  · obtain ⟨f, hf, hPart⟩ := hSeen g ((hMem g).mpr ⟨hAfter, hLt⟩)
    rw [(of_found h hLayer hf).2]
    exact fun hEq => hPart (Option.some.inj hEq)
  · rw [hCovered]
    simp only [not_covered_nil, false_or, hMem]
    constructor
    · rintro ⟨g, ⟨hAfter, hLt⟩, f, hf, hIn⟩
      exact ⟨g, f, hAfter, by omega, hf, hIn⟩
    · rintro ⟨g, f, hAfter, hLe, hf, hIn⟩
      by_cases hEq : g = last
      · -- the last frame has no rectangles
        rw [hEq, hLast] at hf
        rw [← Option.some.inj hf, hAll] at hIn
        exact absurd hIn (not_covered_nil p)
      · exact ⟨g, ⟨hAfter, by omega⟩, f, hf, hIn⟩

/-- No answer: nothing is kept of the layer, or a frame asked for is not. -/
theorem between_none {history : DamageHistory} {from_ upTo : Nat}
    (hBetween : history.between serial from_ upTo = none) :
    history.find serial = none ∨ ∃ g, from_ < g ∧ g ≤ upTo ∧ ¬Keeps history serial g := by
  unfold between at hBetween
  cases hLayer : history.find serial with
  | none => exact .inl rfl
  | some l =>
    rw [hLayer] at hBetween
    obtain ⟨g, hg, hNone⟩ := collect_none _ _ hBetween
    rw [List.mem_range'_1] at hg
    refine .inr ⟨g, by omega, by omega, ?_⟩
    rintro ⟨l', hl', f, hf, hGeneration⟩
    rw [← Option.some.inj (hLayer.symm.trans hl')] at hf
    exact absurd hGeneration (by simpa using List.find?_eq_none.mp hNone f hf)

end Answer

/-- **What the history answers** after any calls. An answer tells of the frames
asked for, up to the first that changed all of the buffer, each told of since the
layer was last forgotten and kept, with what was told of it first; no answer
means that one of them is not kept, or nothing of the layer is. Few frames of few
layers are kept, the layer heard from last among them. -/
theorem between_truthful (calls : List Call) :
    (∀ serial from_ upTo rects,
      (Told.of calls).history.between serial from_ upTo = some (rects, false) →
        TellsOf (Told.of calls) serial from_ upTo rects ∧
          ∀ g, from_ < g → g ≤ upTo → firstTold ((Told.of calls).heard serial) g ≠ some []) ∧
    (∀ serial from_ upTo rects,
      (Told.of calls).history.between serial from_ upTo = some (rects, true) →
        ∃ last, from_ < last ∧ last ≤ upTo ∧
          firstTold ((Told.of calls).heard serial) last = some [] ∧
          (∀ g, from_ < g → g < last → firstTold ((Told.of calls).heard serial) g ≠ some []) ∧
          TellsOf (Told.of calls) serial from_ last rects) ∧
    (∀ serial from_ upTo, (Told.of calls).history.between serial from_ upTo = none →
      (Told.of calls).history.find serial = none ∨
        ∃ g, from_ < g ∧ g ≤ upTo ∧ ¬Keeps (Told.of calls).history serial g) ∧
    (Told.of calls).history.layers.length ≤ kLayers ∧
    (∀ l ∈ (Told.of calls).history.layers, l.frames.length ≤ kFrames) ∧
    ∀ c, calls.getLast? = some c → ((Told.of calls).history.find c.serial).isSome := by
  have h := keeps_of calls
  refine ⟨fun _ _ _ _ => between_parts h, fun _ _ _ _ => between_whole h,
    fun _ _ _ => between_none, h.few, h.frames, fun c hLast => ?_⟩
  obtain ⟨before, rfl⟩ := List.getLast?_eq_some_iff.mp hLast
  have hHear : Told.of (before ++ [c]) = (Told.of before).hear c := by
    simp [Told.of]
  rw [hHear, find_hear (keeps_of before)]
  rfl

-- ---------------------------------------------------------------------------
-- What it forgot
-- ---------------------------------------------------------------------------

/-- A frame of a layer, the frames of as many others as are kept, and the frame
again with other damage. -/
def toldAgain : List Call :=
  ⟨1, 5, [⟨0, 0, 8, 8⟩]⟩ :: ((List.range kLayers).map fun i => ⟨i + 2, 1, []⟩) ++
    [⟨1, 5, [⟨8, 8, 16, 16⟩]⟩]

/-- Asked for no frames of a layer it keeps nothing of, it has no answer; and of
a layer forgotten in between it does not answer what was told first. -/
theorem between_forgets :
    (¬∀ (calls : List Call) (serial from_ upTo : Nat),
      (Told.of calls).history.between serial from_ upTo = none →
        ∃ g, from_ < g ∧ g ≤ upTo ∧ ¬Keeps (Told.of calls).history serial g) ∧
    ¬∀ (calls : List Call) (serial from_ upTo : Nat) (rects : List IRect),
      (Told.of calls).history.between serial from_ upTo = some (rects, false) →
        ∀ p, Covered rects p ↔
          ∃ g damage, from_ < g ∧ g ≤ upTo ∧
            firstTold (calls.filter fun c => c.serial == serial) g = some damage ∧
            Covered damage p := by
  constructor
  · intro h
    obtain ⟨g, hAfter, hUpTo, -⟩ := h [] 1 0 0 rfl
    omega
  · intro h
    have hAnswer : (Told.of toldAgain).history.between 1 4 5 =
        some ([⟨8, 8, 16, 16⟩], false) := by decide +kernel
    have hFirst : firstTold (toldAgain.filter fun c => c.serial == 1) 5 =
        some [⟨0, 0, 8, 8⟩] := by decide +kernel
    have hIn := (h toldAgain 1 4 5 _ hAnswer (0, 0)).mpr
      ⟨5, _, by omega, le_refl 5, hFirst, ⟨⟨0, 0, 8, 8⟩, by simp, by decide⟩⟩
    exact absurd hIn (by decide)

end TegraHwc.PartialRedraw
