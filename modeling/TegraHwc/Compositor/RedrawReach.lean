import TegraHwc.Compositor.GatherParts
import TegraHwc.Compositor.PartialRedrawSound

/-!
# TegraHwc — a redraw of members of any size

The redraw of `compositor/PartialRedraw.cpp` for an engine that draws scaled
members in part, which filters them: a point of a scaled member is made of the
texels around it, and the damage told of a texel has to reach every point the
texel is sampled at. Where it does, the points the plan leaves alone show the
new picture already; and the history the plan asks keeps telling the truth.

## Results

* `reached_of_unscaled` — damage reaches every point of a member that is not
  resized.
* `decide_leaves`       — the points a plan leaves alone are alike in the
  picture held and the new one.
* `record_truthful`     — a history told the truth tells it.
-/

namespace TegraHwc.PartialRedraw

open Raster
open Floats (singles)

-- ---------------------------------------------------------------------------
-- Sampling
-- ---------------------------------------------------------------------------

/-- Where in its buffer a straight member is sampled for a point's centre. -/
def sampleAt (m : Member) (p : Point) : Rat × Rat :=
  (m.src.left + ((p.1 : Rat) + 1 / 2 - m.dst.left) * (m.src.width / m.dst.width),
    m.src.top + ((p.2 : Rat) + 1 / 2 - m.dst.top) * (m.src.height / m.dst.height))

/-- A texel has a share in a point: its centre lies less than a texel away from
where the point is sampled, on both axes. -/
def Sampled (m : Member) (p q : Point) : Prop :=
  |(sampleAt m p).1 - (q.1 + 1 / 2)| < 1 ∧ |(sampleAt m p).2 - (q.2 + 1 / 2)| < 1

/-- A drawing that filters: a straight member makes a point of the texels that
have a share in it. -/
def Filters {Texel C : Type} (d : Drawing Texel C) : Prop :=
  ∀ m, m.transform = 0 → m.turned = noTurn → ∀ (pixels pixels' : Point → Texel) (p : Point)
    (below : C), (∀ q, Sampled m p q → pixels q = pixels' q) →
    d.shade m pixels p below = d.shade m pixels' p below

/-- The damage told of a member's newer frames reaches every point a damaged
texel has a share in. -/
def Reached (history : DamageHistory) (then_ now : Member) : Prop :=
  ∀ rects whole, history.between now.serial then_.generation now.generation = some (rects, whole) →
    ∀ r ∈ rects, ∀ p q, inside now.dst p → Sampled now p q → inside r q →
      inside (singles.onto r now (singles.scaled now)) p

/-- Where a member is not resized, the one texel with a share in a point is the
one under it. -/
theorem texel_of_sampled {m : Member} (hUnscaled : Unscaled m) {p q : Point}
    (hPlace : inside m.dst p) (h : Sampled m p q) : q = texel m p := by
  obtain ⟨hSrcWidth, hSrcHeight⟩ := hUnscaled.extents
  obtain ⟨l, t, hSrc⟩ := hUnscaled
  obtain ⟨hl, hr, ht, hb⟩ := hPlace
  have hWidth : m.src.width / m.dst.width = 1 := by
    rw [hSrcWidth, div_self]
    have : m.dst.width ≠ 0 := by unfold Rect.width; omega
    exact_mod_cast this
  have hHeight : m.src.height / m.dst.height = 1 := by
    rw [hSrcHeight, div_self]
    have : m.dst.height ≠ 0 := by unfold Rect.height; omega
    exact_mod_cast this
  have hLeft : m.src.left = (l : Rat) := by rw [hSrc]
  have hTop : m.src.top = (t : Rat) := by rw [hSrc]
  obtain ⟨hX, hY⟩ := h
  simp only [sampleAt, hWidth, hHeight, hLeft, hTop, mul_one] at hX hY
  have hX' : |((l + (p.1 - m.dst.left) - q.1 : Int) : Rat)| < 1 := by
    have hEq : ((l + (p.1 - m.dst.left) - q.1 : Int) : Rat) =
        (l : Rat) + ((p.1 : Rat) + 1 / 2 - m.dst.left) - (q.1 + 1 / 2) := by
      push_cast
      ring
    rw [hEq]
    exact hX
  have hY' : |((t + (p.2 - m.dst.top) - q.2 : Int) : Rat)| < 1 := by
    have hEq : ((t + (p.2 - m.dst.top) - q.2 : Int) : Rat) =
        (t : Rat) + ((p.2 : Rat) + 1 / 2 - m.dst.top) - (q.2 + 1 / 2) := by
      push_cast
      ring
    rw [hEq]
    exact hY
  have hFirst : |l + (p.1 - m.dst.left) - q.1| < 1 := by exact_mod_cast hX'
  have hSecond : |t + (p.2 - m.dst.top) - q.2| < 1 := by exact_mod_cast hY'
  rw [Int.abs_lt_one_iff] at hFirst hSecond
  unfold texel
  rw [hSrc]
  simp only [Int.floor_intCast]
  exact Prod.ext (by simp only; omega) (by simp only; omega)

/-- Damage reaches every point of a member that is not resized, of a size floats keep. -/
theorem reached_of_unscaled {now : Member} (hUnscaled : Unscaled now) (hSized : FloatSized now)
    (history : DamageHistory) (then_ : Member) : Reached history then_ now := by
  intro rects whole _ r _ p q hPlace hSampled hDamaged
  rw [texel_of_sampled hUnscaled hPlace hSampled] at hDamaged
  exact inside_onto hUnscaled hSized hPlace hDamaged _

-- ---------------------------------------------------------------------------
-- What a plan leaves alone
-- ---------------------------------------------------------------------------

/-- A pair of members told apart by their frames alone: turned as before and,
where the frame is newer, not turned at all and its damage reached. -/
def KeepsLook (history : DamageHistory) (then_ now : Member) : Prop :=
  now.turned = then_.turned ∧
    (then_.generation < now.generation → now.turned = noTurn ∧ Reached history then_ now)

/-- Every member that stays in sight keeps its look. -/
def LooksKept (history : DamageHistory) (held : Snapshot) (width height : UInt32)
    (members : List Member) : Prop :=
  ∀ (i : Nat) (then_ now : Member), held.members[i]? = some then_ → members[i]? = some now →
    InSight width height now → KeepsLook history then_ now

section Leaving

variable {Texel C : Type} {d : Drawing Texel C} {history : DamageHistory} {width height : UInt32}
  {p : Point}

/-- A pair that keeps its look paints a point alike where no damage was told. -/
theorem paint_kept (hFilters : Filters d) (hTrue : d.Truthful history) {now then_ : Member}
    {damage : List IRect} (hDamage : damageOf history now then_ = .ok damage)
    (hp : onBuffer width height p)
    (hKeeps : InSight width height now → KeepsLook history then_ now)
    (hClear : ¬Covered damage p) : d.paint now p = d.paint then_ p := by
  refine paint_of_shade hDamage (fun hInside => (hKeeps ⟨p, hp, hInside⟩).1)
    fun hInside hLt below => ?_
  -- a newer frame: the texels with a share in the point are old ones
  obtain ⟨hTurn, hReached⟩ := (hKeeps ⟨p, hp, hInside⟩).2 hLt
  obtain ⟨hStraight, rects, hBetween, hOld⟩ := newer_unchanged hTrue hDamage hLt hInside hClear
  refine hFilters (look now) hStraight hTurn _ _ p below fun q hSampled => ?_
  exact hOld q fun r hr hDamaged => hReached rects false hBetween r hr p q hInside hSampled hDamaged

/-- Members that keep their look show a point alike where no damage was told. -/
theorem picture_kept (hFilters : Filters d) (hTrue : d.Truthful history)
    {held members : List Member} (hLength : held.length = members.length)
    {damage : List IRect} (hDamage : damageOfAll history members held = .ok damage)
    (hp : onBuffer width height p)
    (hKeeps : ∀ (i : Nat) (then_ now : Member), held[i]? = some then_ → members[i]? = some now →
      InSight width height now → KeepsLook history then_ now)
    (hClear : ¬Covered damage p) : d.picture held p = d.picture members p := by
  refine picture_of_paint hLength hDamage fun i then_ now part hThen hNow hPart hIn => ?_
  refine paint_kept hFilters hTrue hPart hp (hKeeps i then_ now hThen hNow) ?_
  rintro ⟨r, hr, hInside⟩
  exact hClear ⟨r, hIn r hr, hInside⟩

/-- **What a plan leaves alone.** For a buffer something is known of and an
engine that draws scaled members in part, a point in none of the plan's parts is
alike in the picture held and the new one, through every exit of `Decide`. -/
theorem decide_leaves (hFilters : Filters d) (hTrue : d.Truthful history)
    (hSigned : SignedSize width height) {held : Snapshot} {members : List Member}
    {engine : Engine} (hEngine : engine.drawsScaledInPart = true)
    (hKnown : held.valid = true ∧ held.width = width ∧ held.height = height)
    (hKeeps : DrawnInFull held width height members ∨ LooksKept history held width height members)
    (hp : onBuffer width height p)
    (hLeft : ¬Covered (decide_ held width height members history engine).parts p) :
    d.picture held.members p = d.picture members p := by
  obtain ⟨hValid, hWidth, hHeight⟩ := hKnown
  have hNotLost : ¬(held.valid = false ∨ held.width ≠ width ∨ held.height ≠ height) := by
    simp [hValid, hWidth, hHeight]
  have hNotCut : ¬(engine.drawsScaledInPart = false ∧ members.any singles.scaled = true) := by
    simp [hEngine]
  rw [decide_, if_neg hNotLost, if_neg hNotCut] at hLeft
  simp only at hLeft
  split at hLeft
  · exact gather_leaves_clear d hSigned hp hLeft
  rename_i hLength
  split at hLeft
  · exact gather_leaves_clear d hSigned hp hLeft
  rename_i hRun
  split at hLeft
  · exact gather_leaves_clear d hSigned hp hLeft
  rename_i damage hDamage
  -- damage was told for every member, so the pairs keep their look
  have hLooks : LooksKept history held width height members := by
    refine hKeeps.resolve_left ?_
    rintro (h | h | h | h | h | ⟨i, then_, now, hThen, hNow, hAnew⟩)
    · rw [hValid] at h
      cases h
    · exact h hWidth
    · exact h hHeight
    · exact hLength h
    · exact hRun h
    · obtain ⟨part, hPart, -⟩ := damageOfAll_ok hDamage i now then_ hNow hThen
      exact (damageOf_ok hPart).1 hAnew
  have hAlike := picture_kept hFilters hTrue (not_not.mp hLength) hDamage hp hLooks
  have hGathered : Covered damage p →
      Covered (gather damage (frameOf width height) members engine) p :=
    gather_covers rfl rfl (inside_frameOf hSigned hp)
  split at hLeft
  · rename_i hNone
    rw [hNone] at hGathered
    exact hAlike fun hCovered => hLeft (hGathered hCovered)
  split at hLeft
  · exact gather_leaves_clear d hSigned hp hLeft
  · exact hAlike fun hCovered => hLeft (hGathered hCovered)

/-- A plan that finds nothing changed has no parts. -/
theorem decide_unchanged_parts {held : Snapshot} {members : List Member} {engine : Engine}
    (h : (decide_ held width height members history engine).kind = .kUnchanged) :
    (decide_ held width height members history engine).parts = [] := by
  revert h
  unfold decide_
  split
  · exact fun _ => rfl
  split
  · exact fun _ => rfl
  simp only
  split
  · exact fun h => (nomatch h)
  split
  · exact fun h => (nomatch h)
  split
  · exact fun h => (nomatch h)
  split
  · exact fun _ => rfl
  split
  · exact fun h => (nomatch h)
  · exact fun h => (nomatch h)

end Leaving

-- ---------------------------------------------------------------------------
-- The history
-- ---------------------------------------------------------------------------

/-- Damage told of a frame is true: outside it the frame is the one before. No
rectangles stand for all of the buffer. -/
def ToldTruly {Texel C : Type} (d : Drawing Texel C) (serial generation : Nat)
    (damage : List IRect) : Prop :=
  damage ≠ [] → ∀ q : Point, ¬Covered damage q →
    d.content serial generation q = d.content serial (generation - 1) q

theorem find_mem {history : DamageHistory} {serial : Nat} {l : LayerFrames}
    (h : history.find serial = some l) : l ∈ history.layers ∧ l.serial = serial := by
  refine ⟨List.mem_of_find?_eq_some h, ?_⟩
  simpa using List.find?_some h

theorem mem_of_dropOldest {layers : List LayerFrames} {l : LayerFrames}
    (h : l ∈ DamageHistory.dropOldest layers) : l ∈ layers := by
  unfold DamageHistory.dropOldest at h
  split at h
  · exact h
  · split at h
    · exact h
    · exact List.mem_of_mem_filter h

/-- A history that tells the truth and is told it goes on telling it. -/
theorem record_truthful {Texel C : Type} {d : Drawing Texel C} {history : DamageHistory}
    (hTrue : d.Truthful history) {serial generation : Nat} {damage : List IRect}
    (hTold : ToldTruly d serial generation damage) :
    d.Truthful (history.record serial generation damage) := by
  -- the layer's frames before, whichever they are
  have hLayer : ∀ f ∈ ((history.find serial).getD { serial := serial }).frames,
      f.damage ≠ [] → ∀ q : Point, ¬Covered f.damage q →
        d.content serial f.generation q = d.content serial (f.generation - 1) q := by
    intro f hf
    cases hFind : history.find serial with
    | none => simp [hFind] at hf
    | some l =>
      rw [hFind, Option.getD_some] at hf
      obtain ⟨hMem, rfl⟩ := find_mem hFind
      exact hTrue l hMem f hf
  have hSerial : ((history.find serial).getD { serial := serial }).serial = serial := by
    cases hFind : history.find serial with
    | none => rfl
    | some l => exact (find_mem hFind).2
  have hOthers : ∀ l ∈ history.layers.filter fun l => l.serial != serial, ∀ f ∈ l.frames,
      f.damage ≠ [] → ∀ q : Point, ¬Covered f.damage q →
        d.content l.serial f.generation q = d.content l.serial (f.generation - 1) q :=
    fun l hl => hTrue l (List.mem_of_mem_filter hl)
  unfold DamageHistory.record
  simp only
  split
  · intro l hl f hf
    rcases List.mem_cons.mp hl with rfl | hl
    · rw [hSerial]
      exact hLayer f hf
    · exact hOthers l hl f hf
  · have hAll : ∀ l ∈ DamageHistory.push
        { (history.find serial).getD { serial := serial } with recordedAt := history.clock + 1 }
        generation damage :: history.layers.filter fun l => l.serial != serial,
        ∀ f ∈ l.frames, f.damage ≠ [] → ∀ q : Point, ¬Covered f.damage q →
          d.content l.serial f.generation q = d.content l.serial (f.generation - 1) q := by
      intro l hl f hf
      rcases List.mem_cons.mp hl with rfl | hl
      · have hFrame := List.mem_of_mem_drop hf
        simp only [DamageHistory.push, hSerial]
        rcases List.mem_append.mp hFrame with hOld | hNew
        · exact hLayer f hOld
        · rw [List.mem_singleton.mp hNew]
          exact hTold
      · exact hOthers l hl f hf
    intro l hl
    refine hAll l ?_
    simp only at hl
    split at hl
    · exact mem_of_dropOldest hl
    · exact hl

-- ---------------------------------------------------------------------------
-- How many parts
-- ---------------------------------------------------------------------------

/-- At most `kMostParts` parts are in a plan. -/
theorem decide_parts_length_le (held : Snapshot) (width height : UInt32) (members : List Member)
    (history : DamageHistory) (engine : Engine) :
    (decide_ held width height members history engine).parts.length ≤ kMostParts := by
  unfold decide_
  split
  · simp
  split
  · simp
  simp only
  split
  · exact gather_length_le _ _ _ _
  split
  · exact gather_length_le _ _ _ _
  split
  · exact gather_length_le _ _ _ _
  split
  · simp
  split
  · exact gather_length_le _ _ _ _
  · exact gather_length_le _ _ _ _

end TegraHwc.PartialRedraw
