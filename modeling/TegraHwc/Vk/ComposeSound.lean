import TegraHwc.Vk.Compositor

/-!
# TegraHwc — the recorded drawing is the plain one

What the commands of `ComposeNow` leave in the target, against the picture they
stand for: every layer blended in order over transparent. The shortcuts, layers
written instead of blended and clears skipped, are those of `Lib/Raster`; here
are the conditions under which the code takes them.

## Results

* `execute_recordPart` — the draws of a part paint the stack inside it and
  nothing outside.
* `execute_record`     — the command buffer leaves the plain picture inside the
  parts and the target as it was outside them.
* `composeNow_plain`   — the same of the call, in terms of the parts asked for.
-/

namespace TegraHwc.Vk

open Raster (Stroke compose)

-- ---------------------------------------------------------------------------
-- The plain picture
-- ---------------------------------------------------------------------------

/-- A pixel of the target. -/
def Target.has (t : Target) (x y : Int) : Bool := t.whole.has x y

/-- Whether a layer lies on a pixel: an upright one on its destination, a turned
one where its corners land. -/
def Layer.lies (gpu : Gpu) (target : Target) (l : Layer) (x y : Int) : Bool :=
  if l.turned then
    gpu.rasterises (l.quad target.width target.height) target.width target.height x y
  else l.dst.has x y

/-- The destination of a turned layer bounds it. -/
def Layer.Bounded (gpu : Gpu) (target : Target) (l : Layer) : Prop :=
  l.turned = true → ∀ x y, target.has x y = true → l.lies gpu target x y = true →
    l.dst.has x y = true

/-- A layer as it paints the target. -/
def Source.stroke (gpu : Gpu) (target : Target) (s : Source) : Stroke (Int × Int) Pixel :=
  let shade := fun p : Int × Int =>
    gpu.shade (s.constants target.width target.height) s.image target.width target.height p.1 p.2
  { lands := fun p => s.layer.lies gpu target p.1 p.2
    ink := fun p => gpu.write (shade p)
    mixed := fun p below => gpu.blend (shade p) below }

/-- The picture of the layers: all of them blended, bottom first, over
transparent. -/
def plain (gpu : Gpu) (target : Target) (sources : List Source) (x y : Int) : Pixel :=
  compose (sources.map fun s => (s.stroke gpu target).blended) .transparent (x, y)

-- ---------------------------------------------------------------------------
-- Blending and writing
-- ---------------------------------------------------------------------------

/-- Blending onto what a clear leaves is writing. -/
theorem Gpu.blend_transparent (gpu : Gpu) (src : Pixel) :
    gpu.blend src .transparent = gpu.write src := by
  simp [Gpu.blend, Gpu.write, Pixel.transparent]

/-- Blending a colour without translucency is writing it. -/
theorem Gpu.blend_of_one_le (gpu : Gpu) {src : Pixel} (h : 1 ≤ src.a) (dst : Pixel) :
    gpu.blend src dst = gpu.write src := by
  have hAlpha : src.held.a = 1 := by
    simp only [Pixel.held]
    rw [min_eq_right h]
    exact max_eq_right zero_le_one
  simp only [Gpu.blend, Gpu.write, hAlpha, sub_self, zero_mul, add_zero]
  rw [← hAlpha]

/-- A layer found to hide what it lands on shades every pixel without
translucency. -/
theorem Source.one_le_of_hides {gpu : Gpu} {s : Source} (h : s.hides = true)
    (width height : Nat) (uv : Point) (x y : Int) :
    1 ≤ (gpu.fragment (s.constants width height) s.image uv x y).a := by
  simp only [Source.hides, Bool.and_eq_true, decide_eq_true_eq, Bool.not_eq_true'] at h
  obtain ⟨⟨⟨-, hAlpha⟩, hRadius⟩, hSolid⟩ := h
  have hNoMask : ¬0 < s.layer.cornerRadius := not_lt.mpr hRadius
  simp only [Gpu.fragment, Source.constants, ← Option.not_isSome, hNoMask, if_false, Pixel.scale]
  cases hBuffer : s.layer.buffer.isSome with
  | false =>
    have hColor : 1 ≤ s.layer.color.a := by simpa [hBuffer] using hSolid
    simp only [Bool.not_false, if_true, Pixel.premultiply]
    exact one_le_mul_of_one_le_of_one_le hColor hAlpha
  | true =>
    have hOpaque : (s.layer.opaque_ || s.opaque_) = true := by simpa [hBuffer] using hSolid
    simp only [Bool.not_true, Bool.false_eq_true, if_false, hOpaque, if_true]
    split
    · simpa using hAlpha
    · simpa [Pixel.premultiply] using hAlpha

theorem Source.stroke_over_transparent (gpu : Gpu) (target : Target) (s : Source) (p : Int × Int) :
    (s.stroke gpu target).mixed p .transparent = (s.stroke gpu target).ink p :=
  gpu.blend_transparent _

theorem Source.stroke_hides {gpu : Gpu} {target : Target} {s : Source} (h : s.hides = true)
    (p : Int × Int) : (s.stroke gpu target).Hides p := fun _ =>
  gpu.blend_of_one_le (s.one_le_of_hides h _ _ _ _ _) _

-- ---------------------------------------------------------------------------
-- Places
-- ---------------------------------------------------------------------------

theorem Target.has_iff {t : Target} {x y : Int} :
    t.has x y = true ↔ 0 ≤ x ∧ x < t.width ∧ 0 ≤ y ∧ y < t.height := by
  simp [Target.has, Target.whole, Rect2D.has_iff]

theorem Box.rect_has {b : Box} {x y : Int} : b.rect.has x y = b.has x y := by
  rw [Bool.eq_iff_iff, Rect2D.has_iff, Box.has_iff]
  simp only [Box.rect]
  omega

theorem cutTo_has {area : Rect2D} {l : Layer} {x y : Int} :
    (cutTo area l).has x y = true ↔ l.dst.has x y = true ∧ area.has x y = true := by
  rw [Box.has_iff, Box.has_iff, Rect2D.has_iff]
  simp only [cutTo]
  omega

/-- Two places that share a pixel meet. -/
theorem meet_of_has {a b : Rect2D} {x y : Int} (ha : a.has x y = true) (hb : b.has x y = true) :
    meet a b = true := by
  rw [Rect2D.has_iff] at ha hb
  simp only [meet, Bool.and_eq_true, decide_eq_true_eq]
  omega

theorem landsOnDrawn_of_has {earlier : List Rect2D} {cut : Box} {d : Rect2D} {x y : Int}
    (hMem : d ∈ earlier) (hd : d.has x y = true) (hCut : cut.has x y = true) :
    landsOnDrawn earlier cut = true := by
  rw [Rect2D.has_iff] at hd
  rw [Box.has_iff] at hCut
  refine List.any_eq_true.mpr ⟨d, hMem, ?_⟩
  simp only [Bool.and_eq_true, decide_eq_true_eq]
  omega

/-- The quad of a layer with a place takes the pixels the layer lies on. -/
theorem Layer.rasterises_eq_lies {gpu : Gpu} {target : Target} {l : Layer} {x y : Int}
    (hIn : target.has x y = true) (hAcross : l.dst.left < l.dst.right)
    (hDown : l.dst.top < l.dst.bottom) :
    gpu.rasterises (l.quad target.width target.height) target.width target.height x y =
      l.lies gpu target x y := by
  rw [Target.has_iff] at hIn
  unfold Layer.lies
  split
  · rfl
  · rename_i hUpright
    simp only [Gpu.rasterises, Layer.quad, hUpright, Bool.false_eq_true, if_false]
    rw [placeLayer_inside_iff (by omega) (by omega) hAcross hDown,
      placeLayer_onEdge (by omega) (by omega) hAcross hDown]
    simp

/-- Wherever it lies, a layer lies on its destination. -/
theorem Layer.Bounded.dst_has {gpu : Gpu} {target : Target} {l : Layer}
    (hBounded : l.Bounded gpu target) {x y : Int} (hIn : target.has x y = true)
    (hLies : l.lies gpu target x y = true) : l.dst.has x y = true := by
  cases hTurned : l.turned with
  | true => exact hBounded hTurned x y hIn hLies
  | false => simpa [Layer.lies, hTurned] using hLies

-- ---------------------------------------------------------------------------
-- Which layers are written
-- ---------------------------------------------------------------------------

section Placing

variable {vk : Device} {area : Rect2D}

theorem placeAll_sources (earlier : List Rect2D) (sources : List Source) :
    (placeAll vk area earlier sources).map (·.source) = sources := by
  induction sources generalizing earlier with
  | nil => rfl
  | cons s rest ih => simp [placeAll, ih]

theorem cut_of_mem_placeAll {earlier : List Rect2D} {sources : List Source} {p : Placed}
    (h : p ∈ placeAll vk area earlier sources) : p.cut = cutTo area p.source.layer := by
  induction sources generalizing earlier with
  | nil => simp [placeAll] at h
  | cons s rest ih =>
    rw [placeAll, List.mem_cons] at h
    rcases h with rfl | h
    · rfl
    · exact ih h

theorem source_mem_of_placeAll {earlier : List Rect2D} {sources : List Source} {p : Placed}
    (h : p ∈ placeAll vk area earlier sources) : p.source ∈ sources := by
  rw [← placeAll_sources earlier sources]
  exact List.mem_map_of_mem h

theorem upright_of_written {earlier : List Rect2D} {sources : List Source} {p : Placed}
    (h : p ∈ placeAll vk area earlier sources) (hWritten : p.written = true) :
    p.source.layer.turned = false := by
  induction sources generalizing earlier with
  | nil => simp [placeAll] at h
  | cons s rest ih =>
    rw [placeAll, List.mem_cons] at h
    rcases h with rfl | h
    · simp only [Bool.and_eq_true, Bool.not_eq_true'] at hWritten
      exact hWritten.1.2
    · exact ih h

/-- A layer is written only where it lands on none of the places before it, or
hides whatever it lands on. -/
theorem written_of_split {before : List Rect2D} {sources : List Source} {earlier : List Placed}
    {p : Placed} {rest : List Placed}
    (hSplit : placeAll vk area before sources = earlier ++ p :: rest)
    (hWritten : p.written = true) :
    landsOnDrawn (before ++ earlier.map (·.place)) p.cut = false ∨ p.source.hides = true := by
  induction sources generalizing before earlier with
  | nil => simp [placeAll] at hSplit
  | cons s sources ih =>
    rw [placeAll] at hSplit
    cases earlier with
    | nil =>
      obtain ⟨rfl, -⟩ := List.cons.inj hSplit
      simp only [Bool.and_eq_true, Bool.or_eq_true, Bool.not_eq_true'] at hWritten
      simpa using hWritten.2
    | cons e earlier =>
      obtain ⟨hFirst, hRest⟩ := List.cons.inj hSplit
      have hPlace : e.place = (cutTo area s.layer).rect := by
        rw [← hFirst]
        rfl
      have hLater := ih hRest
      rw [List.append_assoc] at hLater
      rw [List.map_cons, hPlace]
      exact hLater

variable {gpu : Gpu} {target : Target} {sources : List Source} {x y : Int}

/-- The stack of a drawing: each layer as it paints, and whether it is written. -/
def strokes (gpu : Gpu) (target : Target) (placed : List Placed) :
    List (Stroke (Int × Int) Pixel × Bool) :=
  placed.map fun p => (p.source.stroke gpu target, p.written)

/-- A layer's cut holds the pixels of the area the layer lies on. -/
theorem cut_has_of_lies {p : Placed} (hMem : p ∈ placeAll vk area [] sources)
    (hBounded : ∀ s ∈ sources, s.layer.Bounded gpu target) (hIn : target.has x y = true)
    (hArea : area.has x y = true) (hLies : p.source.layer.lies gpu target x y = true) :
    p.cut.has x y = true := by
  rw [cut_of_mem_placeAll hMem, cutTo_has]
  exact ⟨(hBounded _ (source_mem_of_placeAll hMem)).dst_has hIn hLies, hArea⟩

/-- The layers written are spared rightly, at every pixel of the area. -/
theorem placeAll_spares (hBounded : ∀ s ∈ sources, s.layer.Bounded gpu target)
    (hIn : target.has x y = true) (hArea : area.has x y = true) :
    Stroke.Spares (strokes gpu target (placeAll vk area [] sources)) (x, y) := by
  intro earlier s rest hSplit hLands
  rw [strokes, List.map_eq_append_iff] at hSplit
  obtain ⟨placedBefore, placedFrom, hPlaced, rfl, hFrom⟩ := hSplit
  obtain ⟨p, placedAfter, rfl, hFirst, -⟩ := List.map_eq_cons_iff.mp hFrom
  obtain ⟨rfl, hWritten⟩ := Prod.mk.inj hFirst
  have hMem : p ∈ placeAll vk area [] sources := by simp [hPlaced]
  rcases written_of_split hPlaced hWritten with hBare | hHides
  · refine Or.inl fun e he => ?_
    obtain ⟨q, hq, rfl⟩ := List.mem_map.mp he
    by_contra hMeets
    -- a layer before that lies here too has a place the cut lands on
    have hQ : q ∈ placeAll vk area [] sources := by simp [hPlaced, hq]
    have hPlace : q.place.has x y = true := by
      rw [Placed.place, Box.rect_has]
      exact cut_has_of_lies hQ hBounded hIn hArea (Bool.not_eq_false _ ▸ hMeets)
    have hLanded := landsOnDrawn_of_has (List.mem_map_of_mem hq) hPlace
      (cut_has_of_lies hMem hBounded hIn hArea hLands)
    rw [List.nil_append] at hBare
    rw [hBare] at hLanded
    cases hLanded
  · exact Or.inr (Source.stroke_hides hHides _)

/-- A pixel a written place covers is one a written layer lies on. -/
theorem lands_of_writtenPlaces {b : Box} (hMem : b ∈ writtenPlaces (placeAll vk area [] sources))
    (hHas : b.has x y = true) :
    ∃ s, (s, true) ∈ strokes gpu target (placeAll vk area [] sources) ∧ s.lands (x, y) = true := by
  obtain ⟨p, hp, rfl⟩ := List.mem_map.mp hMem
  obtain ⟨hPlaced, hKept⟩ := List.mem_filter.mp hp
  simp only [Bool.and_eq_true, decide_eq_true_eq] at hKept
  refine ⟨p.source.stroke gpu target, List.mem_map.mpr ⟨p, hPlaced, by rw [hKept.1.1]⟩, ?_⟩
  rw [cut_of_mem_placeAll hPlaced, cutTo_has] at hHas
  simp [Source.stroke, Layer.lies, upright_of_written hPlaced hKept.1.1, hHas.1]

/-- A pixel painted with some of the layers written shows the plain picture,
when it starts clear or some written layer lies on it. -/
theorem compose_placed (hBounded : ∀ s ∈ sources, s.layer.Bounded gpu target)
    (hIn : target.has x y = true) (hArea : area.has x y = true) {ground : Pixel}
    (hGround : ground = .transparent ∨
      ∃ s, (s, true) ∈ strokes gpu target (placeAll vk area [] sources) ∧ s.lands (x, y) = true) :
    compose ((strokes gpu target (placeAll vk area [] sources)).map fun e => e.1.drawn e.2) ground
      (x, y) = plain gpu target sources x y := by
  have hClear : compose ((strokes gpu target (placeAll vk area [] sources)).map fun e =>
      e.1.drawn e.2) .transparent (x, y) = plain gpu target sources x y := by
    rw [Raster.compose_drawn ?_ (placeAll_spares hBounded hIn hArea), plain, strokes, List.map_map]
    · have hSources := @placeAll_sources vk area [] sources
      rw [← hSources, List.map_map, hSources]
      rfl
    · intro e he
      obtain ⟨p, -, rfl⟩ := List.mem_map.mp he
      exact Source.stroke_over_transparent gpu target p.source (x, y)
  rcases hGround with rfl | hWritten
  · exact hClear
  · rw [Raster.compose_drawn_over hWritten ground .transparent, hClear]

end Placing

-- ---------------------------------------------------------------------------
-- Running the draws
-- ---------------------------------------------------------------------------

@[simp] theorem execute_nil (gpu : Gpu) (m : Machine) : execute gpu [] m = m := rfl

@[simp] theorem execute_cons (gpu : Gpu) (c : Command) (commands : List Command) (m : Machine) :
    execute gpu (c :: commands) m = execute gpu commands (m.step gpu c) := rfl

@[simp] theorem execute_append (gpu : Gpu) (commands more : List Command) (m : Machine) :
    execute gpu (commands ++ more) m = execute gpu more (execute gpu commands m) := by
  simp [execute]

/-- Binding a pipeline only where it is not the one bound leaves it bound. -/
theorem execute_bind (gpu : Gpu) (want : Pipeline) (m : Machine) :
    execute gpu (if want ≠ m.bound then [.bindPipeline want] else []) m =
      { m with bound := want } := by
  split
  · rfl
  · rename_i hSame
    rw [not_not.mp hSame]
    rfl

section Running

variable {vk : Device} {gpu : Gpu} {target : Target} {area : Rect2D} {sources : List Source}

/-- The machine is set up for the target. -/
def Machine.Shows (m : Machine) (target : Target) : Prop :=
  m.viewportWidth = target.width ∧ m.viewportHeight = target.height

/-- One draw paints what its layer paints, inside the scissor. -/
theorem draw_content {m : Machine} (hShows : m.Shows target) {p : Placed}
    (hBound : m.bound = if p.written then .replace else .blend) {x y : Int}
    (hTakes : gpu.rasterises (p.source.layer.quad target.width target.height) target.width
      target.height x y = p.source.layer.lies gpu target x y) :
    m.draw gpu (p.source.constants target.width target.height) p.source.image x y =
      if m.scissor.has x y then
        (p.source.stroke gpu target).drawn p.written (x, y) (m.content x y)
      else m.content x y := by
  have hQuad : (p.source.constants target.width target.height).quad =
      p.source.layer.quad target.width target.height := rfl
  simp only [Machine.draw, hShows.1, hShows.2, hQuad, hTakes, hBound]
  cases hIn : m.scissor.has x y with
  | false => simp
  | true =>
    cases hWritten : p.written <;> cases hLies : p.source.layer.lies gpu target x y <;>
      simp [Stroke.drawn, Stroke.written, Stroke.blended, Source.stroke, hLies]

/-- The draws of a part leave the machine set up as it was, with the pipeline
bound that the recording says. -/
theorem execute_recordPart_setup (placed : List Placed) (part : Rect2D) (m : Machine) :
    let r := recordPart target part placed m.bound
    let m' := execute gpu r.1 m
    m'.bound = r.2 ∧ m'.scissor = m.scissor ∧ m'.viewportWidth = m.viewportWidth ∧
      m'.viewportHeight = m.viewportHeight := by
  induction placed generalizing m with
  | nil => exact ⟨rfl, rfl, rfl, rfl⟩
  | cons p rest ih =>
    simp only [recordPart]
    split
    · exact ih m
    · simp only [execute_append, execute_bind, execute_cons]
      exact ih (Machine.step gpu { m with bound := if p.written then .replace else .blend }
        (.draw (p.source.constants target.width target.height) p.source.image))

/-- The draws of a part paint the stack inside it and nothing outside. The
induction takes the layers in order; a layer that is not drawn for the part lies
on none of its pixels. -/
theorem execute_recordPart {part : Rect2D} {x y : Int} {placed : List Placed}
    (hMem : ∀ p ∈ placed, p ∈ placeAll vk area [] sources)
    (hBounded : ∀ s ∈ sources, s.layer.Bounded gpu target) (hIn : target.has x y = true)
    (hPart : part.has x y = true → area.has x y = true)
    (m : Machine) (hShows : m.Shows target) (hScissor : m.scissor = part) :
    (execute gpu (recordPart target part placed m.bound).1 m).content x y =
      if part.has x y then
        compose ((strokes gpu target placed).map fun e => e.1.drawn e.2) (m.content x y) (x, y)
      else m.content x y := by
  induction placed generalizing m with
  | nil => simp [recordPart, strokes]
  | cons p rest ih =>
    have hPlaced : p ∈ placeAll vk area [] sources := hMem p (by simp)
    have ih := fun m hShows hScissor => ih (fun q hq => hMem q (by simp [hq])) m hShows hScissor
    simp only [recordPart]
    split
    · rename_i hSkip
      rw [ih m hShows hScissor]
      split
      · rename_i hHere
        have hAway : (p.source.stroke gpu target).lands (x, y) = false := by
          by_contra hLies
          have hPlace : p.place.has x y = true := by
            rw [Placed.place, Box.rect_has]
            exact cut_has_of_lies hPlaced hBounded hIn (hPart hHere) (Bool.not_eq_false _ ▸ hLies)
          have hMeet : meet p.place part = true := meet_of_has hPlace hHere
          rw [Rect2D.has_iff] at hPlace
          rcases hSkip with hNarrow | hFlat | hApart
          · omega
          · omega
          · rw [hMeet] at hApart
            cases hApart
        simp [strokes, Stroke.drawn_of_not_lands hAway]
      · rfl
    · rename_i hDrawn
      have hTakes : gpu.rasterises (p.source.layer.quad target.width target.height) target.width
          target.height x y = p.source.layer.lies gpu target x y := by
        push Not at hDrawn
        have hCut := cut_of_mem_placeAll hPlaced
        have hAcross : p.place.width ≠ 0 := hDrawn.1
        have hDown : p.place.height ≠ 0 := hDrawn.2.1
        simp only [Placed.place, Box.rect, hCut, cutTo] at hAcross hDown
        exact Layer.rasterises_eq_lies hIn (by omega) (by omega)
      simp only [execute_append, execute_bind, execute_cons]
      have hAfter := ih
        (Machine.step gpu { m with bound := if p.written then .replace else .blend }
          (.draw (p.source.constants target.width target.height) p.source.image)) hShows hScissor
      refine hAfter.trans ?_
      have hDraw := draw_content (m := { m with bound := if p.written then .replace else .blend })
        hShows rfl hTakes
      simp only [Machine.step]
      rw [hDraw]
      simp only [hScissor]
      cases part.has x y with
      | false => rfl
      | true => rfl

/-- The parts one after another: each pixel of a part is painted once. -/
theorem execute_recordParts {x y : Int} {parts : List Rect2D}
    (hBounded : ∀ s ∈ sources, s.layer.Bounded gpu target) (hIn : target.has x y = true)
    (hParts : ∀ part ∈ parts, part.has x y = true → area.has x y = true)
    (hApart : parts.Pairwise fun a b => a.has x y = true → b.has x y = false)
    (m : Machine) (hShows : m.Shows target) :
    (execute gpu (recordParts target (placeAll vk area [] sources) parts m.bound) m).content x y =
      if parts.any (·.has x y) then
        compose ((strokes gpu target (placeAll vk area [] sources)).map fun e => e.1.drawn e.2)
          (m.content x y) (x, y)
      else m.content x y := by
  induction parts generalizing m with
  | nil => simp [recordParts]
  | cons part rest ih =>
    obtain ⟨hFirst, hRest⟩ := List.pairwise_cons.mp hApart
    have ih := fun m hShows => ih (fun q hq => hParts q (by simp [hq])) hRest m hShows
    obtain ⟨hBound, -, hWidth, hHeight⟩ := @execute_recordPart_setup gpu target
      (placeAll vk area [] sources) part (m.step gpu (.setScissor part))
    have hPainted := execute_recordPart (fun p (hp : p ∈ placeAll vk area [] sources) => hp)
      hBounded hIn (hParts part (by simp)) (m.step gpu (.setScissor part)) hShows rfl
    have hSame : (m.step gpu (.setScissor part)).bound = m.bound := rfl
    have hHeld : (m.step gpu (.setScissor part)).content = m.content := rfl
    rw [hSame] at hBound hWidth hHeight hPainted
    rw [hHeld] at hPainted
    simp only [recordParts, execute_cons, execute_append]
    rw [← hBound, ih _ ⟨hWidth.trans hShows.1, hHeight.trans hShows.2⟩, hPainted, List.any_cons]
    cases hHere : part.has x y with
    | false => simp
    | true =>
      have hElsewhere : rest.any (·.has x y) = false :=
        List.any_eq_false.mpr fun q hq => by simp [hFirst q hq hHere]
      simp [hElsewhere]

end Running

-- ---------------------------------------------------------------------------
-- What is drawn of the target
-- ---------------------------------------------------------------------------

theorem join_has {a b : Rect2D} {x y : Int} (h : a.has x y = true ∨ b.has x y = true) :
    (join a b).has x y = true := by
  rw [join, Box.rect_has, Box.has_iff]
  rw [Rect2D.has_iff, Rect2D.has_iff] at h
  simp only
  omega

theorem foldl_join_has {first : Rect2D} {rest : List Rect2D} {x y : Int}
    (h : first.has x y = true ∨ ∃ p ∈ rest, p.has x y = true) :
    (rest.foldl join first).has x y = true := by
  induction rest generalizing first with
  | nil => simpa using h
  | cons p rest ih =>
    rw [List.foldl_cons]
    refine ih ?_
    rcases h with hFirst | ⟨q, hq, hHas⟩
    · exact Or.inl (join_has (Or.inl hFirst))
    · rcases List.mem_cons.mp hq with rfl | hq
      · exact Or.inl (join_has (Or.inr hHas))
      · exact Or.inr ⟨q, hq, hHas⟩

/-- A part cut to the target holds the pixels it shares with it. -/
theorem clip_has {t : Target} {p : Box} {r : Rect2D} (h : t.clip p = some r) {x y : Int} :
    r.has x y = true ↔ p.has x y = true ∧ t.has x y = true := by
  simp only [Target.clip] at h
  split at h
  · cases h
    rw [Box.rect_has, Box.has_iff, Box.has_iff, Target.has_iff]
    simp only
    omega
  · cases h

/-- A part that shares a pixel with the target is not cut away. -/
theorem clip_isSome_of_has {t : Target} {p : Box} {x y : Int} (hPart : p.has x y = true)
    (hIn : t.has x y = true) : ∃ r, t.clip p = some r := by
  rw [Box.has_iff] at hPart
  rw [Target.has_iff] at hIn
  simp only [Target.clip]
  rw [if_pos (by omega)]
  exact ⟨_, rfl⟩

/-- What a region is drawn with: the parts lie in the area, and but for a pass
that loads the target the area is the only part; a pass that begins from nothing
draws all of the target. -/
structure Region.Sound (target : Target) (r : Region) : Prop where
  parts_area : ∀ part ∈ r.parts, ∀ x y, part.has x y = true → r.area.has x y = true
  one : r.pass ≠ .load → r.parts = [r.area]
  all : r.pass = .render → r.area = target.whole
  made : r.pass = .render ∨ r.pass = .keep ∨ r.pass = .load

theorem Region.sound_whole (target : Target) : (Region.whole target).Sound target where
  parts_area := by simp [Region.whole]
  one := fun _ => rfl
  all := fun _ => rfl
  made := Or.inl rfl

theorem region_sound (vk : Device) (target : Target) (isDrawn : Bool) :
    (region vk target isDrawn).Sound target := by
  unfold region
  split
  · split
    · exact Region.sound_whole target
    · exact
        { parts_area := by simp
          one := fun _ => rfl
          all := fun h => (nomatch h)
          made := Or.inr (Or.inl rfl) }
    · rename_i first rest _ _
      refine
        { parts_area := fun part hPart x y hHas => foldl_join_has ?_
          one := fun h => absurd rfl h
          all := fun h => (nomatch h)
          made := Or.inr (Or.inr rfl) }
      rcases List.mem_cons.mp hPart with rfl | hLater
      · exact Or.inl hHas
      · exact Or.inr ⟨part, hLater, hHas⟩
  · exact Region.sound_whole target

-- ---------------------------------------------------------------------------
-- Beginning the pass
-- ---------------------------------------------------------------------------

section Beginning

variable {vk : Device} {gpu : Gpu} {target : Target} {r : Region} {placed : List Placed}
  {old : Content} {x y : Int}

/-- The target once the pass has begun and the parts that need it are cleared. -/
def begunOver (vk : Device) (gpu : Gpu) (r : Region) (placed : List Placed) (old : Content) :
    Content := fun x y =>
  let clears := toClear r.parts placed
  let pass := choosePass vk r.pass clears
  if pass = .load ∧ clears.any (·.has x y) = true then .transparent
  else pass.begun gpu r.area old x y

theorem choosePass_load {clears : List Rect2D} {pass : RenderPass} :
    choosePass vk pass clears = .load ↔ pass = .load := by
  unfold choosePass
  split
  · rename_i h
    split
    · split <;> simp_all
    · split <;> simp_all
  · rfl

theorem choosePass_of_clears {clears : List Rect2D} {pass : RenderPass} (h : clears ≠ []) :
    choosePass vk pass clears = pass := by
  rw [choosePass, if_neg fun hBoth => h hBoth.2]

theorem choosePass_keepsLayout {clears : List Rect2D} {pass : RenderPass}
    (hMade : pass = .render ∨ pass = .keep ∨ pass = .load) :
    (choosePass vk pass clears).keepsLayout = pass.keepsLayout := by
  unfold choosePass
  rcases hMade with rfl | rfl | rfl
  · split
    · simp only [reduceCtorEq, if_false]
      split <;> rfl
    · rfl
  · split
    · simp only [if_true]
      split <;> rfl
    · rfl
  · simp

/-- A pixel of a part starts clear, or some written layer lies on it. -/
theorem begunOver_part (hSound : r.Sound target)
    (hCovered : ∀ b ∈ writtenPlaces placed, b.has x y = true →
      ∃ s, (s, true) ∈ strokes gpu target placed ∧ s.lands (x, y) = true)
    {part : Rect2D} (hMem : part ∈ r.parts) (hHas : part.has x y = true) :
    begunOver vk gpu r placed old x y = .transparent ∨
      ∃ s, (s, true) ∈ strokes gpu target placed ∧ s.lands (x, y) = true := by
  by_cases hCovers : covers part.box (writtenPlaces placed) = true
  · obtain ⟨b, hb, hIn⟩ := covers_sound hCovers hHas
    exact Or.inr (hCovered b hb hIn)
  · have hClear : part ∈ toClear r.parts placed :=
      List.mem_filter.mpr ⟨hMem, by simp [hCovers]⟩
    have hSome : toClear r.parts placed ≠ [] := List.ne_nil_of_mem hClear
    have hAny : (toClear r.parts placed).any (·.has x y) = true :=
      List.any_eq_true.mpr ⟨part, hClear, hHas⟩
    refine Or.inl ?_
    simp only [begunOver, choosePass_of_clears hSome, hAny, and_true]
    -- a pass that does not load the target clears its area itself
    rcases hSound.made with hPass | hPass | hPass
    · simp [hPass, RenderPass.begun, RenderPass.loadOp, hSound.parts_area part hMem x y hHas]
    · simp [hPass, RenderPass.begun, RenderPass.loadOp, hSound.parts_area part hMem x y hHas]
    · simp [hPass]

/-- A pixel of no part starts as it was. -/
theorem begunOver_outside (hSound : r.Sound target) (hIn : target.has x y = true)
    (hOutside : ∀ part ∈ r.parts, part.has x y = false) :
    begunOver vk gpu r placed old x y = old x y := by
  have hNoClear : (toClear r.parts placed).any (·.has x y) = false :=
    List.any_eq_false.mpr fun part hPart => by
      simp [hOutside part (List.mem_of_mem_filter hPart)]
  have hKeeps := @choosePass_keepsLayout vk (toClear r.parts placed) _ hSound.made
  simp only [begunOver, hNoClear, Bool.false_eq_true, and_false, if_false, RenderPass.begun, hKeeps]
  by_cases hLoad : r.pass = .load
  · have hChosen : choosePass vk r.pass (toClear r.parts placed) = .load :=
      choosePass_load.mpr hLoad
    rw [hChosen, hLoad]
    simp [RenderPass.loadOp, RenderPass.keepsLayout]
  · have hArea : r.area.has x y = false :=
      hOutside r.area (by simp [hSound.one hLoad])
    rcases hSound.made with hPass | hPass | hPass
    · -- all of the target is drawn: no pixel of it lies outside
      rw [hSound.all hPass] at hArea
      rw [Target.has, hArea] at hIn
      cases hIn
    · simp [hArea, hPass, RenderPass.keepsLayout]
    · exact absurd hPass hLoad

end Beginning

/-- The command buffer leaves the plain picture inside the parts drawn and the
target as it was outside them. -/
theorem execute_record {vk : Device} {gpu : Gpu} {target : Target} {isDrawn : Bool}
    {sources : List Source} (old : Content)
    (hBounded : ∀ s ∈ sources, s.layer.Bounded gpu target) {x y : Int}
    (hIn : target.has x y = true)
    (hApart : (region vk target isDrawn).parts.Pairwise fun a b =>
      a.has x y = true → b.has x y = false) :
    (execute gpu (record vk target isDrawn sources) { content := old }).content x y =
      if (region vk target isDrawn).parts.any (·.has x y) then plain gpu target sources x y
      else old x y := by
  have hSound := region_sound vk target isDrawn
  generalize hRegion : region vk target isDrawn = r at hSound hApart ⊢
  generalize hPlaced : placeAll vk r.area [] sources = placed
  have hRecord : record vk target isDrawn sources =
      [.beginRenderPass (choosePass vk r.pass (toClear r.parts placed)) r.area,
        .bindPipeline .blend, .setViewport target.width target.height] ++
      (if choosePass vk r.pass (toClear r.parts placed) = .load ∧ toClear r.parts placed ≠ [] then
        [.clearAttachments (toClear r.parts placed)] else []) ++
      recordParts target placed r.parts .blend := by
    rw [record, hRegion]
    simp only [hPlaced]
  -- the machine when the draws start
  obtain ⟨m, hm, hContent, hShows, hBound⟩ : ∃ m : Machine,
      execute gpu (record vk target isDrawn sources) { content := old } =
        execute gpu (recordParts target placed r.parts m.bound) m ∧
      m.content x y = begunOver vk gpu r placed old x y ∧ m.Shows target ∧ m.bound = .blend := by
    rw [hRecord, execute_append, execute_append]
    split
    · refine ⟨_, rfl, ?_, ⟨rfl, rfl⟩, rfl⟩
      simp_all [Machine.step, begunOver]
    · refine ⟨_, rfl, ?_, ⟨rfl, rfl⟩, rfl⟩
      simp_all [Machine.step, begunOver]
  subst hPlaced
  rw [hm, execute_recordParts hBounded hIn (fun part hPart => hSound.parts_area part hPart x y)
    hApart m hShows, hContent]
  cases hAny : r.parts.any (·.has x y) with
  | false =>
    refine begunOver_outside hSound hIn fun part hPart => ?_
    exact (Bool.not_eq_true _).mp fun hHas => List.any_eq_false.mp hAny part hPart hHas
  | true =>
    obtain ⟨part, hPart, hHas⟩ := List.any_eq_true.mp hAny
    have hArea := hSound.parts_area part hPart x y hHas
    exact compose_placed hBounded hIn hArea
      (begunOver_part hSound (fun b hb hbHas => lands_of_writtenPlaces hb hbHas) hPart hHas)

-- ---------------------------------------------------------------------------
-- The parts asked for
-- ---------------------------------------------------------------------------

/-- No two of the parts asked for share a pixel. -/
def Target.Disjoint (t : Target) : Prop :=
  t.asked.Pairwise fun a b => ∀ x y, a.has x y = true → b.has x y = false

/-- All of the target is drawn, whatever parts are asked for: none are, or the
target holds no picture, or the driver has no pass that keeps it. -/
def DrawnWhole (vk : Device) (target : Target) (dst : Entry) : Prop :=
  target.partCount = 0 ∨ vk.keepPass = false ∨ dst.drawn = false

/-- The parts asked for can be drawn as they are: in one pass over the target as
it is kept, or in one that loads it where there are several. -/
def DrawnInParts (vk : Device) (target : Target) (dst : Entry) : Prop :=
  vk.keepPass = true ∧ dst.drawn = true ∧
    (vk.loadPass = true ∧ target.cutParts ≠ [] ∨ target.cutParts.length = 1)

/-- Several parts are asked for and the driver has no pass that loads the
target: `box` is the box around them. -/
def DrawnAsBox (vk : Device) (target : Target) (dst : Entry) (box : Rect2D) : Prop :=
  vk.keepPass = true ∧ dst.drawn = true ∧ vk.loadPass = false ∧
    ∃ first second rest, target.cutParts = first :: second :: rest ∧
      box = (second :: rest).foldl join first

section Asked

variable {vk : Device} {target : Target} {dst : Entry}

theorem partCount_pos_of_cutParts (h : target.cutParts ≠ []) : 0 < target.partCount := by
  by_contra hNone
  obtain hZero : target.partCount = 0 := by omega
  simp [Target.cutParts, Target.asked, hZero] at h

theorem region_drawnWhole (h : DrawnWhole vk target dst) :
    region vk target dst.drawn = .whole target := by
  rw [region, if_neg]
  simp only [Bool.and_eq_true, decide_eq_true_eq, not_and]
  rintro ⟨hCount, hKeep⟩ hDrawn
  rcases h with hNone | hNoKeep | hNew
  · omega
  · rw [hKeep] at hNoKeep
    cases hNoKeep
  · rw [hDrawn] at hNew
    cases hNew

theorem region_drawnInParts (h : DrawnInParts vk target dst) :
    (region vk target dst.drawn).parts = target.cutParts := by
  obtain ⟨hKeep, hDrawn, hParts⟩ := h
  have hSome : target.cutParts ≠ [] := by
    rcases hParts with ⟨-, hSome⟩ | hOne
    · exact hSome
    · exact List.ne_nil_of_length_pos (by omega)
  have hCount := partCount_pos_of_cutParts hSome
  have hSame : partsDrawn vk target = target.cutParts := by
    unfold partsDrawn
    split
    · rename_i first second rest hCut
      rcases hParts with ⟨hLoad, -⟩ | hOne
      · rw [if_pos hLoad, hCut]
      · simp [hCut] at hOne
    · rfl
  simp only [region, hCount, hKeep, hDrawn, decide_true, Bool.and_self, if_true, hSame]
  split
  · contradiction
  · rename_i hCut
    exact hCut.symm
  · rename_i hCut
    exact hCut.symm

theorem region_drawnAsBox {box : Rect2D} (h : DrawnAsBox vk target dst box) :
    (region vk target dst.drawn).parts = [box] := by
  obtain ⟨hKeep, hDrawn, hNoLoad, first, second, rest, hCut, rfl⟩ := h
  have hCount := partCount_pos_of_cutParts (by rw [hCut]; exact List.cons_ne_nil _ _)
  simp [region, hCount, hKeep, hDrawn, partsDrawn, hCut, hNoLoad]

theorem partsDrawn_apart (hDisjoint : target.Disjoint) (x y : Int) :
    (partsDrawn vk target).Pairwise fun a b => a.has x y = true → b.has x y = false := by
  have hCut : target.cutParts.Pairwise fun a b => a.has x y = true → b.has x y = false := by
    refine List.pairwise_filterMap.mpr (hDisjoint.imp fun {a b} hApart r hr r' hr' hHas => ?_)
    have hOne := ((clip_has hr).mp hHas).1
    by_contra hOther
    have hTwo := ((clip_has hr').mp ((Bool.not_eq_false _).mp hOther)).1
    rw [hApart x y hOne] at hTwo
    cases hTwo
  unfold partsDrawn
  split
  · rename_i hSplit
    split
    · exact hSplit ▸ hCut
    · exact List.pairwise_singleton _ _
  · exact hCut

theorem region_apart (hDisjoint : target.Disjoint) (isDrawn : Bool) (x y : Int) :
    (region vk target isDrawn).parts.Pairwise fun a b => a.has x y = true → b.has x y = false := by
  have hParts := @partsDrawn_apart vk target hDisjoint x y
  unfold region
  split
  · split
    · exact List.pairwise_singleton _ _
    · exact List.pairwise_singleton _ _
    · rename_i hSplit
      exact hSplit ▸ hParts
  · exact List.pairwise_singleton _ _

/-- A pixel of the target lies in a part as it is cut exactly when it lies in one
as it was asked for. -/
theorem cutParts_any {x y : Int} (hIn : target.has x y = true) :
    target.cutParts.any (·.has x y) = target.asked.any (·.has x y) := by
  rw [Bool.eq_iff_iff, List.any_eq_true, List.any_eq_true]
  constructor
  · rintro ⟨r, hr, hHas⟩
    obtain ⟨p, hp, hClip⟩ := List.mem_filterMap.mp hr
    exact ⟨p, hp, ((clip_has hClip).mp hHas).1⟩
  · rintro ⟨p, hp, hHas⟩
    obtain ⟨r, hClip⟩ := clip_isSome_of_has hHas hIn
    exact ⟨r, List.mem_filterMap.mpr ⟨p, hp, hClip⟩, (clip_has hClip).mpr ⟨hHas, hIn⟩⟩

end Asked

-- ---------------------------------------------------------------------------
-- The call
-- ---------------------------------------------------------------------------

/-- The call sends its drawing: every image is known and acquired and the work
is taken. `sources` are its layers. -/
def Sends (driver : Driver) (target : Target) (layers : List Layer) (sources : List Source) :
    Prop :=
  ∃ image, prepare driver target layers = some (image, sources) ∧ driver.submits = true ∧
    (imagesOf image sources).all driver.acquires = true

theorem sourceOf_layer {driver : Driver} {l : Layer} {s : Source}
    (h : sourceOf driver l = some s) : s.layer = l := by
  unfold sourceOf at h
  split at h
  · cases h
    rfl
  · split at h
    · cases h
    · obtain ⟨image, -, rfl⟩ := Option.map_eq_some_iff.mp h
      rfl

theorem mapM_sourceOf_layers {driver : Driver} {layers : List Layer} {sources : List Source}
    (h : layers.mapM (sourceOf driver) = some sources) : sources.map (·.layer) = layers := by
  induction layers generalizing sources with
  | nil =>
    obtain rfl : [] = sources := by simpa using h
    rfl
  | cons l layers ih =>
    rw [List.mapM_cons] at h
    obtain ⟨s, hFirst, h⟩ := Option.bind_eq_some_iff.mp h
    obtain ⟨rest, hRest, h⟩ := Option.bind_eq_some_iff.mp h
    obtain rfl : s :: rest = sources := by simpa using h
    rw [List.map_cons, sourceOf_layer hFirst, ih hRest]

/-- The layers drawn are those of the call, in order. -/
theorem Sends.layers {driver : Driver} {target : Target} {layers : List Layer}
    {sources : List Source} (h : Sends driver target layers sources) :
    sources.map (·.layer) = layers := by
  obtain ⟨image, hPrepare, -, -⟩ := h
  unfold prepare at hPrepare
  split at hPrepare
  · cases hPrepare
  · split at hPrepare
    · rename_i hSources
      cases hPrepare
      exact mapM_sourceOf_layers hSources
    · cases hPrepare

theorem composeNow_sent {vk : Device} {gpu : Gpu} {driver : Driver} {target : Target}
    {layers : List Layer} {sources : List Source} (h : Sends driver target layers sources)
    (dst : Entry) :
    (composeNow vk gpu driver target layers dst).2.content =
      (execute gpu (record vk target dst.drawn sources) { content := dst.content }).content := by
  obtain ⟨image, hPrepare, hSubmits, hAcquires⟩ := h
  simp [composeNow, hPrepare, hSubmits, hAcquires]

/-- A call that sends no drawing leaves the target's image as it was. -/
theorem composeNow_refused {vk : Device} {gpu : Gpu} {driver : Driver} {target : Target}
    {layers : List Layer} (h : ∀ sources, ¬Sends driver target layers sources) (dst : Entry) :
    (composeNow vk gpu driver target layers dst).2 = dst := by
  cases hPrepare : prepare driver target layers with
  | none => simp [composeNow, hPrepare]
  | some call =>
    obtain ⟨image, sources⟩ := call
    have hNot := h sources
    simp only [composeNow, hPrepare]
    split
    · rfl
    · split
      · rename_i hSubmits hAcquires
        exact absurd ⟨image, hPrepare, by simpa using hSubmits, hAcquires⟩ hNot
      · rfl

/-- What a call that sends its drawing leaves: the picture of all its layers where
`drawn` holds, and the target as it was everywhere else. -/
def PlainIn (vk : Device) (gpu : Gpu) (driver : Driver) (target : Target) (layers : List Layer)
    (dst : Entry) (drawn : Int → Int → Bool) : Prop :=
  ∀ sources, Sends driver target layers sources →
    sources.map (·.layer) = layers ∧
    ∀ x y, target.has x y = true →
      (composeNow vk gpu driver target layers dst).2.content x y =
        if drawn x y then plain gpu target sources x y else dst.content x y

/-- A call that sends its drawing leaves the plain picture of its layers in the
region it draws and the target as it was outside. -/
theorem composeNow_region {vk : Device} {gpu : Gpu} {driver : Driver} {target : Target}
    {layers : List Layer} {sources : List Source} (hSends : Sends driver target layers sources)
    (dst : Entry) (hBounded : ∀ l ∈ layers, l.Bounded gpu target) (hDisjoint : target.Disjoint)
    {x y : Int} (hIn : target.has x y = true) :
    (composeNow vk gpu driver target layers dst).2.content x y =
      if (region vk target dst.drawn).parts.any (·.has x y) then plain gpu target sources x y
      else dst.content x y := by
  have hSources : ∀ s ∈ sources, s.layer.Bounded gpu target := fun s hs =>
    hBounded s.layer (hSends.layers ▸ List.mem_map_of_mem hs)
  rw [composeNow_sent hSends]
  exact execute_record dst.content hSources hIn (region_apart hDisjoint dst.drawn x y)

/-- `ComposeNow` draws the plain picture of the call's layers in the parts it
draws and leaves the rest of the target as it was: the parts asked for where the
target holds a picture the driver can keep, the box around them where it cannot
draw several, all of the target otherwise. A call that sends nothing changes
nothing. -/
theorem composeNow_plain (vk : Device) (gpu : Gpu) (driver : Driver) (target : Target)
    (layers : List Layer) (dst : Entry)
    (hBounded : ∀ l ∈ layers, l.Bounded gpu target)
    (hDisjoint : target.Disjoint) :
    (DrawnInParts vk target dst →
      PlainIn vk gpu driver target layers dst fun x y => target.asked.any (·.has x y)) ∧
    (DrawnWhole vk target dst →
      PlainIn vk gpu driver target layers dst fun _ _ => true) ∧
    (∀ box, DrawnAsBox vk target dst box →
      PlainIn vk gpu driver target layers dst box.has) ∧
    ((∀ sources, ¬Sends driver target layers sources) →
      (composeNow vk gpu driver target layers dst).2 = dst) := by
  have hRun : ∀ sources, Sends driver target layers sources → ∀ x y, target.has x y = true →
      (composeNow vk gpu driver target layers dst).2.content x y =
        if (region vk target dst.drawn).parts.any (·.has x y) then plain gpu target sources x y
        else dst.content x y :=
    fun sources hSends x y hIn => composeNow_region hSends dst hBounded hDisjoint hIn
  refine ⟨fun hParts sources hSends => ⟨hSends.layers, fun x y hIn => ?_⟩,
    fun hWhole sources hSends => ⟨hSends.layers, fun x y hIn => ?_⟩,
    fun box hBox sources hSends => ⟨hSends.layers, fun x y hIn => ?_⟩,
    fun hRefused => composeNow_refused hRefused dst⟩
  · rw [hRun sources hSends x y hIn, region_drawnInParts hParts, cutParts_any hIn]
  · have hAll : target.whole.has x y = true := hIn
    rw [hRun sources hSends x y hIn, region_drawnWhole hWhole]
    simp [Region.whole, hAll]
  · rw [hRun sources hSends x y hIn, region_drawnAsBox hBox]
    simp

/-- A GPU whose target keeps eight bits of each colour, every image white. -/
def whiteGpu : Gpu where
  texture := fun _ _ => ⟨1, 1, 1, 1⟩
  length := fun x y => max x y
  takesEdge := fun _ _ _ => false
  store := fun p =>
    let bits := fun v : Rat => ((v * 255 + 1 / 2).floor : Rat) / 255
    ⟨bits p.r, bits p.g, bits p.b, bits p.a⟩
  undefined := fun _ _ => ⟨1, 0, 1, 1⟩

/-- A target three pixels wide, its outer two asked for. -/
def outerTwo : Target :=
  { buffer := some 7, width := 3, height := 1, format := kHalRgba8888, partCount := 2
    parts := fun k => [⟨0, 0, 1, 1⟩, ⟨2, 0, 3, 1⟩].getD k ⟨0, 0, 0, 0⟩ }

/-- A white layer over all of it and a red one half as strong over its left two
pixels, as the driver knows them. -/
def whiteUnderRed : List Source :=
  [⟨{ buffer := some 3, width := 3, height := 1, format := kHalRgbx8888, src := ⟨0, 0, 3, 1⟩
      dst := ⟨0, 0, 3, 1⟩ }, 0, true⟩,
   ⟨{ color := ⟨1, 0, 0, 1 / 2⟩, dst := ⟨0, 0, 2, 1⟩ }, 0, false⟩]

/-- An image all blue. -/
def blue (drawn : Bool) : Entry := ⟨fun _ _ => ⟨0, 0, 1, 1⟩, drawn⟩

theorem outerTwo_disjoint : outerTwo.Disjoint := by
  have hAsked : outerTwo.asked = [⟨0, 0, 1, 1⟩, ⟨2, 0, 3, 1⟩] := by decide
  rw [Target.Disjoint, hAsked, List.pairwise_pair]
  intro x y hFirst
  rw [Box.has_iff] at hFirst
  rw [Bool.eq_false_iff, ne_eq, Box.has_iff]
  simp only at hFirst ⊢
  omega

theorem whiteUnderRed_sends :
    Sends {} outerTwo (whiteUnderRed.map (·.layer)) whiteUnderRed :=
  ⟨0, rfl, rfl, by decide⟩

/-- Over a target already drawn the two parts show the layers and the pixel
between them is kept. -/
theorem composeNow_plain_outerTwo :
    Sends {} outerTwo (whiteUnderRed.map (·.layer)) whiteUnderRed ∧
      PlainIn {} whiteGpu {} outerTwo (whiteUnderRed.map (·.layer)) (blue true)
        fun x y => outerTwo.asked.any (·.has x y) :=
  ⟨whiteUnderRed_sends,
    (composeNow_plain {} whiteGpu {} outerTwo (whiteUnderRed.map (·.layer)) (blue true)
      (by simp [whiteUnderRed, Layer.Bounded]) outerTwo_disjoint).1
      ⟨rfl, rfl, Or.inl ⟨rfl, by decide⟩⟩⟩

/-- Over a target never drawn the pixel between the parts asked for is drawn
too. -/
theorem composeNow_redraws_new_target :
    ¬PlainIn {} whiteGpu {} outerTwo (whiteUnderRed.map (·.layer)) (blue false)
        fun x y => outerTwo.asked.any (·.has x y) := by
  intro h
  have hKept := (h whiteUnderRed whiteUnderRed_sends).2 1 0 (by decide)
  have hBlue : (composeNow {} whiteGpu {} outerTwo (whiteUnderRed.map (·.layer))
      (blue false)).2.content 1 0 = ⟨0, 0, 1, 1⟩ := hKept
  exact absurd hBlue (by decide +kernel)

end TegraHwc.Vk
