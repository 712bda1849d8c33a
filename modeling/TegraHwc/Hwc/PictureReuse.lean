import TegraHwc.Compositor.PictureMemory
import TegraHwc.Hwc.HwcLayer
import TegraHwc.Lib.Runs
import TegraHwc.Tegra.TegraAtomicStateManager

/-!
# TegraHwc — a picture recognised is the picture remembered

The memory of the last picture knows a member by its buffer and by its
layer's count of frames. The buffer's pixels are its client's to change, the
count restarts with every layer. Here both are followed over whole runs:
layers come, are handed buffers, and go; clients draw into their buffers at
any time; frames are judged against the memory, and drawn where they are not
recognised.

The claim of `PictureMemory.h` is that pixels cannot change under a member
that compares equal, since a client drawing again hands its layer a buffer
again and so moves the layer's count. It is the count of that layer: another
layer, handed the same buffer, may stand at the count the memory holds.

## Results

* `pictureReuse_sound`   — a picture recognised shows what the remembered one
  shows, wherever no buffer drawn into since has come back on another layer at
  the count remembered.
* `pictureReuse_unsound` — where one has, it does not.
* `mergeMembers_mergeOf` — the members of a group are what is remembered here.
-/

namespace TegraHwc

open Runs

/-- A member from its layer: whose pixels and which frame of them. The rest,
how it is placed and drawn, comes with the plan. -/
def memberOf (ld : LayerData) (placed : Member) : Member :=
  { placed with
    source := (ld.bi.map (·.uniqueId)).getD 0
    generation := ld.generation
    serial := ld.serial }

-- ---------------------------------------------------------------------------
-- A group's members
-- ---------------------------------------------------------------------------

/-- `TransformBits`. -/
def transformBits (t : LayerTransform) : Nat :=
  (if t.hflip then 1 else 0) + (if t.vflip then 2 else 0) + (if t.rotate90 then 4 else 0)

/-- The group of a plan, as `GetAtomicModeReqForArgs` sets it aside: each
member's layer, beside how the engine is told to draw it. -/
def mergeOf (members : List (LayerData × VicLayer)) (width height : UInt32) : Merge :=
  { layers := members.map (·.2)
    sourceIds := members.map fun m => (m.1.bi.map (·.uniqueId)).getD 0
    generations := members.map (·.1.generation)
    damages := members.map (·.1.pi.damage)
    serials := members.map (·.1.serial)
    transforms := members.map fun m => transformBits m.1.pi.transform
    width := width
    height := height }

/-- How a member of a group is placed and drawn. -/
def placedInMerge (ld : LayerData) (l : VicLayer) : Member :=
  { src := l.source
    dst := l.display
    alpha := l.alpha
    premultiplied := l.premultiplied
    transform := transformBits ld.pi.transform }

/-- **The members of a group**, one by one from its layers. -/
theorem mergeMembers_mergeOf (members : List (LayerData × VicLayer)) (width height : UInt32) :
    mergeMembers (mergeOf members width height)
      = members.map fun m => memberOf m.1 (placedInMerge m.1 m.2) := by
  apply List.ext_getElem
  · simp [mergeMembers, mergeOf]
  · intro i hLeft hRight
    have hi : i < members.length := by simpa using hRight
    simp [mergeMembers, mergeOf, memberOf, placedInMerge, hi]

-- ---------------------------------------------------------------------------
-- Layers, buffers and the memory
-- ---------------------------------------------------------------------------

/-- What the composer and its clients hold. `pixels` is what each buffer holds
now, by its id; `queued` what it held when it was handed to a layer, by the
layer's serial and frame. Of the picture remembered, `picture` is what its
members showed when it was drawn, and `drawn` the buffers drawn into since. -/
structure World (P : Type) where
  layers : List (Int × HwcLayer) := []
  nextSerial : Nat := 1
  pixels : Nat → P
  queued : Nat × Nat → Option P := fun _ => none
  memory : PictureMemory := {}
  picture : List (P ⊕ List Rat) := []
  drawn : List Nat := []

namespace World

variable {P : Type}

/-- A layer by its id. -/
def layer? (w : World P) (id : Int) : Option HwcLayer :=
  (w.layers.find? fun e => e.1 == id).map (·.2)

/-- What a member shows: its colour, or its buffer's pixels. -/
def shows (w : World P) (m : Member) : P ⊕ List Rat :=
  if m.solid then .inr m.color else .inl (w.pixels m.source)

/-- The members of a picture, from the layers it names. -/
def members? (w : World P) : List (Int × Member) → Option (List Member)
  | [] => some []
  | (id, placed) :: rest =>
    match w.layer? id, members? w rest with
    | some l, some members => some (memberOf l.layerData placed :: members)
    | _, _ => none

/-- What happens: the framework's calls, a client drawing into a buffer, and a
frame, of the size and layers given, which the engine draws or refuses. -/
inductive Action (P : Type) where
  | createLayer (id : Int)
  | destroyLayer (id : Int)
  | setLayerProperties (id : Int) (now : Nat) (lp : LayerProperties)
  | draw (buffer : Nat) (content : P)
  | frame (width height : UInt32) (picture : List (Int × Member)) (draws : Bool)

/-- `CreateLayer`. -/
def createLayer (w : World P) (id : Int) : World P :=
  if (w.layer? id).isSome then w
  else
    { w with
      layers := w.layers ++ [(id, { layerData := { serial := w.nextSerial } })]
      nextSerial := w.nextSerial + 1 }

/-- `SetLayerProperties`, of a layer that is there; a buffer handed over is
handed over as it is. -/
def setLayerProperties (w : World P) (id : Int) (now : Nat) (lp : LayerProperties) : World P :=
  match w.layer? id with
  | none => w
  | some l =>
    { w with
      layers := w.layers.map fun e =>
        if e.1 = id then (e.1, e.2.setLayerProperties now lp) else e
      queued :=
        match lp.buffer with
        | none => w.queued
        | some b =>
          Function.update w.queued (l.layerData.serial, l.layerData.generation + 1)
            (some (w.pixels b.bi.uniqueId)) }

/-- A frame of these members: shown again where the memory knows it, drawn
and remembered where it does not, and forgotten where it was not drawn. -/
def judged (w : World P) (width height : UInt32) (members : List Member) (draws : Bool) :
    World P :=
  if w.memory.judge width height members = .kSame then w
  else if draws then
    { w with
      memory := PictureMemory.remember width height members
      picture := members.map w.shows
      drawn := [] }
  else { w with memory := w.memory.forget }

/-- A step. -/
def step (w : World P) : Action P → Option (World P)
  | .createLayer id => some (w.createLayer id)
  | .destroyLayer id => some { w with layers := w.layers.filter fun e => e.1 ≠ id }
  | .setLayerProperties id now lp => some (w.setLayerProperties id now lp)
  | .draw buffer content =>
    some { w with
      pixels := Function.update w.pixels buffer content, drawn := buffer :: w.drawn }
  | .frame width height picture draws =>
    (w.members? picture).map fun members => w.judged width height members draws

/-- The composer and its clients. -/
def machine (P : Type) : Machine (World P) (Action P) Unit where
  step := step
  events _ _ := []

/-- At the start there are buffers, and nothing else. -/
def init (pixels : Nat → P) : World P := { pixels := pixels }

/-- Every buffer shown was handed to its layer as it is now: one drawn into
since has been handed over again. -/
def QueuedAgain (w : World P) : Action P → Prop
  | .frame _ _ picture _ =>
    ∀ members, w.members? picture = some members → ∀ m ∈ members, m.solid = false →
      m.source ≠ 0 → w.queued (m.serial, m.generation) = some (w.pixels m.source)
  | _ => True

/-- No member stands where another layer's stood, with that one's buffer at
that one's count, the buffer drawn into since. -/
def NoneTakenOver (w : World P) (members : List Member) : Prop :=
  ∀ p ∈ members.zip w.memory.members, p.1.solid = false → p.1.source = p.2.source →
    p.1.generation = p.2.generation → p.1.serial = p.2.serial ∨ p.1.source ∉ w.drawn

/-- What the claim says of a picture recognised: the same identities in the
same places, and the pixels of the picture remembered. -/
def Recognised (w : World P) (members : List Member) : Prop :=
  List.Forall₂ (fun m r => m.solid = r.solid ∧ m.source = r.source ∧
      PictureMemory.SamePlacement m r) members w.memory.members ∧
    members.map w.shows = w.picture

-- ---------------------------------------------------------------------------
-- What is kept of the picture remembered
-- ---------------------------------------------------------------------------

/-- A remembered member showed its colour, or what its buffer held when it was
handed to the member's layer; the buffer holds that still, if it was not drawn
into since. -/
def Shown (w : World P) (r : Member) (p : P ⊕ List Rat) : Prop :=
  if r.solid = true then p = .inr r.color
  else r.source ≠ 0 → ∃ c, p = .inl c ∧ w.queued (r.serial, r.generation) = some c ∧
    (r.source ∈ w.drawn ∨ w.pixels r.source = c)

/-- What holds after every run. -/
structure Watched (w : World P) : Prop where
  serials : ∀ e ∈ w.layers, e.2.layerData.serial < w.nextSerial
  /-- No two layers have one serial. -/
  distinct : (w.layers.map fun e => e.2.layerData.serial).Nodup
  past : ∀ r ∈ w.memory.members, r.serial < w.nextSerial
  /-- A layer's count never goes back behind the one remembered. -/
  counts : ∀ r ∈ w.memory.members, ∀ e ∈ w.layers,
    e.2.layerData.serial = r.serial → r.generation ≤ e.2.layerData.generation
  shown : List.Forall₂ w.Shown w.memory.members w.picture

theorem layer?_mem {w : World P} {id : Int} {l : HwcLayer} (h : w.layer? id = some l) :
    (id, l) ∈ w.layers := by
  obtain ⟨e, hFind, rfl⟩ := Option.map_eq_some_iff.mp h
  have hId : e.1 = id := by simpa using List.find?_some hFind
  subst hId
  exact List.mem_of_find?_eq_some hFind

/-- Each member of a picture is of a layer that is there. -/
theorem members?_mem {w : World P} {picture : List (Int × Member)} {members : List Member}
    (h : w.members? picture = some members) {m : Member} (hm : m ∈ members) :
    ∃ e ∈ w.layers, m.serial = e.2.layerData.serial ∧
      m.generation = e.2.layerData.generation := by
  induction picture generalizing members with
  | nil =>
    obtain rfl := Option.some.inj h
    cases hm
  | cons first rest ih =>
    obtain ⟨id, placed⟩ := first
    unfold members? at h
    split at h
    · rename_i l others hLayer hOthers
      obtain rfl := Option.some.inj h
      rcases List.mem_cons.mp hm with rfl | hm
      · exact ⟨_, layer?_mem hLayer, rfl, rfl⟩
      · exact ih hOthers hm
    · cases h

/-- A picture is kept where what was handed over for it is, and a buffer whose
pixels change is drawn into. -/
theorem Shown.mono {w w' : World P} {r : Member} {p : P ⊕ List Rat} (h : w.Shown r p)
    (hQueued : w'.queued (r.serial, r.generation) = w.queued (r.serial, r.generation))
    (hDrawn : r.source ∈ w.drawn → r.source ∈ w'.drawn)
    (hPixels : r.source ∈ w'.drawn ∨ w'.pixels r.source = w.pixels r.source) :
    w'.Shown r p := by
  unfold Shown at h ⊢
  split at h
  · rename_i hSolid
    rw [if_pos hSolid]
    exact h
  · rename_i hSolid
    rw [if_neg hSolid]
    intro hNamed
    obtain ⟨c, rfl, hc, hSince⟩ := h hNamed
    refine ⟨c, rfl, hQueued.trans hc, ?_⟩
    rcases hSince with hSince | hSince
    · exact .inl (hDrawn hSince)
    · exact hPixels.imp_right fun hSame => hSame.trans hSince

theorem shown_of_mem {w w' : World P} {members : List Member} {picture : List (P ⊕ List Rat)}
    (hShown : List.Forall₂ w.Shown members picture)
    (h : ∀ r ∈ members, ∀ p, w.Shown r p → w'.Shown r p) :
    List.Forall₂ w'.Shown members picture := by
  rw [List.forall₂_iff_zip] at hShown ⊢
  exact ⟨hShown.1, fun hzip => h _ (List.of_mem_zip hzip).1 _ (hShown.2 hzip)⟩

theorem watched_init (pixels : Nat → P) : Watched (init pixels) where
  serials := by
    intro e he
    cases he
  distinct := .nil
  past := by
    intro r hr
    cases hr
  counts := by
    intro r hr
    cases hr
  shown := .nil

theorem createLayer_keeps {w : World P} (hw : Watched w) (id : Int) :
    Watched (w.createLayer id) := by
  unfold createLayer
  split
  · exact hw
  refine ⟨?_, ?_, ?_, ?_, hw.shown⟩
  · intro e he
    rcases List.mem_append.mp he with he | he
    · exact Nat.lt_succ_of_lt (hw.serials e he)
    · obtain rfl := List.mem_singleton.mp he
      exact Nat.lt_succ_self _
  · rw [List.map_append, List.nodup_append']
    refine ⟨hw.distinct, List.nodup_singleton _, ?_⟩
    intro serial hOld hNew
    obtain ⟨e, he, rfl⟩ := List.mem_map.mp hOld
    have hSerial := hw.serials e he
    rw [List.map_singleton, List.mem_singleton] at hNew
    simp only at hNew
    omega
  · intro r hr
    exact Nat.lt_succ_of_lt (hw.past r hr)
  · intro r hr e he hSerial
    rcases List.mem_append.mp he with he | he
    · exact hw.counts r hr e he hSerial
    · -- the new layer's serial is no remembered member's
      obtain rfl := List.mem_singleton.mp he
      have hPast := hw.past r hr
      rw [← hSerial] at hPast
      exact absurd hPast (lt_irrefl _)

theorem destroyLayer_keeps {w : World P} (hw : Watched w) (id : Int) :
    Watched { w with layers := w.layers.filter fun e => e.1 ≠ id } :=
  ⟨fun e he => hw.serials e (List.mem_of_mem_filter he),
    hw.distinct.sublist (List.filter_sublist.map _), hw.past,
    fun r hr e he => hw.counts r hr e (List.mem_of_mem_filter he), hw.shown⟩

/-- The serial of a layer stays, and its count does not go back. -/
theorem setLayerProperties_counts (now : Nat) (lp : LayerProperties) (l : HwcLayer) :
    (l.setLayerProperties now lp).layerData.serial = l.layerData.serial ∧
      l.layerData.generation ≤ (l.setLayerProperties now lp).layerData.generation := by
  cases hBuffer : lp.buffer with
  | none =>
    have hFrame := @HwcLayer.setLayerProperties_keeps now lp l hBuffer
    simp only [HwcLayer.frame, Prod.mk.injEq] at hFrame
    exact ⟨hFrame.1, hFrame.2.1.ge⟩
  | some b =>
    have hFrame := @HwcLayer.setLayerProperties_queues now lp l b hBuffer
    simp only [HwcLayer.frame, Prod.mk.injEq] at hFrame
    exact ⟨hFrame.1, by omega⟩

theorem setLayerProperties_keeps {w : World P} (hw : Watched w) (id : Int) (now : Nat)
    (lp : LayerProperties) : Watched (w.setLayerProperties id now lp) := by
  unfold setLayerProperties
  split
  · exact hw
  rename_i l hLayer
  have hSet : ∀ e ∈ w.layers.map (fun e : Int × HwcLayer =>
      if e.1 = id then (e.1, e.2.setLayerProperties now lp) else e), ∃ e' ∈ w.layers,
      e.2.layerData.serial = e'.2.layerData.serial ∧
        e'.2.layerData.generation ≤ e.2.layerData.generation := by
    intro e he
    obtain ⟨e', he', rfl⟩ := List.mem_map.mp he
    refine ⟨e', he', ?_⟩
    split
    · exact setLayerProperties_counts now lp e'.2
    · exact ⟨rfl, le_rfl⟩
  refine ⟨?_, ?_, hw.past, ?_, ?_⟩
  · intro e he
    obtain ⟨e', he', hSerial, -⟩ := hSet e he
    rw [hSerial]
    exact hw.serials e' he'
  · rw [List.map_map]
    have hSerials : (fun e : Int × HwcLayer => e.2.layerData.serial) ∘ (fun e =>
        if e.1 = id then (e.1, e.2.setLayerProperties now lp) else e)
        = fun e => e.2.layerData.serial := by
      funext e
      simp only [Function.comp]
      split
      · exact (setLayerProperties_counts now lp e.2).1
      · rfl
    rw [hSerials]
    exact hw.distinct
  · intro r hr e he hSerial
    obtain ⟨e', he', hSame, hCount⟩ := hSet e he
    exact (hw.counts r hr e' he' (hSame.symm.trans hSerial)).trans hCount
  · refine shown_of_mem hw.shown fun r hr p h => h.mono ?_ (fun h => h) (.inr rfl)
    cases lp.buffer with
    | none => rfl
    | some b =>
      -- the frame handed over is none that was remembered
      refine Function.update_of_ne ?_ _ _
      intro hSame
      obtain ⟨hSerial, hGeneration⟩ := Prod.mk.inj hSame
      have hCount := hw.counts r hr _ (layer?_mem hLayer) hSerial.symm
      simp only at hCount
      omega

theorem draw_keeps {w : World P} (hw : Watched w) (buffer : Nat) (content : P) :
    Watched { w with
      pixels := Function.update w.pixels buffer content, drawn := buffer :: w.drawn } := by
  refine ⟨hw.serials, hw.distinct, hw.past, hw.counts, shown_of_mem hw.shown fun r _ p h => ?_⟩
  refine h.mono rfl (List.mem_cons_of_mem _) ?_
  by_cases hBuffer : r.source = buffer
  · exact .inl (by simp [hBuffer])
  · exact .inr (Function.update_of_ne hBuffer _ _)

/-- A picture drawn of buffers handed over as they are is remembered as it is
shown. -/
theorem shown_of_queuedAgain {w : World P} {members : List Member}
    (hAgain : ∀ m ∈ members, m.solid = false → m.source ≠ 0 →
      w.queued (m.serial, m.generation) = some (w.pixels m.source)) (memory : PictureMemory) :
    List.Forall₂ (World.Shown { w with memory := memory, picture := members.map w.shows, drawn := [] })
      members (members.map w.shows) := by
  rw [List.forall₂_map_right_iff, List.forall₂_same]
  intro m hm
  unfold Shown shows
  by_cases hSolid : m.solid = true
  · simp [hSolid]
  · rw [if_neg hSolid, if_neg hSolid]
    intro hNamed
    exact ⟨_, rfl, hAgain m hm (Bool.eq_false_iff.mpr hSolid) hNamed, .inr rfl⟩

theorem judged_keeps {w : World P} (hw : Watched w) {width height : UInt32}
    {picture : List (Int × Member)} {members : List Member} {draws : Bool}
    (hMembers : w.members? picture = some members)
    (hAgain : w.QueuedAgain (.frame width height picture draws)) :
    Watched (w.judged width height members draws) := by
  unfold judged
  split
  · exact hw
  split
  · refine ⟨hw.serials, hw.distinct, ?_, ?_, shown_of_queuedAgain (hAgain members hMembers) _⟩
    · intro r hr
      obtain ⟨e, he, hSerial, -⟩ := members?_mem hMembers hr
      rw [hSerial]
      exact hw.serials e he
    · intro r hr e he hSame
      obtain ⟨e', he', hSerial, hGeneration⟩ := members?_mem hMembers hr
      obtain rfl := List.inj_on_of_nodup_map hw.distinct he he' (hSame.trans hSerial)
      exact hGeneration.le
  · exact ⟨hw.serials, hw.distinct, hw.past, hw.counts, hw.shown⟩

/-- **A step keeps what is kept of the picture.** -/
theorem watched_step {w w' : World P} {a : Action P} (hw : Watched w) (hAgain : w.QueuedAgain a)
    (h : w.step a = some w') : Watched w' := by
  unfold step at h
  cases a with
  | createLayer id =>
    obtain rfl := Option.some.inj h
    exact createLayer_keeps hw id
  | destroyLayer id =>
    obtain rfl := Option.some.inj h
    exact destroyLayer_keeps hw id
  | setLayerProperties id now lp =>
    obtain rfl := Option.some.inj h
    exact setLayerProperties_keeps hw id now lp
  | draw buffer content =>
    obtain rfl := Option.some.inj h
    exact draw_keeps hw buffer content
  | frame width height picture draws =>
    obtain ⟨members, hMembers, rfl⟩ := Option.map_eq_some_iff.mp h
    exact judged_keeps hw hMembers hAgain

-- ---------------------------------------------------------------------------
-- A picture recognised
-- ---------------------------------------------------------------------------

/-- A member that has the key of a remembered one, and the layer or the pixels,
shows what that one showed. -/
theorem shows_eq {w : World P} {m r : Member} {p : P ⊕ List Rat}
    (hKey : PictureMemory.SameKey m r) (hShown : w.Shown r p)
    (hAgain : m.solid = false → m.source ≠ 0 →
      w.queued (m.serial, m.generation) = some (w.pixels m.source))
    (hTaken : m.solid = false → m.source = r.source → m.generation = r.generation →
      m.serial = r.serial ∨ m.source ∉ w.drawn) : w.shows m = p := by
  unfold Shown at hShown
  unfold shows
  by_cases hSolid : m.solid = true
  · rw [if_pos hSolid]
    rw [if_pos (hKey.solid ▸ hSolid)] at hShown
    rw [hShown, hKey.color]
  have hNot : m.solid = false := Bool.eq_false_iff.mpr hSolid
  have hNamed : m.source ≠ 0 := hKey.named.resolve_left hSolid
  rw [if_neg hSolid]
  rw [if_neg (hKey.solid ▸ hSolid)] at hShown
  obtain ⟨c, rfl, hc, hSince⟩ := hShown (hKey.source ▸ hNamed)
  rw [Sum.inl.injEq]
  rcases hTaken hNot hKey.source hKey.generation with hSerial | hDrawn
  · -- the same layer at the same count: the buffer it was handed then
    have hSame := hAgain hNot hNamed
    rw [hSerial, hKey.generation, hc] at hSame
    exact (Option.some.inj hSame).symm
  · rw [hKey.source] at hDrawn ⊢
    exact hSince.resolve_left hDrawn

/-- **Picture reuse.** After every run in which every buffer drawn into is
handed over again before it is shown, a frame that is recognised shows the
members of the picture remembered, with its pixels, wherever no member stands
in another layer's place with that one's buffer and count, the buffer drawn
into since. -/
theorem pictureReuse_sound {pixels : Nat → P} {actions : List (Action P)} {w : World P}
    {width height : UInt32} {picture : List (Int × Member)} {members : List Member} {draws : Bool}
    (hMeets : (machine P).Meets QueuedAgain (init pixels) actions)
    (hRun : (machine P).run (init pixels) actions = some w)
    (hMembers : w.members? picture = some members)
    (hAgain : w.QueuedAgain (.frame width height picture draws))
    (hTaken : w.NoneTakenOver members)
    (hSame : w.memory.judge width height members = .kSame) : w.Recognised members := by
  have hw : Watched w := Machine.run_of_meets (m := machine P)
    (fun _ _ _ hw hC hStep => watched_step hw hC hStep) (watched_init pixels) hMeets hRun
  obtain ⟨-, -, -, hKeys⟩ := PictureMemory.judge_kSame_iff.mp hSame
  refine ⟨hKeys.imp fun m r h => ⟨h.solid, h.source, h.placement⟩, ?_⟩
  have hShown := hw.shown
  have hAll := hAgain members hMembers
  unfold NoneTakenOver at hTaken
  generalize w.picture = shown at hShown ⊢
  generalize w.memory.members = remembered at hKeys hShown hTaken
  clear hMembers hSame hRun hMeets hAgain
  induction hKeys generalizing shown with
  | nil =>
    cases hShown
    rfl
  | cons hKey _ ih =>
    cases hShown with
    | cons hFirst hRest =>
      simp only [List.mem_cons, forall_eq_or_imp, List.zip_cons_cons] at hAll hTaken
      rw [List.map_cons, shows_eq hKey hFirst hAll.1 hTaken.1, ih hAll.2 _ hRest hTaken.2]

-- ---------------------------------------------------------------------------
-- Two layers and one buffer
-- ---------------------------------------------------------------------------

/-- A buffer handed over. -/
def handOver (buffer : Nat) : LayerProperties :=
  { buffer := some { bi := { width := 10, height := 10, uniqueId := buffer }, fb := some buffer } }

/-- One member, placed at the panel's corner. -/
def corner (id : Int) : List (Int × Member) :=
  [(id, { src := ⟨0, 0, 10, 10⟩, dst := ⟨0, 0, 10, 10⟩ })]

/-- A layer is handed a buffer and its picture drawn. -/
def firstLayer : List (Action Nat) :=
  [.createLayer 1, .draw 7 5, .setLayerProperties 1 0 (handOver 7), .frame 10 10 (corner 1) true]

/-- The layer goes, and another is handed the buffer, drawn into again. -/
def secondLayer : List (Action Nat) :=
  [.destroyLayer 1, .createLayer 2, .draw 7 6, .setLayerProperties 2 0 (handOver 7)]

theorem firstLayer_queuedAgain :
    (machine Nat).Meets QueuedAgain (init fun _ => 0) firstLayer := by
  refine ⟨trivial, trivial, trivial, ?_, trivial⟩
  intro members hMembers m hm _ _
  obtain rfl := Option.some.inj hMembers
  obtain rfl := List.mem_singleton.mp hm
  rfl

/-- The picture is recognised in the next frame, and is the one remembered. -/
theorem pictureReuse_sound_again :
    ∃ w members, (machine Nat).run (init fun _ => 0) firstLayer = some w ∧
      w.members? (corner 1) = some members ∧
      w.memory.judge 10 10 members = .kSame ∧ w.Recognised members := by
  refine ⟨_, _, rfl, rfl, by decide, @pictureReuse_sound _ _ _ _ 10 10 (corner 1) _ true
    firstLayer_queuedAgain rfl rfl ?_ ?_ (by decide)⟩
  · intro members hMembers m hm _ _
    obtain rfl := Option.some.inj hMembers
    obtain rfl := List.mem_singleton.mp hm
    rfl
  · intro p hp _ _ _
    obtain rfl := List.mem_singleton.mp hp
    exact .inl rfl

/-- **Taken over.** The second layer's picture is recognised as the first's, at
the same count of the same buffer, whose pixels are others by then. -/
theorem pictureReuse_unsound :
    ¬∀ (actions : List (Action Nat)) (w : World Nat) (picture : List (Int × Member))
        (members : List Member),
      (machine Nat).Meets QueuedAgain (init fun _ => 0) actions →
      (machine Nat).run (init fun _ => 0) actions = some w →
      w.members? picture = some members → w.QueuedAgain (.frame 10 10 picture true) →
      w.memory.judge 10 10 members = .kSame → w.Recognised members := by
  intro hAll
  have hRecognised := hAll (firstLayer ++ secondLayer) _ (corner 2) _ ?_ rfl rfl ?_ (by decide)
  · have hPixels : ([.inl 6] : List (Nat ⊕ List Rat)) = [.inl 5] := hRecognised.2
    simp at hPixels
  · refine ⟨trivial, trivial, trivial, ?_, trivial, trivial, trivial, trivial, trivial⟩
    intro members hMembers m hm _ _
    obtain rfl := Option.some.inj hMembers
    obtain rfl := List.mem_singleton.mp hm
    rfl
  · intro members hMembers m hm _ _
    obtain rfl := Option.some.inj hMembers
    obtain rfl := List.mem_singleton.mp hm
    rfl

end World

end TegraHwc
