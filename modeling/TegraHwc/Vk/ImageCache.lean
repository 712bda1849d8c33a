import Mathlib.Data.List.MinMax
import TegraHwc.Lib.Runs
import TegraHwc.Vk.Compositor

/-!
# TegraHwc — buffers kept as images

`vk/ImageCache.cpp` and `vk/CacheBudget.h`. A `size_t` is `w` bits wide and its
sums go round; the counters of uses and of frames are not run to their end. Which
buffer comes under which handle, whether the driver takes an import and whether a
handle can be cloned are each call's to say; images are numbered as the driver makes
them. Views, framebuffers and duplicated handles go with their image.

Beside each entry's bytes stands its size, in whole numbers, and beside the books
stands the history, which says what is in a frame's hands and what was destroyed.

## Results

* `pickVictim_eq`      — the victim is the least recently asked for of those not
  protected.
* `makeRoom_ends`      — how making room ends.
* `imageCache_kept`    — nothing in flight is destroyed; the books are right while
  the sizes do not go round.
-/

namespace TegraHwc.Vk

open Runs

namespace ImageCache

-- ---------------------------------------------------------------------------
-- The budget
-- ---------------------------------------------------------------------------

/-- `CacheBudget::most_entries`. -/
def mostEntries : Nat := 64

/-- `CacheBudget::most_bytes`. -/
def mostBytes : Nat := 128 <<< 20

/-- `CacheBudget::Over`. -/
def goesOver (w entries bytes adding : Nat) : Bool :=
  decide (mostEntries < entries + 1) || decide (mostBytes < (bytes + adding) % 2 ^ w)

/-- `PickVictim`, with the image itself for its place. -/
def pickVictim {α : Type*} (lastUse : α → Nat) (uses : List α) (protectFrom : Nat) : Option α :=
  uses.foldl (fun victim use =>
    if protectFrom ≤ lastUse use then victim
    else
      match victim with
      | none => some use
      | some v => if lastUse use < lastUse v then some use else some v) none

/-- The victim is the least recently asked for of those asked for before. -/
theorem pickVictim_eq {α : Type*} {lastUse : α → Nat} {uses : List α} {protectFrom : Nat} :
    pickVictim lastUse uses protectFrom =
      (uses.filter fun use => decide (lastUse use < protectFrom)).argmin lastUse := by
  unfold pickVictim List.argmin
  rw [List.foldl_filter]
  congr 1
  funext victim use
  by_cases hProtected : protectFrom ≤ lastUse use
  · rw [if_pos hProtected, if_neg (by simpa using hProtected)]
  · rw [if_neg hProtected, if_pos (by simpa using hProtected)]
    cases victim <;> rfl

-- ---------------------------------------------------------------------------
-- The cache
-- ---------------------------------------------------------------------------

/-- `native_handle_t`, its descriptors and its words in one list, and the inode of
the dma-buf behind the first descriptor, nought where it cannot be told. -/
structure Handle where
  pointer : Nat
  numFds : Nat
  data : List UInt32
  inode : Nat
  deriving DecidableEq, Repr

/-- `HashHandle`: FNV-1a. -/
def hashHandle (handle : Handle) : UInt32 :=
  handle.data.foldl (fun hash word => (hash ^^^ word) * 16777619) 2166136261

/-- `InodeOf`. -/
def inodeOf (handle : Handle) : Nat := if handle.numFds = 0 then 0 else handle.inode

/-- The size of a buffer, in whole numbers. -/
def sizeOf (stride height : UInt32) (format : VkFormat) : Nat :=
  stride.toNat * height.toNat * if format = .r5g6b5UnormPack16 then 2 else 4

/-- `BytesOf`. -/
def bytesOf (w : Nat) (stride height : UInt32) (format : VkFormat) : Nat :=
  sizeOf stride height format % 2 ^ w

/-- `ImageCache::Entry`; `size` is kept beside the code's own. -/
structure Entry where
  image : Nat
  hash : UInt32
  inode : Nat
  lastFrame : Nat
  lastUse : Nat
  owner : Nat
  bytes : Nat
  size : Nat
  deriving DecidableEq, Repr

/-- `ImageCache::Key`: the handle's pointer, and whether it is a target. -/
abbrev Key := Nat × Bool

/-- What is told of a run. `madeRoom` tells of the cache as room has been made in it:
how many images it holds, of what size together, which, and what is to be added. -/
inductive Event where
  | began
  | handedOut (image frame : Nat)
  | letGo (image : Nat)
  | madeRoom (entries size : Nat) (held : List Nat) (adding : Nat)
  | retired (frame : Nat)
  | destroyed (image : Nat)
  deriving DecidableEq, Repr

/-- What the driver makes of an import: nothing, an image alone, or all of it. -/
inductive Import where
  | refused
  | unfinished
  | made
  deriving DecidableEq, Repr

/-- What `Get` is asked, and what it is answered. -/
structure Request where
  handle : Handle
  height : UInt32
  stride : UInt32
  format : VkFormat
  target : Bool
  frame : Nat
  heightWord : Int := -1
  owner : Nat := 0
  cloned : Bool := true
  imported : Import := .made
  deriving DecidableEq, Repr

/-- The key a request looks under. -/
def Request.key (r : Request) : Key := (r.handle.pointer, r.target)

/-- The size of the buffer asked for. -/
def Request.size (r : Request) : Nat := sizeOf r.stride r.height r.format

/-- The height the driver reads has to be told differently. -/
def Request.copies (r : Request) : Bool :=
  decide (r.handle.numFds ≤ r.heightWord) && decide (r.heightWord < r.handle.data.length) &&
    decide (r.handle.data.getD r.heightWord.toNat 0 ≠ r.height)

end ImageCache

/-- `ImageCache`. The entries stand in the order they came, which nothing hangs on;
`nextImage` is the driver's. -/
structure ImageCache where
  entries : List (ImageCache.Key × ImageCache.Entry) := []
  setAside : List ImageCache.Entry := []
  bytes : Nat := 0
  tick : Nat := 0
  frameStart : Nat := 0
  nextImage : Nat := 0
  deriving DecidableEq, Repr

namespace ImageCache

/-- A call. -/
inductive Action where
  | beginFrame
  | get (r : Request)
  | forget (owner : Nat)
  | retire (frame : Nat)
  deriving DecidableEq, Repr

/-- The size of the entries held, in whole numbers. -/
def held (s : ImageCache) : Nat := (s.entries.map fun x => x.2.size).sum

section Code

variable (w : Nat)

/-- `Drop`. -/
def drop (s : ImageCache) (x : Key × Entry) : ImageCache :=
  { s with
    bytes := (s.bytes + 2 ^ w - x.2.bytes) % 2 ^ w
    setAside := s.setAside ++ [x.2]
    entries := s.entries.filter fun y => decide (y.1 ≠ x.1) }

/-- The loop of `MakeRoom`: each round lets an image go, so that there are no more
rounds than images. -/
def makeRoomFrom (adding : Nat) : Nat → ImageCache → ImageCache × List Event
  | 0, s => (s, [])
  | rounds + 1, s =>
    if goesOver w s.entries.length s.bytes adding then
      match pickVictim (fun x => x.2.lastUse) s.entries s.frameStart with
      | none => (s, [])
      | some x =>
        let (s', events) := makeRoomFrom adding rounds (s.drop w x)
        (s', .letGo x.2.image :: events)
    else (s, [])

/-- `MakeRoom`. -/
def makeRoom (s : ImageCache) (adding : Nat) : ImageCache × List Event :=
  makeRoomFrom w adding s.entries.length s

/-- `Forget`. -/
def forget (s : ImageCache) (owner : Nat) : ImageCache :=
  (s.entries.filter fun x => !x.1.2 && decide (x.2.owner = owner)).foldl (drop w) s

/-- `Retire`. -/
def retire (s : ImageCache) (frame : Nat) : ImageCache × List Event :=
  ({ s with setAside := s.setAside.filter fun e => decide (frame < e.lastFrame) },
    .retired frame ::
      (s.setAside.filter fun e => !decide (frame < e.lastFrame)).map fun e => .destroyed e.image)

/-- The entry a request finds, kept for this allocation. -/
def hit (s : ImageCache) (r : Request) : Option Entry :=
  match s.entries.find? (fun x => decide (x.1 = r.key)) with
  | some x =>
    if x.2.hash = hashHandle r.handle ∧ x.2.inode = inodeOf r.handle then some x.2 else none
  | none => none

/-- An entry as a hit leaves it. -/
def Entry.used (e : Entry) (r : Request) (tick : Nat) : Entry :=
  { e with
    lastFrame := max e.lastFrame r.frame
    lastUse := tick
    owner := if r.owner ≠ 0 then r.owner else e.owner }

/-- A hit of `Get`. -/
def handOut (s : ImageCache) (r : Request) (e : Entry) : ImageCache × List Event :=
  ({ s with
      tick := s.tick + 1
      entries := s.entries.map fun x =>
        if x.1 = r.key then (x.1, e.used r (s.tick + 1)) else x },
    [.handedOut e.image r.frame])

/-- What `Get` does of a miss once there is room. -/
def importImage (s : ImageCache) (r : Request) : ImageCache × List Event :=
  if r.copies && !r.cloned then (s, [])
  else
    let e : Entry :=
      { image := s.nextImage
        hash := hashHandle r.handle
        inode := inodeOf r.handle
        lastFrame := r.frame
        lastUse := s.tick + 1
        owner := r.owner
        bytes := bytesOf w r.stride r.height r.format
        size := r.size }
    let s := { s with tick := s.tick + 1 }
    match r.imported with
    | .refused => (s, [])
    | .unfinished => ({ s with nextImage := s.nextImage + 1 }, [.destroyed e.image])
    | .made =>
      ({ s with
          nextImage := s.nextImage + 1
          bytes := (s.bytes + e.bytes) % 2 ^ w
          entries := s.entries ++ [(r.key, e)] },
        [.handedOut e.image r.frame])

/-- The cache without a stale entry of the key. -/
def dropStale (s : ImageCache) (r : Request) : ImageCache :=
  match s.entries.find? (fun x => decide (x.1 = r.key)) with
  | some x => s.drop w x
  | none => s

/-- `Get`. -/
def get (s : ImageCache) (r : Request) : ImageCache × List Event :=
  match s.hit r with
  | some e => s.handOut r e
  | none =>
    let (s, letGo) := (s.dropStale w r).makeRoom w (bytesOf w r.stride r.height r.format)
    let (s', events) := s.importImage w r
    (s', letGo ++
      .madeRoom s.entries.length s.held (s.entries.map fun x => x.2.image) r.size :: events)

/-- A call done, and what is told of it. -/
def act (s : ImageCache) : Action → ImageCache × List Event
  | .beginFrame => ({ s with frameStart := s.tick + 1 }, [.began])
  | .get r => s.get w r
  | .forget owner => (s.forget w owner, [])
  | .retire frame => s.retire frame

/-- The cache, called. -/
def machine : Runs.Machine ImageCache Action Event where
  step s a := some (s.act w a).1
  events s a := (s.act w a).2

/-- An import's size and those held beside it do not go round. -/
def Fits (s : ImageCache) : Action → Prop
  | .get r => s.hit r = none →
    ((s.entries.filter fun x => decide (x.1 ≠ r.key)).map fun x => x.2.size).sum + r.size < 2 ^ w
  | .beginFrame | .forget _ | .retire _ => True

instance decidableFits (s : ImageCache) : ∀ action, Decidable (s.Fits w action)
  | .get _ => inferInstanceAs (Decidable (_ → _))
  | .beginFrame | .forget _ | .retire _ => .isTrue trivial

end Code

-- ---------------------------------------------------------------------------
-- What is told
-- ---------------------------------------------------------------------------

/-- The images handed out since the last frame began. -/
def inHand (h : List Event) : List Nat :=
  h.foldl (fun hand e =>
    match e with
    | .began => []
    | .handedOut image _ => image :: hand
    | .letGo _ | .madeRoom .. | .retired _ | .destroyed _ => hand) []

/-- The last frame retired. -/
def lastRetired (h : List Event) : Option Nat :=
  h.foldl (fun last e =>
    match e with
    | .retired frame => some frame
    | .began | .handedOut .. | .letGo _ | .madeRoom .. | .destroyed _ => last) none

/-- Nothing in a frame's hands is let go to make room; nothing is destroyed twice,
nor while a frame that used it may be in flight, nor handed out thereafter. -/
def Sound (before : List Event) : Event → Prop
  | .letGo image => image ∉ inHand before
  | .destroyed image => .destroyed image ∉ before ∧
    ∀ frame, .handedOut image frame ∈ before →
      ∃ done, lastRetired before = some done ∧ frame ≤ done
  | .handedOut image _ => .destroyed image ∉ before
  | .began | .madeRoom .. | .retired _ => True

/-- Room is made, or all that is left is in a frame's hands. -/
def Roomy (before : List Event) : Event → Prop
  | .madeRoom entries size held adding =>
    entries + 1 ≤ mostEntries ∧ size + adding ≤ mostBytes ∨ ∀ image ∈ held, image ∈ inHand before
  | .began | .handedOut .. | .letGo _ | .retired _ | .destroyed _ => True

-- ---------------------------------------------------------------------------
-- What every call keeps
-- ---------------------------------------------------------------------------

variable {w : Nat} {s s' : ImageCache} {h : List Event} {x : Key × Entry} {e : Entry}
  {r : Request} {action : Action}

@[simp] theorem inHand_began : inHand (h ++ [.began]) = [] := by simp [inHand]

@[simp] theorem inHand_handedOut {image frame : Nat} :
    inHand (h ++ [.handedOut image frame]) = image :: inHand h := by
  simp [inHand]

/-- An event that changes neither what is in hand nor what may be in flight. -/
def Event.isAside : Event → Bool
  | .letGo _ | .madeRoom .. | .retired _ | .destroyed _ => true
  | .began | .handedOut .. => false

theorem inHand_aside {e : Event} (hAside : e.isAside = true) : inHand (h ++ [e]) = inHand h := by
  cases e <;> first | (simp [inHand]; done) | cases hAside

/-- The entries there are, in the cache and set aside. -/
def all (s : ImageCache) : List Entry := s.entries.map Prod.snd ++ s.setAside

/-- What is kept over a run: one entry a key, an image of its own for each, none of
them destroyed; a frame that used an image is not past its entry's; and the uses
since the last frame began are those of what is in hand. -/
structure Kept (h : List Event) (s : ImageCache) : Prop where
  sound : Follows Sound h
  keys : (s.entries.map Prod.fst).Nodup
  images : (s.all.map Entry.image).Nodup
  made : ∀ e ∈ s.all, e.image < s.nextImage
  gone : ∀ image, .destroyed image ∈ h → image < s.nextImage ∧ ∀ e ∈ s.all, e.image ≠ image
  known : ∀ image frame, .handedOut image frame ∈ h → image < s.nextImage
  frames : ∀ e ∈ s.all, ∀ frame, .handedOut e.image frame ∈ h → frame ≤ e.lastFrame
  hand : ∀ x ∈ s.entries, x.2.image ∈ inHand h ↔ s.frameStart ≤ x.2.lastUse
  uses : ∀ x ∈ s.entries, x.2.lastUse ≤ s.tick
  start : s.frameStart ≤ s.tick + 1

/-- What was not in a run before an event that is no destruction was not after. -/
theorem kept_aside {e : Event} (hKept : Kept h s) (hAside : e.isAside = true)
    (hSound : Sound h e) (hLives : ∀ image, e ≠ .destroyed image) : Kept (h ++ [e]) s where
  sound := follows_concat.mpr ⟨hKept.sound, hSound⟩
  keys := hKept.keys
  images := hKept.images
  made := hKept.made
  gone image hGone := by
    rcases List.mem_append.mp hGone with hBefore | hNow
    · exact hKept.gone image hBefore
    · exact absurd (List.mem_singleton.mp hNow).symm (hLives image)
  known image frame hOut := by
    rcases List.mem_append.mp hOut with hBefore | hNow
    · exact hKept.known image frame hBefore
    · rw [← List.mem_singleton.mp hNow] at hAside
      cases hAside
  frames f hf frame hOut := by
    rcases List.mem_append.mp hOut with hBefore | hNow
    · exact hKept.frames f hf frame hBefore
    · rw [← List.mem_singleton.mp hNow] at hAside
      cases hAside
  hand x hx := by
    rw [inHand_aside hAside]
    exact hKept.hand x hx
  uses := hKept.uses
  start := hKept.start

/-- An entry of its key stands apart from the others. -/
theorem entries_perm (hKeys : (s.entries.map Prod.fst).Nodup) (hx : x ∈ s.entries) :
    s.entries.Perm (x :: s.entries.filter fun y => decide (y.1 ≠ x.1)) := by
  obtain ⟨before, after, hEq⟩ := List.append_of_mem hx
  rw [hEq, List.map_append, List.map_cons, List.nodup_append, List.nodup_cons] at hKeys
  obtain ⟨-, ⟨hAfter, -⟩, hBefore⟩ := hKeys
  have hKeepsBefore : before.filter (fun y => decide (y.1 ≠ x.1)) = before :=
    List.filter_eq_self.mpr fun y hy => decide_eq_true fun hSame =>
      hBefore y.1 (List.mem_map_of_mem hy) x.1 (by simp) hSame
  have hKeepsAfter : after.filter (fun y => decide (y.1 ≠ x.1)) = after :=
    List.filter_eq_self.mpr fun y hy => decide_eq_true fun hSame =>
      hAfter (hSame ▸ List.mem_map_of_mem hy)
  rw [hEq, List.filter_append, List.filter_cons_of_neg (by simp), hKeepsBefore, hKeepsAfter]
  exact List.perm_middle

/-- Dropping an entry sets it aside, and loses none. -/
theorem all_drop (hKeys : (s.entries.map Prod.fst).Nodup) (hx : x ∈ s.entries) :
    (s.drop w x).all.Perm s.all := by
  have hPerm := (entries_perm hKeys hx).map Prod.snd
  unfold all drop
  simp only [List.map_cons] at hPerm ⊢
  rw [← List.append_assoc]
  exact (List.perm_append_singleton _ _).trans (hPerm.append_right s.setAside).symm

/-- All that is kept is kept by the same entries in another order, fewer of them held. -/
theorem kept_rearranged (hKept : Kept h s) (hAll : s'.all.Perm s.all)
    (hLess : s'.entries.Sublist s.entries) (hNext : s'.nextImage = s.nextImage)
    (hStart : s'.frameStart = s.frameStart) (hTick : s'.tick = s.tick) : Kept h s' where
  sound := hKept.sound
  keys := (hLess.map Prod.fst).nodup hKept.keys
  images := (hAll.map Entry.image).nodup_iff.mpr hKept.images
  made e he := by
    rw [hNext]
    exact hKept.made e (hAll.mem_iff.mp he)
  gone image hGone := by
    rw [hNext]
    exact ⟨(hKept.gone image hGone).1, fun e he =>
      (hKept.gone image hGone).2 e (hAll.mem_iff.mp he)⟩
  known image frame hOut := by
    rw [hNext]
    exact hKept.known image frame hOut
  frames e he := hKept.frames e (hAll.mem_iff.mp he)
  hand x hx := by
    rw [hStart]
    exact hKept.hand x (hLess.subset hx)
  uses x hx := by
    rw [hTick]
    exact hKept.uses x (hLess.subset hx)
  start := by
    rw [hStart, hTick]
    exact hKept.start

/-- **Dropping** keeps everything. -/
theorem kept_drop (hKept : Kept h s) (hx : x ∈ s.entries) : Kept h (s.drop w x) :=
  kept_rearranged hKept (all_drop (w := w) hKept.keys hx) List.filter_sublist rfl rfl rfl

/-- What a round lets go is no frame's. -/
theorem victim_mem
    (hVictim : pickVictim (fun x => x.2.lastUse) s.entries s.frameStart = some x) :
    x ∈ s.entries ∧ x.2.lastUse < s.frameStart := by
  rw [pickVictim_eq] at hVictim
  obtain ⟨hx, hBefore⟩ := List.mem_filter.mp (List.argmin_mem hVictim)
  exact ⟨hx, of_decide_eq_true hBefore⟩

/-- A frame has all that is left in its hands where there is no victim. -/
theorem protected_of_no_victim
    (hNone : pickVictim (fun x => x.2.lastUse) s.entries s.frameStart = none) :
    ∀ x ∈ s.entries, s.frameStart ≤ x.2.lastUse := by
  rw [pickVictim_eq, List.argmin_eq_none, List.filter_eq_nil_iff] at hNone
  intro x hx
  simpa using hNone x hx

theorem kept_makeRoomFrom {adding rounds : Nat} (hKept : Kept h s) :
    Kept (h ++ (s.makeRoomFrom w adding rounds).2) (s.makeRoomFrom w adding rounds).1 := by
  induction rounds generalizing h s with
  | zero => rwa [makeRoomFrom, List.append_nil]
  | succ rounds ih =>
    unfold makeRoomFrom
    split
    · cases hVictim : pickVictim (fun x => x.2.lastUse) s.entries s.frameStart with
      | none => simpa using hKept
      | some x =>
        obtain ⟨hx, hBefore⟩ := victim_mem hVictim
        have hNot : x.2.image ∉ inHand h := fun hIn =>
          Nat.not_le_of_lt hBefore ((hKept.hand x hx).mp hIn)
        have hRest := ih (kept_drop (w := w) (kept_aside (e := .letGo x.2.image) hKept rfl hNot
          (fun _ h => (nomatch h))) hx)
        rw [List.append_assoc, List.singleton_append] at hRest
        exact hRest
    · simpa using hKept

/-- **How making room ends**: with room, as the books have it, or with nothing left
but what a frame has in its hands. -/
theorem makeRoom_ends {adding : Nat} :
    goesOver w (s.makeRoom w adding).1.entries.length (s.makeRoom w adding).1.bytes adding = false ∨
      ∀ x ∈ (s.makeRoom w adding).1.entries,
        (s.makeRoom w adding).1.frameStart ≤ x.2.lastUse := by
  have hRounds : ∀ rounds (s : ImageCache), s.entries.length ≤ rounds →
      goesOver w (s.makeRoomFrom w adding rounds).1.entries.length
          (s.makeRoomFrom w adding rounds).1.bytes adding = false ∨
        ∀ x ∈ (s.makeRoomFrom w adding rounds).1.entries,
          (s.makeRoomFrom w adding rounds).1.frameStart ≤ x.2.lastUse := by
    intro rounds
    induction rounds with
    | zero =>
      intro s hFew
      have hNone : s.entries = [] := List.length_eq_zero_iff.mp (Nat.le_zero.mp hFew)
      exact Or.inr (by simp [makeRoomFrom, hNone])
    | succ rounds ih =>
      intro s hFew
      unfold makeRoomFrom
      split
      · cases hVictim : pickVictim (fun x => x.2.lastUse) s.entries s.frameStart with
        | none => exact Or.inr (protected_of_no_victim hVictim)
        | some x =>
          have hLess : (s.drop w x).entries.length < s.entries.length := by
            refine List.length_filter_lt_length_iff_exists.mpr ⟨x, (victim_mem hVictim).1, ?_⟩
            simp
          exact ih (s.drop w x) (by omega)
      · rename_i hFits
        exact Or.inl ((Bool.not_eq_true _).mp hFits)
  exact hRounds s.entries.length s (Nat.le_refl _)

/-- **Forgetting rule.** What every drop keeps, forgetting an owner keeps. -/
theorem forget_rule {P : ImageCache → Prop} {owner : Nat}
    (hDrop : ∀ s x, P s → x ∈ s.entries → P (s.drop w x)) (hP : P s)
    (hKeys : (s.entries.map Prod.fst).Nodup) : P (s.forget w owner) := by
  have hAll : ∀ (xs : List (Key × Entry)) (s : ImageCache), (xs.map Prod.fst).Nodup →
      (∀ x ∈ xs, x ∈ s.entries) → P s → P (xs.foldl (drop w) s) := by
    intro xs
    induction xs with
    | nil => exact fun _ _ _ hP => hP
    | cons x xs ih =>
      intro s hOnce hIn hP
      rw [List.map_cons, List.nodup_cons] at hOnce
      obtain ⟨hx, hxs⟩ := List.forall_mem_cons.mp hIn
      refine ih (s.drop w x) hOnce.2 (fun y hy => ?_) (hDrop s x hP hx)
      exact List.mem_filter.mpr ⟨hxs y hy, decide_eq_true fun hSame =>
        hOnce.1 (hSame ▸ List.mem_map_of_mem hy)⟩
  exact hAll _ s ((List.filter_sublist.map Prod.fst).nodup hKeys)
    (fun x hx => (List.mem_filter.mp hx).1) hP

theorem kept_forget {owner : Nat} (hKept : Kept h s) : Kept h (s.forget w owner) :=
  forget_rule (P := Kept h) (fun _ _ hKept hx => kept_drop hKept hx) hKept hKept.keys

theorem kept_beginFrame (hKept : Kept h s) :
    Kept (h ++ [.began]) { s with frameStart := s.tick + 1 } where
  sound := follows_concat.mpr ⟨hKept.sound, trivial⟩
  keys := hKept.keys
  images := hKept.images
  made := hKept.made
  gone image hGone := hKept.gone image (by simpa using hGone)
  known image frame hOut := hKept.known image frame (by simpa using hOut)
  frames e he frame hOut := hKept.frames e he frame (by simpa using hOut)
  hand x hx := by
    have hUse := hKept.uses x hx
    simp only [inHand_began, List.not_mem_nil, false_iff]
    omega
  uses := hKept.uses
  start := Nat.le_refl _

/-- What is set aside may stand in any order. -/
theorem kept_perm {setAside : List Entry} (hKept : Kept h s) (hPerm : setAside.Perm s.setAside) :
    Kept h { s with setAside := setAside } :=
  kept_rearranged hKept (hPerm.append_left _) (List.Sublist.refl _) rfl rfl rfl

@[simp] theorem lastRetired_retired {frame : Nat} :
    lastRetired (h ++ [.retired frame]) = some frame := by
  simp [lastRetired]

@[simp] theorem lastRetired_destroyed {image : Nat} :
    lastRetired (h ++ [.destroyed image]) = lastRetired h := by
  simp [lastRetired]

/-- An image set aside whose frames are done is destroyed. -/
theorem kept_destroyed {rest : List Entry} {done : Nat}
    (hKept : Kept h { s with setAside := e :: rest }) (hRetired : lastRetired h = some done)
    (hDone : e.lastFrame ≤ done) :
    Kept (h ++ [.destroyed e.image]) { s with setAside := rest } := by
  have hPerm : ({ s with setAside := e :: rest } : ImageCache).all.Perm
      (e :: ({ s with setAside := rest } : ImageCache).all) := List.perm_middle
  have hIn : e ∈ ({ s with setAside := e :: rest } : ImageCache).all := by simp [all]
  have hImages := (hPerm.map Entry.image).nodup_iff.mp hKept.images
  rw [List.map_cons, List.nodup_cons] at hImages
  have hStays : ∀ f ∈ ({ s with setAside := rest } : ImageCache).all,
      f ∈ ({ s with setAside := e :: rest } : ImageCache).all := fun f hf =>
    hPerm.mem_iff.mpr (List.mem_cons_of_mem e hf)
  refine
    { sound := follows_concat.mpr ⟨hKept.sound, fun hTwice => (hKept.gone _ hTwice).2 e hIn rfl,
        fun frame hOut => ⟨done, hRetired, (hKept.frames e hIn frame hOut).trans hDone⟩⟩
      keys := hKept.keys
      images := hImages.2
      made := fun f hf => hKept.made f (hStays f hf)
      gone := fun image hGone => ?_
      known := fun image frame hOut => hKept.known image frame (by simpa using hOut)
      frames := fun f hf frame hOut => hKept.frames f (hStays f hf) frame (by simpa using hOut)
      hand := fun x hx => by
        rw [inHand_aside rfl]
        exact hKept.hand x hx
      uses := hKept.uses
      start := hKept.start }
  rcases List.mem_append.mp hGone with hBefore | hNow
  · exact ⟨(hKept.gone image hBefore).1, fun f hf => (hKept.gone image hBefore).2 f (hStays f hf)⟩
  · obtain rfl := Event.destroyed.inj (List.mem_singleton.mp hNow)
    exact ⟨hKept.made e hIn, fun f hf hSame => hImages.1 (hSame ▸ List.mem_map_of_mem hf)⟩

theorem kept_retire {frame : Nat} (hKept : Kept h s) :
    Kept (h ++ (s.retire frame).2) (s.retire frame).1 := by
  have hAll : ∀ (going : List Entry) (h : List Event) (keep : List Entry),
      (∀ e ∈ going, e.lastFrame ≤ frame) → lastRetired h = some frame →
        Kept h { s with setAside := going ++ keep } →
          Kept (h ++ going.map fun e => .destroyed e.image) { s with setAside := keep } := by
    intro going
    induction going with
    | nil => exact fun h keep _ _ hKept => by simpa using hKept
    | cons e going ih =>
      intro h keep hDone hRetired hKept
      obtain ⟨he, hGoing⟩ := List.forall_mem_cons.mp hDone
      have hRest := ih (h ++ [.destroyed e.image]) keep hGoing (by simpa using hRetired)
        (kept_destroyed hKept hRetired he)
      rw [List.append_assoc, List.singleton_append] at hRest
      exact hRest
  have hRetired := kept_aside (e := .retired frame) hKept rfl trivial (fun _ h => (nomatch h))
  have hPerm := List.filter_append_perm (fun e : Entry => !decide (frame < e.lastFrame)) s.setAside
  simp only [Bool.not_not] at hPerm
  have hLast := hAll _ _ _ (fun e he => by simpa using (List.mem_filter.mp he).2)
    lastRetired_retired (kept_perm hRetired hPerm)
  rw [List.append_assoc, List.singleton_append] at hLast
  exact hLast

/-- A hit is the entry of its key. -/
theorem hit_mem (hHit : s.hit r = some e) : (r.key, e) ∈ s.entries := by
  unfold hit at hHit
  cases hFound : s.entries.find? (fun x => decide (x.1 = r.key)) with
  | none => simp [hFound] at hHit
  | some x =>
    rw [hFound] at hHit
    have hKey : x.1 = r.key := by simpa using List.find?_some hFound
    obtain rfl := Option.some.inj (Option.ite_none_right_eq_some.mp hHit).2
    rw [← hKey]
    exact List.mem_of_find?_eq_some hFound

/-- Two entries of one image are one. -/
theorem eq_of_image (hKept : Kept h s) {f : Entry} (he : e ∈ s.all) (hf : f ∈ s.all)
    (hSame : e.image = f.image) : e = f :=
  List.inj_on_of_nodup_map hKept.images he hf hSame

/-- An entry of the cache is not set aside. -/
theorem not_setAside (hKept : Kept h s) (hx : x ∈ s.entries) : x.2 ∉ s.setAside := by
  intro hAside
  have hImages := hKept.images
  unfold all at hImages
  rw [List.map_append, List.nodup_append] at hImages
  exact hImages.2.2 _ (List.mem_map_of_mem (List.mem_map_of_mem hx)) _
    (List.mem_map_of_mem hAside) rfl

/-- The entries apart from one have other images. -/
theorem image_ne (hKept : Kept h s) (hHit : (r.key, e) ∈ s.entries) (hx : x ∈ s.entries)
    (hKey : x.1 ≠ r.key) : x.2.image ≠ e.image := by
  intro hSame
  have hOnce := hKept.images
  unfold all at hOnce
  rw [List.map_append, List.nodup_append, List.map_map] at hOnce
  exact hKey (congrArg Prod.fst (List.inj_on_of_nodup_map hOnce.1 hx hHit hSame))

/-- A hit touches the entry of its key, and that one is the entry handed out. -/
theorem handOut_mem (hx : x ∈ (s.handOut r e).1.entries) :
    x = (r.key, e.used r (s.tick + 1)) ∨ x ∈ s.entries ∧ x.1 ≠ r.key := by
  obtain ⟨y, hy, rfl⟩ := List.mem_map.mp hx
  by_cases hKey : y.1 = r.key
  · rw [if_pos hKey, hKey]
    exact Or.inl rfl
  · rw [if_neg hKey]
    exact Or.inr ⟨hy, hKey⟩

/-- A hit leaves each image where it is. -/
theorem handOut_images (hKept : Kept h s) (hHit : (r.key, e) ∈ s.entries) :
    (s.handOut r e).1.all.map Entry.image = s.all.map Entry.image := by
  unfold all handOut
  simp only [List.map_append, List.map_map]
  congr 1
  refine List.map_congr_left fun x hx => ?_
  by_cases hKey : x.1 = r.key
  · have hSame := List.inj_on_of_nodup_map hKept.keys hx hHit hKey
    simp [hSame, Entry.used]
  · simp [hKey]

theorem handOut_keys : (s.handOut r e).1.entries.map Prod.fst = s.entries.map Prod.fst := by
  unfold handOut
  rw [List.map_map]
  refine List.map_congr_left fun x _ => ?_
  by_cases hKey : x.1 = r.key <;> simp [hKey]

theorem kept_handOut (hKept : Kept h s) (hHit : (r.key, e) ∈ s.entries) :
    Kept (h ++ (s.handOut r e).2) (s.handOut r e).1 := by
  have hIn : e ∈ s.all := List.mem_append_left _ (List.mem_map_of_mem hHit)
  have hImages := handOut_images hKept hHit
  have hSameImages : ∀ f ∈ (s.handOut r e).1.all, ∃ f' ∈ s.all, f'.image = f.image := fun f hf =>
    List.mem_map.mp (hImages ▸ List.mem_map_of_mem hf)
  have hApart : ∀ f ∈ s.setAside, f.image ≠ e.image := fun f hf hSame =>
    not_setAside hKept hHit (eq_of_image hKept (List.mem_append_right _ hf) hIn hSame ▸ hf)
  refine
    { sound := follows_concat.mpr ⟨hKept.sound, fun hGone => (hKept.gone _ hGone).2 e hIn rfl⟩
      keys := (congrArg List.Nodup handOut_keys).mpr hKept.keys
      images := hImages ▸ hKept.images
      made := fun f hf => ?_
      gone := fun image hGone => ?_
      known := fun image frame hOut => ?_
      frames := fun f hf frame hOut => ?_
      hand := fun x hx => ?_
      uses := fun x hx => ?_
      start := Nat.le_succ_of_le hKept.start }
  · obtain ⟨f', hf', hSame⟩ := hSameImages f hf
    exact hSame ▸ hKept.made f' hf'
  · obtain ⟨hMade, hNot⟩ := hKept.gone image (by simpa [handOut] using hGone)
    refine ⟨hMade, fun f hf => ?_⟩
    obtain ⟨f', hf', hSame⟩ := hSameImages f hf
    exact hSame ▸ hNot f' hf'
  · rcases List.mem_append.mp hOut with hBefore | hNow
    · exact hKept.known image frame hBefore
    · obtain ⟨rfl, rfl⟩ := Event.handedOut.inj (List.mem_singleton.mp hNow)
      exact hKept.made e hIn
  · rcases List.mem_append.mp hf with hHeld | hAside
    · obtain ⟨x, hx, rfl⟩ := List.mem_map.mp hHeld
      rcases handOut_mem hx with rfl | ⟨hOther, hKey⟩
      · rcases List.mem_append.mp hOut with hBefore | hNow
        · exact (hKept.frames e hIn frame hBefore).trans (le_max_left _ _)
        · obtain ⟨-, rfl⟩ := Event.handedOut.inj (List.mem_singleton.mp hNow)
          exact le_max_right _ _
      · rcases List.mem_append.mp hOut with hBefore | hNow
        · exact hKept.frames x.2 (List.mem_append_left _ (List.mem_map_of_mem hOther)) frame hBefore
        · obtain ⟨hSame, -⟩ := Event.handedOut.inj (List.mem_singleton.mp hNow)
          exact absurd hSame (image_ne hKept hHit hOther hKey)
    · rcases List.mem_append.mp hOut with hBefore | hNow
      · exact hKept.frames f (List.mem_append_right _ hAside) frame hBefore
      · obtain ⟨hSame, -⟩ := Event.handedOut.inj (List.mem_singleton.mp hNow)
        exact absurd hSame (hApart f hAside)
  · have hHand : inHand (h ++ (s.handOut r e).2) = e.image :: inHand h := inHand_handedOut
    rw [hHand]
    rcases handOut_mem hx with rfl | ⟨hOther, hKey⟩
    · exact iff_of_true (List.mem_cons_self ..) hKept.start
    · rw [List.mem_cons, or_iff_right (image_ne hKept hHit hOther hKey)]
      exact hKept.hand x hOther
  · rcases handOut_mem hx with rfl | ⟨hOther, -⟩
    · exact Nat.le_refl _
    · exact Nat.le_succ_of_le (hKept.uses x hOther)

/-- No entry of the key is left. -/
def Free (s : ImageCache) (r : Request) : Prop := ∀ x ∈ s.entries, x.1 ≠ r.key

/-- A stale entry dropped leaves those of other keys. -/
theorem dropStale_entries : (s.dropStale w r).entries =
    s.entries.filter fun x => decide (x.1 ≠ r.key) := by
  unfold dropStale
  cases hFound : s.entries.find? (fun x => decide (x.1 = r.key)) with
  | none =>
    symm
    rw [List.filter_eq_self]
    intro x hx
    simpa using List.find?_eq_none.mp hFound x hx
  | some x =>
    have hKey : x.1 = r.key := by simpa using List.find?_some hFound
    simp only [drop, hKey]

theorem kept_dropStale (hKept : Kept h s) : Kept h (s.dropStale w r) := by
  unfold dropStale
  cases hFound : s.entries.find? (fun x => decide (x.1 = r.key)) with
  | none => exact hKept
  | some x => exact kept_drop hKept (List.mem_of_find?_eq_some hFound)

/-- What is left once room is made was there before. -/
theorem makeRoomFrom_sublist {adding rounds : Nat} :
    (s.makeRoomFrom w adding rounds).1.entries.Sublist s.entries := by
  induction rounds generalizing s with
  | zero => exact List.Sublist.refl _
  | succ rounds ih =>
    unfold makeRoomFrom
    split
    · cases pickVictim (fun x => x.2.lastUse) s.entries s.frameStart with
      | none => exact List.Sublist.refl _
      | some x => exact ih.trans List.filter_sublist
    · exact List.Sublist.refl _

/-- A use counted that hands out nothing. -/
theorem kept_tick (hKept : Kept h s) : Kept h { s with tick := s.tick + 1 } where
  sound := hKept.sound
  keys := hKept.keys
  images := hKept.images
  made := hKept.made
  gone := hKept.gone
  known := hKept.known
  frames := hKept.frames
  hand := hKept.hand
  uses x hx := Nat.le_succ_of_le (hKept.uses x hx)
  start := Nat.le_succ_of_le hKept.start

/-- An image the driver makes and the cache has no use for. -/
theorem kept_unfinished (hKept : Kept h s) :
    Kept (h ++ [.destroyed s.nextImage]) { s with nextImage := s.nextImage + 1 } where
  sound := follows_concat.mpr ⟨hKept.sound, fun hTwice => Nat.lt_irrefl _ (hKept.gone _ hTwice).1,
    fun frame hOut => absurd (hKept.known _ frame hOut) (Nat.lt_irrefl _)⟩
  keys := hKept.keys
  images := hKept.images
  made e he := Nat.lt_succ_of_lt (hKept.made e he)
  gone image hGone := by
    rcases List.mem_append.mp hGone with hBefore | hNow
    · exact ⟨Nat.lt_succ_of_lt (hKept.gone image hBefore).1, (hKept.gone image hBefore).2⟩
    · obtain rfl := Event.destroyed.inj (List.mem_singleton.mp hNow)
      exact ⟨Nat.lt_succ_self _, fun e he => Nat.ne_of_lt (hKept.made e he)⟩
  known image frame hOut := Nat.lt_succ_of_lt (hKept.known image frame (by simpa using hOut))
  frames e he frame hOut := hKept.frames e he frame (by simpa using hOut)
  hand x hx := by
    rw [inHand_aside rfl]
    exact hKept.hand x hx
  uses := hKept.uses
  start := hKept.start

/-- **A new image** under a key that has none. -/
theorem kept_made {bytes : Nat} (hKept : Kept h s) (hFree : s.Free r)
    (hImage : e.image = s.nextImage) (hFrame : e.lastFrame = r.frame)
    (hUse : s.frameStart ≤ e.lastUse ∧ e.lastUse ≤ s.tick) :
    Kept (h ++ [.handedOut e.image r.frame])
      { s with
        nextImage := s.nextImage + 1
        bytes := bytes
        entries := s.entries ++ [(r.key, e)] } := by
  have hAll : ({ s with
        nextImage := s.nextImage + 1
        bytes := bytes
        entries := s.entries ++ [(r.key, e)] } : ImageCache).all.Perm (e :: s.all) := by
    unfold all
    simp only [List.map_append, List.map_cons, List.map_nil, List.append_assoc]
    exact List.perm_middle
  have hOther : ∀ f ∈ s.all, f.image ≠ e.image := fun f hf =>
    hImage ▸ Nat.ne_of_lt (hKept.made f hf)
  refine
    { sound := follows_concat.mpr ⟨hKept.sound, fun hGone =>
        Nat.lt_irrefl _ (hImage ▸ (hKept.gone _ hGone).1)⟩
      keys := ?_
      images := (hAll.map Entry.image).nodup_iff.mpr (List.nodup_cons.mpr ⟨?_, hKept.images⟩)
      made := fun f hf => ?_
      gone := fun image hGone => ?_
      known := fun image frame hOut => ?_
      frames := fun f hf frame hOut => ?_
      hand := fun x hx => ?_
      uses := fun x hx => ?_
      start := hKept.start }
  · rw [List.map_append, List.nodup_append]
    refine ⟨hKept.keys, by simp, fun key hKey key' hKey' => ?_⟩
    obtain ⟨x, hx, rfl⟩ := List.mem_map.mp hKey
    obtain rfl := List.mem_singleton.mp hKey'
    exact hFree x hx
  · intro hTwice
    obtain ⟨f, hf, hSame⟩ := List.mem_map.mp hTwice
    exact hOther f hf hSame
  · rcases List.mem_cons.mp (hAll.mem_iff.mp hf) with rfl | hf
    · exact hImage ▸ Nat.lt_succ_self _
    · exact Nat.lt_succ_of_lt (hKept.made f hf)
  · obtain ⟨hMade, hNot⟩ := hKept.gone image (by simpa using hGone)
    refine ⟨Nat.lt_succ_of_lt hMade, fun f hf => ?_⟩
    rcases List.mem_cons.mp (hAll.mem_iff.mp hf) with rfl | hf
    · exact hImage ▸ (Nat.ne_of_lt hMade).symm
    · exact hNot f hf
  · rcases List.mem_append.mp hOut with hBefore | hNow
    · exact Nat.lt_succ_of_lt (hKept.known image frame hBefore)
    · obtain ⟨rfl, -⟩ := Event.handedOut.inj (List.mem_singleton.mp hNow)
      exact hImage ▸ Nat.lt_succ_self _
  · rcases List.mem_cons.mp (hAll.mem_iff.mp hf) with rfl | hf
    · rcases List.mem_append.mp hOut with hBefore | hNow
      · exact absurd (hImage ▸ hKept.known _ frame hBefore) (Nat.lt_irrefl _)
      · obtain ⟨-, rfl⟩ := Event.handedOut.inj (List.mem_singleton.mp hNow)
        exact Nat.le_of_eq hFrame.symm
    · rcases List.mem_append.mp hOut with hBefore | hNow
      · exact hKept.frames f hf frame hBefore
      · exact absurd (Event.handedOut.inj (List.mem_singleton.mp hNow)).1 (hOther f hf)
  · rw [inHand_handedOut, List.mem_cons]
    rcases List.mem_append.mp hx with hOld | hNew
    · rw [or_iff_right (hOther x.2 (List.mem_append_left _ (List.mem_map_of_mem hOld)))]
      exact hKept.hand x hOld
    · obtain rfl := List.mem_singleton.mp hNew
      exact iff_of_true (Or.inl rfl) hUse.1
  · rcases List.mem_append.mp hx with hOld | hNew
    · exact hKept.uses x hOld
    · obtain rfl := List.mem_singleton.mp hNew
      exact hUse.2

theorem kept_importImage (hKept : Kept h s) (hFree : s.Free r) :
    Kept (h ++ (s.importImage w r).2) (s.importImage w r).1 := by
  unfold importImage
  split
  · rwa [List.append_nil]
  cases r.imported with
  | refused =>
    rw [List.append_nil]
    exact kept_tick hKept
  | unfinished => exact kept_unfinished (kept_tick hKept)
  | made => exact kept_made (kept_tick hKept) hFree rfl rfl ⟨hKept.start, Nat.le_refl _⟩

/-- The cache as `Get` finds room for a miss in it. -/
def roomFor (s : ImageCache) (w : Nat) (r : Request) : ImageCache × List Event :=
  (s.dropStale w r).makeRoom w (bytesOf w r.stride r.height r.format)

/-- What `Get` tells of it. -/
def Request.roomMade (r : Request) (s : ImageCache) : Event :=
  .madeRoom s.entries.length s.held (s.entries.map fun x => x.2.image) r.size

theorem get_hit (hHit : s.hit r = some e) : s.get w r = s.handOut r e := by
  unfold get
  rw [hHit]

theorem get_miss (hMiss : s.hit r = none) : s.get w r =
    (((s.roomFor w r).1.importImage w r).1, (s.roomFor w r).2 ++
      r.roomMade (s.roomFor w r).1 :: ((s.roomFor w r).1.importImage w r).2) := by
  unfold get
  rw [hMiss]
  rfl

theorem roomFor_free : (s.roomFor w r).1.Free r := by
  intro x hx
  have hStale := makeRoomFrom_sublist.subset hx
  rw [dropStale_entries] at hStale
  exact of_decide_eq_true (List.mem_filter.mp hStale).2

theorem kept_roomFor (hKept : Kept h s) :
    Kept (h ++ (s.roomFor w r).2) (s.roomFor w r).1 :=
  kept_makeRoomFrom (kept_dropStale hKept)

theorem kept_get (hKept : Kept h s) : Kept (h ++ (s.get w r).2) (s.get w r).1 := by
  cases hHit : s.hit r with
  | some e =>
    rw [get_hit hHit]
    exact kept_handOut hKept (hit_mem hHit)
  | none =>
    rw [get_miss hHit]
    have hRoom := kept_aside (e := r.roomMade (s.roomFor w r).1)
      (kept_roomFor (w := w) (r := r) hKept) rfl trivial (fun _ h => (nomatch h))
    have hImport := kept_importImage (w := w) hRoom roomFor_free
    rw [List.append_assoc, List.append_assoc, List.singleton_append] at hImport
    exact hImport

/-- **Every call keeps the cache.** -/
theorem kept_step (hKept : Kept h s) (hStep : (machine w).step s action = some s') :
    Kept (h ++ (machine w).events s action) s' := by
  obtain rfl := Option.some.inj hStep
  cases action with
  | beginFrame => exact kept_beginFrame hKept
  | get r => exact kept_get hKept
  | forget owner => exact (List.append_nil h).symm ▸ kept_forget hKept
  | retire frame => exact kept_retire hKept

theorem kept_init : Kept [] {} where
  sound := follows_nil
  keys := List.nodup_nil
  images := List.nodup_nil
  made _ he := (nomatch he)
  gone _ hGone := (nomatch hGone)
  known _ _ hOut := (nomatch hOut)
  frames _ he := (nomatch he)
  hand _ hx := (nomatch hx)
  uses _ hx := (nomatch hx)
  start := Nat.zero_le _

-- ---------------------------------------------------------------------------
-- The books
-- ---------------------------------------------------------------------------

/-- The books are right: each entry's bytes are its size, and together they are the
bytes recorded. -/
structure Books (w : Nat) (s : ImageCache) : Prop where
  each : ∀ x ∈ s.entries, x.2.bytes = x.2.size
  bytes : s.bytes = s.held
  fits : s.held < 2 ^ w

theorem held_drop (hKeys : (s.entries.map Prod.fst).Nodup) (hx : x ∈ s.entries) :
    s.held = x.2.size + (s.drop w x).held := by
  have hSum := ((entries_perm hKeys hx).map fun y => y.2.size).sum_eq
  rw [List.map_cons, List.sum_cons] at hSum
  exact hSum

theorem books_drop (hKeys : (s.entries.map Prod.fst).Nodup) (hBooks : Books w s)
    (hx : x ∈ s.entries) : Books w (s.drop w x) := by
  have hHeld := held_drop (w := w) hKeys hx
  have hFits := hBooks.fits
  refine ⟨fun y hy => hBooks.each y (List.mem_filter.mp hy).1, ?_, by omega⟩
  have hBytes : (s.drop w x).bytes = (s.held + 2 ^ w - x.2.size) % 2 ^ w := by
    rw [← hBooks.bytes, ← hBooks.each x hx]
    rfl
  have hLess : s.held + 2 ^ w - x.2.size = (s.drop w x).held + 2 ^ w := by omega
  rw [hBytes, hLess, Nat.add_mod_right, Nat.mod_eq_of_lt (by omega)]

theorem books_forget {owner : Nat} (hKept : Kept h s) (hBooks : Books w s) :
    Books w (s.forget w owner) :=
  (forget_rule (P := fun s => Kept h s ∧ Books w s)
    (fun _ _ hBoth hx => ⟨kept_drop hBoth.1 hx, books_drop hBoth.1.keys hBoth.2 hx⟩)
    ⟨hKept, hBooks⟩ hKept.keys).2

theorem books_makeRoomFrom {adding rounds : Nat} (hKeys : (s.entries.map Prod.fst).Nodup)
    (hBooks : Books w s) : Books w (s.makeRoomFrom w adding rounds).1 := by
  induction rounds generalizing s with
  | zero => exact hBooks
  | succ rounds ih =>
    unfold makeRoomFrom
    split
    · cases hVictim : pickVictim (fun x => x.2.lastUse) s.entries s.frameStart with
      | none => exact hBooks
      | some x =>
        exact ih ((List.filter_sublist.map Prod.fst).nodup hKeys)
          (books_drop hKeys hBooks (victim_mem hVictim).1)
    · exact hBooks

theorem books_dropStale (hKeys : (s.entries.map Prod.fst).Nodup) (hBooks : Books w s) :
    Books w (s.dropStale w r) := by
  unfold dropStale
  cases hFound : s.entries.find? (fun x => decide (x.1 = r.key)) with
  | none => exact hBooks
  | some x => exact books_drop hKeys hBooks (List.mem_of_find?_eq_some hFound)

theorem books_roomFor (hKept : Kept h s) (hBooks : Books w s) :
    Books w (s.roomFor w r).1 :=
  books_makeRoomFrom (kept_dropStale hKept).keys (books_dropStale hKept.keys hBooks)

/-- A size that does not go round is the bytes told of it. -/
theorem bytesOf_eq (hFits : r.size < 2 ^ w) : bytesOf w r.stride r.height r.format = r.size :=
  Nat.mod_eq_of_lt hFits

/-- What is held as there is room, with what is to be added, does not go round. -/
theorem roomFor_fits (hMiss : s.hit r = none) (hFits : s.Fits w (.get r)) :
    (s.roomFor w r).1.held + r.size < 2 ^ w := by
  have hLess : (s.roomFor w r).1.held ≤
      ((s.entries.filter fun x => decide (x.1 ≠ r.key)).map fun x => x.2.size).sum := by
    have hSub : (s.roomFor w r).1.entries.Sublist
        (s.entries.filter fun x => decide (x.1 ≠ r.key)) := by
      rw [← dropStale_entries (w := w)]
      exact makeRoomFrom_sublist
    exact (hSub.map fun x => x.2.size).sum_le_sum fun _ _ => Nat.zero_le _
  have := hFits hMiss
  omega

theorem books_handOut (hKept : Kept h s) (hBooks : Books w s) (hHit : (r.key, e) ∈ s.entries) :
    Books w (s.handOut r e).1 := by
  have hHeld : (s.handOut r e).1.held = s.held := by
    unfold held handOut
    rw [List.map_map]
    refine congrArg List.sum (List.map_congr_left fun x hx => ?_)
    by_cases hKey : x.1 = r.key
    · have hSame := List.inj_on_of_nodup_map hKept.keys hx hHit hKey
      simp [hSame, Entry.used]
    · simp [hKey]
  refine ⟨fun x hx => ?_, hHeld ▸ hBooks.bytes, hHeld ▸ hBooks.fits⟩
  rcases handOut_mem hx with rfl | ⟨hOther, -⟩
  · exact hBooks.each (r.key, e) hHit
  · exact hBooks.each x hOther

theorem books_importImage (hBooks : Books w s) (hFits : s.held + r.size < 2 ^ w) :
    Books w (s.importImage w r).1 := by
  unfold importImage
  split
  · exact hBooks
  cases r.imported with
  | refused => exact ⟨hBooks.each, hBooks.bytes, hBooks.fits⟩
  | unfinished => exact ⟨hBooks.each, hBooks.bytes, hBooks.fits⟩
  | made =>
    have hBytes := bytesOf_eq (w := w) (r := r) (by omega)
    refine ⟨fun x hx => ?_, ?_, ?_⟩
    · rcases List.mem_append.mp hx with hOld | hNew
      · exact hBooks.each x hOld
      · obtain rfl := List.mem_singleton.mp hNew
        exact hBytes
    · simp only [hBytes, hBooks.bytes, Nat.mod_eq_of_lt hFits]
      simp [held]
    · simpa [held] using hFits

theorem books_act (hKept : Kept h s) (hBooks : Books w s) (hFits : s.Fits w action) :
    Books w (s.act w action).1 := by
  cases action with
  | beginFrame => exact ⟨hBooks.each, hBooks.bytes, hBooks.fits⟩
  | get r =>
    unfold act
    cases hHit : s.hit r with
    | some e =>
      simp only [get_hit hHit]
      exact books_handOut hKept hBooks (hit_mem hHit)
    | none =>
      simp only [get_miss hHit]
      exact books_importImage (books_roomFor hKept hBooks) (roomFor_fits hHit hFits)
  | forget owner => exact books_forget hKept hBooks
  | retire frame => exact ⟨hBooks.each, hBooks.bytes, hBooks.fits⟩

/-- Room is made as the whole numbers have it. -/
theorem roomy_roomFor (hKept : Kept h s) (hBooks : Books w s) (hMiss : s.hit r = none)
    (hFits : s.Fits w (.get r)) :
    Roomy (h ++ (s.roomFor w r).2) (r.roomMade (s.roomFor w r).1) := by
  have hHand := (kept_roomFor (w := w) (r := r) hKept).hand
  have hHeld := roomFor_fits hMiss hFits
  have hBytes := bytesOf_eq (w := w) (r := r) (by omega)
  rcases @makeRoom_ends w (s.dropStale w r) (bytesOf w r.stride r.height r.format) with
    hRoom | hFrames
  · left
    have hOver : goesOver w (s.roomFor w r).1.entries.length (s.roomFor w r).1.bytes r.size =
        false := by
      rw [← hBytes]
      exact hRoom
    unfold goesOver at hOver
    rw [(books_roomFor hKept hBooks).bytes, Nat.mod_eq_of_lt hHeld] at hOver
    simpa using hOver
  · right
    intro image hImage
    obtain ⟨x, hx, rfl⟩ := List.mem_map.mp hImage
    exact (hHand x hx).mpr (hFrames x hx)

/-- An event that tells of no room. -/
def Event.isMadeRoom : Event → Bool
  | .madeRoom .. => true
  | .began | .handedOut .. | .letGo _ | .retired _ | .destroyed _ => false

/-- Events that tell of no room are as they should be. -/
theorem roomy_append {es : List Event} (hRoomy : Follows Roomy h)
    (hOther : ∀ e ∈ es, e.isMadeRoom = false) : Follows Roomy (h ++ es) := by
  induction es generalizing h with
  | nil => rwa [List.append_nil]
  | cons e es ih =>
    obtain ⟨he, hes⟩ := List.forall_mem_cons.mp hOther
    have hHere : Roomy h e := by
      cases e <;> trivial
    rw [← List.singleton_append, ← List.append_assoc]
    exact ih (follows_concat.mpr ⟨hRoomy, hHere⟩) hes

theorem makeRoomFrom_letGo {adding rounds : Nat} :
    ∀ e ∈ (s.makeRoomFrom w adding rounds).2, e.isMadeRoom = false := by
  induction rounds generalizing s with
  | zero => exact fun _ he => (nomatch he)
  | succ rounds ih =>
    unfold makeRoomFrom
    split
    · cases pickVictim (fun x => x.2.lastUse) s.entries s.frameStart with
      | none => exact fun _ he => (nomatch he)
      | some x =>
        intro e he
        rcases List.mem_cons.mp he with rfl | he
        · rfl
        · exact ih e he
    · exact fun _ he => (nomatch he)

theorem importImage_events : ∀ e ∈ (s.importImage w r).2, e.isMadeRoom = false := by
  unfold importImage
  split
  · exact fun _ he => (nomatch he)
  cases r.imported <;> simp [Event.isMadeRoom]

theorem roomy_act (hKept : Kept h s) (hBooks : Books w s) (hFits : s.Fits w action)
    (hRoomy : Follows Roomy h) : Follows Roomy (h ++ (s.act w action).2) := by
  cases action with
  | beginFrame => exact roomy_append hRoomy (by simp [act, Event.isMadeRoom])
  | get r =>
    unfold act
    cases hHit : s.hit r with
    | some e =>
      simp only [get_hit hHit]
      exact roomy_append hRoomy (by simp [handOut, Event.isMadeRoom])
    | none =>
      simp only [get_miss hHit]
      have hLetGo := @roomy_append _ (s.roomFor w r).2 hRoomy makeRoomFrom_letGo
      have hMade := follows_concat.mpr ⟨hLetGo, roomy_roomFor hKept hBooks hHit hFits⟩
      have hAll := roomy_append hMade
        (importImage_events (w := w) (s := (s.roomFor w r).1) (r := r))
      rw [List.append_assoc, List.append_assoc, List.singleton_append] at hAll
      exact hAll
  | forget owner => exact (List.append_nil h).symm ▸ hRoomy
  | retire frame =>
    refine roomy_append hRoomy fun e he => ?_
    rcases List.mem_cons.mp he with rfl | he
    · rfl
    · obtain ⟨f, -, rfl⟩ := List.mem_map.mp he
      rfl

/-- **The cache keeps what is in flight, and its books.** In every run nothing in a
frame's hands is let go to make room, and nothing is destroyed twice, nor while a
frame that used it may be in flight, nor handed out thereafter; and where no import's
size goes round with those held beside it, the bytes recorded are those held, and
room is made unless all that is left is in a frame's hands. -/
theorem imageCache_kept {actions : List Action} (hRun : (machine w).run {} actions = some s) :
    Follows Sound ((machine w).trace {} actions) ∧
      ((machine w).Meets (Fits w) {} actions →
        s.bytes = s.held ∧ Follows Roomy ((machine w).trace {} actions)) := by
  constructor
  · exact (Machine.run_history (I := Kept) (fun _ _ _ _ => kept_step) kept_init hRun).sound
  · intro hMeets
    have hAll := Machine.run_history_of_meets
      (I := fun h s => Kept h s ∧ Books w s ∧ Follows Roomy h)
      (fun h s a s' hI hFits hStep => by
        obtain ⟨hKept, hBooks, hRoomy⟩ := hI
        refine ⟨kept_step hKept hStep, ?_, roomy_act hKept hBooks hFits hRoomy⟩
        obtain rfl := Option.some.inj hStep
        exact books_act hKept hBooks hFits)
      ⟨kept_init, ⟨fun _ hx => (nomatch hx), rfl, Nat.two_pow_pos w⟩, follows_nil⟩ hMeets hRun
    exact ⟨hAll.2.1.bytes, hAll.2.2⟩

/-- A target, and a buffer of its own handle. -/
def target (pointer : Nat) (stride height : UInt32) (frame : Nat) : Request where
  handle := ⟨pointer, 1, [7], pointer⟩
  height := height
  stride := stride
  format := .r8g8b8a8Unorm
  target := true
  frame := frame

/-- Two frames, the second on a buffer reallocated under its handle, and both done. -/
def reallocated : List Action :=
  [.beginFrame, .get (target 1 1200 1920 1), .beginFrame,
    .get { target 1 1200 1920 2 with handle := ⟨1, 1, [7], 9⟩ }, .retire 1, .retire 2]

example : (machine 32).trace {} reallocated =
    [.began, .madeRoom 0 0 [] 9216000, .handedOut 0 1, .began, .madeRoom 0 0 [] 9216000,
      .handedOut 1 2, .retired 1, .destroyed 0, .retired 2] := by decide

theorem imageCache_kept_reallocated :
    ∃ s, (machine 32).run {} reallocated = some s ∧ s.bytes = s.held :=
  ⟨_, rfl, ((@imageCache_kept 32 _ reallocated rfl).2 (by decide)).1⟩

/-- Two images of two gigabytes, nought by a book of 32 bits. -/
theorem books_go_round : ¬∀ (actions : List Action) (s : ImageCache),
    (machine 32).run {} actions = some s → s.bytes = s.held := by
  intro h
  have hBooks := h [.beginFrame, .get (target 1 32768 16384 1), .get (target 2 32768 16384 1)] _ rfl
  revert hBooks
  decide

end ImageCache

end TegraHwc.Vk
