import TegraHwc.Lib.Memo
import TegraHwc.Tegra.WindowReach

/-!
# TegraHwc — buffers described, and their shapes remembered

`BufferInfoNvidia::GetBoInfo` of `bufferinfo/legacy/BufferInfoNvidia.cpp` reads a
buffer's shape out of the allocator's descriptors (`bufferinfo/NvGralloc.cpp`), tells
it by a format and a modifier, and remembers it by the inode of the buffer's memory.
What the allocator and the kernel answer about a handle is given with each call: a
handle may name another buffer by the next one.

## Results

* `described_eq`         — a description is the shape of the buffer, filled in for
  the handle it was asked by.
* `getBoInfo_remembers`  — whatever was asked before, a buffer is described as it
  would be the first time; and where there is room, it is looked at once.
* `window_scans_allocated` — a window scans a buffer as the allocator laid it out.
-/

namespace TegraHwc

open Memo

/-- `NvGralloc::Surface`. -/
structure Surface where
  width : Nat
  height : Nat
  layout : Nat
  pitch : Nat
  offset : Nat
  kind : Nat
  blockHeightLog2 : Nat
  deriving DecidableEq, Repr

namespace NvGralloc

-- ---------------------------------------------------------------------------
-- The allocator's descriptors
-- ---------------------------------------------------------------------------

/-- `kLayoutPitch`. -/
def kLayoutPitch : Nat := 1

/-- `kLayoutTiled`. -/
def kLayoutTiled : Nat := 2

/-- `kLayoutBlocklinear`. -/
def kLayoutBlocklinear : Nat := 3

/-- `kSurfaceWords`. -/
def kSurfaceWords : Nat := 20

/-- `kMostSurfaces`. -/
def kMostSurfaces : Nat := 2

/-- `ReadSurface`: the words of a descriptor, where they agree with one another. -/
def readSurface (word : Nat → Nat) : Option Surface :=
  if word 0 = 0 ∨ word 1 = 0 then none
  else if word 5 < word 0 then none
  else if word 4 < kLayoutPitch ∨ kLayoutBlocklinear < word 4 then none
  else some
    { width := word 0
      height := word 1
      layout := word 4
      pitch := word 5
      offset := word 7
      kind := word 8
      blockHeightLog2 := word 9 % 2 ^ 8 }

/-- What the allocator answers about a handle, and the kernel about its memory. -/
structure Allocated where
  valid : Bool := true
  memFd : Int
  inode : Option Nat
  halFormat : Int
  found : Nat
  words : Nat → Nat

/-- `DescribeSurfaces`. -/
def describeSurfaces (a : Allocated) : Option (List Surface) :=
  if a.found = 0 then none
  else (List.range (min a.found kMostSurfaces)).mapM fun i =>
    readSurface fun w => a.words (i * kSurfaceWords + w)

end NvGralloc

open NvGralloc

/-- `BufferInfo`, with what the legacy getter fills in of its two planes. -/
structure BoInfo extends BufferInfo where
  primeFd : Int := 0
  primeFdUV : Int := 0
  modifierUV : Nat := 0
  deriving DecidableEq, Repr

/-- `BufferShape`. -/
structure BufferShape where
  width : Nat
  height : Nat
  pitch : Nat
  offset : Nat
  format : Nat
  modifier : Nat
  planes : Nat
  pitchUV : Nat
  offsetUV : Nat
  deriving DecidableEq, Repr

namespace Surface

/-- Its modifier, as `GetBoInfo` makes it. -/
def modifier (s : Surface) : Nat :=
  if s.layout = kLayoutBlocklinear then blockLinearModifier s.kind s.blockHeightLog2
  else if s.layout = kLayoutTiled then nvidiaModifier 1
  else 0

/-- How its memory is laid out, where it is of a kind that can be scanned. -/
def arrangement (s : Surface) : Option MemoryLayout :=
  if s.layout = kLayoutBlocklinear then
    if s.kind % 256 = kKindGeneric16Bx2 then some (.blockLinear (s.blockHeightLog2 % 16)) else none
  else if s.layout = kLayoutTiled then some .tiled
  else some .pitch

/-- Two planes of one arrangement. -/
def LaidOutAs (chroma luma : Surface) : Prop :=
  chroma.layout = luma.layout ∧ chroma.kind = luma.kind ∧
    chroma.blockHeightLog2 = luma.blockHeightLog2

instance (chroma luma : Surface) : Decidable (chroma.LaidOutAs luma) :=
  inferInstanceAs (Decidable (_ ∧ _ ∧ _))

end Surface

/-- `BufferInfoNvidia`. -/
structure BufferInfoNvidia where
  shapes : Memory Nat BufferShape := ∅
  shapeHits : Nat := 0
  shapeMisses : Nat := 0
  shapeClearings : Nat := 0

namespace BufferInfoNvidia

/-- `kMostShapesToRemember`. -/
def kMostShapesToRemember : Nat := 64

/-- What the allocator's surfaces say, filled in; none where the planes disagree or
the format has no name. -/
def fromSurfaces (bi : BoInfo) (surfaces : List Surface) (halFormat : Int) : Option BoInfo :=
  match surfaces with
  | [] => none
  | surface :: rest =>
    let bi := { bi with
      width := surface.width
      height := surface.height
      pitch := surface.pitch
      offset := surface.offset }
    if rest.head?.any fun chroma => !decide (chroma.LaidOutAs surface) then none
    else
      let bi := match rest.head? with
        | none => bi
        | some chroma => { bi with
          pitchUV := chroma.pitch
          offsetUV := chroma.offset
          primeFdUV := bi.primeFd }
      let format := convertHalFormatToDrm halFormat
      if format = 0 then none
      else
        let bi := { bi with format, modifier := surface.modifier }
        some (if rest.isEmpty then bi else { bi with modifierUV := bi.modifier })

/-- What is remembered of a description. -/
def shapeFrom (bi : BoInfo) (planes : Nat) : BufferShape :=
  { width := bi.width
    height := bi.height
    pitch := bi.pitch
    offset := bi.offset
    format := bi.format
    modifier := bi.modifier
    planes
    pitchUV := bi.pitchUV
    offsetUV := bi.offsetUV }

/-- A remembered shape, filled in. -/
def fromShape (bi : BoInfo) (shape : BufferShape) : BoInfo :=
  let bi := { bi with
    width := shape.width
    height := shape.height
    pitch := shape.pitch
    offset := shape.offset
    format := shape.format
    modifier := shape.modifier }
  if shape.planes ≤ 1 then bi
  else { bi with
    pitchUV := shape.pitchUV
    offsetUV := shape.offsetUV
    primeFdUV := bi.primeFd
    modifierUV := shape.modifier }

/-- A shape put in `shapes_`, which is cleared whole when full. -/
def noteShape (s : BufferInfoNvidia) (uniqueId : Nat) (shape : BufferShape) : BufferInfoNvidia :=
  { s with
    shapes := remember kMostShapesToRemember (fun _ => ∅) uniqueId shape s.shapes
    shapeClearings := s.shapeClearings +
      if kMostShapesToRemember ≤ size s.shapes then 1 else 0 }

/-- What is known of a buffer before its shape is. -/
def blank (handle : Nat) (a : Allocated) : BoInfo :=
  { width := 0
    height := 0
    handle := some handle
    uniqueId := a.inode.getD 0
    primeFd := a.memFd }

/-- `GetBoInfo`; there is no allocator where its library was not found. -/
def getBoInfo (s : BufferInfoNvidia) (handle : Nat) (gralloc : Option Allocated) :
    Option BoInfo × BufferInfoNvidia :=
  match gralloc with
  | none => (none, s)
  | some a =>
    if !a.valid then (none, s)
    else if a.memFd < 0 then (none, s)
    else
      let bi := blank handle a
      match if bi.uniqueId ≠ 0 then s.shapes.lookup bi.uniqueId else none with
      | some shape => (some (fromShape bi shape), { s with shapeHits := s.shapeHits + 1 })
      | none =>
        let s := { s with shapeMisses := s.shapeMisses + 1 }
        match describeSurfaces a with
        | none => (none, s)
        | some surfaces =>
          match fromSurfaces bi surfaces a.halFormat with
          | none => (none, s)
          | some described =>
            (some described,
              if bi.uniqueId ≠ 0 then
                s.noteShape bi.uniqueId (shapeFrom described surfaces.length)
              else s)

/-- A buffer asked about: its handle, and what is answered about it. -/
abbrev Ask := Nat × Option Allocated

/-- What is answered to some calls, and what is remembered after them. -/
def getBoInfos (s : BufferInfoNvidia) : List Ask → List (Option BoInfo) × BufferInfoNvidia
  | [] => ([], s)
  | (handle, gralloc) :: asks =>
    let (answer, s) := s.getBoInfo handle gralloc
    let (answers, s) := s.getBoInfos asks
    (answer :: answers, s)

-- ---------------------------------------------------------------------------
-- A shape, and what is filled in of it
-- ---------------------------------------------------------------------------

/-- The shape of a buffer; it has none where it cannot be described. -/
def shapeOf (a : Allocated) : Option BufferShape :=
  (describeSurfaces a).bind fun surfaces =>
    (fromSurfaces { width := 0, height := 0 } surfaces a.halFormat).map fun bi =>
      shapeFrom bi surfaces.length

/-- The shape kept of a description is one of the surfaces alone, and filling it in
describes them again: the chroma is kept with the rest. -/
theorem fromSurfaces_eq (handle : Nat) (a : Allocated) (surfaces : List Surface) :
    fromSurfaces (blank handle a) surfaces a.halFormat =
        ((fromSurfaces { width := 0, height := 0 } surfaces a.halFormat).map fun bi =>
          shapeFrom bi surfaces.length).map (fromShape (blank handle a)) ∧
      (fromSurfaces (blank handle a) surfaces a.halFormat).map
          (fun bi => shapeFrom bi surfaces.length) =
        (fromSurfaces { width := 0, height := 0 } surfaces a.halFormat).map fun bi =>
          shapeFrom bi surfaces.length := by
  rcases surfaces with _ | ⟨surface, _ | ⟨chroma, rest⟩⟩
  · exact ⟨rfl, rfl⟩
  · by_cases hFormat : convertHalFormatToDrm a.halFormat = 0
    · simp [fromSurfaces, hFormat]
    · simp [fromSurfaces, hFormat, shapeFrom, fromShape, blank]
  · by_cases hLaid : chroma.LaidOutAs surface
    · by_cases hFormat : convertHalFormatToDrm a.halFormat = 0
      · simp [fromSurfaces, hFormat]
      · simp [fromSurfaces, hFormat, hLaid, shapeFrom, fromShape, blank]
    · simp [fromSurfaces, hLaid]

/-- **A description is the shape of the buffer**, filled in for its handle. -/
theorem described_eq (handle : Nat) (a : Allocated) :
    ((describeSurfaces a).bind fun surfaces =>
        fromSurfaces (blank handle a) surfaces a.halFormat) =
      (shapeOf a).map (fromShape (blank handle a)) := by
  unfold shapeOf
  cases describeSurfaces a with
  | none => rfl
  | some surfaces => exact (fromSurfaces_eq handle a surfaces).1

/-- A call that gets as far as the buffer's memory. -/
def Reaches (gralloc : Option Allocated) (a : Allocated) : Prop :=
  gralloc = some a ∧ a.valid = true ∧ 0 ≤ a.memFd

/-- What a call may answer and remember: a shape is known, there is none, the buffer has
no identity to remember it by, or it is remembered. -/
theorem getBoInfo_cases {s : BufferInfoNvidia} (handle : Nat) {gralloc : Option Allocated}
    {a : Allocated} (h : Reaches gralloc a) :
    (∃ shape, a.inode.getD 0 ≠ 0 ∧ s.shapes.lookup (a.inode.getD 0) = some shape ∧
        s.getBoInfo handle gralloc =
          (some (fromShape (blank handle a) shape), { s with shapeHits := s.shapeHits + 1 })) ∨
      (shapeOf a = none ∧
        s.getBoInfo handle gralloc = (none, { s with shapeMisses := s.shapeMisses + 1 })) ∨
      (∃ shape, shapeOf a = some shape ∧ a.inode.getD 0 = 0 ∧
        s.getBoInfo handle gralloc =
          (some (fromShape (blank handle a) shape),
            { s with shapeMisses := s.shapeMisses + 1 })) ∨
      ∃ shape, shapeOf a = some shape ∧ a.inode.getD 0 ≠ 0 ∧ a.inode.getD 0 ∉ s.shapes ∧
        s.getBoInfo handle gralloc =
          (some (fromShape (blank handle a) shape),
            { s with shapeMisses := s.shapeMisses + 1 }.noteShape (a.inode.getD 0) shape) := by
  obtain ⟨rfl, hValid, hFd⟩ := h
  cases hLook : (if a.inode.getD 0 ≠ 0 then s.shapes.lookup (a.inode.getD 0) else none) with
  | some shape =>
    obtain ⟨hNamed, hKnown⟩ := Option.ite_none_right_eq_some.mp hLook
    have hFound : (if (blank handle a).uniqueId ≠ 0 then
        s.shapes.lookup (blank handle a).uniqueId else none) = some shape := hLook
    refine .inl ⟨shape, hNamed, hKnown, ?_⟩
    simp only [getBoInfo, hValid, hFound, Bool.not_true, Bool.false_eq_true, if_false,
      if_neg (Int.not_lt.mpr hFd)]
  | none =>
    have hMissed : (if (blank handle a).uniqueId ≠ 0 then
        s.shapes.lookup (blank handle a).uniqueId else none) = none := hLook
    have hNew : a.inode.getD 0 ≠ 0 → a.inode.getD 0 ∉ s.shapes := by
      intro hNamed
      rw [if_pos hNamed] at hLook
      exact AList.lookup_eq_none.mp hLook
    simp only [getBoInfo, hValid, hMissed, Bool.not_true, Bool.false_eq_true, if_false,
      if_neg (Int.not_lt.mpr hFd)]
    cases hSurfaces : describeSurfaces a with
    | none => exact .inr (.inl ⟨by rw [shapeOf, hSurfaces, Option.bind_none], rfl⟩)
    | some surfaces =>
      obtain ⟨hFilled, hKept⟩ := fromSurfaces_eq handle a surfaces
      have hShape : shapeOf a = (fromSurfaces (blank handle a) surfaces a.halFormat).map fun bi =>
          shapeFrom bi surfaces.length := by
        rw [hKept, shapeOf, hSurfaces, Option.bind_some]
      cases hDescribed : fromSurfaces (blank handle a) surfaces a.halFormat with
      | none =>
        refine .inr (.inl ⟨by rw [hShape, hDescribed, Option.map_none], ?_⟩)
        simp only [hDescribed]
      | some described =>
        have hOwn : shapeOf a = some (shapeFrom described surfaces.length) := by
          rw [hShape, hDescribed, Option.map_some]
        have hAgain : described =
            fromShape (blank handle a) (shapeFrom described surfaces.length) := by
          rw [← hKept, hDescribed] at hFilled
          exact Option.some.inj hFilled
        by_cases hNamed : a.inode.getD 0 = 0
        · refine .inr (.inr (.inl ⟨_, hOwn, hNamed, ?_⟩))
          rw [← hAgain]
          simp only [hDescribed]
          exact congrArg (Prod.mk _) (if_neg (not_not.mpr hNamed))
        · refine .inr (.inr (.inr ⟨_, hOwn, hNamed, hNew hNamed, ?_⟩))
          rw [← hAgain]
          simp only [hDescribed]
          exact congrArg (Prod.mk _) (if_pos hNamed)

/-- The first time, a buffer's shape is filled in. -/
theorem getBoInfo_first (handle : Nat) {gralloc : Option Allocated} {a : Allocated}
    (h : Reaches gralloc a) :
    (getBoInfo {} handle gralloc).1 = (shapeOf a).map (fromShape (blank handle a)) := by
  rcases getBoInfo_cases (s := {}) handle h with ⟨shape, -, hLook, -⟩ | ⟨hNone, hEq⟩ |
    ⟨shape, hShape, -, hEq⟩ | ⟨shape, hShape, -, -, hEq⟩
  · rw [show ({} : BufferInfoNvidia).shapes = ∅ from rfl, AList.lookup_empty] at hLook
    cases hLook
  · rw [hEq, hNone, Option.map_none]
  · rw [hEq, hShape, Option.map_some]
  · rw [hEq, hShape, Option.map_some]

/-- A call that does not get that far is answered nothing, and nothing is kept of it. -/
theorem getBoInfo_refused {s : BufferInfoNvidia} {handle : Nat} {gralloc : Option Allocated}
    (h : ∀ a, ¬ Reaches gralloc a) : s.getBoInfo handle gralloc = (none, s) := by
  unfold getBoInfo
  cases gralloc with
  | none => rfl
  | some a =>
    by_cases hValid : a.valid = true
    · by_cases hFd : a.memFd < 0
      · simp [hValid, hFd]
      · exact absurd ⟨rfl, hValid, Int.not_lt.mp hFd⟩ (h a)
    · simp [hValid]

-- ---------------------------------------------------------------------------
-- What is remembered
-- ---------------------------------------------------------------------------

/-- The shape of a buffer is settled when it is allocated, and no other buffer is
given its identity. -/
def SettledBy (settled : Nat → Option BufferShape) (gralloc : Option Allocated) : Prop :=
  ∀ a, Reaches gralloc a → a.inode.getD 0 ≠ 0 → shapeOf a = settled (a.inode.getD 0)

/-- A buffer that is looked at and not remembered: it has no identity, or no shape. -/
def passesBy (gralloc : Option Allocated) : Bool :=
  gralloc.any fun a =>
    a.valid && decide (0 ≤ a.memFd) && (decide (a.inode.getD 0 = 0) || (shapeOf a).isNone)

/-- What holds of the shapes remembered, of buffers of shapes that are settled. -/
structure Kept (settled : Nat → Option BufferShape) (s : BufferInfoNvidia) : Prop where
  faithful : Faithful (fun k shape => settled k = some shape) s.shapes
  bounded : size s.shapes ≤ kMostShapesToRemember

theorem noteShape_kept {settled : Nat → Option BufferShape} {s : BufferInfoNvidia}
    {uniqueId : Nat} {shape : BufferShape} (h : Kept settled s)
    (hShape : settled uniqueId = some shape) : Kept settled (s.noteShape uniqueId shape) where
  faithful := h.faithful.remember (less_empty _) hShape
  bounded := by
    have hSize := size_remember_le kMostShapesToRemember (fun _ => ∅) uniqueId shape s.shapes
    rw [size_empty] at hSize
    exact hSize.trans (by decide)

/-- **A call keeps what is remembered right**, and is answered as the first time. -/
theorem getBoInfo_kept {settled : Nat → Option BufferShape} {s : BufferInfoNvidia}
    (h : Kept settled s) (handle : Nat) {gralloc : Option Allocated}
    (hSettled : SettledBy settled gralloc) :
    (s.getBoInfo handle gralloc).1 = (getBoInfo {} handle gralloc).1 ∧
      Kept settled (s.getBoInfo handle gralloc).2 := by
  by_cases hReaches : ∃ a, Reaches gralloc a
  · obtain ⟨a, ha⟩ := hReaches
    rw [getBoInfo_first handle ha]
    rcases getBoInfo_cases (s := s) handle ha with ⟨shape, hNamed, hLook, hEq⟩ | ⟨hNone, hEq⟩ |
      ⟨shape, hShape, -, hEq⟩ | ⟨shape, hShape, hNamed, -, hEq⟩
    · rw [hEq, hSettled a ha hNamed, h.faithful _ _ hLook]
      exact ⟨rfl, h.faithful, h.bounded⟩
    · rw [hEq, hNone]
      exact ⟨rfl, h.faithful, h.bounded⟩
    · rw [hEq, hShape]
      exact ⟨rfl, h.faithful, h.bounded⟩
    · rw [hEq, hShape]
      have hOwn := (hSettled a ha hNamed).symm.trans hShape
      exact ⟨rfl, noteShape_kept ⟨h.faithful, h.bounded⟩ hOwn⟩
  · rw [getBoInfo_refused (not_exists.mp hReaches), getBoInfo_refused (not_exists.mp hReaches)]
    exact ⟨rfl, h⟩

/-- Where there is room for every buffer, each call either finds a shape, or adds one,
or passes by. -/
theorem getBoInfo_counted {s : BufferInfoNvidia} (handle : Nat) {gralloc : Option Allocated}
    {known : Finset Nat} (hRoom : known.card ≤ kMostShapesToRemember)
    (hKnown : ∀ k ∈ s.shapes, k ∈ known)
    (hIn : ∀ a, Reaches gralloc a → a.inode.getD 0 ≠ 0 → a.inode.getD 0 ∈ known) :
    (∀ k ∈ (s.getBoInfo handle gralloc).2.shapes, k ∈ known) ∧
      (s.getBoInfo handle gralloc).2.shapeMisses + size s.shapes ≤
        s.shapeMisses + size (s.getBoInfo handle gralloc).2.shapes +
          if passesBy gralloc then 1 else 0 := by
  by_cases hReaches : ∃ a, Reaches gralloc a
  · obtain ⟨a, ha⟩ := hReaches
    have hPasses : passesBy gralloc = (decide (a.inode.getD 0 = 0) || (shapeOf a).isNone) := by
      obtain ⟨rfl, hValid, hFd⟩ := ha
      simp [passesBy, hValid, hFd]
    rw [hPasses]
    rcases getBoInfo_cases (s := s) handle ha with ⟨shape, -, -, hEq⟩ | ⟨hNone, hEq⟩ |
      ⟨shape, -, hUnnamed, hEq⟩ | ⟨shape, hShape, hNamed, hNew, hEq⟩
    · rw [hEq]
      exact ⟨hKnown, Nat.le_add_right _ _⟩
    · rw [hEq, hNone]
      refine ⟨hKnown, ?_⟩
      simp only [Option.isNone_none, Bool.or_true, if_true]
      omega
    · rw [hEq, hUnnamed]
      refine ⟨hKnown, ?_⟩
      simp only [decide_true, Bool.true_or, if_true]
      omega
    · have hFits : size s.shapes < kMostShapesToRemember :=
        (size_lt_of_unknown hKnown (hIn a ha hNamed) hNew).trans_le hRoom
      have hShapes : (s.getBoInfo handle gralloc).2.shapes =
          s.shapes.insert (a.inode.getD 0) shape := by
        rw [hEq]
        exact remember_of_room hFits
      have hMisses : (s.getBoInfo handle gralloc).2.shapeMisses = s.shapeMisses + 1 := by
        rw [hEq]
        rfl
      rw [hShapes, hMisses, size_insert_unknown hNew]
      refine ⟨fun k hk => ?_, by omega⟩
      obtain rfl | hOld := (AList.mem_insert _).mp hk
      · exact hIn a ha hNamed
      · exact hKnown k hOld
  · rw [getBoInfo_refused (not_exists.mp hReaches)]
    exact ⟨hKnown, Nat.le_add_right _ _⟩

/-- What some calls are answered, and what they keep. -/
theorem getBoInfos_kept {settled : Nat → Option BufferShape} {s : BufferInfoNvidia}
    (h : Kept settled s) {asks : List Ask} (hSettled : ∀ ask ∈ asks, SettledBy settled ask.2) :
    (s.getBoInfos asks).1 = asks.map (fun ask => (getBoInfo {} ask.1 ask.2).1) ∧
      Kept settled (s.getBoInfos asks).2 := by
  induction asks generalizing s with
  | nil => exact ⟨rfl, h⟩
  | cons ask asks ih =>
    obtain ⟨hAnswer, hKept⟩ := getBoInfo_kept h ask.1 (hSettled ask List.mem_cons_self)
    obtain ⟨hAnswers, hLast⟩ := ih hKept fun b hb => hSettled b (List.mem_cons_of_mem _ hb)
    refine ⟨?_, hLast⟩
    rw [List.map_cons, ← hAnswer, ← hAnswers]
    rfl

/-- How often some calls have the allocator look, where there is room. -/
theorem getBoInfos_counted {s : BufferInfoNvidia} {asks : List Ask} {known : Finset Nat}
    (hRoom : known.card ≤ kMostShapesToRemember) (hKnown : ∀ k ∈ s.shapes, k ∈ known)
    (hIn : ∀ ask ∈ asks, ∀ a, Reaches ask.2 a → a.inode.getD 0 ≠ 0 → a.inode.getD 0 ∈ known) :
    (s.getBoInfos asks).2.shapeMisses + size s.shapes ≤
      s.shapeMisses + known.card + asks.countP fun ask => passesBy ask.2 := by
  induction asks generalizing s with
  | nil =>
    show s.shapeMisses + size s.shapes ≤ _
    have hSize := size_le_of_known hKnown
    rw [List.countP_nil]
    omega
  | cons ask asks ih =>
    obtain ⟨hStill, hOne⟩ := getBoInfo_counted ask.1 hRoom hKnown (hIn ask List.mem_cons_self)
    have hRest := ih hStill fun b hb => hIn b (List.mem_cons_of_mem _ hb)
    show ((s.getBoInfo ask.1 ask.2).2.getBoInfos asks).2.shapeMisses + size s.shapes ≤ _
    rw [List.countP_cons]
    omega

/-- **A buffer is described as it would be the first time**, whatever was asked before;
no more shapes are remembered than is said; and where all the buffers asked about fit,
the allocator is asked about each of them once, but for those it cannot remember. -/
theorem getBoInfo_remembers (settled : Nat → Option BufferShape) (asks : List Ask)
    (hSettled : ∀ ask ∈ asks, SettledBy settled ask.2) :
    (getBoInfos {} asks).1 = asks.map (fun ask => (getBoInfo {} ask.1 ask.2).1) ∧
      size (getBoInfos {} asks).2.shapes ≤ kMostShapesToRemember ∧
        ∀ known : Finset Nat, known.card ≤ kMostShapesToRemember →
          (∀ ask ∈ asks, ∀ a, Reaches ask.2 a → a.inode.getD 0 ≠ 0 → a.inode.getD 0 ∈ known) →
            (getBoInfos {} asks).2.shapeMisses ≤
              known.card + asks.countP fun ask => passesBy ask.2 := by
  have hStart : Kept settled {} := ⟨faithful_empty, Nat.zero_le _⟩
  obtain ⟨hAnswers, hKept⟩ := getBoInfos_kept hStart hSettled
  refine ⟨hAnswers, hKept.bounded, fun known hRoom hIn => ?_⟩
  have hCount := getBoInfos_counted (s := {}) hRoom
    (fun k hk => absurd hk (AList.notMem_empty k)) hIn
  have hNone : ({} : BufferInfoNvidia).shapeMisses = 0 := rfl
  omega

/-- A frame of video and a picture, as the allocator answers about them: a descriptor of
luma and one of chroma, or one of colour. -/
def videoFrame : Allocated where
  memFd := 7
  inode := some 100
  halFormat := kNvgrPixelFormatNv12
  found := 2
  words := fun w => [64, 32, 0, 0, 3, 64, 0, 0, 0xfe, 2, 0, 0, 0, 0, 0, 0, 0, 0, 0, 0,
    32, 16, 0, 0, 3, 64, 0, 2048, 0xfe, 2, 0, 0, 0, 0, 0, 0, 0, 0, 0, 0].getD w 0

def pictureFrame : Allocated where
  memFd := 8
  inode := some 101
  halFormat := Vk.kHalRgba8888
  found := 1
  words := fun w => [64, 32, 0, 0, 1, 256, 0, 0, 0, 0].getD w 0

/-- The shapes they were allocated with. -/
def frameShapes (k : Nat) : Option BufferShape :=
  if k = 100 then shapeOf videoFrame else shapeOf pictureFrame

/-- The video comes round again under another handle. -/
def frameAsks : List Ask := [(1, some videoFrame), (2, some pictureFrame), (3, some videoFrame)]

theorem settledBy_frameShapes : ∀ ask ∈ frameAsks, SettledBy frameShapes ask.2 := by
  simp only [frameAsks, List.mem_cons, List.not_mem_nil, or_false, forall_eq_or_imp, forall_eq,
    SettledBy, Reaches]
  refine ⟨?_, ?_, ?_⟩ <;> (rintro a ⟨hSame, -⟩ -; cases hSame; rfl)

/-- It is known then: the allocator looked at two buffers for three calls. -/
theorem getBoInfo_remembers_video :
    (getBoInfos {} frameAsks).1 = frameAsks.map (fun ask => (getBoInfo {} ask.1 ask.2).1) ∧
      (getBoInfos {} frameAsks).2.shapeMisses ≤ 2 := by
  obtain ⟨hAnswers, -, hLooks⟩ := getBoInfo_remembers frameShapes frameAsks settledBy_frameShapes
  refine ⟨hAnswers, hLooks {100, 101} (by decide) ?_⟩
  simp only [frameAsks, List.mem_cons, List.not_mem_nil, or_false, forall_eq_or_imp, forall_eq,
    Reaches]
  refine ⟨?_, ?_, ?_⟩ <;> (rintro a ⟨hSame, -⟩ -; cases hSame; decide)

-- ---------------------------------------------------------------------------
-- From the allocator's words to a window
-- ---------------------------------------------------------------------------

/-- An arrangement comes back from its modifier. -/
theorem tegraLayoutFromModifier_modifier (s : Surface) :
    tegraLayoutFromModifier s.modifier = s.arrangement := by
  obtain ⟨hTiled, hPitch⟩ := tegraLayoutFromModifier_plain
  unfold Surface.modifier Surface.arrangement
  split
  · exact tegraLayoutFromModifier_blockLinear s.kind s.blockHeightLog2
  · split
    · exact hTiled
    · exact hPitch

/-- What a description says of the surfaces it was filled in of. -/
theorem fromSurfaces_spec {handle : Nat} {a : Allocated} {surfaces : List Surface} {d : BoInfo}
    (h : fromSurfaces (blank handle a) surfaces a.halFormat = some d) :
    ∃ luma rest, surfaces = luma :: rest ∧
      (∀ chroma, rest.head? = some chroma → chroma.LaidOutAs luma) ∧
        d.format = convertHalFormatToDrm a.halFormat ∧ d.modifier = luma.modifier ∧
          (d.width = luma.width ∧ d.height = luma.height) ∧
            (d.pitch = luma.pitch ∧ d.offset = luma.offset) ∧
              d.pitchUV = (rest.head?.map Surface.pitch).getD 0 ∧
                d.offsetUV = (rest.head?.map Surface.offset).getD 0 := by
  rcases surfaces with _ | ⟨luma, _ | ⟨chroma, rest⟩⟩
  · cases h
  · by_cases hFormat : convertHalFormatToDrm a.halFormat = 0
    · simp [fromSurfaces, hFormat] at h
    · simp only [fromSurfaces, List.head?_nil, Option.any_none, Bool.false_eq_true, if_false,
        hFormat, List.isEmpty_nil, if_true, Option.some.injEq] at h
      refine ⟨luma, [], rfl, fun _ hc => (by cases hc), ?_⟩
      rw [← h]
      exact ⟨rfl, rfl, ⟨rfl, rfl⟩, ⟨rfl, rfl⟩, rfl, rfl⟩
  · by_cases hLaid : chroma.LaidOutAs luma
    · by_cases hFormat : convertHalFormatToDrm a.halFormat = 0
      · simp [fromSurfaces, hFormat] at h
      · simp only [fromSurfaces, List.head?_cons, Option.any_some, hLaid, decide_true,
          Bool.not_true, Bool.false_eq_true, if_false, hFormat, List.isEmpty_cons,
          Option.some.injEq] at h
        refine ⟨luma, chroma :: rest, rfl, fun _ hc => Option.some.inj hc ▸ hLaid, ?_⟩
        rw [← h]
        exact ⟨rfl, rfl, ⟨rfl, rfl⟩, ⟨rfl, rfl⟩, rfl, rfl⟩
    · simp [fromSurfaces, hLaid] at h

/-- What a buffer is first described by. -/
theorem surfaces_of_first {handle : Nat} {a : Allocated} {d : BoInfo}
    (h : (getBoInfo {} handle (some a)).1 = some d) :
    ∃ surfaces, describeSurfaces a = some surfaces ∧
      fromSurfaces (blank handle a) surfaces a.halFormat = some d := by
  by_cases hReaches : ∃ b, Reaches (some a) b
  · obtain ⟨b, hSame, hRest⟩ := hReaches
    obtain rfl := Option.some.inj hSame
    rw [getBoInfo_first handle ⟨rfl, hRest⟩, ← described_eq] at h
    exact Option.bind_eq_some_iff.mp h
  · rw [getBoInfo_refused (not_exists.mp hReaches)] at h
    cases h

/-- What a window is told of its buffer's memory. -/
structure Told (t : BufferTables) (bi : BufferInfo) (w : DcWindow) : Prop where
  layout : t.tegraLayoutFromModifier bi.modifier = some w.layout
  format : w.pixelFormat = t.tegraFormatFromDrm bi.format
  rows : w.stride = bi.pitch ∧ w.offset = bi.offset
  chroma : t.drmFormatIsYuv bi.format = true →
    w.strideUV = bi.pitchUV ∧ w.offsetU = bi.offsetUV ∧ bi.pitchUV ≠ 0
  plain : t.drmFormatIsYuv bi.format = false → w.strideUV = 0 ∧ w.offsetU = 0

theorem describeWindow_memory {t : BufferTables} {forced : Int} {layer : LayerData}
    {planeId depth : Nat} {w : DcWindow} {bi : BufferInfo} (hBuffer : layer.bi = some bi)
    (h : describeWindow t forced layer planeId depth = some w) : Told t bi w := by
  unfold describeWindow at h
  simp only [hBuffer] at h
  split at h
  · rename_i hSame _
    obtain rfl := Option.some.inj hSame
    split at h
    · cases h
    · rename_i hLayout
      split at h
      · cases h
      · rename_i hTakes
        obtain rfl := Option.some.inj h
        refine ⟨hLayout, rfl, ⟨rfl, rfl⟩, fun hYuv => ?_, fun hYuv => ?_⟩
        · simp only [hYuv, if_true]
          exact ⟨trivial, trivial, fun hNone => hTakes (.inr ⟨hYuv, hNone⟩)⟩
        · simp only [hYuv, Bool.false_eq_true, if_false, and_self]
  · cases h

/-- **A window scans a buffer as the allocator laid it out.** Whatever was asked before,
the description of a call is of the surfaces the allocator shows for it, and a window
described for a layer of that buffer reads its memory from the first of them: its rows
and where they begin, its arrangement and its format. It reads chroma exactly where that
format has it, and then there is a second surface, which it reads as it lies, arranged as
the first. -/
theorem window_scans_allocated (settled : Nat → Option BufferShape) (asks : List Ask)
    (hSettled : ∀ ask ∈ asks, SettledBy settled ask.2) (i handle : Nat) (a : Allocated)
    (hAsk : asks[i]? = some (handle, some a)) (d : BoInfo)
    (hAnswer : (getBoInfos {} asks).1[i]? = some (some d)) (t : BufferTables)
    (flags : MemoryLayout → Nat) (forced : Int) (layer : LayerData)
    (hBuffer : layer.bi = some d.toBufferInfo) (planeId depth : Nat) (w : DcWindow)
    (hWindow : describeWindow (t.board flags) forced layer planeId depth = some w) :
    ∃ luma rest, describeSurfaces a = some (luma :: rest) ∧
      (d.width = luma.width ∧ d.height = luma.height) ∧
        (w.stride = luma.pitch ∧ w.offset = luma.offset) ∧
          luma.arrangement.map flags = some w.layout ∧
            w.pixelFormat = TegraHwc.tegraFormatFromDrm (convertHalFormatToDrm a.halFormat) ∧
              (w.strideUV ≠ 0 ↔
                TegraHwc.drmFormatIsYuv (convertHalFormatToDrm a.halFormat) = true) ∧
                (w.strideUV ≠ 0 → ∃ chroma, rest.head? = some chroma ∧
                  (w.strideUV = chroma.pitch ∧ w.offsetU = chroma.offset) ∧
                    chroma.arrangement = luma.arrangement) := by
  have hFirst : (getBoInfo {} handle (some a)).1 = some d := by
    rw [(getBoInfos_kept (s := {}) ⟨faithful_empty, Nat.zero_le _⟩ hSettled).1, List.getElem?_map,
      hAsk] at hAnswer
    exact Option.some.inj hAnswer
  obtain ⟨surfaces, hSurfaces, hFilled⟩ := surfaces_of_first hFirst
  obtain ⟨luma, rest, rfl, hLaid, hFormat, hModifier, hSize, hRows, hPitchUV, hOffsetUV⟩ :=
    fromSurfaces_spec hFilled
  have hTold := describeWindow_memory hBuffer hWindow
  have hReads : w.strideUV ≠ 0 ↔ TegraHwc.drmFormatIsYuv d.format = true := by
    constructor
    · intro hSome
      by_contra hNot
      exact hSome (hTold.plain (Bool.not_eq_true _ ▸ hNot)).1
    · intro hYuv
      obtain ⟨hStride, -, hSome⟩ := hTold.chroma hYuv
      rw [hStride]
      exact hSome
  refine ⟨luma, rest, hSurfaces, hSize, ⟨hTold.rows.1.trans hRows.1, hTold.rows.2.trans hRows.2⟩,
    ?_, ?_, ?_, fun hSome => ?_⟩
  · rw [← tegraLayoutFromModifier_modifier, ← hModifier]
    exact hTold.layout
  · rw [hTold.format, ← hFormat]
    rfl
  · rw [← hFormat]
    exact hReads
  · obtain ⟨hStride, hOffset, hPitch⟩ := hTold.chroma (hReads.mp hSome)
    -- a second pitch is told of a second surface only
    cases hHead : rest.head? with
    | none =>
      rw [hHead] at hPitchUV
      exact absurd hPitchUV hPitch
    | some chroma =>
      rw [hHead, Option.map_some, Option.getD_some] at hPitchUV hOffsetUV
      obtain ⟨hSameLayout, hSameKind, hSameHeight⟩ := hLaid chroma hHead
      refine ⟨chroma, rfl, ⟨hStride.trans hPitchUV, hOffset.trans hOffsetUV⟩, ?_⟩
      unfold Surface.arrangement
      rw [hSameLayout, hSameKind, hSameHeight]

/-- The frame of video, described for its third handle. -/
def videoInfo : BoInfo where
  width := 64
  height := 32
  format := DrmFormat.nv12.code
  modifier := blockLinearModifier 0xfe 2
  uniqueId := 100
  handle := some 3
  pitch := 64
  primeFd := 7
  pitchUV := 64
  offsetUV := 2048
  primeFdUV := 7
  modifierUV := blockLinearModifier 0xfe 2

/-- A layer of video. -/
def videoLayer : LayerData where
  bi := some videoInfo.toBufferInfo
  fb := some 9

/-- A number for each arrangement. -/
def layoutFlags : MemoryLayout → Nat
  | .pitch => 0
  | .tiled => 1
  | .blockLinear blockHeightLog2 => 2 + blockHeightLog2

/-- The buffer of video that came round again is scanned as it lies, chroma and all. -/
theorem window_scans_allocated_video :
    ∃ w luma rest,
      describeWindow (BufferTables.board {} layoutFlags) (-1) videoLayer 0 0 = some w ∧
        describeSurfaces videoFrame = some (luma :: rest) ∧
          (w.stride = luma.pitch ∧ w.offset = luma.offset) ∧
            luma.arrangement.map layoutFlags = some w.layout ∧
              ∃ chroma, rest.head? = some chroma ∧
                w.strideUV = chroma.pitch ∧ w.offsetU = chroma.offset := by
  obtain ⟨w, hWindow⟩ := Option.isSome_iff_exists.mp (show (describeWindow
    (BufferTables.board {} layoutFlags) (-1) videoLayer 0 0).isSome = true from by decide)
  obtain ⟨luma, rest, hSurfaces, -, hRows, hLayout, -, hReads, hChroma⟩ := window_scans_allocated
    frameShapes frameAsks settledBy_frameShapes 2 3 videoFrame rfl videoInfo (by rfl) {}
    layoutFlags (-1) videoLayer rfl 0 0 w hWindow
  obtain ⟨chroma, hHead, hPlace, -⟩ := hChroma (hReads.mpr (by decide))
  exact ⟨w, luma, rest, hWindow, hSurfaces, hRows, hLayout, chroma, hHead, hPlace⟩

end BufferInfoNvidia

end TegraHwc
