import TegraHwc.Compositor.RedrawReach
import TegraHwc.Hwc.HwcDisplay
import TegraHwc.Hwc.PictureReuse
import TegraHwc.Tegra.GpuExecutor
import TegraHwc.Vk.Compositor

/-!
# TegraHwc — the client range on the GPU

`hwc/HwcDisplay.cpp` where it has the executor draw what the client would have:
`BeginClientOnGpu` plans a drawing and has it begun at validate,
`DrawClientOnGpu` collects it at present, and `SeatGpuBuffer` seats the buffer
on the client's window. `ValidateStagedComposition` and `PresentFrame` are here
as far as they touch the members the three share.

The executor's library works on a thread of its own. What it answers is given
from outside, and so is how far a drawing came before it was given up and how
much of the buffer a drawing took: the parts asked for, the box around them,
or all of it (`composeNow_drawIn` says when it is which). A buffer's getter and
the importer always know the executor's own buffers, and the size of the display
does not change while it has them.

Beside the code's own members the state keeps what is said of them: what the
buffers hold, the rectangles of each drawn since it was last unknown what it
holds, the members of the picture last drawn, and what the last frame presented
shows of the client range.
-/

namespace TegraHwc

open PartialRedraw Runs

-- ---------------------------------------------------------------------------
-- The client range
-- ---------------------------------------------------------------------------

/-- What is fixed while the executor lives: the display's size, whether pictures
are redrawn in part, the smallest corner radius drawn, and what gralloc says of
a buffer. -/
structure GpuConfig where
  width : UInt32
  height : UInt32
  signed : SignedSize width height
  partialRedraw : Bool := true
  minCornerRadius : Rat := 0
  halFormat : Option Nat → Int := fun _ => Vk.kHalRgba8888
  importHeight : Option Nat → Nat → Nat × Int := fun _ height => (height, -1)

/-- A validated composition as the client range is drawn from it: its layers and
what becomes of each, and what the planner handed back with them. -/
structure Composition where
  layers : List (HwcLayer × CompositionType) := []
  flattenReason : FlattenReason := .kNone
  gpuDrawsClient : Bool := false
  deriving DecidableEq, Repr

/-- `GpuReadableBytes`. -/
def gpuReadableBytes (halFormat : Int) : Nat :=
  if halFormat = Vk.kHalRgba8888 ∨ halFormat = Vk.kHalRgbx8888 ∨ halFormat = Vk.kHalBgra8888 then 4
  else if halFormat = Vk.kHalRgb565 then 2
  else 0

namespace GpuConfig

variable (cfg : GpuConfig)

/-- All of the display. -/
def frame : IRect := frameOf cfg.width cfg.height

/-- `GpuCanDrawClient`. -/
def gpuCanDrawClient (c : Composition) : Bool :=
  let range := c.layers.filter fun e => e.2 == .kClient
  c.flattenReason != .kCtmWithOffset && c.flattenReason != .kNoPerPlaneColorspaceSupport &&
    !range.isEmpty &&
    range.all fun e =>
      match e.1.layerData.bi with
      | none => e.1.layerData.solidColor.isSome
      | some bi => gpuReadableBytes (cfg.halFormat bi.handle) != 0

/-- `ToVkLayer`. -/
def toVkLayer (ld : LayerData) : Vk.Layer :=
  let place := ld.pi.displayFrame.getD cfg.frame
  let l : Vk.Layer :=
    { dst := ⟨place.left, place.top, place.right, place.bottom⟩
      alpha := ld.pi.alpha
      transform := transformBits ld.pi.transform }
  let l : Vk.Layer :=
    match ld.bi with
    | some bi =>
      let format := cfg.halFormat bi.handle
      let bytes := gpuReadableBytes format
      { l with
        buffer := bi.handle
        width := bi.width
        height := (cfg.importHeight bi.handle bi.height).1
        heightWord := (cfg.importHeight bi.handle bi.height).2
        format := format
        stride := if bytes ≠ 0 then bi.pitch / bytes else bi.width
        usage := 0xB00
        owner := ld.serial
        acquireFence := ld.acquireFence
        src := ld.pi.sourceCrop.getD ⟨0, 0, bi.width, bi.height⟩
        premultiplied := bi.blendMode != .kCoverage
        opaque_ := bi.blendMode == .kNone }
    | none =>
      match ld.solidColor with
      | some c => { l with color := ⟨c.getD 0 0, c.getD 1 0, c.getD 2 0, c.getD 3 0⟩ }
      | none => l
  if ld.effects.hasTurn then
    let t := fun i => ld.effects.turned.getD i 0
    { l with
      turned := true
      src := ⟨t 0, t 1, t 2, t 3⟩
      turnedCorners := { tl := (t 4, t 5), tr := (t 6, t 7), bl := (t 8, t 9) } }
  else if ld.effects.hasCorners cfg.minCornerRadius then
    let c := fun i => ld.effects.corners.getD i 0
    { l with corner := ⟨c 0, c 1, c 2, c 3⟩, cornerRadius := c 4 }
  else l

/-- `GpuMember`. -/
def gpuMember (ld : LayerData) (l : Vk.Layer) : Member :=
  { source := (ld.bi.map (·.uniqueId)).getD 0
    generation := ld.generation
    serial := ld.serial
    solid := ld.bi.isNone
    color := [l.color.r, l.color.g, l.color.b, l.color.a]
    src := l.src
    dst := ⟨l.dst.left, l.dst.top, l.dst.right, l.dst.bottom⟩
    alpha := l.alpha
    premultiplied := l.premultiplied
    opaque_ := l.opaque_
    transform := l.transform
    corners := [l.corner.left, l.corner.top, l.corner.right, l.corner.bottom, l.cornerRadius]
    turned :=
      if l.turned then
        [l.turnedCorners.tl.1, l.turnedCorners.tl.2, l.turnedCorners.tr.1, l.turnedCorners.tr.2,
          l.turnedCorners.bl.1, l.turnedCorners.bl.2]
      else List.replicate 6 0 }

/-- `range`: the client's layers, bottom first. -/
def range (c : Composition) : List LayerData :=
  ((c.layers.filter fun e => e.2 == .kClient).map (·.1)).insertionSort
    (fun a b => a.zOrder ≤ b.zOrder) |>.map (·.layerData)

/-- A layer of the range as the memory of pictures takes it. -/
def memberOf (ld : LayerData) : Member := gpuMember ld (cfg.toVkLayer ld)

/-- `members`. -/
def members (c : Composition) : List Member := (range c).map cfg.memberOf

/-- `bounds` with one member more; one without a place adds nothing. -/
def grown (bounds : IRect) (m : Member) : IRect :=
  if empty m.dst then bounds
  else if bounds.left < bounds.right then join bounds m.dst
  else m.dst

/-- `gpu_next_bounds_`: where the members lie on the display. -/
def boundsOf (members : List Member) : IRect :=
  let bounds := members.foldl grown ⟨0, 0, 0, 0⟩
  ⟨max bounds.left 0, max bounds.top 0, min bounds.right cfg.frame.right,
    min bounds.bottom cfg.frame.bottom⟩

/-- What is seated: the part the picture covers, or the whole buffer when nothing
says. -/
def seatRect (bounds : IRect) : IRect :=
  if bounds.left < bounds.right ∧ bounds.top < bounds.bottom then bounds else cfg.frame

end GpuConfig

-- ---------------------------------------------------------------------------
-- The library
-- ---------------------------------------------------------------------------

/-- How the library draws: the picture it makes of some members, and what a
point becomes that lies in two parts, where the members are drawn over it once
more. -/
structure Painter (Texel C : Type) extends PartialRedraw.Drawing Texel C where
  again : List Member → Point → C → C

/-- How much of the buffer a drawing takes. -/
inductive Area where
  | parts
  | box
  | whole
  deriving DecidableEq, Repr

/-- A drawing the library was given. -/
structure Job where
  members : List Member
  parts : List IRect
  deriving DecidableEq, Repr

/-- The rectangles a drawing takes; one asked for no part takes everything. -/
def Job.rects (cfg : GpuConfig) (job : Job) (area : Area) : List IRect :=
  if job.parts = [] then [cfg.frame]
  else
    match area with
    | .parts => job.parts
    | .box => [bounds job.parts]
    | .whole => [cfg.frame]

/-- A buffer after a drawing into some rectangles of it. -/
def Painter.drawIn {Texel C : Type} (d : Painter Texel C) (members : List Member)
    (rects : List IRect) (old : Point → C) (p : Point) : C :=
  match rects.filter fun r => inside r p with
  | [] => old p
  | _ :: more => more.foldl (fun colour _ => d.again members p colour) (d.picture members p)

-- ---------------------------------------------------------------------------
-- The display's side
-- ---------------------------------------------------------------------------

/-- A picture in one of the executor's buffers. -/
structure BufferPicture where
  slot : Nat
  members : List Member
  deriving DecidableEq, Repr

/-- What `SeatGpuBuffer` sets on the client's layer, with the picture last
drawn. -/
structure Seat where
  picture : BufferPicture
  fence : Option Nat
  rect : IRect
  deriving DecidableEq, Repr

/-- A drawing dropped: the picture seated in its place, what the frame before
shows of the client range, and the members of this frame. -/
structure Repetition where
  picture : BufferPicture
  preceding : Option BufferPicture
  frame : List Member
  deriving DecidableEq, Repr

/-- The members of `HwcDisplay` the client range on the GPU goes by, and what is
said of them. -/
structure GpuClient (C : Type) where
  gpu : GpuExecutor Nat := {}
  slots : SlotPictures := { engine := ⟨true, true, true⟩ }
  memory : PictureMemory := {}
  pending : List Member := []
  plan : Plan := {}
  begun : Bool := false
  reuse : Bool := false
  keep : Bool := false
  drawnFence : Option Nat := none
  nextBounds : IRect := ⟨0, 0, 0, 0⟩
  shownBounds : IRect := ⟨0, 0, 0, 0⟩
  validated : Option Composition := none
  seat : Option Seat := none
  /-- The drawing the library has and was not asked for yet. -/
  job : Option Job := none
  content : Nat → Point → C
  /-- What was drawn of each buffer since it was last unknown what it holds. -/
  known : Nat → List IRect := fun _ => []
  drawnOf : List Member := []
  panel : Option BufferPicture := none
  /-- The layers of the last frame presented, and whether every frame since the
  picture last drawn went up from the GPU, of the same layers. -/
  layers : List Nat := []
  unbroken : Bool := false
  repeated : Option Repetition := none

/-- What comes with a present from outside: how far a drawing given up came, what
the library answers and how much it drew, and what the kernel says. -/
structure GpuFrame where
  ran : Option Area := none
  answer : GpuExecutor.Resolved Nat := .refused
  area : Option Area := none
  committed : Bool := true
  presentFence : Option Nat := none
  deriving DecidableEq, Repr

/-- How a frame's client range was put on its window. -/
inductive Seating where
  | drawn
  | again
  | dropped
  | refused
  deriving DecidableEq, Repr

namespace GpuClient

variable {Texel C : Type} (cfg : GpuConfig) (d : Painter Texel C)

/-- The serials of the layers of the client range, bottom first. -/
def serials (members : List Member) : List Nat := members.map (·.serial)

/-- `SeatGpuBuffer`. -/
def seatGpuBuffer (s : GpuClient C) (slot : Nat) (fence : Option Nat) (bounds : IRect) :
    GpuClient C :=
  { s with seat := some ⟨⟨slot, s.drawnOf⟩, fence, cfg.seatRect bounds⟩ }

/-- `gpu_slots_.Lost`. -/
def lost (s : GpuClient C) (slot : Nat) : GpuClient C :=
  { s with slots := s.slots.lost slot, known := Function.update s.known slot [] }

/-- The rectangles of the drawing the library has, as far as it came. -/
def came (s : GpuClient C) (area : Option Area) : List IRect :=
  match s.job, area with
  | some job, some area => job.rects cfg area
  | _, _ => []

/-- What the drawing leaves in the buffer it was begun into. -/
def ran (s : GpuClient C) (area : Option Area) : GpuClient C :=
  match s.gpu.begunAt, s.job with
  | some k, some job =>
    { s with
      content := Function.update s.content k
        (d.drawIn job.members (s.came cfg area) (s.content k)) }
  | _, _ => s

/-- The first part of `BeginClientOnGpu`: the damage of the range is recorded and
its bounds are taken. -/
def noted (s : GpuClient C) (c : Composition) : GpuClient C :=
  { s with
    slots := (GpuConfig.range c).foldl
      (fun slots ld => slots.record (cfg.memberOf ld) ld.pi.damage) s.slots
    nextBounds := cfg.boundsOf (cfg.members c)
    keep := false }

/-- The next buffer is lost where a drawing into it was begun and not finished. -/
def givenUp (s : GpuClient C) : GpuClient C :=
  if s.gpu.pending then s.lost s.gpu.nextSlot else s

/-- What of the next buffer to draw. Without redraws in part a drawing does not
go by what the buffer held. -/
def planned (s : GpuClient C) (members : List Member) : GpuClient C :=
  if cfg.partialRedraw then
    { s with
      plan := s.slots.decide_ s.gpu.nextSlot cfg.width cfg.height members
      pending := members }
  else
    { s with
      plan := {}
      pending := members
      known := Function.update s.known s.gpu.nextSlot [] }

/-- `parts` and `count`, as `Begin` takes them. -/
def partsAsked (s : GpuClient C) : List IRect :=
  let parts :=
    if s.plan.parts ≠ [] then s.plan.parts
    else if s.nextBounds.left < s.nextBounds.right ∧ s.nextBounds.top < s.nextBounds.bottom then
      [s.nextBounds]
    else []
  parts.take Vk.kMaxParts

/-- `gpu->Begin`: the drawing under way is given up and another begun. -/
def queued (s : GpuClient C) (gone : Option Area) : GpuClient C :=
  let s := s.ran cfg d gone
  { s with
    gpu := s.gpu.begin_ s.drawnFence.isSome
    job := some ⟨s.pending, s.partsAsked⟩
    begun := true }

/-- `BeginClientOnGpu`. -/
def beginClientOnGpu (s : GpuClient C) (c : Composition) (gone : Option Area) : GpuClient C :=
  let s := s.noted cfg c
  if s.memory.judge cfg.width cfg.height (cfg.members c) = .kSame then { s with reuse := true }
  else
    let s := s.givenUp.planned cfg (cfg.members c)
    if s.plan.kind = .kUnchanged then { s with keep := true } else s.queued cfg d gone

/-- A frame that skipped the begin at validate begins at present. -/
def readied (s : GpuClient C) (c : Composition) (gone : Option Area) : GpuClient C :=
  if s.begun || s.reuse || s.keep then s else s.beginClientOnGpu cfg d c gone

/-- The picture is in `slot`, kept or drawn in some rectangles of it. -/
def drawn (s : GpuClient C) (slot : Nat) (fence : Option Nat) (rects : List IRect) :
    GpuClient C :=
  let s :=
    { s with
      slots := s.slots.drawn slot cfg.width cfg.height s.pending s.plan fence
      memory := PictureMemory.remember cfg.width cfg.height s.pending
      pending := []
      drawnFence := fence
      shownBounds := s.nextBounds
      known := Function.update s.known slot (s.known slot ++ rects)
      drawnOf := s.pending }
  s.seatGpuBuffer cfg s.gpu.current fence s.shownBounds

/-- Refused: the window keeps what was seated. -/
def refused (s : GpuClient C) (slot : Nat) : GpuClient C :=
  { s.lost slot with memory := s.memory.forget }

/-- Dropped: the last picture goes up again. -/
def dropped (s : GpuClient C) : GpuClient C :=
  { s with pending := [] }.seatGpuBuffer cfg s.gpu.current s.drawnFence s.shownBounds

/-- `DrawClientOnGpu`; none where the library cannot answer so. -/
def drawClientOnGpu (s : GpuClient C) (c : Composition) (f : GpuFrame) :
    Option (Seating × GpuClient C) :=
  let s := { s.readied cfg d c f.ran with begun := false }
  if s.reuse then
    let s := { s with reuse := false, shownBounds := s.nextBounds }
    some (.again, s.seatGpuBuffer cfg s.gpu.current s.drawnFence s.shownBounds)
  else
    let slot := s.gpu.nextSlot
    if s.keep then
      let fence := s.slots.fence slot
      some (.drawn,
        { s.ran cfg d f.ran with keep := false, gpu := s.gpu.keep, job := none }.drawn cfg slot
          fence [])
    else
      match s.gpu.begunAt with
      | none => some (.refused, s.refused slot)
      | some _ =>
        let after := { s.ran cfg d f.area with gpu := (s.gpu.finish f.answer).2, job := none }
        match f.answer with
        | .drawn fence =>
          if f.area.isSome then
            some (.drawn, after.drawn cfg slot (some fence) (s.came cfg f.area))
          else none
        | .dropped =>
          if s.gpu.begunDroppable && f.area.isNone then some (.dropped, after.dropped cfg)
          else none
        | .refused => some (.refused, after.refused slot)

/-- What a frame that went up leaves: the executor is told where the GPU drew it,
and the panel shows what is seated. -/
def wentUp (s : GpuClient C) (how : Seating) (c : Composition) (fence : Option Nat) : GpuClient C :=
  let layers := serials (cfg.members c)
  { s with
    gpu := if how = .refused then s.gpu else s.gpu.presented fence
    panel := s.seat.map (·.picture)
    layers := layers
    unbroken :=
      if how = .drawn then decide (serials s.drawnOf = layers)
      else s.unbroken && s.seat.isSome && decide (layers = s.layers) }

/-- The end of `PresentFrame` for a frame the GPU drew, or was to draw. -/
def ended (s : GpuClient C) (how : Seating) (c : Composition) (f : GpuFrame) : GpuClient C :=
  if f.committed then s.wentUp cfg how c f.presentFence
  else { s with memory := s.memory.forget, unbroken := s.unbroken && how ≠ .drawn }

/-- What of a drawing dropped is kept for what is said of it. -/
def repetition (s : GpuClient C) (how : Seating) (c : Composition) : Option Repetition :=
  if how = .dropped then s.seat.map fun seat => ⟨seat.picture, s.panel, cfg.members c⟩ else none

/-- A frame is presented: its composition is taken. -/
def entered (s : GpuClient C) : GpuClient C := { s with validated := none, repeated := none }

/-- `PresentStagedComposition` and the end of the frame; without a composition
there are no layers, and nothing is shown. -/
def present (s : GpuClient C) (f : GpuFrame) : Option (GpuClient C) :=
  match s.validated with
  | none =>
    some { s with memory := s.memory.forget, panel := none, unbroken := false, repeated := none }
  | some c =>
    let s := s.entered
    if c.gpuDrawsClient then
      match s.drawClientOnGpu cfg d c f with
      | none => none
      | some (how, s) => some ({ s with repeated := s.repetition cfg how c }.ended cfg how c f)
    else
      let s := { s with memory := s.memory.forget }
      some (if f.committed then { s with panel := none, unbroken := false } else s)

/-- What a validation never presented left is not this frame's. -/
def unstaged (s : GpuClient C) : GpuClient C :=
  { s with validated := none, begun := false, reuse := false }

/-- A buffer of the executor's stands in where the client has none. -/
def stoodIn (s : GpuClient C) (standIn : Bool) : GpuClient C :=
  if standIn then s.seatGpuBuffer cfg s.gpu.current none s.shownBounds else s

/-- `ValidateStagedComposition`: a range the GPU can draw is begun. -/
def validate (s : GpuClient C) (standIn : Bool) (composition : Option Composition)
    (gone : Option Area) : GpuClient C :=
  match composition with
  | none => s.unstaged
  | some c =>
    let s := s.unstaged.stoodIn cfg standIn
    if cfg.gpuCanDrawClient c then
      { s with validated := some { c with gpuDrawsClient := true } }.beginClientOnGpu cfg d c gone
    else { s with validated := some c }

-- ---------------------------------------------------------------------------
-- Runs
-- ---------------------------------------------------------------------------

/-- What happens: a validation, a present, and the client's own target set on its
layer. -/
inductive Action where
  | validate (standIn : Bool) (composition : Option Composition) (gone : Option Area)
  | present (f : GpuFrame)
  | setClientTarget
  deriving DecidableEq, Repr

/-- A step. -/
def step (s : GpuClient C) : Action → Option (GpuClient C)
  | .validate standIn composition gone => some (s.validate cfg d standIn composition gone)
  | .present f => s.present cfg d f
  | .setClientTarget => some { s with seat := none }

/-- The display with its executor. -/
def machine : Machine (GpuClient C) Action Unit where
  step := step cfg d
  events _ _ := []

/-- At the start the buffers hold anything. -/
def init (content : Nat → Point → C) : GpuClient C := { content := content }

-- ---------------------------------------------------------------------------
-- The exits
-- ---------------------------------------------------------------------------

/-- The state a drawing was collected in: its buffer written as far as it came,
the executor done with it. -/
def collected (s : GpuClient C) (f : GpuFrame) : GpuClient C :=
  { s.ran cfg d f.area with begun := false, gpu := (s.gpu.finish f.answer).2, job := none }

/-- The exits of `DrawClientOnGpu`, from the state in which the frame is begun. -/
inductive Drew (s : GpuClient C) (f : GpuFrame) : Seating → GpuClient C → Prop
  | again (h : s.reuse = true) :
      Drew s f .again
        ({ s with begun := false, reuse := false, shownBounds := s.nextBounds }.seatGpuBuffer cfg
          s.gpu.current s.drawnFence s.nextBounds)
  | kept (hReuse : s.reuse = false) (h : s.keep = true) :
      Drew s f .drawn
        ({ s.ran cfg d f.ran with
          begun := false, keep := false, gpu := s.gpu.keep, job := none }.drawn cfg
            s.gpu.nextSlot (s.slots.fence s.gpu.nextSlot) [])
  | nothing (hReuse : s.reuse = false) (hKeep : s.keep = false) (h : s.gpu.begunAt = none) :
      Drew s f .refused ({ s with begun := false }.refused s.gpu.nextSlot)
  | drawn (hReuse : s.reuse = false) (hKeep : s.keep = false) (k : Nat)
      (h : s.gpu.begunAt = some k) (fence : Nat) (hAnswer : f.answer = .drawn fence)
      (area : Area) (hArea : f.area = some area) :
      Drew s f .drawn
        ((s.collected cfg d f).drawn cfg s.gpu.nextSlot (some fence) (s.came cfg f.area))
  | dropped (hReuse : s.reuse = false) (hKeep : s.keep = false) (k : Nat)
      (h : s.gpu.begunAt = some k) (hAnswer : f.answer = .dropped)
      (hDroppable : s.gpu.begunDroppable = true) (hArea : f.area = none) :
      Drew s f .dropped ((s.collected cfg d f).dropped cfg)
  | refused (hReuse : s.reuse = false) (hKeep : s.keep = false) (k : Nat)
      (h : s.gpu.begunAt = some k) (hAnswer : f.answer = .refused) :
      Drew s f .refused ((s.collected cfg d f).refused s.gpu.nextSlot)

variable {cfg d}

/-- A drawing that ran touches the buffers alone. -/
theorem ran_eq (s : GpuClient C) (area : Option Area) :
    s.ran cfg d area = { s with content := (s.ran cfg d area).content } := by
  unfold ran
  split <;> rfl

theorem ran_begun (s : GpuClient C) (area : Option Area) :
    ({ s with begun := false } : GpuClient C).ran cfg d area =
      { s.ran cfg d area with begun := false } := by
  unfold ran
  simp only
  split <;> rfl

theorem collected_eq (s : GpuClient C) (f : GpuFrame) :
    s.collected cfg d f =
      { s with
        content := (s.ran cfg d f.area).content, begun := false
        gpu := (s.gpu.finish f.answer).2, job := none } := by
  unfold collected
  rw [ran_eq]

/-- `DrawClientOnGpu` leaves through one of its exits. -/
theorem drawClientOnGpu_drew {s t : GpuClient C} {c : Composition} {f : GpuFrame} {how : Seating}
    (h : s.drawClientOnGpu cfg d c f = some (how, t)) :
    Drew cfg d (s.readied cfg d c f.ran) f how t := by
  unfold drawClientOnGpu at h
  generalize s.readied cfg d c f.ran = r at h ⊢
  simp only [ran_begun] at h
  split at h
  · rename_i hReuse
    cases h
    exact .again hReuse
  rename_i hReuse
  rw [Bool.not_eq_true] at hReuse
  split at h
  · rename_i hKeep
    cases h
    exact .kept hReuse hKeep
  rename_i hKeep
  rw [Bool.not_eq_true] at hKeep
  split at h
  · rename_i hNone
    cases h
    exact .nothing hReuse hKeep hNone
  rename_i k hBegun
  split at h
  · rename_i fence hAnswer
    split at h
    · rename_i hSome
      obtain ⟨area, hArea⟩ := Option.isSome_iff_exists.mp hSome
      cases h
      exact .drawn hReuse hKeep k hBegun fence hAnswer area hArea
    · cases h
  · rename_i hAnswer
    split at h
    · rename_i hDroppable
      rw [Bool.and_eq_true, Option.isNone_iff_eq_none] at hDroppable
      cases h
      exact .dropped hReuse hKeep k hBegun hAnswer hDroppable.1 hDroppable.2
    · cases h
  · rename_i hAnswer
    cases h
    exact .refused hReuse hKeep k hBegun hAnswer

/-- A frame the GPU was to draw is drawn, and then ends. -/
theorem present_cases {s t : GpuClient C} {f : GpuFrame} (h : s.present cfg d f = some t) :
    (s.validated = none ∧
      t = { s with
        memory := s.memory.forget, panel := none, unbroken := false, repeated := none }) ∨
    (∃ c, s.validated = some c ∧ c.gpuDrawsClient = false ∧
      t = { s.entered with
        memory := s.memory.forget
        panel := if f.committed then none else s.panel
        unbroken := !f.committed && s.unbroken }) ∨
    ∃ c how u, s.validated = some c ∧ c.gpuDrawsClient = true ∧
      Drew cfg d (s.entered.readied cfg d c f.ran) f how u ∧
      t = { u with repeated := u.repetition cfg how c }.ended cfg how c f := by
  unfold present at h
  split at h
  · rename_i hNone
    exact .inl ⟨hNone, (Option.some.inj h).symm⟩
  rename_i c hSome
  simp only at h
  split at h
  · rename_i hGpu
    split at h
    · cases h
    · rename_i how u hDrew
      exact .inr (.inr ⟨c, how, u, hSome, hGpu, drawClientOnGpu_drew hDrew,
        (Option.some.inj h).symm⟩)
  · rename_i hGpu
    refine .inr (.inl ⟨c, hSome, by simpa using hGpu, ?_⟩)
    rw [← Option.some.inj h]
    cases f.committed <;> simp [entered]

/-- A range planned is shown again, kept, or queued. -/
theorem beginClientOnGpu_cases (s : GpuClient C) (c : Composition) (gone : Option Area) :
    ((s.noted cfg c).memory.judge cfg.width cfg.height (cfg.members c) = .kSame ∧
      s.beginClientOnGpu cfg d c gone = { s.noted cfg c with reuse := true }) ∨
    ((s.noted cfg c).memory.judge cfg.width cfg.height (cfg.members c) ≠ .kSame ∧
      (((s.noted cfg c).givenUp.planned cfg (cfg.members c)).plan.kind = .kUnchanged ∧
        s.beginClientOnGpu cfg d c gone =
          { (s.noted cfg c).givenUp.planned cfg (cfg.members c) with keep := true } ∨
      ((s.noted cfg c).givenUp.planned cfg (cfg.members c)).plan.kind ≠ .kUnchanged ∧
        s.beginClientOnGpu cfg d c gone =
          ((s.noted cfg c).givenUp.planned cfg (cfg.members c)).queued cfg d gone)) := by
  unfold beginClientOnGpu
  simp only
  split
  · rename_i h
    exact .inl ⟨h, rfl⟩
  · rename_i h
    refine .inr ⟨h, ?_⟩
    split
    · rename_i hKind
      exact .inl ⟨hKind, rfl⟩
    · rename_i hKind
      exact .inr ⟨hKind, rfl⟩

-- ---------------------------------------------------------------------------
-- A display to run
-- ---------------------------------------------------------------------------

/-- A wide display. -/
def wide : GpuConfig where
  width := 4096
  height := 32
  signed := by
    unfold SignedSize
    decide

/-- A drawing that shows whose layer is on top. -/
def bySerial : Painter Unit Nat where
  content _ _ _ := ()
  shade m _ _ _ := m.serial
  clear := 0
  plain _ _ _ _ _ _ _ := rfl
  again _ _ colour := colour

/-- A frame of a layer, from one column of the display to another. -/
def pane (serial generation : Nat) (left right : Int) : HwcLayer :=
  { layerData :=
      { serial := serial
        generation := generation
        bi := some { width := 16, height := 32, uniqueId := serial }
        pi := { displayFrame := some ⟨left, 0, right, 32⟩ } } }

/-- A composition that leaves the layers to the client. -/
def left (panes : List HwcLayer) : Composition := { layers := panes.map fun l => (l, .kClient) }

/-- A frame drawn that went up. -/
def up (area : Area) (fence : Nat) : GpuFrame := { answer := .drawn fence, area := some area }

end GpuClient

end TegraHwc
