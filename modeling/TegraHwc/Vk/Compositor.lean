import TegraHwc.Lib.Raster
import TegraHwc.Compositor.LayerData
import TegraHwc.Vk.Geometry

/-!
# TegraHwc — the drawing the GPU executor records

`vk/Compositor.cpp`, `ComposeNow`, with `vk/HwcVk.h` and the fragment shader
`vk/shaders/compose.frag`: what is recorded for a list of layers and what the
recorded commands do to the target. The driver and the GPU are parameters:
which objects the driver made (`Device`), what it answers to one call
(`Driver`), and what the hardware decides for itself (`Gpu`). Fences and images
are names; a failed call's log lines, the descriptor sets and the semaphores
are left out.
-/

namespace TegraHwc.Vk

-- ---------------------------------------------------------------------------
-- Rectangles and colours
-- ---------------------------------------------------------------------------

/-- `VkRect2D`. -/
structure Rect2D where
  x : Int
  y : Int
  width : Nat
  height : Nat
  deriving DecidableEq, Repr

namespace Rect2D

/-- The same rectangle by its edges. -/
def box (r : Rect2D) : Box := ⟨r.x, r.y, r.x + r.width, r.y + r.height⟩

/-- Whether a pixel lies in a rectangle. -/
def has (r : Rect2D) (x y : Int) : Bool := r.box.has x y

end Rect2D

theorem Rect2D.has_iff {r : Rect2D} {x y : Int} :
    r.has x y = true ↔ r.x ≤ x ∧ x < r.x + r.width ∧ r.y ≤ y ∧ y < r.y + r.height :=
  Box.has_iff

/-- A box as offset and extent, empty where its edges cross. -/
def Box.rect (b : Box) : Rect2D :=
  ⟨b.left, b.top, (max (b.right - b.left) 0).toNat, (max (b.bottom - b.top) 0).toNat⟩

/-- `Join`. -/
def join (a b : Rect2D) : Rect2D :=
  Box.rect
    { left := min a.x b.x
      top := min a.y b.y
      right := max (a.x + a.width) (b.x + b.width)
      bottom := max (a.y + a.height) (b.y + b.height) }

/-- `Meet`. -/
def meet (a b : Rect2D) : Bool :=
  decide (a.x < b.x + b.width) && decide (b.x < a.x + a.width) &&
    decide (a.y < b.y + b.height) && decide (b.y < a.y + a.height)

/-- A colour and its alpha. -/
structure Pixel where
  r : Rat
  g : Rat
  b : Rat
  a : Rat
  deriving DecidableEq, Repr

namespace Pixel

/-- What a clear leaves. -/
def transparent : Pixel := ⟨0, 0, 0, 0⟩

/-- A colour and its alpha times a factor. -/
def scale (p : Pixel) (m : Rat) : Pixel := ⟨p.r * m, p.g * m, p.b * m, p.a * m⟩

/-- A straight colour premultiplied. -/
def premultiply (p : Pixel) : Pixel := ⟨p.r * p.a, p.g * p.a, p.b * p.a, p.a⟩

/-- A shaded colour as a fixed-point attachment takes it: between nought and
one. -/
def held (p : Pixel) : Pixel :=
  ⟨max 0 (min p.r 1), max 0 (min p.g 1), max 0 (min p.b 1), max 0 (min p.a 1)⟩

end Pixel

-- ---------------------------------------------------------------------------
-- What is drawn, and where
-- ---------------------------------------------------------------------------

/-- `vk::Layer`. -/
structure Layer where
  buffer : Option Nat := none
  width : Nat := 0
  height : Nat := 0
  heightWord : Int := -1
  stride : Nat := 0
  format : Int := 0
  usage : Nat := 0
  owner : Nat := 0
  acquireFence : Option Nat := none
  src : FRect := ⟨0, 0, 0, 0⟩
  dst : Box := ⟨0, 0, 0, 0⟩
  transform : Nat := 0
  alpha : Rat := 1
  premultiplied : Bool := true
  opaque_ : Bool := false
  color : Pixel := .transparent
  corner : FRect := ⟨0, 0, 0, 0⟩
  cornerRadius : Rat := 0
  turned : Bool := false
  turnedCorners : TurnedCorners := {}
  deriving DecidableEq, Repr

/-- `Target::kMaxParts`. -/
def kMaxParts : Nat := 4

/-- `vk::Target`. -/
structure Target where
  buffer : Option Nat := none
  width : Nat := 0
  height : Nat := 0
  stride : Nat := 0
  format : Int := 0
  usage : Nat := 0
  readyFence : Option Nat := none
  partCount : Nat := 0
  parts : Fin kMaxParts → Box := fun _ => ⟨0, 0, 0, 0⟩

namespace Target

/-- All of the target. -/
def whole (t : Target) : Rect2D := ⟨0, 0, t.width, t.height⟩

/-- The parts asked for. -/
def asked (t : Target) : List Box := (List.ofFn t.parts).take t.partCount

/-- A part cut to the target; nothing where nothing is left of it. -/
def clip (t : Target) (p : Box) : Option Rect2D :=
  let l := max p.left 0
  let top := max p.top 0
  let r := min p.right t.width
  let b := min p.bottom t.height
  if l < r ∧ top < b then some (Box.rect ⟨l, top, r, b⟩) else none

/-- The parts asked for that the target holds something of, cut to it. -/
def cutParts (t : Target) : List Rect2D := t.asked.filterMap t.clip

end Target

/-- `kMaxLayers`. -/
def kMaxLayers : Nat := 16

/-- `kHalRgba8888`. -/
def kHalRgba8888 : Int := 1

/-- `kHalRgbx8888`. -/
def kHalRgbx8888 : Int := 2

/-- `kHalRgb565`. -/
def kHalRgb565 : Int := 4

/-- `kHalBgra8888`. -/
def kHalBgra8888 : Int := 5

/-- `VkFormat`, those a layer is read as. -/
inductive VkFormat where
  | r8g8b8a8Unorm
  | b8g8r8a8Unorm
  | r5g6b5UnormPack16
  deriving DecidableEq, Repr

/-- `FormatOf`: what a format is read as, and whether its alpha means nothing. -/
def formatOf (hal : Int) : Option VkFormat × Bool :=
  if hal = kHalRgba8888 then (some .r8g8b8a8Unorm, false)
  else if hal = kHalRgbx8888 then (some .r8g8b8a8Unorm, true)
  else if hal = kHalBgra8888 then (some .b8g8r8a8Unorm, false)
  else if hal = kHalRgb565 then (some .r5g6b5UnormPack16, true)
  else (none, false)

/-- `LayerConstants`, the flags apart. -/
structure LayerConstants where
  quad : Quad
  color : Pixel
  corner : FRect
  radius : Rat
  alpha : Rat
  /-- `kFlagSolid`. -/
  solid : Bool
  /-- `kFlagPremultiplied`. -/
  premultiplied : Bool
  /-- `kFlagOpaque`. -/
  opaque_ : Bool
  deriving DecidableEq, Repr

/-- A layer of a call, its image known: `src[i]`, or the dummy for a solid
colour, and `opaque[i]`. -/
structure Source where
  layer : Layer
  image : Nat
  opaque_ : Bool
  deriving DecidableEq, Repr

namespace Layer

/-- The quad a layer is drawn as. -/
def quad (l : Layer) (targetWidth targetHeight : Nat) : Quad :=
  let bw := if l.buffer.isSome then l.width else 1
  let bh := if l.buffer.isSome then l.height else 1
  if l.turned then
    placeTurnedLayer l.src.left l.src.top l.src.right l.src.bottom bw bh l.turnedCorners
      targetWidth targetHeight
  else
    placeLayer l.src.left l.src.top l.src.right l.src.bottom bw bh l.dst l.transform
      targetWidth targetHeight

end Layer

namespace Source

/-- The push constants of a layer's draw. -/
def constants (s : Source) (targetWidth targetHeight : Nat) : LayerConstants :=
  { quad := s.layer.quad targetWidth targetHeight
    color := s.layer.color
    corner := s.layer.corner
    radius := s.layer.cornerRadius
    alpha := s.layer.alpha
    solid := s.layer.buffer.isNone
    premultiplied := s.layer.premultiplied
    opaque_ := s.layer.opaque_ || s.opaque_ }

/-- `hides`: whether a layer leaves nothing of what it lands on. -/
def hides (s : Source) : Bool :=
  !s.layer.turned && decide (1 ≤ s.layer.alpha) && decide (s.layer.cornerRadius ≤ 0) &&
    (if s.layer.buffer.isSome then s.layer.opaque_ || s.opaque_
      else decide (1 ≤ s.layer.color.a))

end Source

-- ---------------------------------------------------------------------------
-- The GPU
-- ---------------------------------------------------------------------------

/-- The render passes, as the driver was asked to make them. -/
inductive RenderPass where
  | render
  | keep
  | cover
  | coverKeep
  | load
  deriving DecidableEq, Repr

/-- `VkAttachmentLoadOp`. -/
inductive LoadOp where
  | clear
  | dontCare
  | load
  deriving DecidableEq, Repr

/-- The pass's `loadOp`. -/
def RenderPass.loadOp : RenderPass → LoadOp
  | .render => .clear
  | .keep => .clear
  | .cover => .dontCare
  | .coverKeep => .dontCare
  | .load => .load

/-- Whether the pass begins from the layout the last drawing left; a pass that
begins from an undefined one may lose all the image holds. -/
def RenderPass.keepsLayout : RenderPass → Bool
  | .render => false
  | .keep => true
  | .cover => false
  | .coverKeep => true
  | .load => true

/-- The pipelines: `pipeline_` blends, `replace_pipeline_` does not. -/
inductive Pipeline where
  | blend
  | replace
  deriving DecidableEq, Repr

/-- A command recorded. A draw carries its push constants and its image. -/
inductive Command where
  | beginRenderPass (pass : RenderPass) (area : Rect2D)
  | bindPipeline (pipeline : Pipeline)
  | setViewport (width height : Nat)
  | clearAttachments (rects : List Rect2D)
  | setScissor (part : Rect2D)
  | draw (constants : LayerConstants) (image : Nat)
  deriving DecidableEq, Repr

/-- The contents of an image. -/
abbrev Content := Int → Int → Pixel

/-- What the hardware decides for itself: how an image is sampled, the shading
language's `length`, which of two neighbouring quads takes a pixel centred on
their common edge, what the target's format keeps of a colour, and what a place
holds that nothing was loaded into. -/
structure Gpu where
  texture : Nat → Point → Pixel
  length : Rat → Rat → Rat
  takesEdge : Quad → Int → Int → Bool
  store : Pixel → Pixel
  undefined : Content

namespace Gpu

variable (gpu : Gpu)

/-- Whether a quad takes a pixel. -/
def rasterises (q : Quad) (width height : Nat) (x y : Int) : Bool :=
  let p := centre x y width height
  q.inside p || (q.onEdge p && gpu.takesEdge q x y)

/-- The rounded-corner mask of the fragment shader. -/
def cornerMask (corner : FRect) (radius : Rat) (x y : Int) : Rat :=
  let centreX := (corner.left + corner.right) / 2
  let centreY := (corner.top + corner.bottom) / 2
  let halfX := (corner.right - corner.left) / 2
  let halfY := (corner.bottom - corner.top) / 2
  let qx := |(x : Rat) + 1 / 2 - centreX| - (halfX - radius)
  let qy := |(y : Rat) + 1 / 2 - centreY| - (halfY - radius)
  let d := gpu.length (max qx 0) (max qy 0) + min (max qx qy) 0 - radius
  max 0 (min (1 / 2 - d) 1)

/-- The fragment shader. -/
def fragment (c : LayerConstants) (image : Nat) (uv : Point) (x y : Int) : Pixel :=
  let colour :=
    if c.solid then c.color.premultiply
    else
      let sampled := gpu.texture image uv
      let sampled := if c.opaque_ then { sampled with a := 1 } else sampled
      if c.premultiplied then sampled else sampled.premultiply
  let m := if 0 < c.radius then c.alpha * gpu.cornerMask c.corner c.radius x y else c.alpha
  colour.scale m

/-- A colour blended premultiplied-over what a pixel holds. -/
def blend (src dst : Pixel) : Pixel :=
  let s := src.held
  gpu.store ⟨s.r + (1 - s.a) * dst.r, s.g + (1 - s.a) * dst.g, s.b + (1 - s.a) * dst.b,
    s.a + (1 - s.a) * dst.a⟩

/-- A colour written over what a pixel holds. -/
def write (src : Pixel) : Pixel := gpu.store src.held

/-- The colour a draw gives a pixel it takes. -/
def shade (c : LayerConstants) (image : Nat) (width height : Nat) (x y : Int) : Pixel :=
  gpu.fragment c image (c.quad.uv (centre x y width height)) x y

end Gpu

/-- The GPU while it runs the commands recorded. -/
structure Machine where
  content : Content
  bound : Pipeline := .blend
  viewportWidth : Nat := 0
  viewportHeight : Nat := 0
  scissor : Rect2D := ⟨0, 0, 0, 0⟩

/-- What a place of the image holds once a pass has begun. -/
def RenderPass.begun (gpu : Gpu) (pass : RenderPass) (area : Rect2D) (old : Content) : Content :=
  fun x y =>
    if area.has x y then
      match pass.loadOp with
      | .clear => .transparent
      | .dontCare => gpu.undefined x y
      | .load => if pass.keepsLayout then old x y else gpu.undefined x y
    else if pass.keepsLayout then old x y
    else gpu.undefined x y

/-- One draw: the pixels the quad takes, inside the scissor. -/
def Machine.draw (gpu : Gpu) (m : Machine) (c : LayerConstants) (image : Nat) : Content :=
  fun x y =>
    if m.scissor.has x y && gpu.rasterises c.quad m.viewportWidth m.viewportHeight x y then
      match m.bound with
      | .blend =>
        gpu.blend (gpu.shade c image m.viewportWidth m.viewportHeight x y) (m.content x y)
      | .replace => gpu.write (gpu.shade c image m.viewportWidth m.viewportHeight x y)
    else m.content x y

/-- One command run. -/
def Machine.step (gpu : Gpu) (m : Machine) : Command → Machine
  | .beginRenderPass pass area => { m with content := pass.begun gpu area m.content }
  | .bindPipeline pipeline => { m with bound := pipeline }
  | .setViewport width height => { m with viewportWidth := width, viewportHeight := height }
  | .clearAttachments rects =>
    { m with content := fun x y =>
        if rects.any (·.has x y) then .transparent else m.content x y }
  | .setScissor part => { m with scissor := part }
  | .draw c image => { m with content := m.draw gpu c image }

/-- The commands run, in order. -/
def execute (gpu : Gpu) (commands : List Command) (m : Machine) : Machine :=
  commands.foldl (Machine.step gpu) m

-- ---------------------------------------------------------------------------
-- Recording
-- ---------------------------------------------------------------------------

/-- What the driver made at start; without one of these the executor does with
less. -/
structure Device where
  keepPass : Bool := true
  coverPass : Bool := true
  coverKeepPass : Bool := true
  loadPass : Bool := true
  replacePipeline : Bool := true
  deriving DecidableEq, Repr

/-- What is drawn of the target: `area`, `parts` and the pass before it is seen
whether the clear is needed. -/
structure Region where
  area : Rect2D
  parts : List Rect2D
  pass : RenderPass
  deriving DecidableEq, Repr

/-- All of the target is drawn. -/
def Region.whole (target : Target) : Region :=
  ⟨target.whole, [target.whole], .render⟩

/-- The parts drawn: those asked for, cut to the target, or the box around them
where several cannot be drawn in one pass. -/
def partsDrawn (vk : Device) (target : Target) : List Rect2D :=
  match target.cutParts with
  | first :: second :: rest =>
    if vk.loadPass then first :: second :: rest else [(second :: rest).foldl join first]
  | parts => parts

/-- All of the target, or only the parts asked for, when the target holds a
picture to keep the rest of. -/
def region (vk : Device) (target : Target) (isDrawn : Bool) : Region :=
  if decide (0 < target.partCount) && vk.keepPass && isDrawn then
    match partsDrawn vk target with
    | [] => .whole target
    | [part] => ⟨part, [part], .keep⟩
    | first :: rest => ⟨rest.foldl join first, first :: rest, .load⟩
  else .whole target

/-- A layer's destination cut to the area: `rl`, `rt`, `rr` and `rb`. -/
def cutTo (area : Rect2D) (l : Layer) : Box :=
  { left := max l.dst.left area.x
    top := max l.dst.top area.y
    right := min l.dst.right (area.x + area.width)
    bottom := min l.dst.bottom (area.y + area.height) }

/-- `lands_on_drawn`: whether a layer lands on one of the places before it. -/
def landsOnDrawn (earlier : List Rect2D) (cut : Box) : Bool :=
  earlier.any fun d =>
    decide (0 < d.width) && decide (0 < d.height) && decide (cut.left < d.x + d.width) &&
      decide (d.x < cut.right) && decide (cut.top < d.y + d.height) && decide (d.y < cut.bottom)

/-- A layer with its place in the area and whether it is written rather than
blended. -/
structure Placed where
  source : Source
  cut : Box
  written : Bool
  deriving DecidableEq, Repr

/-- `places[i]`. -/
def Placed.place (p : Placed) : Rect2D := p.cut.rect

/-- The loop that decides which layers are written; `earlier` are the places of
the layers before. -/
def placeAll (vk : Device) (area : Rect2D) : List Rect2D → List Source → List Placed
  | _, [] => []
  | earlier, s :: rest =>
    let cut := cutTo area s.layer
    let written := vk.replacePipeline && !s.layer.turned &&
      (!landsOnDrawn earlier cut || s.hides)
    ⟨s, cut, written⟩ :: placeAll vk area (earlier ++ [cut.rect]) rest

/-- `written_places`. -/
def writtenPlaces (placed : List Placed) : List Box :=
  (placed.filter fun p => p.written && decide (p.cut.left < p.cut.right) &&
    decide (p.cut.top < p.cut.bottom)).map (·.cut)

/-- `to_clear`: the parts the written layers do not cover. -/
def toClear (parts : List Rect2D) (placed : List Placed) : List Rect2D :=
  parts.filter fun p => !covers p.box (writtenPlaces placed)

/-- The pass with nothing loaded, where no part needs clearing. -/
def choosePass (vk : Device) (pass : RenderPass) (clears : List Rect2D) : RenderPass :=
  if pass ≠ .load ∧ clears = [] then
    if pass = .keep then (if vk.coverKeepPass then .coverKeep else pass)
    else if vk.coverPass then .cover else pass
  else pass

/-- The draws of one part, from the pipeline bound to the pipeline left bound. -/
def recordPart (target : Target) (part : Rect2D) : List Placed → Pipeline → List Command × Pipeline
  | [], bound => ([], bound)
  | p :: rest, bound =>
    if p.place.width = 0 ∨ p.place.height = 0 ∨ meet p.place part = false then
      recordPart target part rest bound
    else
      let want := if p.written then Pipeline.replace else .blend
      let drawn := Command.draw (p.source.constants target.width target.height) p.source.image
      let (commands, last) := recordPart target part rest want
      ((if want ≠ bound then [.bindPipeline want] else []) ++ drawn :: commands, last)

/-- The parts one after another, each under its own scissor. -/
def recordParts (target : Target) (placed : List Placed) : List Rect2D → Pipeline → List Command
  | [], _ => []
  | part :: rest, bound =>
    let (commands, last) := recordPart target part placed bound
    .setScissor part :: commands ++ recordParts target placed rest last

/-- The command buffer of one drawing. -/
def record (vk : Device) (target : Target) (isDrawn : Bool) (sources : List Source) :
    List Command :=
  let r := region vk target isDrawn
  let placed := placeAll vk r.area [] sources
  let clears := toClear r.parts placed
  let pass := choosePass vk r.pass clears
  [.beginRenderPass pass r.area, .bindPipeline .blend, .setViewport target.width target.height] ++
    (if pass = .load ∧ clears ≠ [] then [.clearAttachments clears] else []) ++
    recordParts target placed r.parts .blend

-- ---------------------------------------------------------------------------
-- The call
-- ---------------------------------------------------------------------------

/-- What the driver answers to one call. -/
structure Driver where
  /-- The next slot's last work is done. -/
  slotFree : Bool := true
  importTarget : Option Nat := some 0
  importLayer : Layer → VkFormat → Option Nat := fun _ _ => some 0
  /-- The image bound for a solid colour. -/
  dummy : Nat := 0
  acquires : Nat → Bool := fun _ => true
  submits : Bool := true
  release : Option Nat := some 0

/-- The target's image as the cache keeps it: what it holds, and whether a
drawing went into it since it was imported. -/
structure Entry where
  content : Content
  drawn : Bool := false

/-- A layer's image and whether its format's alpha means nothing; none where the
call is refused. -/
def sourceOf (driver : Driver) (l : Layer) : Option Source :=
  match l.buffer with
  | none => some ⟨l, driver.dummy, false⟩
  | some _ =>
    match formatOf l.format with
    | (none, _) => none
    | (some f, isOpaque) => (driver.importLayer l f).map fun image => ⟨l, image, isOpaque⟩

/-- Every image of the call, before anything is acquired: none where the call is
refused having sent nothing. -/
def prepare (driver : Driver) (target : Target) (layers : List Layer) :
    Option (Nat × List Source) :=
  if layers = [] ∨ target.buffer = none ∨ kMaxLayers < layers.length ∨ driver.slotFree = false ∨
      target.format ≠ kHalRgba8888 then none
  else
    match driver.importTarget, layers.mapM (sourceOf driver) with
    | some dst, some sources => some (dst, sources)
    | _, _ => none

/-- The distinct images of the call: the target first, a buffer that appears
twice once. -/
def imagesOf (dst : Nat) (sources : List Source) : List Nat :=
  let images := sources.filterMap fun s => if s.layer.buffer.isSome then some s.image else none
  images.foldl (fun known image => if image ∈ known then known else known ++ [image]) [dst]

/-- `ComposeNow`: the fence handed back and the target's image after the drawing
is done. A call whose images are not all acquired sends no drawing. -/
def composeNow (vk : Device) (gpu : Gpu) (driver : Driver) (target : Target)
    (layers : List Layer) (dst : Entry) : Option Nat × Entry :=
  match prepare driver target layers with
  | none => (none, dst)
  | some (image, sources) =>
    let whole := (imagesOf image sources).all driver.acquires
    if !driver.submits then (none, dst)
    else if whole then
      (driver.release,
        { content := (execute gpu (record vk target dst.drawn sources)
            { content := dst.content }).content
          drawn := true })
    else (none, dst)

end TegraHwc.Vk
