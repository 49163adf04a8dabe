import CameraStream.Error
import CameraStream.Metrics.Counters
import CameraStream.Pixels.Color
import CameraStream.Pixels.Normalize
import CameraStream.Pixels.WhiteBalance
import CameraStream.Stage.Builtin
import CameraStream.Stage.Tally

/-!
# Running stages

A `Stage` is a stage at work. It is bound to a pair of formats, told its status, and then given
frames to transform in place. The library brings three kinds, whose behaviour is fixed here: a
conversion by a kernel, white balance, and frame statistics. Every other stage is a `StageDevice`:
it answers as it likes, out of a world `ω` that the library hands on and never looks into.
-/

namespace CameraStream

/-- What surrounds running stages: the world of their devices, and what the library counts. -/
structure Surroundings (ω : Type) where
  world : ω
  tally : FrameTally := {}
  counters : Counters := {}

abbrev Kernel := VideoFormat → VideoFormat → List UInt8 → List UInt8

/-- The kernel of a conversion in name only. -/
def Kernel.relabel : Kernel := fun _ _ data => data

/-- Fails unless a frame is in the format a stage is bound to. -/
def checkFormat (stage : String) (expected : VideoFormat) (f : Frame) : Except StreamError Unit :=
  if f.format = expected then .ok () else .error (.formatMismatch stage expected f.format)

/-! ### Conversion -/

/-- A conversion at work. -/
structure Converter where
  descriptor : StageDescriptor
  kernel : Kernel
  formats : Option (VideoFormat × VideoFormat) := none
  status : Status := .stopped

namespace Converter

/-- Whether the conversion goes between two formats: those that differ in a pair of encodings it
converts, and in nothing else. -/
def canConvert (c : Converter) (input output : VideoFormat) : Bool :=
  input.size == output.size && input.rate == output.rate &&
    c.descriptor.converts input.encoding output.encoding

/-- Binds to two formats that the conversion goes between. -/
def bind (c : Converter) (input output : VideoFormat) : Bool × Converter :=
  if c.canConvert input output then (true, { c with formats := some (input, output) })
  else (false, c)

/-- Refuses to play while unbound. -/
def setStatus (c : Converter) (s : Status) : Bool × Converter :=
  if s = .playing ∧ c.formats = none then (false, c) else (true, { c with status := s })

def transform (c : Converter) (f : Frame) : Except StreamError Frame := do
  match c.formats with
  | none => throw (.invalidState .transformUnbound c.status)
  | some (input, output) =>
    checkFormat c.descriptor.name input f
    return (f.withData (c.kernel input output f.data)).relabel output

end Converter

/-! ### White balance -/

/-- White balance at work. -/
structure WhiteBalancer where
  format : Option VideoFormat := none
  status : Status := .stopped
  gains : Gains := {}

namespace WhiteBalancer

/-- Binds to one format for both sides, of a mosaic and of at least one pixel. -/
def bind (w : WhiteBalancer) (input output : VideoFormat) : Bool × WhiteBalancer :=
  if input = output ∧ StageDescriptor.whiteBalance.accepts input.encoding ∧
      input.size.width ≠ 0 ∧ input.size.height ≠ 0 then
    (true, { w with format := some input })
  else (false, w)

/-- Forgets the gains when stopped. -/
def setStatus (w : WhiteBalancer) (s : Status) : WhiteBalancer :=
  { w with status := s, gains := if s = .stopped then {} else w.gains }

def transform (w : WhiteBalancer) (f : Frame) : Except StreamError (Frame × WhiteBalancer) := do
  match w.format with
  | none => throw (.invalidState .transformUnbound w.status)
  | some format =>
    checkFormat StageDescriptor.whiteBalance.name format f
    match format.encoding.mosaic with
    | none => return (f, w)
    | some m =>
      let gains := w.gains.learn m format.size f.data
      return (f.withData (gains.apply m format.size.width f.data), { w with gains })

end WhiteBalancer

/-! ### Frame statistics -/

/-- Frame statistics at work. All of them count into the tally of their surroundings. -/
structure FrameCounter where
  format : Option VideoFormat := none

namespace FrameCounter

/-- Binds to one format for both sides. -/
def bind (c : FrameCounter) (input output : VideoFormat) : Bool × FrameCounter :=
  if input = output then (true, ⟨some input⟩) else (false, c)

/-- Counts a frame, which has to be in the bound format if there is one. -/
def observe (c : FrameCounter) (f : Frame) (t : FrameTally) : Except StreamError FrameTally := do
  if let some format := c.format then
    checkFormat StageDescriptor.frameStatistics.name format f
  return t.record f

end FrameCounter

/-! ### Stages -/

structure StageDevice (ω : Type) where
  descriptor : StageDescriptor
  bind : VideoFormat → VideoFormat → ω → Bool × ω
  formats : ω → Option (VideoFormat × VideoFormat)
  setStatus : Status → ω → Bool × ω
  /-- The error it failed with, if any, and the frame it leaves behind in either case. -/
  transform : Frame → ω → Option StreamError × Frame × ω

/-- A stage at work. -/
inductive Stage (ω : Type) where
  | converter (c : Converter)
  | whiteBalancer (w : WhiteBalancer)
  | frameCounter (c : FrameCounter)
  | device (d : StageDevice ω)

namespace Stage

variable {ω : Type}

def descriptor : Stage ω → StageDescriptor
  | converter c => c.descriptor
  | whiteBalancer _ => .whiteBalance
  | frameCounter _ => .frameStatistics
  | device d => d.descriptor

def name (s : Stage ω) : String := s.descriptor.name

/-- Binds a stage to the formats it takes and makes; tells whether it agreed. -/
def bind (s : Stage ω) (input output : VideoFormat) (w : ω) : Bool × Stage ω × ω :=
  match s with
  | converter c => let (ok, c) := c.bind input output; (ok, converter c, w)
  | whiteBalancer b => let (ok, b) := b.bind input output; (ok, whiteBalancer b, w)
  | frameCounter c => let (ok, c) := c.bind input output; (ok, frameCounter c, w)
  | device d => let (ok, w) := d.bind input output w; (ok, device d, w)

def formats (s : Stage ω) (w : ω) : Option (VideoFormat × VideoFormat) :=
  match s with
  | converter c => c.formats
  | whiteBalancer b => b.format.map fun f => (f, f)
  | frameCounter c => c.format.map fun f => (f, f)
  | device d => d.formats w

/-- Tells a stage its status; tells whether it agreed. -/
def setStatus (s : Stage ω) (t : Status) (w : ω) : Bool × Stage ω × ω :=
  match s with
  | converter c => let (ok, c) := c.setStatus t; (ok, converter c, w)
  | whiteBalancer b => (true, whiteBalancer (b.setStatus t), w)
  | frameCounter c => (true, frameCounter c, w)
  | device d => let (ok, w) := d.setStatus t w; (ok, device d, w)

/-- What a stage leaves behind after a frame. -/
structure Result (ω : Type) where
  error : Option StreamError
  frame : Frame
  stage : Stage ω
  surroundings : Surroundings ω

/-- Transforms a frame in place. The stages of the library leave a frame as it was when they
fail. -/
def transform (s : Stage ω) (f : Frame) (e : Surroundings ω) : Result ω :=
  match s with
  | converter c =>
    match c.transform f with
    | .ok f => ⟨none, f, s, e⟩
    | .error err => ⟨some err, f, s, e⟩
  | whiteBalancer w =>
    match w.transform f with
    | .ok (f, w) => ⟨none, f, whiteBalancer w, e⟩
    | .error err => ⟨some err, f, s, e⟩
  | frameCounter c =>
    match c.observe f e.tally with
    | .ok tally => ⟨none, f, s, { e with tally }⟩
    | .error err => ⟨some err, f, s, e⟩
  | device d =>
    let (err, f, world) := d.transform f e.world
    ⟨err, f, s, { e with world }⟩

end Stage

/-! ### Making stages -/

inductive Blueprint (ω : Type) where
  | converter (d : StageDescriptor) (k : Kernel)
  | whiteBalancer
  | frameCounter
  /-- A device, which may take its place in the world when it is made. -/
  | device (make : ω → StageDevice ω × ω)

namespace Blueprint

variable {ω : Type}

/-- A new stage, bound to nothing. -/
def make (b : Blueprint ω) (w : ω) : Stage ω × ω :=
  match b with
  | converter d k => (.converter { descriptor := d, kernel := k }, w)
  | whiteBalancer => (.whiteBalancer {}, w)
  | frameCounter => (.frameCounter {}, w)
  | device make => let (d, w) := make w; (.device d, w)

/-- The stages of the library by descriptor. -/
def builtins : List (StageDescriptor × Blueprint ω) :=
  [(.bayerNormalize, converter .bayerNormalize Pixels.normalize),
    (.debayer, converter .debayer Pixels.demosaic),
    (.colorConvert, converter .colorConvert Pixels.convertColor),
    (.jpegDecode, converter .jpegDecode Kernel.relabel),
    (.combined, converter .combined Pixels.combined),
    (.whiteBalance, whiteBalancer),
    (.frameStatistics, frameCounter)]

end Blueprint

/-- The registry of the conversions that are always wanted: all but the combined one. -/
def Registry.standard {ω : Type} : Registry (Blueprint ω) :=
  Registry.empty.registerAll (Blueprint.builtins.take 4)

end CameraStream
