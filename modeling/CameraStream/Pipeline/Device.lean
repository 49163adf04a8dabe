import CameraStream.Buffer
import CameraStream.Catalog.Basic
import CameraStream.Status

/-!
# What a pipeline connects

A pipeline drives three parts that are not its own: a `Source` that captures frames, a `Sink` that
consumes them, and a `PropertyFilter` that looks at every buffer ahead of the stages. Each is a
record of the answers it gives, as functions of a world `ω` which all parts share and which only
they can look into. What holds for every `ω` and every record holds whatever the parts do.
-/

namespace CameraStream

structure Source (ω : Type) where
  catalog : ω → Catalog
  /-- Takes note of the pipeline, whose status is given, as the place to deliver to. -/
  attach : Status → ω → ω
  /-- Configures a format; tells whether it agrees. -/
  setFormat : VideoFormat → ω → Bool × ω
  format? : ω → Option VideoFormat
  /-- Captures into the buffers of a pool, given by its number; tells whether it agrees. -/
  adoptPool : Nat → ω → Bool × ω
  /-- Starts or stops; tells whether it agrees, and which buffers it delivers meanwhile. -/
  setStatus : Status → ω → Bool × List Buffer × ω
  /-- Learns whether a buffer that it delivered was accepted; if not, it has it back. -/
  delivered : Buffer → Bool → ω → ω
  /-- Takes back a buffer. -/
  requeue : Buffer → ω → ω
  /-- Is asked to have incomplete frames dropped, or not. -/
  setDropIncomplete : Bool → ω → ω
  dropsIncomplete : ω → Bool

structure Sink (ω : Type) where
  /-- The number of the pool that frames are to be captured into, if it has one. -/
  pool? : ω → Option Nat
  /-- Configures the format it will receive; tells whether it agrees. -/
  setFormat : VideoFormat → ω → Bool × ω
  setStatus : Status → ω → Bool × ω
  /-- Consumes a buffer. Unless it keeps it, it hands it back with the frame it leaves in it. -/
  push : Buffer → ω → Option Frame × ω

/-- A look at every buffer ahead of the stages. -/
structure PropertyFilter (ω : Type) where
  /-- Configures the formats it sees and leaves; tells whether it agrees. -/
  setFormat : VideoFormat → VideoFormat → ω → Bool × ω
  setStatus : Status → ω → Bool × ω
  /-- Looks at a frame and may change it. -/
  apply : Frame → ω → Frame × ω

/-- The filter that agrees to everything and does nothing. -/
def PropertyFilter.idle {ω : Type} : PropertyFilter ω where
  setFormat _ _ w := (true, w)
  setStatus _ w := (true, w)
  apply f w := (f, w)

end CameraStream
