import CameraStream.Buffer

/-!
# Frame tallies

What a statistics stage has seen so far.
-/

namespace CameraStream

structure FrameTally where
  frames : Nat := 0
  damaged : Nat := 0
  bytes : Nat := 0
  /-- Mean byte of the last frame that had any. -/
  mean : Float := 0.0

namespace FrameTally

/-- Mean byte of a payload that has any. -/
def meanOf (data : List UInt8) : Float :=
  Float.ofNat (data.foldl (fun n v => n + v.toNat) 0) / Float.ofNat data.length

/-- Counts one more frame. -/
def record (t : FrameTally) (f : Frame) : FrameTally where
  frames := t.frames + 1
  damaged := t.damaged + if f.info.damaged then 1 else 0
  bytes := t.bytes + f.data.length
  mean := if f.data.isEmpty then t.mean else meanOf f.data

end FrameTally
end CameraStream
