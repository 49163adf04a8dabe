/-!
# Frame rates

A frame rate is a fraction of frames over time units, so that rates like 30000/1001 are exact.
Two rates are equal when their parts are; `compare` orders them by value, multiplying across, and
rates of one value by their denominators. With nonzero denominators that is a total order in which
only equal rates compare equal.
-/

namespace CameraStream

/-- Frames per time unit, as a fraction. -/
structure FrameRate where
  num : Nat
  den : Nat
deriving DecidableEq, Repr

namespace FrameRate

def fps (n : Nat) : FrameRate := ⟨n, 1⟩

/-- Thirty frames per second, the rate where nothing else is said. -/
def standard : FrameRate := fps 30

/-- By value, then by denominator. -/
instance : Ord FrameRate :=
  ⟨fun a b => (compare (a.num * b.den) (b.num * a.den)).then (compare a.den b.den)⟩

/-- Frames per second as a floating-point number; a zero denominator counts as one. -/
def toFloat (r : FrameRate) : Float :=
  Float.ofNat r.num / Float.ofNat (max r.den 1)

/-- Length of one frame in whole nanoseconds, zero for a rate of zero. -/
def frameNanos (r : FrameRate) : Nat :=
  if r.num = 0 then 0 else r.den * 1000000000 / r.num

def text (r : FrameRate) : String := s!"{r.num}/{r.den}"

instance : ToString FrameRate := ⟨text⟩

def inspect (r : FrameRate) : String :=
  "Framerate \x7b num: " ++ toString r.num ++ ", den: " ++ toString r.den ++ " \x7d"

end FrameRate

/-! ### Larger and smaller by an order -/

/-- The larger of two values; of two that compare equal, the second. -/
def larger {α : Type} [Ord α] (a b : α) : α := if (compare a b).isGT then a else b

/-- The smaller of two values; of two that compare equal, the first. -/
def smaller {α : Type} [Ord α] (a b : α) : α := if (compare a b).isGT then b else a

end CameraStream
