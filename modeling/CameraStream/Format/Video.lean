import CameraStream.Format.Encoding
import CameraStream.Format.Rate

/-!
# Video formats

A `VideoFormat` is fully decided: one encoding, one frame size, one frame rate. Sets of formats are
described by constraints (`CameraStream.Constraint.Format`).
-/

namespace CameraStream

structure FrameSize where
  width : Nat
  height : Nat
deriving DecidableEq, Repr

namespace FrameSize

/-- By width, then by height. -/
instance : Ord FrameSize :=
  ⟨fun a b => (compare a.width b.width).then (compare a.height b.height)⟩

def text (s : FrameSize) : String := s!"{s.width}x{s.height}"

instance : ToString FrameSize := ⟨text⟩

end FrameSize

structure VideoFormat where
  encoding : Encoding
  size : FrameSize
  rate : FrameRate
deriving DecidableEq, Repr

namespace VideoFormat

def withEncoding (f : VideoFormat) (e : Encoding) : VideoFormat := { f with encoding := e }

@[simp] theorem encoding_withEncoding (f : VideoFormat) (e : Encoding) :
    (f.withEncoding e).encoding = e := rfl

@[simp] theorem size_withEncoding (f : VideoFormat) (e : Encoding) :
    (f.withEncoding e).size = f.size := rfl

@[simp] theorem rate_withEncoding (f : VideoFormat) (e : Encoding) :
    (f.withEncoding e).rate = f.rate := rfl

@[simp] theorem withEncoding_withEncoding (f : VideoFormat) (a b : Encoding) :
    (f.withEncoding a).withEncoding b = f.withEncoding b := rfl

@[simp] theorem withEncoding_self (f : VideoFormat) : f.withEncoding f.encoding = f := rfl

def pixels (f : VideoFormat) : Nat := f.size.width * f.size.height

/-- Formats by extent alone: width, then height, then rate. -/
def compareExtent (a b : VideoFormat) : Ordering :=
  (compare a.size b.size).then (compare a.rate b.rate)

/-- The format of largest extent in a list, the earliest of several. -/
def largest? : List VideoFormat → Option VideoFormat
  | [] => none
  | f :: rest =>
    some (rest.foldl (fun best g => if (compareExtent best g).isLT then g else best) f)

def text (f : VideoFormat) : String := s!"{f.encoding} {f.size} @ {f.rate}"

instance : ToString VideoFormat := ⟨text⟩

def inspect (f : VideoFormat) : String :=
  "PixelFormat \x7b encoding: " ++ f.encoding.inspect ++ ", width: " ++ toString f.size.width
    ++ ", height: " ++ toString f.size.height ++ ", framerate: " ++ f.rate.inspect ++ " \x7d"

end VideoFormat
end CameraStream
