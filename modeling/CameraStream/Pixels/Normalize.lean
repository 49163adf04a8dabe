import CameraStream.Format.Family
import CameraStream.Format.Video

/-!
# Deep samples to one byte

Sensors with more than eight bits store their samples in one of three layouts: little-endian words,
four samples in five bytes, or two samples in three bytes. In the packed layouts the leading bytes
of a group carry the eight high bits of its samples and the last byte gathers the low bits. Keeping
the eight high bits of every sample is therefore a shift for words, and dropping the last byte of
every group for packed samples.
-/

namespace CameraStream

/-- How samples of more than eight bits are stored. -/
inductive SampleLayout where
  /-- One little-endian word a sample, of which the low `bits` count. -/
  | words (bits : Nat)
  | packed10
  | packed12
deriving DecidableEq, Repr

/-- How an encoding stores its samples, if they have more than eight bits. -/
def Encoding.sampleLayout (e : Encoding) : Option SampleLayout :=
  if [rggb10Packed, gbrg10Packed, grbg10Packed, bggr10Packed].contains e then some .packed10
  else if [rggb12Packed, gbrg12Packed, grbg12Packed, bggr12Packed, pwl12Packed].contains e then
    some .packed12
  else
    match e.family with
    | some .bayer10 => some (.words 10)
    | some .bayer12 | some .bayerPwl => some (.words 12)
    | some .bayer16 => some (.words 16)
    | _ => none

namespace Pixels

/-- The words of a payload, each shifted down to its eight high bits. -/
def shiftWords (bits : Nat) : List UInt8 → List UInt8
  | low :: high :: rest =>
    UInt8.ofNat ((low.toNat + 256 * high.toNat) / 2 ^ (bits - 8)) :: shiftWords bits rest
  | _ => []

/-- The first four bytes of every whole group of five. -/
def highOfFive : List UInt8 → List UInt8
  | a :: b :: c :: d :: _ :: rest => a :: b :: c :: d :: highOfFive rest
  | _ => []

/-- The first two bytes of every whole group of three. -/
def highOfThree : List UInt8 → List UInt8
  | a :: b :: _ :: rest => a :: b :: highOfThree rest
  | _ => []

/-- The eight high bits of every sample that is there as a whole. -/
def highBytes : SampleLayout → List UInt8 → List UInt8
  | .words bits => shiftWords bits
  | .packed10 => highOfFive
  | .packed12 => highOfThree

/-- Reduces a frame to one byte a sample. A payload in no deep layout stays as it is. -/
def normalize (input _output : VideoFormat) (data : List UInt8) : List UInt8 :=
  match input.encoding.sampleLayout with
  | none => data
  | some layout => (highBytes layout data).take input.pixels

end Pixels
end CameraStream
