import CameraStream.Pixels.Demosaic

/-!
# Between colour encodings

Exchanging red and blue turns the two orders of three bytes into each other, and a weighted mean of
the colours turns packed colour into grey. Other pairs of encodings are told apart by their label
only. Bytes beyond the last whole pixel are kept by an exchange and dropped on the way to grey.
-/

namespace CameraStream.Pixels

/-- Red and blue exchanged in every whole pixel of three bytes. -/
def swapRedBlue : List UInt8 → List UInt8
  | a :: b :: c :: rest => c :: b :: a :: swapRedBlue rest
  | rest => rest

/-- Brightness of a colour: weights of 77, 150 and 29 parts in 256. -/
def luma (c : Rgb) : UInt8 :=
  UInt8.ofNat ((77 * c.r.toNat + 150 * c.g.toNat + 29 * c.b.toNat) / 256)

/-- Brightness of every whole pixel of three bytes. -/
def lumaOfThree (o : ColorOrder) : List UInt8 → List UInt8
  | a :: b :: c :: rest => luma (o.read a b c) :: lumaOfThree o rest
  | _ => []

/-- Brightness of every whole pixel of four bytes. -/
def lumaOfFour (o : ColorOrder) : List UInt8 → List UInt8
  | a :: b :: c :: _ :: rest => luma (o.read a b c) :: lumaOfFour o rest
  | _ => []

/-- Brightness of every whole pixel. -/
def toGray (o : ColorOrder) (data : List UInt8) : List UInt8 :=
  if o.padded then lumaOfFour o data else lumaOfThree o data

/-- Whether two encodings differ in the order of red and blue alone, without padding. -/
def isSwap (a b : Encoding) : Bool :=
  (a == .rgb24 && b == .bgr24) || (a == .bgr24 && b == .rgb24)

/-- Converts a payload between colour encodings. -/
def convertColor (input output : VideoFormat) (data : List UInt8) : List UInt8 :=
  if isSwap input.encoding output.encoding then swapRedBlue data
  else if output.encoding = .mono8 then
    match input.encoding.colorOrder with
    | some o => toGray o data
    | none => data
  else data

/-- Demosaics straight to a packed colour encoding, and to others by way of red, green and blue in
three bytes. -/
def combined (input output : VideoFormat) (data : List UInt8) : List UInt8 :=
  if output.encoding.colorOrder.isSome then demosaic input output data
  else
    let rgb := output.withEncoding .rgb24
    convertColor rgb output (demosaic input rgb data)

end CameraStream.Pixels
