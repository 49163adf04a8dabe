import CameraStream.Text.Hex

/-!
# Encodings

An `Encoding` names the layout of pixel data by a four-character code, packed into 32 bits with
the first character lowest. The code zero is reserved: it never names a layout.

The constants are the layouts the library knows by name. Other codes are legal and travel through
negotiation unchanged; they merely belong to no family (`CameraStream.Format.Family`) and have no
colour filter (`CameraStream.Format.Mosaic`).
-/

namespace CameraStream

/-- A pixel data layout, named by its four-character code. -/
structure Encoding where
  code : UInt32
deriving DecidableEq, Repr

namespace Encoding

/-- The code whose four bytes are the given characters, first character lowest. -/
def ofChars (a b c d : Char) : Encoding :=
  ⟨UInt32.ofNat (a.toNat + 256 * (b.toNat + 256 * (c.toNat + 256 * d.toNat)))⟩

/-- Whether the code may name a layout. -/
def isValid (e : Encoding) : Bool := e.code != 0

/-- The four bytes of the code, lowest first. -/
def bytes (e : Encoding) : List UInt8 :=
  [e.code.toUInt8, (e.code >>> 8).toUInt8, (e.code >>> 16).toUInt8, (e.code >>> 24).toUInt8]

instance : Ord Encoding := ⟨fun a b => compare a.code b.code⟩

/-- The encodings of a list, each at its first place. -/
def distinct : List Encoding → List Encoding
  | [] => []
  | e :: es => e :: (distinct es).filter (· != e)

/-! ### Text -/

/-- Whether a byte is a visible character or a space. -/
def isPlain (b : UInt8) : Bool := 0x20 ≤ b && b ≤ 0x7e

/-- The characters without the spaces at their end. -/
def trimEnd (cs : List Char) : List Char :=
  (cs.reverse.dropWhile (· == ' ')).reverse

/-- The four characters without padding, or the code in hexadecimal when one of them is not
plain. -/
def text (e : Encoding) : String :=
  if e.bytes.all isPlain then String.ofList (trimEnd (e.bytes.map fun b => Char.ofNat b.toNat))
  else "0x" ++ Text.hex 8 e.code.toNat

instance : ToString Encoding := ⟨text⟩

def inspect (e : Encoding) : String := "Fourcc(" ++ e.text ++ ")"

/-! ### Bayer, one byte a sample -/

def rggb8 : Encoding := ofChars 'R' 'G' 'G' 'B'
def gbrg8 : Encoding := ofChars 'G' 'B' 'R' 'G'
def grbg8 : Encoding := ofChars 'G' 'R' 'B' 'G'
def bggr8 : Encoding := ofChars 'B' 'A' '8' '1'

/-! ### Bayer, ten bits a sample: in words, and four samples in five bytes -/

def rggb10 : Encoding := ofChars 'R' 'G' '1' '0'
def gbrg10 : Encoding := ofChars 'G' 'B' '1' '0'
def grbg10 : Encoding := ofChars 'B' 'A' '1' '0'
def bggr10 : Encoding := ofChars 'B' 'G' '1' '0'
def rggb10Packed : Encoding := ofChars 'p' 'R' 'A' 'A'
def gbrg10Packed : Encoding := ofChars 'p' 'G' 'A' 'A'
def grbg10Packed : Encoding := ofChars 'p' 'g' 'A' 'A'
def bggr10Packed : Encoding := ofChars 'p' 'B' 'A' 'A'

/-! ### Bayer, twelve bits a sample: in words, and two samples in three bytes -/

def rggb12 : Encoding := ofChars 'R' 'G' '1' '2'
def gbrg12 : Encoding := ofChars 'G' 'B' '1' '2'
def grbg12 : Encoding := ofChars 'B' 'A' '1' '2'
def bggr12 : Encoding := ofChars 'B' 'G' '1' '2'
def rggb12Packed : Encoding := ofChars 'p' 'R' 'C' 'C'
def gbrg12Packed : Encoding := ofChars 'p' 'G' 'C' 'C'
def grbg12Packed : Encoding := ofChars 'p' 'g' 'C' 'C'
def bggr12Packed : Encoding := ofChars 'p' 'B' 'C' 'C'

/-! ### Bayer, sixteen bits a sample -/

def rggb16 : Encoding := ofChars 'R' 'G' '1' '6'
def gbrg16 : Encoding := ofChars 'G' 'B' '1' '6'
def grbg16 : Encoding := ofChars 'G' 'R' '1' '6'
def bggr16 : Encoding := ofChars 'B' 'Y' 'R' '2'

/-! ### Bayer, companded piecewise linearly to twelve bits -/

/-- Twelve-bit container. -/
def pwl12 : Encoding := ofChars 'P' 'W' 'L' 'R'

/-- Two samples in three bytes. -/
def pwl12Packed : Encoding := ofChars 'P' 'W' 'L' 'M'

/-- Twelve significant bits in words. -/
def pwl12InWords : Encoding := ofChars 'P' 'W' 'L' 'H'

/-! ### Packed colour -/

def rgb24 : Encoding := ofChars 'R' 'G' 'B' '3'
def bgr24 : Encoding := ofChars 'B' 'G' 'R' '3'
def rgbx32 : Encoding := ofChars 'R' 'G' 'B' 'x'
def bgra32 : Encoding := ofChars 'B' 'G' 'R' 'A'
def bgra64 : Encoding := ofChars 'B' 'A' '6' '4'

/-! ### Luma and chroma -/

def yuyv : Encoding := ofChars 'Y' 'U' 'Y' 'V'
def uyvy : Encoding := ofChars 'U' 'Y' 'V' 'Y'
def nv12 : Encoding := ofChars 'N' 'V' '1' '2'
def y411 : Encoding := ofChars 'Y' '4' '1' '1'
def iyu1 : Encoding := ofChars 'I' 'Y' 'U' '1'
def iyu2 : Encoding := ofChars 'I' 'Y' 'U' '2'

/-! ### Compressed and grey -/

def mjpeg : Encoding := ofChars 'M' 'J' 'P' 'G'
def mono8 : Encoding := ofChars 'G' 'R' 'E' 'Y'
def mono16 : Encoding := ofChars 'Y' '1' '6' ' '

/-! ### Polarization sensors -/

def polarizedBayer8 : Encoding := ofChars 'P' 'B' 'G' '8'
def polarizedBayer12Packed : Encoding := ofChars 'P' 'B' 'G' 'C'
def polarizedBayer16 : Encoding := ofChars 'P' 'B' 'G' 'G'
def polarizedMono8 : Encoding := ofChars 'P' 'M' 'O' '8'
def polarizedMono12Packed : Encoding := ofChars 'P' 'M' 'O' 'C'
def polarizedMono16 : Encoding := ofChars 'P' 'M' 'O' 'G'

end Encoding
end CameraStream
