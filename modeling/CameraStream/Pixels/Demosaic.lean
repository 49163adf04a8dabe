import CameraStream.Format.Mosaic
import CameraStream.Format.Video

/-!
# Mosaics to colour

Every pixel is given the colours of one two-by-two cell: the cell it lies in, or at an odd right or
lower border the last one that fits. Red and blue are the cell's samples, green is the mean of its
two green samples, rounded down. Cells start at even coordinates, except for the last one of an odd
dimension.
-/

namespace CameraStream

structure Rgb where
  r : UInt8
  g : UInt8
  b : UInt8
deriving DecidableEq, Repr

/-- How an encoding stores the colours of a pixel: in three or four bytes, red or blue first. -/
structure ColorOrder where
  /-- Whether a fourth byte follows the colours. -/
  padded : Bool
  /-- Whether blue comes first and red last. -/
  blueFirst : Bool
deriving DecidableEq, Repr

namespace ColorOrder

def channels (o : ColorOrder) : Nat := if o.padded then 4 else 3

/-- The bytes of one pixel. A fourth byte is full. -/
def write (o : ColorOrder) (c : Rgb) : List UInt8 :=
  (if o.blueFirst then [c.b, c.g, c.r] else [c.r, c.g, c.b]) ++ if o.padded then [0xff] else []

/-- The colours of one pixel whose first three bytes are given. -/
def read (o : ColorOrder) (first second third : UInt8) : Rgb :=
  if o.blueFirst then ⟨third, second, first⟩ else ⟨first, second, third⟩

theorem length_write (o : ColorOrder) (c : Rgb) : (o.write c).length = o.channels := by
  cases o with
  | mk padded blueFirst => cases padded <;> cases blueFirst <;> rfl

end ColorOrder

/-- How an encoding of packed bytes stores its colours. -/
def Encoding.colorOrder (e : Encoding) : Option ColorOrder :=
  if e = rgb24 then some ⟨false, false⟩
  else if e = bgr24 then some ⟨false, true⟩
  else if e = rgbx32 then some ⟨true, false⟩
  else if e = bgra32 then some ⟨true, true⟩
  else none

namespace Pixels

/-- First coordinate of the cell of a coordinate, in a dimension of `n` pixels. -/
def cellStart (n i : Nat) : Nat := min (i - i % 2) (n - 2)

/-- The sample at a column and row of a payload; there is none outside. -/
def sampleAt (src : Array UInt8) (width x y : Nat) : UInt8 := (src[y * width + x]?).getD 0

/-- The mean of two samples, rounded down. -/
def mean (a b : UInt8) : UInt8 := UInt8.ofNat ((a.toNat + b.toNat) / 2)

/-- The colours of the cell that starts at a column and row. -/
def cellColors (m : Mosaic) (src : Array UInt8) (width cx cy : Nat) : Rgb :=
  let at_ (dx dy : Nat) := sampleAt src width (cx + dx) (cy + dy)
  let (rx, ry) := m.redSite
  let (bx, by_) := m.blueSite
  ⟨at_ rx ry, mean (at_ (1 - rx) ry) (at_ rx (1 - ry)), at_ bx by_⟩

/-- The colours of the pixel at a column and row. -/
def pixelColors (m : Mosaic) (src : Array UInt8) (size : FrameSize) (x y : Nat) : Rgb :=
  cellColors m src size.width (cellStart size.width x) (cellStart size.height y)

/-- The bytes of all pixels, row by row. -/
def paint (o : ColorOrder) (size : FrameSize) (color : Nat → Nat → Rgb) : List UInt8 :=
  (List.range size.height).flatMap fun y =>
    (List.range size.width).flatMap fun x => o.write (color x y)

/-- Gives every pixel its colours. Without a mosaic, without a colour order to write, for frames
below two by two and for payloads short of a frame, the payload stays as it is. -/
def demosaic (input output : VideoFormat) (data : List UInt8) : List UInt8 :=
  match input.encoding.mosaic, output.encoding.colorOrder with
  | some m, some o =>
    if data.length < input.pixels ∨ input.size.width < 2 ∨ input.size.height < 2 then data
    else paint o input.size (pixelColors m data.toArray input.size)
  | _, _ => data

end Pixels
end CameraStream
