import CameraStream.Format.Encoding

/-!
# Colour filter mosaics

A Bayer sensor repeats a cell of two by two sites, one red, one blue and two green. A `Mosaic` says
where red sits in the cell; blue is always the opposite corner (`blueSite_ne_redSite`), and green
takes the other diagonal.
-/

namespace CameraStream

/-- Layout of the two-by-two cell, read left to right and top to bottom. -/
inductive Mosaic where
  | rggb | gbrg | grbg | bggr
deriving DecidableEq, Repr

namespace Mosaic

/-- Column and row of the red sample in the cell. -/
def redSite : Mosaic → Nat × Nat
  | rggb => (0, 0)
  | gbrg => (0, 1)
  | grbg => (1, 0)
  | bggr => (1, 1)

/-- Column and row of the blue sample in the cell. -/
def blueSite (m : Mosaic) : Nat × Nat :=
  (1 - m.redSite.1, 1 - m.redSite.2)

theorem redSite_le_one (m : Mosaic) : m.redSite.1 ≤ 1 ∧ m.redSite.2 ≤ 1 := by
  cases m <;> decide

theorem blueSite_ne_redSite (m : Mosaic) :
    m.blueSite.1 ≠ m.redSite.1 ∧ m.blueSite.2 ≠ m.redSite.2 := by
  cases m <;> decide

/-- The layouts that are laid out under a mosaic, at every depth. -/
def encodings : Mosaic → List Encoding
  | rggb => [.rggb8, .rggb10, .rggb10Packed, .rggb12, .rggb12Packed, .rggb16,
      .pwl12, .pwl12Packed, .pwl12InWords]
  | gbrg => [.gbrg8, .gbrg10, .gbrg10Packed, .gbrg12, .gbrg12Packed, .gbrg16]
  | grbg => [.grbg8, .grbg10, .grbg10Packed, .grbg12, .grbg12Packed, .grbg16]
  | bggr => [.bggr8, .bggr10, .bggr10Packed, .bggr12, .bggr12Packed, .bggr16]

def all : List Mosaic := [rggb, gbrg, grbg, bggr]

def name : Mosaic → String
  | rggb => "Rggb"
  | gbrg => "Gbrg"
  | grbg => "Grbg"
  | bggr => "Bggr"

end Mosaic

/-- The mosaic an encoding is laid out under, if it is a Bayer encoding of any depth. -/
def Encoding.mosaic (e : Encoding) : Option Mosaic :=
  Mosaic.all.find? fun m => m.encodings.contains e

end CameraStream
