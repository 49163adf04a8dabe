import CameraStream.Constraint.Extent

/-!
# Constraints on a whole format

A `FormatConstraint` constrains every field of a format on its own, so it describes a box of
formats; `inter` is taken field by field. Sets that are not boxes are lists of alternatives
(`CameraStream.Constraint.Alternatives`).
-/

namespace CameraStream

/-- A constraint on every field of a format. Fields that are not given are free. -/
structure FormatConstraint where
  encoding : Constraint Encoding := .any
  width : Extent := {}
  height : Extent := {}
  rate : Constraint FrameRate := .any
deriving DecidableEq, Repr

namespace FormatConstraint

def ofFormat (f : VideoFormat) : FormatConstraint where
  encoding := .exactly f.encoding
  width := .exactly f.size.width
  height := .exactly f.size.height
  rate := .exactly f.rate

def accepts (c : FormatConstraint) (f : VideoFormat) : Bool :=
  c.encoding.accepts f.encoding && c.width.accepts f.size.width &&
    c.height.accepts f.size.height && c.rate.accepts f.rate

/-- The constraint that holds of the formats both hold of, if every field leaves something. -/
def inter (c d : FormatConstraint) : Option FormatConstraint := do
  let encoding ← c.encoding.inter d.encoding
  let width ← c.width.inter d.width
  let height ← c.height.inter d.height
  let rate ← c.rate.inter d.rate
  return { encoding, width, height, rate }

def asksForSize (c : FormatConstraint) : Bool :=
  c.width.isConstrained || c.height.isConstrained

/-- The largest format: of the preferred encoding, the largest width, height and rate. None while
a field is free. -/
def largest? (c : FormatConstraint) : Option VideoFormat := do
  let encoding ← c.encoding.preferred?
  let width ← c.width.largest?
  let height ← c.height.largest?
  let rate ← c.rate.largest?
  return { encoding, size := { width, height }, rate }

/-- All four fields on one line; steps are not shown. -/
def text (c : FormatConstraint) : String :=
  s!"{c.encoding} {c.width.values}x{c.height.values} @ {c.rate}"

instance : ToString FormatConstraint := ⟨text⟩

end FormatConstraint
end CameraStream
