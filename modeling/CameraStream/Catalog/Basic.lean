import CameraStream.Catalog.Resolution

/-!
# Catalogs

A `Catalog` is what a device reports it can produce: offers of one encoding each, in the device's
order, of which several may name the same encoding. `supports` reads the report as a set of formats
and `constraints` turns it into alternatives for negotiation, leaving out the reserved encoding.
-/

namespace CameraStream

structure Offer where
  encoding : Encoding
  resolutions : List Resolution
deriving DecidableEq, Repr

namespace Offer

def supports (o : Offer) (f : VideoFormat) : Bool :=
  f.encoding == o.encoding && o.resolutions.any (·.supports f.size f.rate)

/-- The format of largest extent on offer. Resolutions whose rates have no largest one do not
count. -/
def largestFormat? (o : Offer) : Option VideoFormat :=
  VideoFormat.largest? (o.resolutions.filterMap (·.largestFormat? o.encoding))

/-- The alternatives of all resolutions, in order. -/
def constraints (o : Offer) : List FormatConstraint :=
  o.resolutions.flatMap (·.constraints o.encoding)

def text (o : Offer) : String :=
  o.encoding.text ++ ":" ++ String.join (o.resolutions.map fun r => " [" ++ r.text ++ "]")

instance : ToString Offer := ⟨text⟩

end Offer

/-- What a device reports it can produce. -/
structure Catalog where
  offers : List Offer := []
deriving DecidableEq, Repr

namespace Catalog

def isEmpty (c : Catalog) : Bool := c.offers.isEmpty

def supports (c : Catalog) (f : VideoFormat) : Bool := c.offers.any (·.supports f)

/-- The valid encodings in the device's order, without repetition. -/
def encodings (c : Catalog) : List Encoding :=
  Encoding.distinct ((c.offers.map (·.encoding)).filter (·.isValid))

def offer? (c : Catalog) (e : Encoding) : Option Offer := c.offers.find? (·.encoding == e)

/-- The format of largest extent over all offers of an encoding. -/
def largestFormat? (c : Catalog) (e : Encoding) : Option VideoFormat :=
  VideoFormat.largest? ((c.offers.filter (·.encoding == e)).filterMap (·.largestFormat?))

/-- The alternatives of all offers of a valid encoding, in order. -/
def constraints (c : Catalog) : Alternatives :=
  ⟨(c.offers.filter (·.encoding.isValid)).flatMap (·.constraints)⟩

def text (c : Catalog) : String := "; ".intercalate (c.offers.map toString)

instance : ToString Catalog := ⟨text⟩

end Catalog
end CameraStream
