import CameraStream.Format.Family

/-!
# Stage descriptors

A stage is a step of processing between source and sink. What negotiation needs to know of it is in
its `StageDescriptor`: which encodings it takes, and what it makes of each. A *conversion* changes
the encoding and fills one of a few roles; an *interpretation* looks at frames or corrects them in
place and keeps their format.
-/

namespace CameraStream

/-- What a conversion does. -/
inductive Role where
  /-- From a mosaic to any colour encoding in one pass. -/
  | combined
  /-- From packed or deep samples to one byte a sample. -/
  | bayerNormalize
  /-- From a mosaic to colour. -/
  | debayer
  /-- Between colour encodings. -/
  | colorConvert
  /-- From compressed to raw frames. -/
  | decode
deriving DecidableEq, Repr

namespace Role

def all : List Role := [combined, bayerNormalize, debayer, colorConvert, decode]

def text : Role → String
  | combined => "combined"
  | bayerNormalize => "bayer-normalize"
  | debayer => "debayer"
  | colorConvert => "color-convert"
  | decode => "decode"

instance : ToString Role := ⟨text⟩

end Role

/-- Whether a stage changes the encoding, and how. -/
inductive StageKind where
  | conversion (role : Role)
  | interpretation
deriving DecidableEq, Repr

namespace StageKind

def isInterpretation : StageKind → Bool
  | interpretation => true
  | conversion _ => false

def text : StageKind → String
  | conversion role => role.text
  | interpretation => "interpretation"

def ofText? (name : String) : Option StageKind :=
  (interpretation :: Role.all.map conversion).find? fun k => k.text == name

end StageKind

/-- Encodings that a stage takes or makes. -/
inductive EncodingSet where
  /-- Every valid encoding. As what a stage makes: the encoding it was given. -/
  | any
  /-- The listed encodings, the preferred one first. -/
  | only (encodings : List Encoding)
deriving DecidableEq, Repr

namespace EncodingSet

def contains : EncodingSet → Encoding → Bool
  | any, e => e.isValid
  | only es, e => es.contains e

def ofFamilies (families : List Family) : EncodingSet := only (families.flatMap (·.members))

end EncodingSet

/-- What there is to know of a stage without running it. -/
structure StageDescriptor where
  name : String
  kind : StageKind
  input : EncodingSet
  output : EncodingSet
  /-- Whether it makes only encodings of the mosaic it was given. -/
  keepsMosaic : Bool := false
deriving DecidableEq, Repr

namespace StageDescriptor

def accepts (d : StageDescriptor) (e : Encoding) : Bool := d.input.contains e

/-- What the stage can make of an encoding, the preferred one first. -/
def outputsFor (d : StageDescriptor) (e : Encoding) : List Encoding :=
  if d.accepts e then
    match d.output with
    | .any => [e]
    | .only es => es.filter fun out => !d.keepsMosaic || out.mosaic == e.mosaic
  else []

def converts (d : StageDescriptor) (a b : Encoding) : Bool := (d.outputsFor a).contains b

end StageDescriptor
end CameraStream
