import CameraStream.Constraint.Format

/-!
# Alternatives

A request and an offer are both `Alternatives`: constraints in order of preference, of which one
has to hold. The order decides which format is settled on, but not which formats are accepted.

Settling on a format asks first whether the request names a frame size. If it does, the first
alternative that determines a format wins; if it does not, the largest format over all
alternatives does, the earliest of several of one extent. Which case applies is for the *request*
to say: an offer that lists sizes does not turn a request for an encoding into one for a size.
-/

namespace CameraStream

/-- Constraints of which one has to hold, the best one first. -/
structure Alternatives where
  toList : List FormatConstraint := []
deriving DecidableEq, Repr

namespace Alternatives

def ofFormat (f : VideoFormat) : Alternatives := ⟨[.ofFormat f]⟩

/-- One more alternative, less preferred than the others. -/
def push (s : Alternatives) (c : FormatConstraint) : Alternatives := ⟨s.toList ++ [c]⟩

def isEmpty (s : Alternatives) : Bool := s.toList.isEmpty

def size (s : Alternatives) : Nat := s.toList.length

def accepts (s : Alternatives) (f : VideoFormat) : Bool := s.toList.any (·.accepts f)

def acceptsEncoding (s : Alternatives) (e : Encoding) : Bool :=
  s.toList.any (·.encoding.accepts e)

def asksForSize (s : Alternatives) : Bool := s.toList.any (·.asksForSize)

/-- What holds of both sides: every alternative of `s` with every one of `t`, those of the first
alternative of `s` first. -/
def inter (s t : Alternatives) : Alternatives :=
  ⟨s.toList.flatMap fun c => t.toList.filterMap c.inter⟩

/-- The encodings named one by one, in order and without repetition. -/
def encodings (s : Alternatives) : List Encoding :=
  Encoding.distinct (s.toList.flatMap (·.encoding.named))

def mapEncoding (s : Alternatives) (e : Constraint Encoding) : Alternatives :=
  ⟨s.toList.map fun c => { c with encoding := e }⟩

def withEncoding (s : Alternatives) (e : Encoding) : Alternatives := s.mapEncoding (.exactly e)

def withoutEncoding (s : Alternatives) : Alternatives := s.mapEncoding .any

/-- The alternatives that hold of an encoding, in exactly that encoding. -/
def filterEncoding (s : Alternatives) (e : Encoding) : Alternatives :=
  (Alternatives.mk (s.toList.filter (·.encoding.accepts e))).withEncoding e

/-! ### Settling on a format -/

/-- The largest format of the first alternative that determines one. -/
def first? (s : Alternatives) : Option VideoFormat := s.toList.findSome? (·.largest?)

def largest? (s : Alternatives) : Option VideoFormat :=
  VideoFormat.largest? (s.toList.filterMap (·.largest?))

/-- The first format, or the largest one, as `bySize` says. -/
def pick? (s : Alternatives) (bySize : Bool) : Option VideoFormat :=
  if bySize then s.first? else s.largest?

/-- The format a request settles on by itself. -/
def settle? (s : Alternatives) : Option VideoFormat := s.pick? s.asksForSize

/-- The format a request settles on among those on offer. -/
def settleAgainst? (s offer : Alternatives) : Option VideoFormat :=
  (s.inter offer).pick? s.asksForSize

def text (s : Alternatives) : String :=
  if s.isEmpty then "EMPTY" else "; ".intercalate (s.toList.map toString)

instance : ToString Alternatives := ⟨text⟩

end Alternatives
end CameraStream
