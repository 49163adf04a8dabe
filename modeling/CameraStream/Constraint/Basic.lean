import CameraStream.Format.Video

/-!
# Constraints on one value

A `Constraint α` describes a set of values of one field: a single value, an inclusive range, a list
in order of preference, or every value. `accepts` is the reading of a constraint as a set, and
`inter` computes on descriptions; that the two fit together is the business of the proofs.

Ranges are taken by the order `compare`; membership in a list and equality are by the parts of a
value.
-/

namespace CameraStream

/-- A description of a set of values. -/
inductive Constraint (α : Type) where
  | exactly (value : α)
  /-- Every value between two bounds, both included. -/
  | range (lo hi : α)
  /-- The listed values, the best one first. -/
  | oneOf (values : List α)
  | any
deriving DecidableEq, Repr

namespace Constraint

variable {α : Type}

def inRange [Ord α] (lo hi v : α) : Bool :=
  (compare v lo).isGE && (compare v hi).isLE

def accepts [Ord α] [BEq α] (c : Constraint α) (v : α) : Bool :=
  match c with
  | exactly w => w == v
  | range lo hi => inRange lo hi v
  | oneOf values => values.contains v
  | any => true

/-- The constraint to exactly the given values; no values leave nothing to describe. -/
def ofCandidates? : List α → Option (Constraint α)
  | [] => none
  | [v] => some (exactly v)
  | values => some (oneOf values)

/-- The constraint meant by a list in a request, where naming no value asks for none in
particular. -/
def ofList (values : List α) : Constraint α :=
  (ofCandidates? values).getD any

/-- The values two ranges share. -/
def interRange [Ord α] [BEq α] (lo hi lo' hi' : α) : Option (Constraint α) :=
  let bottom := larger lo lo'
  let top := smaller hi hi'
  if (compare bottom top).isGT then none
  else if bottom == top then some (exactly bottom)
  else some (range bottom top)

/-- The constraint to the values that satisfy both, if there are any. Values of two lists come in
the order of the first. -/
def inter [Ord α] [BEq α] : Constraint α → Constraint α → Option (Constraint α)
  | any, d => some d
  | c, any => some c
  | exactly v, d => if d.accepts v then some (exactly v) else none
  | c, exactly v => if c.accepts v then some (exactly v) else none
  | range lo hi, range lo' hi' => interRange lo hi lo' hi'
  | range lo hi, oneOf values => ofCandidates? (values.filter (inRange lo hi))
  | oneOf values, range lo hi => ofCandidates? (values.filter (inRange lo hi))
  | oneOf values, oneOf others => ofCandidates? (values.filter others.contains)

/-- The value to take where nothing else decides: the first of a list, the least of a range. -/
def preferred? : Constraint α → Option α
  | exactly v => some v
  | range lo _ => some lo
  | oneOf values => values.head?
  | any => none

/-- The last of the largest values of a list. -/
def largestOf? [Ord α] : List α → Option α
  | [] => none
  | v :: rest => some (rest.foldl larger v)

/-- The largest value described, if the constraint has one. -/
def largest? [Ord α] : Constraint α → Option α
  | exactly v => some v
  | range _ hi => some hi
  | oneOf values => largestOf? values
  | any => none

def isExact : Constraint α → Bool
  | exactly _ => true
  | _ => false

def isAny : Constraint α → Bool
  | any => true
  | _ => false

def value? : Constraint α → Option α
  | exactly v => some v
  | _ => none

/-- The values a constraint names one by one. -/
def named : Constraint α → List α
  | exactly v => [v]
  | oneOf values => values
  | _ => []

/-- Ranges stand in brackets, lists in braces, and a star is every value. -/
def text [ToString α] : Constraint α → String
  | exactly v => toString v
  | range lo hi => "[" ++ toString lo ++ ", " ++ toString hi ++ "]"
  | oneOf values => "\x7b" ++ ", ".intercalate (values.map toString) ++ "\x7d"
  | any => "*"

instance [ToString α] : ToString (Constraint α) := ⟨text⟩

end Constraint
end CameraStream
