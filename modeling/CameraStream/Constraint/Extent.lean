import CameraStream.Constraint.Basic

/-!
# Constraints on a dimension

A dimension of a frame is constrained by an `Extent`: a constraint on numbers, where a range may
carry a step. With a step above one a range is a grid: its least value and every multiple of the
step above that, up to the largest value. Steps of zero and one leave every value in.

Two grids meet in a grid again. Its first value is found by walking the values of the coarser grid
above both least values until one lies on the other grid; after as many values as the least common
multiple of the steps allows, the residues repeat and there is none to find. From the first common
value on, the common multiples of the steps are exactly the distances that keep both residues.
-/

namespace CameraStream

/-- Whether `v` lies on the grid that starts at `lo`, for a value not below `lo`. -/
def onStep (step lo v : Nat) : Bool := step ≤ 1 || (v - lo) % step == 0

/-- A constraint on a dimension, with the step of its range. -/
structure Extent where
  values : Constraint Nat := .any
  step : Nat := 0
deriving DecidableEq, Repr

namespace Extent

def exactly (n : Nat) : Extent := ⟨.exactly n, 0⟩

def accepts (x : Extent) (v : Nat) : Bool :=
  x.values.accepts v &&
    match x.values with
    | .range lo _ => onStep x.step lo v
    | _ => true

def isConstrained (x : Extent) : Bool := !x.values.isAny

/-! ### Grids -/

/-- The first value of the grid from `lo` that is not below `bottom`, which is not below `lo`. -/
def roundUp (lo stride bottom : Nat) : Nat :=
  bottom + (stride - (bottom - lo) % stride) % stride

/-- The first of `count` values `v`, `v + stride`, … that is at most `hi` and on the grid of `step`
from `lo`. -/
def findOnGrid (step lo hi stride : Nat) : (count : Nat) → (v : Nat) → Option Nat
  | 0, _ => none
  | count + 1, v =>
    if hi < v then none
    else if (v - lo) % step = 0 then some v
    else findOnGrid step lo hi stride count (v + stride)

/-- The grid from `first` on, as far as it stays at or below `top`. -/
def gridUpTo (first top step : Nat) : Extent :=
  let last := top - (top - first) % step
  if first = last then exactly first
  else ⟨.range first last, if 1 < step then step else 0⟩

/-- The first value on both of two grids that is at least `bottom` and at most `top`, found by
walking the values of the first grid. -/
def walkToCommon (lo stride lo' stride' bottom top : Nat) : Option Nat :=
  findOnGrid stride' lo' top stride (stride.lcm stride' / stride) (roundUp lo stride bottom)

/-- The first value on both of two grids that is at least `bottom` and at most `top`. The coarser
grid has fewer values to walk. -/
def firstCommon (lo stride lo' stride' bottom top : Nat) : Option Nat :=
  if stride < stride' then walkToCommon lo' stride' lo stride bottom top
  else walkToCommon lo stride lo' stride' bottom top

/-- The values on both of two grids, described as one grid. -/
def interGrid (lo hi step lo' hi' step' : Nat) : Option Extent :=
  let stride := max step 1
  let stride' := max step' 1
  let bottom := max lo lo'
  let top := min hi hi'
  if top < bottom then none
  else
    (firstCommon lo stride lo' stride' bottom top).map fun first =>
      gridUpTo first top (stride.lcm stride')

/-! ### Both constraints at once -/

/-- The extent of the lengths that satisfy both, if there are any. A range kept whole keeps the
step it came with. -/
def inter (x y : Extent) : Option Extent :=
  match x.values, y.values with
  | .range lo hi, .range lo' hi' => interGrid lo hi x.step lo' hi' y.step
  | .any, d@(.range _ _) => some ⟨d, y.step⟩
  | c@(.range _ _), .any => some ⟨c, x.step⟩
  | c, d =>
    (c.inter d).bind fun both =>
      match both with
      | .exactly v => if x.accepts v && y.accepts v then some (exactly v) else none
      | .oneOf values =>
        (Constraint.ofCandidates? (values.filter fun v => x.accepts v && y.accepts v)).map (⟨·, 0⟩)
      | other => some ⟨other, 0⟩

/-- The largest length on the grid of a range, or the largest otherwise. -/
def largest? (x : Extent) : Option Nat :=
  match x.values with
  | .range lo hi => some (if 1 < x.step then hi - (hi - lo) % x.step else hi)
  | c => c.largest?

end Extent
end CameraStream
