import CameraStream.Constraint.Alternatives

/-!
# Resolutions

A device reports sizes one by one, or as a grid between a least and a largest size. Either comes
with the frame rates that go with it.

`Resolution.constraints` turns a report into alternatives. A grid becomes its least size, the
standard sizes on the grid, its largest size, and last the grid itself: a consumer without a wish
of its own then meets common sizes before odd ones. The largest size is taken as it was reported,
also where the steps from the least size miss it.
-/

namespace CameraStream

/-- Sizes that consumers commonly ask for. -/
def standardSizes : List FrameSize :=
  [⟨128, 96⟩, ⟨320, 240⟩, ⟨352, 288⟩, ⟨360, 280⟩, ⟨544, 480⟩, ⟨576, 480⟩, ⟨640, 480⟩, ⟨720, 480⟩,
    ⟨720, 576⟩, ⟨800, 600⟩, ⟨1024, 768⟩, ⟨1280, 720⟩, ⟨1280, 960⟩, ⟨1280, 1024⟩, ⟨1440, 1080⟩,
    ⟨1600, 1200⟩, ⟨1920, 1080⟩, ⟨1920, 1200⟩, ⟨2048, 1536⟩, ⟨2560, 1440⟩, ⟨3840, 2160⟩,
    ⟨4096, 3072⟩]

inductive Sizes where
  | single (size : FrameSize)
  /-- Every size from `lo` to `hi` that lies on both step grids. -/
  | grid (lo hi : FrameSize) (widthStep heightStep : Nat)
deriving DecidableEq, Repr

namespace Sizes

/-- Whether a length lies between two bounds and on the grid of the lower one. -/
def onGrid (lo hi step v : Nat) : Bool := lo ≤ v && v ≤ hi && onStep step lo v

def contains : Sizes → FrameSize → Bool
  | single s, t => s == t
  | grid lo hi widthStep heightStep, t =>
    onGrid lo.width hi.width widthStep t.width && onGrid lo.height hi.height heightStep t.height

/-- The largest size reported. -/
def largest : Sizes → FrameSize
  | single s => s
  | grid _ hi _ _ => hi

/-- The sizes worth naming one by one, in the order they are offered. -/
def landmarks : Sizes → List FrameSize
  | single s => [s]
  | x@(grid lo hi _ _) =>
    lo :: standardSizes.filter (fun s => s != lo && s != hi && x.contains s) ++
      if hi == lo then [] else [hi]

end Sizes

/-- Frame sizes and the rates they come with. -/
structure Resolution where
  sizes : Sizes
  rates : Constraint FrameRate
deriving DecidableEq, Repr

namespace Resolution

def contains (r : Resolution) (s : FrameSize) : Bool := r.sizes.contains s

/-- The rates at a size, if the size can be produced. -/
def ratesAt? (r : Resolution) (s : FrameSize) : Option (Constraint FrameRate) :=
  if r.contains s then some r.rates else none

def supports (r : Resolution) (s : FrameSize) (rate : FrameRate) : Bool :=
  r.contains s && r.rates.accepts rate

/-- The largest size at its largest rate, in an encoding. -/
def largestFormat? (r : Resolution) (e : Encoding) : Option VideoFormat :=
  r.rates.largest?.map fun rate => ⟨e, r.sizes.largest, rate⟩

/-- The alternatives that a report stands for, in an encoding. -/
def constraints (r : Resolution) (e : Encoding) : List FormatConstraint :=
  let one (s : FrameSize) : FormatConstraint :=
    { encoding := .exactly e, width := .exactly s.width, height := .exactly s.height,
      rate := r.rates }
  r.sizes.landmarks.map one ++
    match r.sizes with
    | .single _ => []
    | .grid lo hi widthStep heightStep =>
      [{ encoding := .exactly e, width := ⟨.range lo.width hi.width, widthStep⟩,
         height := ⟨.range lo.height hi.height, heightStep⟩, rate := r.rates }]

def text (r : Resolution) : String :=
  match r.sizes with
  | .single s => s!"{s} @ {r.rates}"
  | .grid lo hi widthStep heightStep =>
    s!"{lo} - {hi} (step {widthStep}x{heightStep}) @ {r.rates}"

instance : ToString Resolution := ⟨text⟩

end Resolution
end CameraStream
