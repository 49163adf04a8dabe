import CameraStream.Catalog.Basic
import CameraStream.Stage.Registry

/-!
# Plans

A `Plan` is what negotiation decides: the format the source produces, the format the sink receives,
and the stages between them with the formats each is bound to. A `NegotiationError` says why there
is no plan.
-/

namespace CameraStream

/-- A stage of a plan and the formats it is bound to. -/
structure PlannedStage where
  name : String
  kind : StageKind
  input : VideoFormat
  output : VideoFormat
deriving DecidableEq, Repr

/-- Both ends of a stream and the stages between them, in order of processing. -/
structure Plan where
  sourceFormat : VideoFormat
  sinkFormat : VideoFormat
  stages : List PlannedStage
deriving DecidableEq, Repr

namespace Plan

def direct (f : VideoFormat) : Plan := ⟨f, f, []⟩

def stageNames (p : Plan) : List String := p.stages.map (·.name)

def isDirect (p : Plan) : Bool := p.stages.all (·.kind.isInterpretation)

def text (p : Plan) : String :=
  " -> ".intercalate (p.sourceFormat.text :: p.stageNames ++ [p.sinkFormat.text])

instance : ToString Plan := ⟨text⟩

end Plan

/-- Why there is no plan. -/
inductive NegotiationError where
  /-- The source reports nothing to negotiate about. -/
  | nothingAvailable
  /-- Neither side's formats reach the other's. -/
  | incompatible (available : Catalog) (requested : Alternatives)
  | stageUnavailable (name : String)
deriving DecidableEq, Repr

def NegotiationError.message : NegotiationError → String
  | .nothingAvailable => "source reports no available formats"
  | .incompatible available requested =>
    "no compatible format:\n  available: " ++ available.text ++ "\n  requested: " ++ requested.text
  | .stageUnavailable name => "stage not available: " ++ name

end CameraStream
