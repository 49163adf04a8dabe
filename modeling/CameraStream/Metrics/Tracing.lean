/-!
# Span settings

Which spans a pipeline opens around its work, and at which level.
-/

namespace CameraStream

/-- Importance of a span. -/
inductive SpanLevel where
  | info | debug
deriving DecidableEq, Repr

def SpanLevel.text : SpanLevel → String
  | .info => "INFO"
  | .debug => "DEBUG"

/-- Span settings of a pipeline. By default the worker has a span and the single stages do not,
because they run once for every buffer. -/
structure Tracing where
  pipelineSpans : Bool := true
  stageSpans : Bool := false
  level : SpanLevel := .info
deriving DecidableEq, Repr

namespace Tracing

def everything : Tracing := { stageSpans := true, level := .debug }

def minimal : Tracing := {}

def off : Tracing := { pipelineSpans := false }

end Tracing
end CameraStream
