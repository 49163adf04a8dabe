import CameraStream.Negotiation.Plan
import CameraStream.Status

/-!
# Errors

A `StreamError` says why an operation on a stream failed. The wording of every error is in
`StreamError.message` and the functions it uses; elsewhere errors are causes.
-/

namespace CameraStream

/-- What a source or a sink refused. -/
inductive Refusal where
  | format (f : VideoFormat)
  | buffers
  | start
deriving DecidableEq, Repr

def Refusal.text : Refusal → String
  | .format f => "format " ++ f.text
  | .buffers => "sink buffer collection"
  | .start => "start"

/-- An operation that a status forbids. -/
inductive Operation where
  | attachSource | attachSink | replaceFilter | request | build
  | pause | stop | demandStatus
  | transformUnbound | process
  | startUnbuilt | startWorker
deriving DecidableEq, Repr

def Operation.text : Operation → String
  | .attachSource => "set source"
  | .attachSink => "set sink"
  | .replaceFilter => "set property filter"
  | .request => "set video format"
  | .build => "rebuild the pipeline"
  | .pause => "pause"
  | .stop => "stop"
  | .demandStatus => "request this state"
  | .transformUnbound => "transform without format"
  | .process => "process buffers"
  | .startUnbuilt => "start without a chain"
  | .startWorker => "start the worker"

/-- Why an operation on a stream failed. -/
inductive StreamError where
  /-- There is no plan, or it names a stage that is not registered. -/
  | negotiation (e : NegotiationError)
  /-- Two neighbours disagree on the format between them; the downstream one is named. -/
  | formatMismatch (stage : String) (expected actual : VideoFormat)
  | stageFailed (stage : String)
  | sourceRejected (what : Refusal)
  | sinkRejected (what : Refusal)
  | deviceLost (serial : String)
  | noSource
  | noSink
  | invalidState (operation : Operation) (status : Status)
deriving DecidableEq, Repr

def StreamError.message : StreamError → String
  | .negotiation e => "negotiation failed: " ++ e.message
  | .formatMismatch stage expected actual =>
    "format mismatch at '" ++ stage ++ "': expected " ++ expected.text ++ ", got " ++ actual.text
  | .stageFailed stage => "stage '" ++ stage ++ "' failed to activate"
  | .sourceRejected what => "source rejected: " ++ what.text
  | .sinkRejected what => "sink rejected: " ++ what.text
  | .deviceLost serial => "device lost: " ++ serial
  | .noSource => "no source attached"
  | .noSink => "no sink attached"
  | .invalidState operation status => "cannot " ++ operation.text ++ " while " ++ status.text

end CameraStream
