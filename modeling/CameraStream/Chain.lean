import CameraStream.Negotiation.Negotiate
import CameraStream.Stage.Instance

/-!
# Chains

A `Chain` is a plan made real: a stage for every planned one, bound to its formats, in order of
processing. It owns its stages. Building stops at the first stage that is missing or refuses its
formats; `validate` then walks the formats from one end to the other and names the first place
where two neighbours disagree.

A change to an active status stops at the first stage that refuses, a change to an inactive one
reaches every stage.
-/

namespace CameraStream

/-- The stages between source and sink, at work. -/
structure Chain (ω : Type) where
  stages : List (Stage ω)
  sourceFormat : VideoFormat
  sinkFormat : VideoFormat
  status : Status := .stopped

namespace Chain

variable {ω : Type}

/-! ### Building -/

/-- Makes and binds planned stages in order. -/
def makeStages (r : Registry (Blueprint ω)) :
    List PlannedStage → ω → Except StreamError (List (Stage ω)) × ω
  | [], w => (.ok [], w)
  | planned :: rest, w =>
    match r.blueprint? planned.name with
    | none => (.error (.negotiation (.stageUnavailable planned.name)), w)
    | some blueprint =>
      let (stage, w) := blueprint.make w
      let (agreed, stage, w) := stage.bind planned.input planned.output w
      if agreed then
        let (others, w) := makeStages r rest w
        (others.map (stage :: ·), w)
      else (.error (.stageFailed planned.name), w)

/-- Makes a plan real. -/
def build (plan : Plan) (r : Registry (Blueprint ω)) (w : ω) : Except StreamError (Chain ω) × ω :=
  let (stages, w) := makeStages r plan.stages w
  (stages.map fun stages =>
    { stages, sourceFormat := plan.sourceFormat, sinkFormat := plan.sinkFormat }, w)

/-! ### Checking -/

/-- Walks the stages with the format that reaches them, and ends at the sink. -/
def walk (w : ω) (sink : VideoFormat) : VideoFormat → List (Stage ω) → Except StreamError Unit
  | running, [] =>
    if running = sink then .ok () else .error (.formatMismatch "sink" sink running)
  | running, s :: rest =>
    match s.formats w with
    | none => .error (.stageFailed s.name)
    | some (input, output) =>
      if input = running then walk w sink output rest
      else .error (.formatMismatch s.name running input)

/-- Checks that formats continue from a source format through every stage to a sink format. -/
def validate (c : Chain ω) (w : ω) (source sink : VideoFormat) : Except StreamError Unit :=
  walk w sink source c.stages

/-! ### Status -/

/-- Tells stages their status up to the first that refuses, whose name is given. -/
def commandUntilRefusal (t : Status) : List (Stage ω) → ω → Option String × List (Stage ω) × ω
  | [], w => (none, [], w)
  | s :: rest, w =>
    let (agreed, s, w) := s.setStatus t w
    if agreed then
      let (refuser, rest, w) := commandUntilRefusal t rest w
      (refuser, s :: rest, w)
    else (some s.name, s :: rest, w)

/-- Tells every stage its status, whether it agrees or not. -/
def commandAll (t : Status) : List (Stage ω) → ω → List (Stage ω) × ω
  | [], w => ([], w)
  | s :: rest, w =>
    let (_, s, w) := s.setStatus t w
    let (rest, w) := commandAll t rest w
    (s :: rest, w)

/-- Changes the status of all stages; the error names the stage that refused, if one did. -/
def setStatus (c : Chain ω) (t : Status) (w : ω) : Option StreamError × Chain ω × ω :=
  if t.isActive then
    match commandUntilRefusal t c.stages w with
    | (none, stages, w) => (none, { c with stages, status := t }, w)
    | (some name, stages, w) => (some (.stageFailed name), { c with stages }, w)
  else
    let (stages, w) := commandAll t c.stages w
    (none, { c with stages, status := t }, w)

/-! ### Processing -/

/-- What is left behind after a frame went through stages. -/
structure Result (ω : Type) where
  error : Option StreamError
  frame : Frame
  stages : List (Stage ω)
  surroundings : Surroundings ω

/-- Sends a frame through stages until one fails. The time of every stage that did not is
counted. -/
def run : List (Stage ω) → Frame → Surroundings ω → Result ω
  | [], f, e => ⟨none, f, [], e⟩
  | s :: rest, f, e =>
    let done := s.transform f e
    match done.error with
    | some err => ⟨some err, done.frame, done.stage :: rest, done.surroundings⟩
    | none =>
      let e := { done.surroundings with
        counters := done.surroundings.counters.count (.stageTime s.name) }
      let others := run rest done.frame e
      { others with stages := done.stage :: others.stages }

/-- Sends a frame through the chain, which has to be active. -/
def process (c : Chain ω) (f : Frame) (e : Surroundings ω) : Result ω :=
  if c.status.isActive then run c.stages f e
  else ⟨some (.invalidState .process c.status), f, c.stages, e⟩

/-! ### Text -/

def stageNames (c : Chain ω) : List String := c.stages.map (·.name)

/-- Source, stages and sink, separated by exclamation marks. -/
def text (c : Chain ω) : String :=
  " ! ".intercalate
    (("source(" ++ c.sourceFormat.text ++ ")") :: c.stageNames ++
      ["sink(" ++ c.sinkFormat.text ++ ")"])

def inspect (c : Chain ω) : String :=
  "FilterChain \x7b stages: " ++ Text.quotedList c.stageNames
    ++ ", source_format: " ++ c.sourceFormat.inspect
    ++ ", sink_format: " ++ c.sinkFormat.inspect
    ++ ", state: " ++ c.status.inspect ++ " \x7d"

end Chain
end CameraStream
