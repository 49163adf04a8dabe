import CameraStream.Pipeline.Basic

/-!
# Configuring a pipeline

A pipeline is configured while it is idle: its source, its sink, its property filter, and what is
requested of it. A refused change leaves everything as it was. A change of what is to be built
drops the chain, and takes the pipeline out of the error status.
-/

namespace CameraStream.Pipeline

variable {ω : Type}

/-- Attaches a source, which has to report something it can produce. -/
def setSource (source : Source ω) : Step ω := fun p =>
  match p.ensureIdle .attachSource with
  | some err => (some err, p)
  | none =>
    let catalog := source.catalog p.world
    if catalog.isEmpty then (some (.negotiation .nothingAvailable), p)
    else
      let p := p.withWorld (source.attach p.status p.world)
      (none, ({ p with attachment := some ⟨source, catalog⟩ }.discard).enter .stopped)

def setSink (sink : Sink ω) : Step ω := fun p =>
  match p.ensureIdle .attachSink with
  | some err => (some err, p)
  | none => (none, ({ p with sink := some sink }.discard).leaveError)

def setFilter (filter : PropertyFilter ω) : Step ω := fun p =>
  match p.ensureIdle .replaceFilter with
  | some err => (some err, p)
  | none => (none, { p with filter })

/-- Requests any format that satisfies one of some alternatives; without alternatives the most
capable format is asked for. -/
def request (s : Alternatives) : Step ω := fun p =>
  match p.ensureIdle .request with
  | some err => (some err, p)
  | none => (none, ({ p with requested := s, requestedFormat := none }.discard).leaveError)

def requestFormat (f : VideoFormat) : Step ω := fun p =>
  match request (.ofFormat f) p with
  | (some err, p) => (some err, p)
  | (none, p) => (none, { p with requestedFormat := some f })

/-- Asks the source to have incomplete frames dropped, or not. -/
def setDropIncomplete (drop : Bool) : Step ω := fun p =>
  match p.attachment with
  | none => (some .noSource, p)
  | some a => (none, p.withWorld (a.source.setDropIncomplete drop p.world))

end CameraStream.Pipeline
