import CameraStream.Pipeline.Build
import CameraStream.Pipeline.Worker

/-!
# The life of a pipeline

Starting tells the sink, the source, the stages and the property filter to play, in this order, and
then begins the work on buffers. If one of them refuses, everything is stopped again and the
refusal is the error. Stopping tells all of them, whatever they answer, waits for the worker, and
gives the waiting buffers to the source.

Pausing stops the work alone: parts stay active, and buffers are still accepted.
-/

namespace CameraStream.Pipeline

variable {ω : Type}

/-! ### Stopping -/

def returnWaiting (p : Pipeline ω) : Pipeline ω :=
  let (waiting, queue) := p.queue.drain
  { p with queue }.requeueAll waiting

/-- The order in which everything stops. -/
def deactivation : List (Pipeline ω → Pipeline ω) :=
  [(·.enter .stopped), fun p => (p.commandSource .stopped).2, fun p => (p.commandChain .stopped).2,
    fun p => (p.commandSink .stopped).2, fun p => (p.commandFilter .stopped).2, joinWorker,
    returnWaiting]

/-- Stops every part and the work on buffers. -/
def halt (p : Pipeline ω) : Pipeline ω := deactivation.foldl (fun p stop => stop p) p

/-! ### Starting -/

/-- Fails unless source, sink and chain are there. -/
def requireParts : Step ω := fun p =>
  (if p.attachment.isNone then some .noSource
   else if p.sink.isNone then some .noSink
   else if p.assembly.isNone then some (.invalidState .startUnbuilt p.status)
   else none, p)

def startSink : Step ω := fun p =>
  let (agreed, p) := p.commandSink .playing
  (if agreed then none else some (.sinkRejected .start), p)

def startSource : Step ω := fun p =>
  let (agreed, p) := p.commandSource .playing
  (if agreed then none else some (.sourceRejected .start), p)

def startChain : Step ω := fun p => p.commandChain .playing

def startFilter : Step ω := fun p =>
  let (agreed, p) := p.commandFilter .playing
  (if agreed then none else some (.stageFailed "property-filter"), p)

def startWorker : Step ω := fun p =>
  if p.attachment.isSome && p.sink.isSome && p.assembly.isSome then
    (none, { p with worker := .waiting })
  else (some (.invalidState .startWorker p.status), p)

/-- The order in which everything starts. -/
def activation : List (Step ω) :=
  [requireParts, startSink, startSource, startChain, startFilter, startWorker]

/-- Plays by some steps, or stops again if one of them fails. The status is playing from the
beginning, since producers may deliver as soon as the source has started. -/
def playBy (steps : List (Step ω)) : Step ω := fun p =>
  match Step.inOrder steps (p.enter .playing) with
  | (none, p) => (none, p)
  | (some err, p) => (some err, p.halt)

def start : Step ω := playBy activation

/-! ### Pausing -/

/-- Ends the work on buffers; parts stay active. -/
def pause (p : Pipeline ω) : Pipeline ω := (p.enter .paused).joinWorker

def resume : Step ω := playBy [startWorker]

/-! ### Requests for a status -/

/-- Plays: from a pause at once, otherwise by building the chain anew. -/
def play : Step ω := fun p =>
  if p.status = .paused then resume p else Step.inOrder [build, start] p

/-- Stops what is active. The error status is not left by stopping. -/
def stop : Step ω := fun p =>
  if p.status.isActive then (none, p.halt)
  else if p.status = .error then (some (.invalidState .stop p.status), p)
  else if p.attachment.isSome then (none, p.enter .stopped)
  else (some .noSource, p)

/-- Takes the pipeline to a status. The status it is in already needs nothing; two can be reached
only as a consequence of something else. -/
def setStatus (target : Status) : Step ω := fun p =>
  if p.status = target then (none, p)
  else
    match target with
    | .playing => play p
    | .paused =>
      if p.status = .playing then (none, p.pause)
      else (some (.invalidState .pause p.status), p)
    | .stopped => stop p
    | .undefined | .error => (some (.invalidState .demandStatus p.status), p)

/-! ### The end -/

def haltIfActive (p : Pipeline ω) : Pipeline ω := if p.status.isActive then p.halt else p

/-- Stops, and lets go of source, sink and chain. -/
def destroy (p : Pipeline ω) : Pipeline ω :=
  { p.haltIfActive.discard with attachment := none, sink := none }.enter .undefined

/-- Stops for good; producers that still deliver are refused. -/
def close (p : Pipeline ω) : Pipeline ω := p.haltIfActive.enter .undefined

end CameraStream.Pipeline
