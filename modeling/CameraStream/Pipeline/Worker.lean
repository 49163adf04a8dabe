import CameraStream.Pipeline.Basic

/-!
# The worker

A playing pipeline has a worker that takes buffers from the queue one at a time. Its work on a
buffer is cut into five steps, between which anything else may happen to the pipeline: `fetch`
takes the buffer, `applyFilter` shows it to the property filter, `process` sends it through the
chain, `handToSink` hands it to the sink, and `giveBack` gives it to the source. A step does nothing
unless the worker has come to it.

A buffer leaves the worker's hands in one of five ways: an incomplete frame is dropped when the
source wants that, a buffer that finds the chain inactive is dropped, so is one that a stage fails
on, the sink keeps it, or the sink hands it back. In all but one of them it goes to the source.
-/

namespace CameraStream.Pipeline

variable {ω : Type}

/-- Waits for the next buffer; the work on the last one is over and its time counted. -/
def wait (p : Pipeline ω) : Pipeline ω :=
  { p with worker := .waiting }.count (.dispatchTime p.config.name)

/-- Drops a buffer for a reason: it is to go back to the source. -/
def drop (p : Pipeline ω) (reason : DropReason) (b : Buffer) : Pipeline ω :=
  { p with worker := .returning b }.count (.dropped p.config.name reason)

/-- Takes the oldest buffer, if the pipeline is playing and the worker's hands are empty. -/
def fetch (p : Pipeline ω) : Pipeline ω :=
  match p.worker, p.queue.pop with
  | .waiting, (.buffer b, queue) => { p with queue, worker := .fetched b }
  | _, _ => p

/-- Shows a fetched buffer to the property filter, unless it is to be dropped as incomplete. -/
def applyFilter (p : Pipeline ω) : Pipeline ω :=
  match p.worker with
  | .fetched b =>
    if b.info.damaged && p.dropsIncomplete then p.drop .damaged b
    else
      let (f, w) := p.filter.apply b.toFrame p.world
      { p with worker := .filtered (b.withFrame f) }.withWorld w
  | _ => p

/-- Sends a filtered buffer through the chain, which has to be active. -/
def process (p : Pipeline ω) : Pipeline ω :=
  match p.worker, p.assembly with
  | .filtered b, some a =>
    if a.chain.status.isActive then
      let done := a.chain.process b.toFrame p.surroundings
      let p := { p with
        assembly := some { a with chain := { a.chain with stages := done.stages } }
        surroundings := done.surroundings }
      match done.error with
      | some _ => p.drop .failed (b.withFrame done.frame)
      | none => { p with worker := .processed (b.withFrame done.frame) }
    else p.drop .stopped b
  | .filtered b, none => p.drop .stopped b
  | _, _ => p

/-- Hands a processed buffer to the sink, which may hand it back. -/
def handToSink (p : Pipeline ω) : Pipeline ω :=
  match p.worker, p.sink with
  | .processed b, some k =>
    let (back, w) := k.push b p.world
    let p := (p.withWorld w).count (.delivered p.config.name)
    match back with
    | none => p.wait
    | some f => { p with worker := .returning (b.withFrame f) }
  | .processed _, none => p.wait
  | _, _ => p

/-- Gives a buffer that was dropped or handed back to the source. -/
def giveBack (p : Pipeline ω) : Pipeline ω :=
  match p.worker with
  | .returning b => (p.requeue b).wait
  | _ => p

/-- The rest of the work on a buffer that the property filter has seen or was not to see. -/
def finish (p : Pipeline ω) : Pipeline ω := p.process.handToSink.giveBack

/-- The end of the worker: what it has in its hands is finished first. -/
def joinWorker (p : Pipeline ω) : Pipeline ω := { p.applyFilter.finish with worker := .absent }

end CameraStream.Pipeline
