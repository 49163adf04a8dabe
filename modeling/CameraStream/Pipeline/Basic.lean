import CameraStream.Chain
import CameraStream.Metrics.Tracing
import CameraStream.Pipeline.Device
import CameraStream.Queue

/-!
# Pipelines

A `Pipeline` connects one source to one sink by the chain that negotiation planned for them.

    source ──▶ queue ──worker──▶ filter ──▶ chain ──▶ sink
       ▲                                               │
       └──────────────────── requeue ──────────────────┘

This module has its state and the small steps of which everything else is made: changing the
status, delivering and returning a buffer, and telling a part its status. Each takes a pipeline and
gives the pipeline it leaves; those that can fail are a `Step`, which also gives the error.

What belongs together is one field: a source and its catalog are attached together, and a chain
never is without the plan it was built from. The queue holds the status.
-/

namespace CameraStream

structure PipelineConfig where
  /-- Name of the worker, and of the pipeline in metrics. -/
  name : String := "camcore-pipeline"
  /-- How often an idle worker looks at the status, in milliseconds. -/
  wakeMillis : Nat := 500
  policy : Policy := {}
  tracing : Tracing := {}
deriving DecidableEq, Repr

/-- An attached source and what it reported it can produce. -/
structure Attachment (ω : Type) where
  source : Source ω
  catalog : Catalog

/-- A plan and the chain that was built from it. -/
structure Assembly (ω : Type) where
  plan : Plan
  chain : Chain ω

/-- The worker and the buffer in its hands. -/
inductive Worker where
  | absent
  | waiting
  /-- The worker has taken a buffer from the queue. -/
  | fetched (b : Buffer)
  /-- The worker has a buffer that went through the property filter. -/
  | filtered (b : Buffer)
  /-- The worker has a buffer that went through the chain. -/
  | processed (b : Buffer)
  /-- The worker has a buffer that is to go back to the source. -/
  | returning (b : Buffer)
deriving DecidableEq, Repr

/-- One source, one sink, and all that is between them. -/
structure Pipeline (ω : Type) where
  config : PipelineConfig
  registry : Registry (Blueprint ω)
  surroundings : Surroundings ω
  queue : Queue := {}
  attachment : Option (Attachment ω) := none
  sink : Option (Sink ω) := none
  filter : PropertyFilter ω := .idle
  requested : Alternatives := {}
  /-- The format requested, if exactly one was. -/
  requestedFormat : Option VideoFormat := none
  assembly : Option (Assembly ω) := none
  worker : Worker := .absent

/-- A change of a pipeline that can fail: the error, if it did, and the pipeline it leaves. -/
abbrev Step (ω : Type) := Pipeline ω → Option StreamError × Pipeline ω

/-- Steps one after the other, up to the first that fails. -/
def Step.inOrder {ω : Type} : List (Step ω) → Step ω
  | [], p => (none, p)
  | step :: rest, p =>
    match step p with
    | (none, p) => inOrder rest p
    | (some err, p) => (some err, p)

namespace Pipeline

variable {ω : Type}

/-- A pipeline that nothing is attached to. -/
def create (registry : Registry (Blueprint ω)) (config : PipelineConfig) (world : ω) :
    Pipeline ω where
  config
  registry
  surroundings := { world }

/-! ### Looking -/

def status (p : Pipeline ω) : Status := p.queue.status

def world (p : Pipeline ω) : ω := p.surroundings.world

def available (p : Pipeline ω) : Catalog := (p.attachment.map (·.catalog)).getD {}

def plan (p : Pipeline ω) : Option Plan := p.assembly.map (·.plan)

def chain (p : Pipeline ω) : Option (Chain ω) := p.assembly.map (·.chain)

/-- The format the sink receives by the plan, or the one requested while there is no plan. -/
def videoFormat (p : Pipeline ω) : Option VideoFormat :=
  (p.plan.map (·.sinkFormat)).or p.requestedFormat

/-- The chain in one line, empty while there is none. -/
def text (p : Pipeline ω) : String := (p.chain.map (·.text)).getD ""

/-- Whether the source wants incomplete frames dropped. -/
def dropsIncomplete (p : Pipeline ω) : Bool :=
  p.attachment.any fun a => a.source.dropsIncomplete p.world

/-- What was counted, together with the number of waiting buffers. -/
def metrics (p : Pipeline ω) : Counters := p.surroundings.counters.showDepth p.queue.depth

/-- Diagnostic text of the place that producers deliver to. -/
def inspectHandle (p : Pipeline ω) : String :=
  "PipelineHandle \x7b name: " ++ Text.quoted p.config.name ++ ", status: " ++ p.status.inspect
    ++ " \x7d"

/-! ### Small changes -/

def enter (p : Pipeline ω) (s : Status) : Pipeline ω := { p with queue := p.queue.setStatus s }

def withWorld (p : Pipeline ω) (w : ω) : Pipeline ω :=
  { p with surroundings := { p.surroundings with world := w } }

def count (p : Pipeline ω) (m : Metric) : Pipeline ω :=
  { p with surroundings := { p.surroundings with counters := p.surroundings.counters.count m } }

def discard (p : Pipeline ω) : Pipeline ω := { p with assembly := none }

/-- Leaves the error status behind after a change of what is to be built. -/
def leaveError (p : Pipeline ω) : Pipeline ω :=
  if p.status = .error then p.enter .stopped else p

/-- Fails while the pipeline is active. -/
def ensureIdle (p : Pipeline ω) (operation : Operation) : Option StreamError :=
  if p.status.isActive then some (.invalidState operation p.status) else none

/-! ### Buffers -/

/-- Delivers a buffer to the queue, on behalf of any producer, and gives it back if the pipeline is
not active. Either is counted. -/
def deliver (p : Pipeline ω) (b : Buffer) : Option Buffer × Pipeline ω :=
  match p.queue.push b with
  | (none, queue) => (none, { p with queue }.count (.pushed p.config.name))
  | (some back, queue) => (some back, { p with queue }.count (.dropped p.config.name .stopped))

/-- Gives a buffer to the source, if one is attached. -/
def requeue (p : Pipeline ω) (b : Buffer) : Pipeline ω :=
  match p.attachment with
  | some a => p.withWorld (a.source.requeue b p.world)
  | none => p

/-- Gives buffers to the source in order. -/
def requeueAll (p : Pipeline ω) (bs : List Buffer) : Pipeline ω := bs.foldl requeue p

/-- Delivers a buffer on behalf of the source, which gets it back if it is not accepted. -/
def pushImage (p : Pipeline ω) (b : Buffer) : Pipeline ω :=
  match p.deliver b with
  | (none, p) => p
  | (some back, p) => p.requeue back

/-! ### Telling the parts their status -/

/-- Delivers a buffer that a source has in its own hands, and tells it what became of it. -/
def deliverFrom (source : Source ω) (p : Pipeline ω) (b : Buffer) : Pipeline ω :=
  match p.deliver b with
  | (back, p) => p.withWorld (source.delivered b back.isNone p.world)

/-- Tells the source its status; tells whether it agreed. -/
def commandSource (p : Pipeline ω) (s : Status) : Bool × Pipeline ω :=
  match p.attachment with
  | none => (true, p)
  | some a =>
    let (agreed, given, w) := a.source.setStatus s p.world
    (agreed, given.foldl (deliverFrom a.source) (p.withWorld w))

/-- Tells the sink its status; tells whether it agreed. -/
def commandSink (p : Pipeline ω) (s : Status) : Bool × Pipeline ω :=
  match p.sink with
  | none => (true, p)
  | some k =>
    let (agreed, w) := k.setStatus s p.world
    (agreed, p.withWorld w)

def commandFilter (p : Pipeline ω) (s : Status) : Bool × Pipeline ω :=
  let (agreed, w) := p.filter.setStatus s p.world
  (agreed, p.withWorld w)

def commandChain (p : Pipeline ω) (s : Status) : Option StreamError × Pipeline ω :=
  match p.assembly with
  | none => (none, p)
  | some a =>
    let (err, chain, w) := a.chain.setStatus s p.world
    (err, { p with assembly := some { a with chain } }.withWorld w)

end Pipeline
end CameraStream
