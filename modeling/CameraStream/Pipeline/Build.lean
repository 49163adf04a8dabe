import CameraStream.Pipeline.Basic

/-!
# Building the chain

Building negotiates a plan, configures source, sink and property filter for it, and makes the chain
real. Whatever refuses on the way, the pipeline is then in the error status, without a chain. No
part is told a status.
-/

namespace CameraStream.Pipeline

variable {ω : Type}

def configureSource (plan : Plan) : Step ω := fun p =>
  match p.attachment with
  | none => (none, p)
  | some a =>
    let (agreed, w) := a.source.setFormat plan.sourceFormat p.world
    (if agreed then none else some (.sourceRejected (.format plan.sourceFormat)), p.withWorld w)

/-- Offers the pool of the sink to the source, if the sink has one. -/
def offerPool : Step ω := fun p =>
  match p.attachment, p.sink.bind fun k => k.pool? p.world with
  | some a, some pool =>
    let (agreed, w) := a.source.adoptPool pool p.world
    (if agreed then none else some (.sourceRejected .buffers), p.withWorld w)
  | _, _ => (none, p)

def configureSink (plan : Plan) : Step ω := fun p =>
  match p.sink with
  | none => (none, p)
  | some k =>
    let (agreed, w) := k.setFormat plan.sinkFormat p.world
    (if agreed then none else some (.sinkRejected (.format plan.sinkFormat)), p.withWorld w)

/-- Configures the property filter, which sees frames as the source makes them. -/
def configureFilter (plan : Plan) : Step ω := fun p =>
  let (agreed, w) := p.filter.setFormat plan.sourceFormat plan.sourceFormat p.world
  (if agreed then none else some (.stageFailed "property-filter"), p.withWorld w)

/-- Builds the chain of a plan, and takes it if formats continue through it from what the source
says it produces. -/
def assemble (plan : Plan) (actual : VideoFormat) : Step ω := fun p =>
  match Chain.build plan p.registry p.world with
  | (.error err, w) => (some err, p.withWorld w)
  | (.ok chain, w) =>
    match chain.validate w actual plan.sinkFormat with
    | .error err => (some err, p.withWorld w)
    | .ok () => (none, { p with assembly := some ⟨plan, chain⟩ }.withWorld w)

/-- The format the source says it produces, or the planned one if it does not say. -/
def actualFormat (p : Pipeline ω) (plan : Plan) : VideoFormat :=
  (p.attachment.bind fun a => a.source.format? p.world).getD plan.sourceFormat

def realize (plan : Plan) : Step ω := fun p =>
  match Step.inOrder [configureSource plan, offerPool] p with
  | (some err, p) => (some err, p)
  | (none, p) =>
    Step.inOrder [configureSink plan, configureFilter plan, assemble plan (p.actualFormat plan)] p

/-- Negotiates a plan and makes it real. -/
def negotiateAndRealize : Step ω := fun p =>
  let planned := negotiate p.registry p.config.policy p.available p.requested
  let counters := p.surroundings.counters.countNegotiation planned
  let p := { p with surroundings := { p.surroundings with counters } }
  match planned with
  | .error err => (some (.negotiation err), p)
  | .ok plan => realize plan p

def build : Step ω := fun p =>
  match p.ensureIdle .build with
  | some err => (some err, p)
  | none =>
    if p.attachment.isNone then (some .noSource, p)
    else if p.sink.isNone then (some .noSink, p)
    else
      match negotiateAndRealize p.discard with
      | (none, p) => (none, p)
      | (some err, p) => (some err, p.enter .error)

end CameraStream.Pipeline
