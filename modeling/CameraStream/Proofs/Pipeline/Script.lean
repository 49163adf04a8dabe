import CameraStream.Pipeline.Configure
import CameraStream.Proofs.Pipeline.Move

/-!
# Calls, cut into deeds

A `Call` is an operation that somebody asks of a pipeline. While it runs the pipeline goes on moving,
so a call is not one change of state. Its `Script` says what it is made of: `Deed`s, which are
done at once, and looks at the pipeline that decide what to do next. Between any two of them there
is room for moves.

Without moves in between, a script does what the operation does (`run_script`).
-/

namespace CameraStream.Pipeline

variable {ω : Type}

/-! ### Deeds -/

/-- What control does at once. -/
inductive Deed (ω : Type) where
  | enter (s : Status)
  | tellSource (s : Status) | tellSink (s : Status) | tellStages (s : Status)
  | tellFilter (s : Status)
  | requireParts | startWorker | joinWorker | returnWaiting
  | discard
  | countNegotiation (planned : Except NegotiationError Plan)
  | configureSource (plan : Plan) | offerPool | configureSink (plan : Plan)
  | configureFilter (plan : Plan) | assemble (plan : Plan) (actual : VideoFormat)
  | setSource (source : Source ω) | setSink (sink : Sink ω) | setFilter (filter : PropertyFilter ω)
  | request (s : Alternatives) | requestFormat (f : VideoFormat)
  | setDropIncomplete (drop : Bool) | requeue (b : Buffer)
  /-- Lets go of source, sink and chain. -/
  | letGo

namespace Deed

def step : Deed ω → Step ω
  | enter s, p => (none, p.enter s)
  | tellSource s, p =>
    let (agreed, p) := p.commandSource s
    (if agreed then none else some (.sourceRejected .start), p)
  | tellSink s, p =>
    let (agreed, p) := p.commandSink s
    (if agreed then none else some (.sinkRejected .start), p)
  | tellStages s, p => p.commandChain s
  | tellFilter s, p =>
    let (agreed, p) := p.commandFilter s
    (if agreed then none else some (.stageFailed "property-filter"), p)
  | requireParts, p => Pipeline.requireParts p
  | startWorker, p => Pipeline.startWorker p
  | joinWorker, p => (none, p.joinWorker)
  | returnWaiting, p => (none, p.returnWaiting)
  | discard, p => (none, p.discard)
  | countNegotiation planned, p =>
    (none, { p with surroundings := { p.surroundings with
      counters := p.surroundings.counters.countNegotiation planned } })
  | configureSource plan, p => Pipeline.configureSource plan p
  | offerPool, p => Pipeline.offerPool p
  | configureSink plan, p => Pipeline.configureSink plan p
  | configureFilter plan, p => Pipeline.configureFilter plan p
  | assemble plan actual, p => Pipeline.assemble plan actual p
  | setSource source, p => Pipeline.setSource source p
  | setSink sink, p => Pipeline.setSink sink p
  | setFilter filter, p => Pipeline.setFilter filter p
  | request s, p => Pipeline.request s p
  | requestFormat f, p => Pipeline.requestFormat f p
  | setDropIncomplete drop, p => Pipeline.setDropIncomplete drop p
  | requeue b, p => (none, p.requeue b)
  | letGo, p => (none, { p.discard with attachment := none, sink := none }.enter .undefined)

end Deed

/-- The answers of the stages that a command reaches, in order. A command to an active status ends
at the first refusal. -/
def stageAnswers (t : Status) : List (Stage ω) → ω → List Bool
  | [], _ => []
  | s :: rest, w =>
    let (agreed, _, w) := s.setStatus t w
    if t.isActive && !agreed then [false] else agreed :: stageAnswers t rest w

namespace Deed

/-- What is seen of a deed. -/
def seen : Deed ω → Pipeline ω → List Event
  | tellSource s, p =>
    match p.attachment with
    | none => []
    | some a =>
      let (agreed, given, _) := a.source.setStatus s p.world
      .told .source s agreed :: given.map p.pushEvent
  | tellSink s, p =>
    match p.sink with
    | none => []
    | some k => [.told .sink s (k.setStatus s p.world).1]
  | tellStages s, p =>
    match p.assembly with
    | none => []
    | some a => [.toldStages s (stageAnswers s a.chain.stages p.world)]
  | tellFilter s, p => [.told .filter s (p.filter.setStatus s p.world).1]
  | joinWorker, p => (Moment.moves ⟨p, []⟩ Move.work).history
  | returnWaiting, p =>
    match p.attachment with
    | none => []
    | some _ => p.queue.buffers.map .requeued
  | configureSink plan, p =>
    match p.sink with
    | none => []
    | some k => [.announced plan.sinkFormat (k.setFormat plan.sinkFormat p.world).1]
  | assemble plan actual, p =>
    if (Pipeline.assemble plan actual p).1 = none then [.assembled plan] else []
  | setSource source, p =>
    if (Pipeline.setSource source p).1 = none then [.attached .source] else []
  | setSink sink, p => if (Pipeline.setSink sink p).1 = none then [.attached .sink] else []
  | setFilter filter, p => if (Pipeline.setFilter filter p).1 = none then [.attached .filter] else []
  | requeue b, p =>
    match p.attachment with
    | none => []
    | some _ => [.returned b]
  | enter _, _ | requireParts, _ | startWorker, _ | discard, _ | countNegotiation _, _
  | configureSource _, _ | offerPool, _ | configureFilter _, _ | request _, _ | requestFormat _, _
  | setDropIncomplete _, _ | letGo, _ => []

end Deed

/-! What deeds can change and let be seen. -/

namespace Deed

/-- Deeds that only deal with the parts around a pipeline. -/
def isOutward : Deed ω → Bool
  | tellSink _ | tellFilter _ | requireParts | countNegotiation _ | configureSource _ | offerPool
  | configureSink _ | configureFilter _ | setDropIncomplete _ | requeue _ => true
  | enter _ | tellSource _ | tellStages _ | startWorker | joinWorker | returnWaiting | discard
  | assemble _ _ | setSource _ | setSink _ | setFilter _ | request _ | requestFormat _
  | letGo => false

theorem exists_surroundings {d : Deed ω} (h : d.isOutward) (p : Pipeline ω) :
    ∃ surroundings, (d.step p).2 = { p with surroundings } := by
  cases d with
  | tellFilter _ | requireParts | countNegotiation _ | configureFilter _ => exact ⟨_, rfl⟩
  | tellSink s =>
    simp only [step, commandSink]
    split
    · exact ⟨_, rfl⟩
    · exact ⟨_, rfl⟩
  | configureSource plan =>
    simp only [step, Pipeline.configureSource]
    split
    · exact ⟨_, rfl⟩
    · exact ⟨_, rfl⟩
  | offerPool =>
    simp only [step, Pipeline.offerPool]
    split
    · exact ⟨_, rfl⟩
    · exact ⟨_, rfl⟩
  | configureSink plan =>
    simp only [step, Pipeline.configureSink]
    split
    · exact ⟨_, rfl⟩
    · exact ⟨_, rfl⟩
  | setDropIncomplete drop =>
    simp only [step, Pipeline.setDropIncomplete]
    split
    · exact ⟨_, rfl⟩
    · exact ⟨_, rfl⟩
  | requeue b =>
    simp only [step, Pipeline.requeue]
    split
    · exact ⟨_, rfl⟩
    · exact ⟨_, rfl⟩
  | enter _ | tellSource _ | tellStages _ | startWorker | joinWorker | returnWaiting | discard
  | assemble _ _ | setSource _ | setSink _ | setFilter _ | request _ | requestFormat _ | letGo =>
    cases h

/-- What a deed can let be seen. -/
inductive Lets : Deed ω → Event → Prop
  | toldSource (s : Status) (agreed : Bool) : Lets (tellSource s) (.told .source s agreed)
  | given (s : Status) (b : Buffer) (sourced : Bool) (o : Outcome) :
      Lets (tellSource s) (.pushed b sourced o)
  | toldSink (s : Status) (agreed : Bool) : Lets (tellSink s) (.told .sink s agreed)
  | toldStages (s : Status) (answers : List Bool) : Lets (tellStages s) (.toldStages s answers)
  | toldFilter (s : Status) (agreed : Bool) : Lets (tellFilter s) (.told .filter s agreed)
  | worked {m : Move ω} {q : Pipeline ω} {e : Event} (mem : e ∈ m.seen q) : Lets joinWorker e
  | cleared (b : Buffer) : Lets returnWaiting (.requeued b)
  | announced (plan : Plan) (agreed : Bool) :
      Lets (configureSink plan) (.announced plan.sinkFormat agreed)
  | assembled (plan : Plan) (actual : VideoFormat) : Lets (assemble plan actual) (.assembled plan)
  | attachedSource (source : Source ω) : Lets (setSource source) (.attached .source)
  | attachedSink (sink : Sink ω) : Lets (setSink sink) (.attached .sink)
  | attachedFilter (filter : PropertyFilter ω) : Lets (setFilter filter) (.attached .filter)
  | returned (b : Buffer) : Lets (requeue b) (.returned b)

theorem lets_of_mem_seen {d : Deed ω} {p : Pipeline ω} {e : Event} (h : e ∈ d.seen p) : d.Lets e := by
  cases d with
  | tellSource s =>
    simp only [seen] at h
    split at h
    · cases h
    · rcases List.mem_cons.mp h with rfl | h
      · exact .toldSource s _
      · obtain ⟨b, -, rfl⟩ := List.mem_map.mp h
        exact .given s b _ _
  | tellSink s =>
    simp only [seen] at h
    split at h
    · cases h
    · obtain rfl := List.mem_singleton.mp h
      exact .toldSink s _
  | tellStages s =>
    simp only [seen] at h
    split at h
    · cases h
    · obtain rfl := List.mem_singleton.mp h
      exact .toldStages s _
  | tellFilter s =>
    obtain rfl := List.mem_singleton.mp h
    exact .toldFilter s _
  | joinWorker =>
    simp only [seen, Moment.moves, Move.work, List.foldl_cons, List.foldl_nil, Moment.move,
      List.mem_append, List.not_mem_nil, false_or, or_assoc] at h
    rcases h with h | h | h | h
    all_goals exact .worked h
  | returnWaiting =>
    simp only [seen] at h
    split at h
    · cases h
    · obtain ⟨b, -, rfl⟩ := List.mem_map.mp h
      exact .cleared b
  | configureSink plan =>
    simp only [seen] at h
    split at h
    · cases h
    · obtain rfl := List.mem_singleton.mp h
      exact .announced plan _
  | assemble plan actual =>
    simp only [seen] at h
    split at h
    · obtain rfl := List.mem_singleton.mp h
      exact .assembled plan actual
    · cases h
  | setSource source =>
    simp only [seen] at h
    split at h
    · obtain rfl := List.mem_singleton.mp h
      exact .attachedSource source
    · cases h
  | setSink sink =>
    simp only [seen] at h
    split at h
    · obtain rfl := List.mem_singleton.mp h
      exact .attachedSink sink
    · cases h
  | setFilter filter =>
    simp only [seen] at h
    split at h
    · obtain rfl := List.mem_singleton.mp h
      exact .attachedFilter filter
    · cases h
  | requeue b =>
    simp only [seen] at h
    split at h
    · cases h
    · obtain rfl := List.mem_singleton.mp h
      exact .returned b
  | enter _ | requireParts | startWorker | discard | countNegotiation _ | configureSource _ | offerPool
  | configureFilter _ | request _ | requestFormat _ | setDropIncomplete _ | letGo => cases h

end Deed

def Moment.deed (x : Moment ω) (d : Deed ω) : Moment ω where
  pipeline := (d.step x.pipeline).2
  history := x.history ++ d.seen x.pipeline

/-! ### Scripts -/

/-- What is left to do of a call: nothing but to give its result, a deed, or a look. -/
inductive Script (ω : Type) where
  | done (err : Option StreamError)
  | act (d : Deed ω) (rest : Option StreamError → Script ω)
  | look (next : Pipeline ω → Script ω)

namespace Script

/-- Deeds one after the other, whatever their results. -/
def all : List (Deed ω) → Script ω → Script ω
  | [], k => k
  | d :: ds, k => act d fun _ => all ds k

/-- Deeds one after the other, up to the first that fails. -/
def inOrder : List (Deed ω) → (Option StreamError → Script ω) → Script ω
  | [], k => k none
  | d :: ds, k => act d fun
    | none => inOrder ds k
    | some err => k (some err)

theorem inOrder_append (ds ds' : List (Deed ω)) (k : Option StreamError → Script ω) :
    inOrder (ds ++ ds') k = inOrder ds fun
      | none => inOrder ds' k
      | some err => k (some err) := by
  induction ds with
  | nil => rfl
  | cons d ds ih => simp only [List.cons_append, inOrder, ih]

/-! The scripts of stopping and starting. -/

def halt (k : Script ω) : Script ω :=
  all [.enter .stopped, .tellSource .stopped, .tellStages .stopped, .tellSink .stopped,
    .tellFilter .stopped, .joinWorker, .returnWaiting] k

/-- Stops again after an error. -/
def rollBack : Option StreamError → Script ω
  | none => done none
  | some err => halt (done (some err))

def playBy (ds : List (Deed ω)) : Script ω := act (.enter .playing) fun _ => inOrder ds rollBack

def start : Script ω :=
  playBy [.requireParts, .tellSink .playing, .tellSource .playing, .tellStages .playing,
    .tellFilter .playing, .startWorker]

def resume : Script ω := playBy [.startWorker]

def pause : Script ω := all [.enter .paused, .joinWorker] (done none)

/-! The script of building. -/

def realize (plan : Plan) (k : Option StreamError → Script ω) : Script ω :=
  inOrder [.configureSource plan, .offerPool] fun
    | some err => k (some err)
    | none => look fun p =>
      inOrder [.configureSink plan, .configureFilter plan, .assemble plan (p.actualFormat plan)] k

def negotiateAndRealize (k : Option StreamError → Script ω) : Script ω := look fun p =>
  let planned := negotiate p.registry p.config.policy p.available p.requested
  act (.countNegotiation planned) fun _ =>
    match planned with
    | .error err => k (some (.negotiation err))
    | .ok plan => realize plan k

def build (k : Option StreamError → Script ω) : Script ω := look fun p =>
  match p.ensureIdle .build with
  | some err => k (some err)
  | none =>
    if p.attachment.isNone then k (some .noSource)
    else if p.sink.isNone then k (some .noSink)
    else act .discard fun _ => negotiateAndRealize fun
      | none => k none
      | some err => act (.enter .error) fun _ => k (some err)

/-! The scripts of requests for a status, and of the end. -/

def play : Script ω := look fun p =>
  if p.status = .paused then resume
  else build fun
    | none => start
    | some err => done (some err)

def stop : Script ω := look fun p =>
  if p.status.isActive then halt (done none)
  else if p.status = .error then done (some (.invalidState .stop p.status))
  else if p.attachment.isSome then act (.enter .stopped) done
  else done (some .noSource)

def setStatus (target : Status) : Script ω := look fun p =>
  if p.status = target then done none
  else
    match target with
    | .playing => play
    | .paused => if p.status = .playing then pause else done (some (.invalidState .pause p.status))
    | .stopped => stop
    | .undefined | .error => done (some (.invalidState .demandStatus p.status))

def destroy : Script ω := look fun p =>
  if p.status.isActive then halt (act .letGo done) else act .letGo done

end Script

/-! ### Calls -/

/-- An operation of a pipeline. -/
inductive Call (ω : Type) where
  | setSource (source : Source ω)
  | setSink (sink : Sink ω)
  | setFilter (filter : PropertyFilter ω)
  | request (s : Alternatives)
  | requestFormat (f : VideoFormat)
  | setDropIncomplete (drop : Bool)
  /-- Returns a buffer to the source, as a sink does with one that it has kept. -/
  | requeue (b : Buffer)
  | build
  | setStatus (target : Status)
  | destroy

namespace Call

/-- What a call does if nothing comes between. -/
def perform : Call ω → Step ω
  | setSource source, p => Pipeline.setSource source p
  | setSink sink, p => Pipeline.setSink sink p
  | setFilter filter, p => Pipeline.setFilter filter p
  | request s, p => Pipeline.request s p
  | requestFormat f, p => Pipeline.requestFormat f p
  | setDropIncomplete drop, p => Pipeline.setDropIncomplete drop p
  | requeue b, p => (none, p.requeue b)
  | build, p => Pipeline.build p
  | setStatus target, p => Pipeline.setStatus target p
  | destroy, p => (none, p.destroy)

def script : Call ω → Script ω
  | setSource source => .act (.setSource source) .done
  | setSink sink => .act (.setSink sink) .done
  | setFilter filter => .act (.setFilter filter) .done
  | request s => .act (.request s) .done
  | requestFormat f => .act (.requestFormat f) .done
  | setDropIncomplete drop => .act (.setDropIncomplete drop) .done
  | requeue b => .act (.requeue b) .done
  | build => .build .done
  | setStatus target => .setStatus target
  | destroy => .destroy

end Call

/-! ### Scripts without moves in between -/

namespace Script

def run : Script ω → Step ω
  | done err, p => (err, p)
  | act d rest, p => (rest (d.step p).1).run (d.step p).2
  | look next, p => (next p).run p

theorem run_act (d : Deed ω) (rest : Option StreamError → Script ω) (p : Pipeline ω) :
    (act d rest).run p = (rest (d.step p).1).run (d.step p).2 := rfl

theorem run_look (next : Pipeline ω → Script ω) (p : Pipeline ω) :
    (look next).run p = (next p).run p := rfl

theorem run_inOrder (ds : List (Deed ω)) (k : Option StreamError → Script ω) (p : Pipeline ω) :
    (inOrder ds k).run p =
      (k (Step.inOrder (ds.map Deed.step) p).1).run (Step.inOrder (ds.map Deed.step) p).2 := by
  induction ds generalizing p with
  | nil => rfl
  | cons d ds ih =>
    simp only [inOrder, run_act, List.map_cons, Step.inOrder]
    rcases d.step p with ⟨_ | err, q⟩
    · exact ih q
    · rfl

theorem run_playBy (ds : List (Deed ω)) (p : Pipeline ω) :
    (playBy ds).run p = Pipeline.playBy (ds.map Deed.step) p := by
  simp only [playBy, run_act, run_inOrder, Pipeline.playBy, Deed.step]
  rcases Step.inOrder (ds.map Deed.step) (p.enter .playing) with ⟨_ | err, q⟩
  · rfl
  · rfl

theorem run_realize (plan : Plan) (k : Option StreamError → Script ω) (p : Pipeline ω) :
    (realize plan k).run p = (k (Pipeline.realize plan p).1).run (Pipeline.realize plan p).2 := by
  simp only [realize, run_inOrder, Pipeline.realize]
  have hsteps : [Deed.configureSource plan, .offerPool].map Deed.step =
      [Pipeline.configureSource plan, (Pipeline.offerPool : Step ω)] := rfl
  rw [hsteps]
  rcases Step.inOrder [Pipeline.configureSource plan, Pipeline.offerPool] p with ⟨_ | err, q⟩
  · exact run_inOrder _ k q
  · rfl

theorem run_negotiateAndRealize (k : Option StreamError → Script ω) (p : Pipeline ω) :
    (negotiateAndRealize k).run p =
      (k (Pipeline.negotiateAndRealize p).1).run (Pipeline.negotiateAndRealize p).2 := by
  simp only [negotiateAndRealize, run_look, run_act, Deed.step, Pipeline.negotiateAndRealize]
  cases negotiate p.registry p.config.policy p.available p.requested with
  | error err => rfl
  | ok plan => exact run_realize plan k _

theorem run_build (k : Option StreamError → Script ω) (p : Pipeline ω) :
    (build k).run p = (k (Pipeline.build p).1).run (Pipeline.build p).2 := by
  simp only [build, run_look, Pipeline.build]
  cases p.ensureIdle .build with
  | some err => rfl
  | none =>
    by_cases hsource : p.attachment.isNone
    · simp only [hsource, if_true]
    · by_cases hsink : p.sink.isNone
      · simp only [hsource, hsink, if_true, Bool.false_eq_true, if_false]
      · simp only [hsource, hsink, Bool.false_eq_true, if_false, run_act,
          run_negotiateAndRealize, Deed.step]
        rcases Pipeline.negotiateAndRealize p.discard with ⟨_ | err, q⟩
        · rfl
        · rfl

theorem inOrder_singleton (step : Step ω) (p : Pipeline ω) : Step.inOrder [step] p = step p := by
  unfold Step.inOrder
  rcases step p with ⟨_ | err, q⟩
  · rfl
  · rfl

theorem run_play (p : Pipeline ω) : play.run p = Pipeline.play p := by
  simp only [play, run_look, Pipeline.play]
  split
  · exact run_playBy [.startWorker] p
  · rw [run_build, Step.inOrder]
    rcases Pipeline.build p with ⟨_ | err, q⟩
    · exact (run_playBy _ q).trans (inOrder_singleton Pipeline.start q).symm
    · rfl

theorem run_stop (p : Pipeline ω) : stop.run p = Pipeline.stop p := by
  simp only [stop, run_look, Pipeline.stop]
  split
  · rfl
  · split
    · rfl
    · split
      · rfl
      · rfl

theorem run_setStatus (target : Status) (p : Pipeline ω) :
    (setStatus target).run p = Pipeline.setStatus target p := by
  simp only [setStatus, run_look, Pipeline.setStatus]
  split
  · rfl
  · cases target with
    | playing => exact run_play p
    | paused =>
      show (if p.status = .playing then pause else _).run p = _
      split
      · rfl
      · rfl
    | stopped => exact run_stop p
    | undefined => rfl
    | error => rfl

theorem run_destroy (p : Pipeline ω) : destroy.run p = (none, p.destroy) := by
  simp only [destroy, run_look, Pipeline.destroy, haltIfActive]
  split
  · rfl
  · rfl

end Script

/-- **A script does what the operation does**, if nothing comes between. -/
theorem run_script (c : Call ω) : c.script.run = c.perform := by
  funext p
  cases c with
  | build => exact Script.run_build .done p
  | setStatus target => exact Script.run_setStatus target p
  | destroy => exact Script.run_destroy p
  | setSource _ | setSink _ | setFilter _ | request _ | requestFormat _ | setDropIncomplete _
  | requeue _ => rfl

end CameraStream.Pipeline
