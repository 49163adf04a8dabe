import CameraStream.Pipeline.Lifecycle

/-!
# Moves and what is seen of them

Besides the thread that controls it, a pipeline is moved by its worker, by producers that push
buffers, and by the world of its parts, which never stands still. A `Move` is one such thing, done at
once: the worker's five steps, a push, and a change of the world.

What a move does to the outside is an `Event`: a buffer that was pushed and what became of it, one
that the worker took, handed to the sink or gave to the source, a command that a part received and
its answer. Events are read off the pipeline ahead of the move, from the very answers that the move
makes use of; that the parts receive what is seen is `performed_run`. A `Moment` is a pipeline and all
events so far.
-/

namespace CameraStream.Pipeline

/-- A part that is told its status. -/
inductive Part where
  | source | sink | filter
deriving DecidableEq, Repr

/-- What became of a buffer that was pushed. -/
inductive Outcome where
  | accepted
  /-- The one who pushed it has got a buffer back. -/
  | handedBack (b : Buffer)
  /-- The source has got a buffer back. -/
  | sentHome (b : Buffer)
  /-- It was to be sent home while no source was attached. -/
  | vanished
deriving DecidableEq, Repr

inductive Event where
  | attached (part : Part)
  /-- The stages of a plan were made and taken as the chain. -/
  | assembled (plan : Plan)
  /-- The sink was told the format it will receive. -/
  | announced (f : VideoFormat) (agreed : Bool)
  | told (part : Part) (s : Status) (agreed : Bool)
  /-- Stages of the chain were told a status; the answers of those that were, in order. -/
  | toldStages (s : Status) (answers : List Bool)
  /-- A buffer was pushed, while a source was attached or not. -/
  | pushed (b : Buffer) (sourced : Bool) (o : Outcome)
  /-- The worker took a buffer from the queue. -/
  | fetched (b : Buffer)
  /-- The sink was handed a buffer. -/
  | shown (b : Buffer)
  /-- The sink kept the buffer it was handed. -/
  | kept (b : Buffer)
  /-- An accepted buffer went to the source. -/
  | requeued (b : Buffer)
  /-- Somebody returned a buffer to the source by way of the pipeline. -/
  | returned (b : Buffer)
deriving DecidableEq, Repr

variable {ω : Type}

/-- A pipeline and what was seen of it so far. -/
structure Moment (ω : Type) where
  pipeline : Pipeline ω
  history : List Event := []

/-! ### Moves -/

/-- What happens to a pipeline besides control. -/
inductive Move (ω : Type) where
  | fetch | applyFilter | process | handToSink | giveBack
  /-- A producer pushes a buffer. -/
  | push (b : Buffer)
  /-- A buffer is pushed on behalf of the source. -/
  | pushImage (b : Buffer)
  /-- The world changes on its own. -/
  | turn (change : ω → ω)

namespace Move

def step : Move ω → Pipeline ω → Pipeline ω
  | fetch, p => p.fetch
  | applyFilter, p => p.applyFilter
  | process, p => p.process
  | handToSink, p => p.handToSink
  | giveBack, p => p.giveBack
  | push b, p => (p.deliver b).2
  | pushImage b, p => p.pushImage b
  | turn change, p => p.withWorld (change p.world)

end Move

/-- A push whose buffer, unless accepted, stays with the one who pushes. -/
def pushEvent (p : Pipeline ω) (b : Buffer) : Event :=
  .pushed b p.attachment.isSome <|
    match (p.deliver b).1 with
    | none => .accepted
    | some back => .handedBack back

/-- A push whose buffer, unless accepted, goes to the source. -/
def pushImageEvent (p : Pipeline ω) (b : Buffer) : Event :=
  .pushed b p.attachment.isSome <|
    match (p.deliver b).1, p.attachment with
    | none, _ => .accepted
    | some back, some _ => .sentHome back
    | some _, none => .vanished

namespace Move

/-- What is seen of a move. -/
def seen : Move ω → Pipeline ω → List Event
  | fetch, p =>
    match p.worker, p.queue.pop with
    | .waiting, (.buffer b, _) => [.fetched b]
    | _, _ => []
  | handToSink, p =>
    match p.worker, p.sink with
    | .processed b, some k =>
      match (k.push b p.world).1 with
      | none => [.shown b, .kept b]
      | some _ => [.shown b]
    | _, _ => []
  | giveBack, p =>
    match p.worker, p.attachment with
    | .returning b, some _ => [.requeued b]
    | _, _ => []
  | push b, p => [p.pushEvent b]
  | pushImage b, p => [p.pushImageEvent b]
  | applyFilter, _ | process, _ | turn _, _ => []

end Move

namespace Moment

def move (x : Moment ω) (m : Move ω) : Moment ω where
  pipeline := m.step x.pipeline
  history := x.history ++ m.seen x.pipeline

/-- Moves one after the other. -/
def moves (x : Moment ω) (ms : List (Move ω)) : Moment ω := ms.foldl move x

end Moment

/-! ### Pushing -/

/-- What was not accepted has come back as it was, if there was a source. -/
def Outcome.Fair (b : Buffer) (sourced : Bool) : Outcome → Prop
  | .accepted => sourced = true
  | .handedBack back => back = b
  | .sentHome back => back = b ∧ sourced = true
  | .vanished => sourced = false

/-- An active pipeline accepts what is delivered. -/
theorem deliver_of_active {p : Pipeline ω} (h : p.status.isActive = true) (b : Buffer) :
    ∃ surroundings, p.deliver b = (none, { p with
      queue := { p.queue with buffers := p.queue.buffers ++ [b], pushed := p.queue.pushed + 1 }
      surroundings }) := by
  have hpush := Queue.push_of_active (q := p.queue) h b
  simp only [deliver, hpush]
  exact ⟨_, rfl⟩

/-- Any other refuses it. -/
theorem deliver_of_inactive {p : Pipeline ω} (h : p.status.isActive = false) (b : Buffer) :
    ∃ surroundings, p.deliver b = (some b, { p with
      queue := { p.queue with rejected := p.queue.rejected + 1 }
      surroundings }) := by
  have hpush := Queue.push_of_inactive (q := p.queue) h b
  simp only [deliver, hpush]
  exact ⟨_, rfl⟩

theorem worker_deliver (p : Pipeline ω) (b : Buffer) : (p.deliver b).2.worker = p.worker := by
  rcases hactive : p.status.isActive with _ | _
  · obtain ⟨_, heq⟩ := deliver_of_inactive hactive b
    rw [heq]
  · obtain ⟨_, heq⟩ := deliver_of_active hactive b
    rw [heq]

/-! ### What moves do -/

/-- Whether the worker has come to a move. -/
def Move.isDue : Move ω → Worker → Bool
  | fetch, .waiting | applyFilter, .fetched _ | process, .filtered _ | handToSink, .processed _
  | giveBack, .returning _ | push _, _ | pushImage _, _ | turn _, _ => true
  | _, _ => false

/-- What a move of `p` can lead to, and what is seen of it then. -/
inductive Does (p : Pipeline ω) : Move ω → Pipeline ω → List Event → Prop
  /-- The worker has not come to it. -/
  | nothing {m : Move ω} (notDue : m.isDue p.worker = false) : Does p m p []
  | foundNone (hands : p.worker = .waiting) : Does p .fetch p []
  | fetched {b : Buffer} {rest : List Buffer} (hands : p.worker = .waiting)
      (playing : p.status = .playing) (waiting : p.queue.buffers = b :: rest) :
      Does p .fetch { p with
        queue := { p.queue with buffers := rest, popped := p.queue.popped + 1 }
        worker := .fetched b } [.fetched b]
  /-- The frame is incomplete, and such frames are not wanted. -/
  | skipped {b : Buffer} (hands : p.worker = .fetched b) (surroundings : Surroundings ω) :
      Does p .applyFilter { p with surroundings, worker := .returning b } []
  | filtered {b : Buffer} (hands : p.worker = .fetched b) (surroundings : Surroundings ω) :
      Does p .applyFilter { p with
        surroundings
        worker := .filtered (b.withFrame (p.filter.apply b.toFrame p.world).1) } []
  /-- There is no active chain. -/
  | stopped {b : Buffer} (hands : p.worker = .filtered b) (surroundings : Surroundings ω) :
      Does p .process { p with surroundings, worker := .returning b } []
  | failed {b : Buffer} {a : Assembly ω} {done : Chain.Result ω} (hands : p.worker = .filtered b)
      (assembly : p.assembly = some a)
      (run : Chain.run a.chain.stages b.toFrame p.surroundings = done)
      (surroundings : Surroundings ω) :
      Does p .process { p with
        assembly := some { a with chain := { a.chain with stages := done.stages } }
        surroundings
        worker := .returning (b.withFrame done.frame) } []
  | processed {b : Buffer} {a : Assembly ω} {done : Chain.Result ω} (hands : p.worker = .filtered b)
      (assembly : p.assembly = some a)
      (run : Chain.run a.chain.stages b.toFrame p.surroundings = done) (ok : done.error = none) :
      Does p .process { p with
        assembly := some { a with chain := { a.chain with stages := done.stages } }
        surroundings := done.surroundings
        worker := .processed (b.withFrame done.frame) } []
  | kept {b : Buffer} (hands : p.worker = .processed b) (surroundings : Surroundings ω) :
      Does p .handToSink { p with surroundings, worker := .waiting } [.shown b, .kept b]
  | handedBack {b : Buffer} (hands : p.worker = .processed b) (f : Frame)
      (surroundings : Surroundings ω) :
      Does p .handToSink { p with surroundings, worker := .returning (b.withFrame f) } [.shown b]
  | shownNobody {b : Buffer} (hands : p.worker = .processed b) (sink : p.sink = none)
      (surroundings : Surroundings ω) :
      Does p .handToSink { p with surroundings, worker := .waiting } []
  | requeued {b : Buffer} (hands : p.worker = .returning b) (surroundings : Surroundings ω) :
      Does p .giveBack { p with surroundings, worker := .waiting } [.requeued b]
  | givenNobody {b : Buffer} (hands : p.worker = .returning b) (source : p.attachment = none)
      (surroundings : Surroundings ω) :
      Does p .giveBack { p with surroundings, worker := .waiting } []
  | accepted {m : Move ω} {b : Buffer} (push : m = .push b ∨ m = .pushImage b)
      (active : p.status.isActive = true) (surroundings : Surroundings ω) :
      Does p m { p with
        queue := { p.queue with buffers := p.queue.buffers ++ [b], pushed := p.queue.pushed + 1 }
        surroundings } [.pushed b p.attachment.isSome .accepted]
  | refused {m : Move ω} {b : Buffer} {o : Outcome} (push : m = .push b ∨ m = .pushImage b)
      (refused : o ≠ .accepted) (fair : o.Fair b p.attachment.isSome)
      (surroundings : Surroundings ω) :
      Does p m { p with queue := { p.queue with rejected := p.queue.rejected + 1 }, surroundings }
        [.pushed b p.attachment.isSome o]
  | turned (change : ω → ω) (surroundings : Surroundings ω) :
      Does p (.turn change) { p with surroundings } []

section Does

variable {p : Pipeline ω}

theorem does_fetch (p : Pipeline ω) : Does p .fetch p.fetch (Move.fetch.seen p) := by
  rcases hworker : p.worker with _ | _ | b | b | b | b
  case waiting =>
    rcases p.queue.pop_cases with ⟨b, rest, hplaying, hbuffers, hpop⟩ | ⟨-, -, hpop⟩ | ⟨-, hpop⟩
    · simp only [fetch, Move.seen, hworker, hpop]
      exact .fetched hworker hplaying hbuffers
    all_goals
      simp only [fetch, Move.seen, hworker, hpop]
      exact .foundNone hworker
  all_goals
    simp only [fetch, Move.seen, hworker]
    exact .nothing (by rw [hworker]; rfl)

theorem does_applyFilter (p : Pipeline ω) : Does p .applyFilter p.applyFilter [] := by
  rcases hworker : p.worker with _ | _ | b | b | b | b
  case fetched =>
    simp only [applyFilter, hworker]
    split
    · exact .skipped hworker _
    · exact .filtered hworker _
  all_goals
    simp only [applyFilter, hworker]
    exact .nothing (by rw [hworker]; rfl)

theorem does_process (p : Pipeline ω) : Does p .process p.process [] := by
  rcases hworker : p.worker with _ | _ | b | b | b | b
  case filtered =>
    rcases hassembly : p.assembly with _ | a
    · simp only [process, hworker, hassembly]
      exact .stopped hworker _
    · simp only [process, hworker, hassembly]
      split
      · next hactive =>
        have hrun : a.chain.process b.toFrame p.surroundings =
            Chain.run a.chain.stages b.toFrame p.surroundings := if_pos hactive
        rw [hrun]
        split
        · exact .failed hworker hassembly rfl _
        · next hok => exact .processed hworker hassembly rfl hok
      · exact .stopped hworker _
  all_goals
    simp only [process, hworker]
    exact .nothing (by rw [hworker]; rfl)

theorem does_handToSink (p : Pipeline ω) : Does p .handToSink p.handToSink (Move.handToSink.seen p) := by
  rcases hworker : p.worker with _ | _ | b | b | b | b
  case processed =>
    rcases hsink : p.sink with _ | k
    · simp only [handToSink, Move.seen, hworker, hsink]
      exact .shownNobody hworker hsink _
    · rcases hpush : k.push b p.world with ⟨_ | f, w⟩
      · simp only [handToSink, Move.seen, hworker, hsink, hpush]
        exact .kept hworker _
      · simp only [handToSink, Move.seen, hworker, hsink, hpush]
        exact .handedBack hworker f _
  all_goals
    simp only [handToSink, Move.seen, hworker]
    exact .nothing (by rw [hworker]; rfl)

theorem does_giveBack (p : Pipeline ω) : Does p .giveBack p.giveBack (Move.giveBack.seen p) := by
  rcases hworker : p.worker with _ | _ | b | b | b | b
  case returning =>
    rcases hsource : p.attachment with _ | a
    · simp only [giveBack, requeue, Move.seen, hworker, hsource]
      exact .givenNobody hworker hsource _
    · simp only [giveBack, requeue, Move.seen, hworker, hsource]
      exact .requeued hworker _
  all_goals
    simp only [giveBack, Move.seen, hworker]
    exact .nothing (by rw [hworker]; rfl)

theorem does_push (p : Pipeline ω) (b : Buffer) : Does p (.push b) (p.deliver b).2 [p.pushEvent b] := by
  rcases hactive : p.status.isActive with _ | _
  · obtain ⟨s, heq⟩ := deliver_of_inactive hactive b
    simp only [pushEvent, heq]
    exact .refused (o := .handedBack b) (.inl rfl) nofun rfl s
  · obtain ⟨s, heq⟩ := deliver_of_active hactive b
    simp only [pushEvent, heq]
    exact .accepted (.inl rfl) hactive s

theorem does_pushImage (p : Pipeline ω) (b : Buffer) :
    Does p (.pushImage b) (p.pushImage b) [p.pushImageEvent b] := by
  rcases hactive : p.status.isActive with _ | _
  · obtain ⟨s, heq⟩ := deliver_of_inactive hactive b
    rcases hsource : p.attachment with _ | a
    · simp only [pushImage, pushImageEvent, heq, requeue, hsource]
      rw [← hsource]
      exact .refused (o := .vanished) (.inr rfl) nofun (congrArg Option.isSome hsource) s
    · simp only [pushImage, pushImageEvent, heq, requeue, hsource]
      rw [← hsource]
      exact .refused (o := .sentHome b) (.inr rfl) nofun ⟨rfl, congrArg Option.isSome hsource⟩ _
  · obtain ⟨s, heq⟩ := deliver_of_active hactive b
    simp only [pushImage, pushImageEvent, heq]
    exact .accepted (.inr rfl) hactive s

/-- **A move does one of these things.** -/
theorem does (m : Move ω) (p : Pipeline ω) : Does p m (m.step p) (m.seen p) := by
  cases m with
  | fetch => exact does_fetch p
  | applyFilter => exact does_applyFilter p
  | process => exact does_process p
  | handToSink => exact does_handToSink p
  | giveBack => exact does_giveBack p
  | push b => exact does_push p b
  | pushImage b => exact does_pushImage p b
  | turn change => exact .turned change _

end Does

/-! ### The worker's last buffer -/

/-- What is left of the work on a buffer once it was taken. -/
def Move.work : List (Move ω) := [.applyFilter, .process, .handToSink, .giveBack]

/-- The worker ends by its own moves. -/
theorem joinWorker_eq (p : Pipeline ω) (h : List Event) :
    p.joinWorker = { (Moment.moves ⟨p, h⟩ Move.work).pipeline with worker := .absent } := rfl

end CameraStream.Pipeline
