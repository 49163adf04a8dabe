import CameraStream.Proofs.Pipeline.Beside
import CameraStream.Proofs.Pipeline.Scene

/-!
# Contacts with the parts

A move or a deed is seen as events, which are read off the pipeline ahead of it. This module says what
it then does to the parts. The `Cast` of a pipeline is all that it has to do with and cannot look
into: source, sink, property filter and stages, and the world that they share. A `Contact` is one call
of a function of one of them. It is seen as an event, or not at all, and leaves the cast as this very
function leaves it.

Events are `Performed` if contacts that are seen as these events, in this order, lead from one cast to
another, while the world also changes on its own, as it is told to. Whatever a schedule lets be seen
is performed (**`performed_run`**). So a command in a history has reached its part, with the answer
that is seen and with all that the part made of the world; a buffer that is seen to go to the source
was taken back by it; and no part is told a status, handed a buffer or given one back unseen. This is
so in every world, also in one where all parts write down what they are called for.
-/

namespace CameraStream

/-! ### Stages that are told a status -/

variable {ω : Type}

/-- A stage is told a status, and gives an answer. -/
inductive Stage.Hears (t : Status) : Stage ω → ω → Bool → Stage ω → ω → Prop
  | converter (c : Converter) (w : ω) :
      Hears t (.converter c) w (c.setStatus t).1 (.converter (c.setStatus t).2) w
  | whiteBalancer (b : WhiteBalancer) (w : ω) :
      Hears t (.whiteBalancer b) w true (.whiteBalancer (b.setStatus t)) w
  | frameCounter (c : FrameCounter) (w : ω) : Hears t (.frameCounter c) w true (.frameCounter c) w
  | device (d : StageDevice ω) (w : ω) :
      Hears t (.device d) w (d.setStatus t w).1 (.device d) (d.setStatus t w).2

theorem Stage.hears_setStatus (s : Stage ω) (t : Status) (w : ω) :
    s.Hears t w (s.setStatus t w).1 (s.setStatus t w).2.1 (s.setStatus t w).2.2 := by
  cases s with
  | converter c => exact .converter c w
  | whiteBalancer b => exact .whiteBalancer b w
  | frameCounter c => exact .frameCounter c w
  | device d => exact .device d w

namespace Pipeline

/-- Stages are told a status in order, and give their answers. When they are told to be active, the
first that refuses is the last one that is told. -/
inductive Told (t : Status) : List (Stage ω) → ω → List Bool → List (Stage ω) → ω → Prop
  | nobody (w : ω) : Told t [] w [] [] w
  | refused {s s' : Stage ω} {w w' : ω} (active : t.isActive = true)
      (hears : s.Hears t w false s' w') (rest : List (Stage ω)) :
      Told t (s :: rest) w [false] (s' :: rest) w'
  | heard {s s' : Stage ω} {w w' w'' : ω} {agreed : Bool} {answers : List Bool}
      {rest rest' : List (Stage ω)} (goesOn : agreed = true ∨ t.isActive = false)
      (hears : s.Hears t w agreed s' w') (others : Told t rest w' answers rest' w'') :
      Told t (s :: rest) w (agreed :: answers) (s' :: rest') w''

theorem told_commandAll {t : Status} (ht : t.isActive = false) (ss : List (Stage ω)) (w : ω) :
    Told t ss w (stageAnswers t ss w) (Chain.commandAll t ss w).1 (Chain.commandAll t ss w).2 := by
  induction ss generalizing w with
  | nil => exact .nobody w
  | cons s rest ih =>
    simp only [stageAnswers, ht, Bool.false_and, Bool.false_eq_true, if_false]
    exact .heard (.inr ht) (s.hears_setStatus t w) (ih _)

theorem told_commandUntilRefusal {t : Status} (ht : t.isActive = true) (ss : List (Stage ω))
    (w : ω) : Told t ss w (stageAnswers t ss w) (Chain.commandUntilRefusal t ss w).2.1
      (Chain.commandUntilRefusal t ss w).2.2 := by
  induction ss generalizing w with
  | nil => exact .nobody w
  | cons s rest ih =>
    have hears := s.hears_setStatus t w
    unfold stageAnswers Chain.commandUntilRefusal
    rcases hanswer : s.setStatus t w with ⟨_ | _, s', w'⟩
    all_goals rw [hanswer] at hears
    · simp only [ht, Bool.not_false, Bool.and_self, if_true, Bool.false_eq_true, if_false]
      exact .refused ht hears rest
    · simp only [Bool.not_true, Bool.and_false, Bool.false_eq_true, if_false, if_true]
      exact .heard (.inl rfl) hears (ih w')

theorem told_setStatus (c : Chain ω) (t : Status) (w : ω) :
    Told t c.stages w (stageAnswers t c.stages w) (c.setStatus t w).2.1.stages
      (c.setStatus t w).2.2 := by
  unfold Chain.setStatus
  rcases ht : t.isActive with _ | _
  · exact told_commandAll ht c.stages w
  · have htold := told_commandUntilRefusal ht c.stages w
    rw [if_pos rfl]
    rcases hanswer : Chain.commandUntilRefusal t c.stages w with ⟨_ | name, stages, w'⟩
    all_goals
      rw [hanswer] at htold
      exact htold

/-! ### Contacts -/

/-- What a pipeline has to do with and cannot look into. -/
structure Cast (ω : Type) where
  registry : Registry (Blueprint ω)
  source : Option (Source ω)
  sink : Option (Sink ω)
  filter : PropertyFilter ω
  /-- The stages of the chain, if there is one. -/
  stages : List (Stage ω)
  world : ω

/-- The cast of a pipeline. -/
def cast (p : Pipeline ω) : Cast ω where
  registry := p.registry
  source := p.attachment.map (·.source)
  sink := p.sink
  filter := p.filter
  stages := (p.assembly.map (·.chain.stages)).getD []
  world := p.world

/-- A source delivers buffers that it has in its own hands, and learns what became of each. -/
inductive Delivered (source : Source ω) : List Buffer → ω → List Event → ω → Prop
  | nothing (w : ω) : Delivered source [] w [] w
  | accepted {b : Buffer} {rest : List Buffer} {w w' : ω} {seen : List Event}
      (others : Delivered source rest (source.delivered b true w) seen w') :
      Delivered source (b :: rest) w (.pushed b true .accepted :: seen) w'
  | handedBack {b : Buffer} {rest : List Buffer} {w w' : ω} {seen : List Event}
      (others : Delivered source rest (source.delivered b false w) seen w') :
      Delivered source (b :: rest) w (.pushed b true (.handedBack b) :: seen) w'

/-- What happens between a pipeline and its parts, what is seen of it, and the cast it leaves. -/
inductive Contact : Cast ω → List Event → Cast ω → Prop
  -- Parts are told a status.
  | toldSource {c : Cast ω} {source : Source ω} {s : Status} {agreed : Bool} {given : List Buffer}
      {w w' : ω} {seen : List Event} (there : c.source = some source)
      (answer : source.setStatus s c.world = (agreed, given, w))
      (delivered : Delivered source given w seen w') :
      Contact c (.told .source s agreed :: seen) { c with world := w' }
  | toldSink {c : Cast ω} {sink : Sink ω} {s : Status} {agreed : Bool} {w : ω}
      (there : c.sink = some sink) (answer : sink.setStatus s c.world = (agreed, w)) :
      Contact c [.told .sink s agreed] { c with world := w }
  | toldFilter {c : Cast ω} {s : Status} {agreed : Bool} {w : ω}
      (answer : c.filter.setStatus s c.world = (agreed, w)) :
      Contact c [.told .filter s agreed] { c with world := w }
  | toldStages {c : Cast ω} {s : Status} {answers : List Bool} {stages : List (Stage ω)} {w : ω}
      (told : Told s c.stages c.world answers stages w) :
      Contact c [.toldStages s answers] { c with stages, world := w }
  -- Buffers go to the source, or to the sink.
  | requeued {c : Cast ω} {source : Source ω} (there : c.source = some source) (b : Buffer) :
      Contact c [.requeued b] { c with world := source.requeue b c.world }
  | returned {c : Cast ω} {source : Source ω} (there : c.source = some source) (b : Buffer) :
      Contact c [.returned b] { c with world := source.requeue b c.world }
  | sentHome {c : Cast ω} {source : Source ω} (there : c.source = some source) (b back : Buffer) :
      Contact c [.pushed b true (.sentHome back)] { c with world := source.requeue back c.world }
  | kept {c : Cast ω} {sink : Sink ω} {b : Buffer} {w : ω} (there : c.sink = some sink)
      (answer : sink.push b c.world = (none, w)) :
      Contact c [.shown b, .kept b] { c with world := w }
  | handedBack {c : Cast ω} {sink : Sink ω} {b : Buffer} {f : Frame} {w : ω}
      (there : c.sink = some sink) (answer : sink.push b c.world = (some f, w)) :
      Contact c [.shown b] { c with world := w }
  -- Buffers come and go without any part.
  | accepted (c : Cast ω) (b : Buffer) : Contact c [.pushed b c.source.isSome .accepted] c
  | refused (c : Cast ω) (b back : Buffer) :
      Contact c [.pushed b c.source.isSome (.handedBack back)] c
  | vanished {c : Cast ω} (there : c.source = none) (b : Buffer) :
      Contact c [.pushed b false .vanished] c
  | fetched (c : Cast ω) (b : Buffer) : Contact c [.fetched b] c
  -- Parts come, are configured and go.
  | attachedSource (c : Cast ω) (source : Source ω) (s : Status) :
      Contact c [.attached .source]
        { c with source := some source, world := source.attach s c.world }
  | attachedSink (c : Cast ω) (sink : Sink ω) :
      Contact c [.attached .sink] { c with sink := some sink }
  | attachedFilter (c : Cast ω) (filter : PropertyFilter ω) :
      Contact c [.attached .filter] { c with filter }
  | assembled {c : Cast ω} {plan : Plan} {chain : Chain ω} {w : ω}
      (built : Chain.build plan c.registry c.world = (.ok chain, w)) :
      Contact c [.assembled plan] { c with stages := chain.stages, world := w }
  | announced {c : Cast ω} {sink : Sink ω} {f : VideoFormat} {agreed : Bool} {w : ω}
      (there : c.sink = some sink) (answer : sink.setFormat f c.world = (agreed, w)) :
      Contact c [.announced f agreed] { c with world := w }
  | discarded (c : Cast ω) : Contact c [] { c with stages := [] }
  | letGo (c : Cast ω) : Contact c [] { c with source := none, sink := none }
  -- The rest is not seen.
  | configuredSource {c : Cast ω} {source : Source ω} (there : c.source = some source)
      (f : VideoFormat) : Contact c [] { c with world := (source.setFormat f c.world).2 }
  | offeredPool {c : Cast ω} {source : Source ω} (there : c.source = some source) (pool : Nat) :
      Contact c [] { c with world := (source.adoptPool pool c.world).2 }
  | askedToDrop {c : Cast ω} {source : Source ω} (there : c.source = some source) (drop : Bool) :
      Contact c [] { c with world := source.setDropIncomplete drop c.world }
  | configuredFilter (c : Cast ω) (input output : VideoFormat) :
      Contact c [] { c with world := (c.filter.setFormat input output c.world).2 }
  | looked (c : Cast ω) (f : Frame) :
      Contact c [] { c with world := (c.filter.apply f c.world).2 }
  | processed {c : Cast ω} {f : Frame} {e : Surroundings ω} {done : Chain.Result ω}
      (world : e.world = c.world) (run : Chain.run c.stages f e = done) :
      Contact c [] { c with stages := done.stages, world := done.surroundings.world }
  | builtInVain {c : Cast ω} {plan : Plan} {made : Except StreamError (Chain ω)} {w : ω}
      (built : Chain.build plan c.registry c.world = (made, w)) :
      Contact c [] { c with world := w }

/-! ### Performances -/

/-- Contacts that are seen as some events lead from one cast to another, and some changes of the
world come in between. -/
inductive Performed {ε : Type} (contact : Cast ω → List ε → Cast ω → Prop) :
    Cast ω → List (ω → ω) → List ε → Cast ω → Prop
  | nothing (c : Cast ω) : Performed contact c [] [] c
  | contact {c d e : Cast ω} {turns : List (ω → ω)} {first others : List ε}
      (made : contact c first d) (rest : Performed contact d turns others e) :
      Performed contact c turns (first ++ others) e
  | turn {c d : Cast ω} {turns : List (ω → ω)} {seen : List ε} (change : ω → ω)
      (rest : Performed contact { c with world := change c.world } turns seen d) :
      Performed contact c (change :: turns) seen d

namespace Performed

variable {ε : Type} {contact : Cast ω → List ε → Cast ω → Prop} {c d e : Cast ω}
  {turns turns' : List (ω → ω)} {seen seen' : List ε}

theorem one (h : contact c seen d) : Performed contact c [] seen d := by
  have hone := Performed.contact h (.nothing d)
  rwa [List.append_nil] at hone

theorem trans (h : Performed contact c turns seen d) (h' : Performed contact d turns' seen' e) :
    Performed contact c (turns ++ turns') (seen ++ seen') e := by
  induction h with
  | nothing _ => exact h'
  | contact made _ ih =>
    rw [List.append_assoc]
    exact .contact made (ih h')
  | turn change _ ih => exact .turn change (ih h')

end Performed

/-! ### Moves -/

/-- The changes of the world that are moves. -/
def Move.turns : Move ω → List (ω → ω)
  | turn change => [change]
  | fetch | applyFilter | process | handToSink | giveBack | push _ | pushImage _ => []

theorem cast_deliver (p : Pipeline ω) (b : Buffer) : (p.deliver b).2.cast = p.cast := by
  unfold deliver
  split
  · rfl
  · rfl

theorem source_cast {p : Pipeline ω} {a : Attachment ω} (ha : p.attachment = some a) :
    p.cast.source = some a.source := by
  rw [cast, ha]
  rfl

theorem stages_cast {p : Pipeline ω} {a : Assembly ω} (ha : p.assembly = some a) :
    p.cast.stages = a.chain.stages := by
  rw [cast, ha]
  rfl

theorem isSome_source_cast (p : Pipeline ω) : p.cast.source.isSome = p.attachment.isSome :=
  Option.isSome_map

theorem performed_fetch (p : Pipeline ω) :
    Performed Contact p.cast [] (Move.fetch.seen p) p.fetch.cast := by
  rcases hworker : p.worker with _ | _ | b | b | b | b
  case waiting =>
    rcases hpop : p.queue.pop with ⟨b | _ | _, queue⟩
    · simp only [fetch, Move.seen, hworker, hpop]
      exact .one (.fetched p.cast b)
    all_goals
      simp only [fetch, Move.seen, hworker, hpop]
      exact .nothing p.cast
  all_goals
    simp only [fetch, Move.seen, hworker]
    exact .nothing p.cast

theorem performed_applyFilter (p : Pipeline ω) :
    Performed Contact p.cast [] [] p.applyFilter.cast := by
  unfold applyFilter
  split
  · next b _ =>
    split
    · exact .nothing p.cast
    · exact .one (.looked p.cast b.toFrame)
  · exact .nothing p.cast

theorem performed_process (p : Pipeline ω) : Performed Contact p.cast [] [] p.process.cast := by
  unfold process
  split
  · next b a hworker hassembly =>
    split
    · next hactive =>
      have hrun : a.chain.process b.toFrame p.surroundings =
          Chain.run p.cast.stages b.toFrame p.surroundings := stages_cast hassembly ▸ if_pos hactive
      have hprocessed := Performed.one (Contact.processed (c := p.cast) rfl hrun.symm)
      generalize a.chain.process b.toFrame p.surroundings = done at hprocessed ⊢
      rcases done with ⟨_ | err, f, stages, surroundings⟩
      · exact hprocessed
      · exact hprocessed
    · exact .nothing p.cast
  · exact .nothing p.cast
  · exact .nothing p.cast

theorem performed_handToSink (p : Pipeline ω) :
    Performed Contact p.cast [] (Move.handToSink.seen p) p.handToSink.cast := by
  rcases hworker : p.worker with _ | _ | b | b | b | b
  case processed =>
    rcases hsink : p.sink with _ | k
    · simp only [handToSink, Move.seen, hworker, hsink]
      exact .nothing p.cast
    · rcases hpush : k.push b p.world with ⟨_ | f, w⟩
      · simp only [handToSink, Move.seen, hworker, hsink, hpush]
        exact .one (.kept hsink hpush)
      · simp only [handToSink, Move.seen, hworker, hsink, hpush]
        exact .one (.handedBack hsink hpush)
  all_goals
    simp only [handToSink, Move.seen, hworker]
    exact .nothing p.cast

theorem performed_giveBack (p : Pipeline ω) :
    Performed Contact p.cast [] (Move.giveBack.seen p) p.giveBack.cast := by
  rcases hworker : p.worker with _ | _ | b | b | b | b
  case returning =>
    rcases hsource : p.attachment with _ | a
    · simp only [giveBack, requeue, Move.seen, hworker, hsource]
      exact .nothing p.cast
    · simp only [giveBack, requeue, Move.seen, hworker, hsource]
      exact .one (.requeued (source_cast hsource) b)
  all_goals
    simp only [giveBack, Move.seen, hworker]
    exact .nothing p.cast

theorem performed_push (p : Pipeline ω) (b : Buffer) :
    Performed Contact p.cast [] [p.pushEvent b] (p.deliver b).2.cast := by
  rw [cast_deliver, pushEvent, ← isSome_source_cast]
  rcases (p.deliver b).1 with _ | back
  · exact .one (.accepted p.cast b)
  · exact .one (.refused p.cast b back)

theorem performed_pushImage (p : Pipeline ω) (b : Buffer) :
    Performed Contact p.cast [] [p.pushImageEvent b] (p.pushImage b).cast := by
  obtain ⟨back?, q, hdeliver⟩ : ∃ back? q, p.deliver b = (back?, q) := ⟨_, _, rfl⟩
  have hcast : q.cast = p.cast := by rw [← cast_deliver p b, hdeliver]
  have hattachment : q.attachment = p.attachment := by
    rw [← (beside_deliver p b).attachment, hdeliver]
  rcases back? with _ | back
  · simp only [pushImage, pushImageEvent, hdeliver]
    rw [← isSome_source_cast, hcast]
    exact .one (.accepted p.cast b)
  · rcases hsource : p.attachment with _ | a
    · simp only [pushImage, pushImageEvent, hdeliver, requeue, hattachment, hsource]
      rw [hcast]
      exact .one (.vanished (by rw [cast, hsource]; rfl) b)
    · simp only [pushImage, pushImageEvent, hdeliver, requeue, hattachment, hsource]
      rw [← hcast]
      exact .one (.sentHome (source_cast (hattachment.trans hsource)) b back)

/-- **What is seen of a move is what it does to the cast.** -/
theorem performed_move (m : Move ω) (p : Pipeline ω) :
    Performed Contact p.cast m.turns (m.seen p) (m.step p).cast := by
  cases m with
  | fetch => exact performed_fetch p
  | applyFilter => exact performed_applyFilter p
  | process => exact performed_process p
  | handToSink => exact performed_handToSink p
  | giveBack => exact performed_giveBack p
  | push b => exact performed_push p b
  | pushImage b => exact performed_pushImage p b
  | turn change => exact .turn change (.nothing _)

/-- Moves one after the other are performed, and so is what is seen of them. -/
theorem performed_moves (x : Moment ω) (ms : List (Move ω)) :
    ∃ seen, (x.moves ms).history = x.history ++ seen ∧
      Performed Contact x.pipeline.cast (ms.flatMap Move.turns) seen (x.moves ms).pipeline.cast := by
  induction ms generalizing x with
  | nil => exact ⟨[], (List.append_nil _).symm, .nothing _⟩
  | cons m ms ih =>
    obtain ⟨seen, hhistory, hrest⟩ := ih (x.move m)
    refine ⟨m.seen x.pipeline ++ seen, ?_, (performed_move m x.pipeline).trans hrest⟩
    exact hhistory.trans (List.append_assoc ..)

/-! ### Deeds -/

/-! Parts are told a status. -/

theorem cast_deliverFrom (source : Source ω) (p : Pipeline ω) (b : Buffer) :
    (deliverFrom source p b).cast =
      { p.cast with world := source.delivered b (p.deliver b).1.isNone p.world } := by
  have hcast := cast_deliver p b
  calc (deliverFrom source p b).cast
      = { (p.deliver b).2.cast with
          world := source.delivered b (p.deliver b).1.isNone (p.deliver b).2.cast.world } := rfl
    _ = { p.cast with world := source.delivered b (p.deliver b).1.isNone p.world } := by
      rw [hcast]
      rfl

theorem delivered_foldl {p q : Pipeline ω} (hsource : p.attachment.isSome) (source : Source ω)
    (given : List Buffer) (hpq : p.Beside q) :
    ∃ w, Delivered source given q.world (given.map p.pushEvent) w ∧
      (given.foldl (deliverFrom source) q).cast = { q.cast with world := w } := by
  -- What became of a buffer is seen from `p`: no delivery changes what becomes of the next one.
  induction given generalizing q with
  | nil => exact ⟨q.world, .nothing _, rfl⟩
  | cons b rest ih =>
    obtain ⟨w, hrest, hcast⟩ := ih (hpq.trans (beside_deliverFrom source q b))
    have hfirst := cast_deliverFrom source q b
    have hworld : (deliverFrom source q b).world = _ := congrArg Cast.world hfirst
    refine ⟨w, ?_, by rw [List.foldl_cons, hcast, hfirst]⟩
    rw [hworld] at hrest
    rw [List.map_cons, ← hpq.pushEvent b, pushEvent, hpq.attachment, hsource]
    rcases hactive : q.status.isActive with _ | _
    · obtain ⟨_, heq⟩ := deliver_of_inactive hactive b
      rw [heq] at hrest ⊢
      exact .handedBack hrest
    · obtain ⟨_, heq⟩ := deliver_of_active hactive b
      rw [heq] at hrest ⊢
      exact .accepted hrest

theorem performed_tellSource (s : Status) (p : Pipeline ω) :
    Performed Contact p.cast [] ((Deed.tellSource s).seen p) (p.commandSource s).2.cast := by
  rcases ha : p.attachment with _ | a
  · simp only [Deed.seen, commandSource, ha]
    exact .nothing p.cast
  · rcases hanswer : a.source.setStatus s p.world with ⟨agreed, given, w⟩
    have hsource : p.attachment.isSome := ha ▸ rfl
    obtain ⟨w', hdelivered, hcast⟩ :=
      delivered_foldl hsource a.source given (beside_withWorld p w)
    simp only [Deed.seen, commandSource, ha, hanswer]
    rw [hcast]
    exact .one (.toldSource (source_cast ha) hanswer hdelivered)

theorem performed_tellSink (s : Status) (p : Pipeline ω) :
    Performed Contact p.cast [] ((Deed.tellSink s).seen p) (p.commandSink s).2.cast := by
  rcases hsink : p.sink with _ | k
  · simp only [Deed.seen, commandSink, hsink]
    exact .nothing p.cast
  · simp only [Deed.seen, commandSink, hsink]
    exact .one (.toldSink (c := p.cast) hsink rfl)

theorem performed_tellStages (s : Status) (p : Pipeline ω) :
    Performed Contact p.cast [] ((Deed.tellStages s).seen p) (p.commandChain s).2.cast := by
  rcases ha : p.assembly with _ | a
  · simp only [Deed.seen, commandChain, ha]
    exact .nothing p.cast
  · have htold := told_setStatus a.chain s p.world
    simp only [Deed.seen, commandChain, ha]
    rw [← stages_cast ha] at htold ⊢
    exact .one (.toldStages htold)

/-! Buffers are finished and given to the source. -/

theorem performed_requeueAll (p : Pipeline ω) (bs : List Buffer) :
    Performed Contact p.cast []
      (match p.attachment with
        | none => []
        | some _ => bs.map .requeued) (p.requeueAll bs).cast := by
  rcases ha : p.attachment with _ | a
  · have hkept : p.requeueAll bs = p := List.foldl_fixed' (fun b => by simp only [requeue, ha]) bs
    rw [hkept]
    exact .nothing p.cast
  · induction bs generalizing p with
    | nil => exact .nothing p.cast
    | cons b bs ih =>
      have hfirst : p.requeue b = p.withWorld (a.source.requeue b p.world) := by
        simp only [requeue, ha]
      have hrest := ih (p.requeue b) (by rw [hfirst]; exact ha)
      rw [hfirst] at hrest
      show Performed Contact p.cast [] ([.requeued b] ++ bs.map .requeued)
        ((p.requeue b).requeueAll bs).cast
      rw [hfirst]
      exact .contact (.requeued (source_cast ha) b) hrest

theorem performed_requeue (p : Pipeline ω) (b : Buffer) :
    Performed Contact p.cast [] ((Deed.requeue b).seen p) (p.requeue b).cast := by
  rcases ha : p.attachment with _ | a
  · simp only [Deed.seen, requeue, ha]
    exact .nothing p.cast
  · simp only [Deed.seen, requeue, ha]
    exact .one (.returned (source_cast ha) b)

theorem performed_joinWorker (p : Pipeline ω) :
    Performed Contact p.cast [] (Deed.joinWorker.seen p) p.joinWorker.cast := by
  obtain ⟨seen, hhistory, hmoves⟩ := performed_moves ⟨p, []⟩ Move.work
  have hseen : Deed.joinWorker.seen p = seen := hhistory
  rw [hseen]
  exact hmoves

theorem performed_startWorker (p : Pipeline ω) :
    Performed Contact p.cast [] [] (Pipeline.startWorker p).2.cast := by
  unfold Pipeline.startWorker
  split
  · exact .nothing p.cast
  · exact .nothing p.cast

/-! Parts are configured, and the chain is built. -/

theorem performed_configureSource (plan : Plan) (p : Pipeline ω) :
    Performed Contact p.cast [] [] (Pipeline.configureSource plan p).2.cast := by
  unfold Pipeline.configureSource
  split
  · exact .nothing p.cast
  · next a ha => exact .one (.configuredSource (source_cast ha) plan.sourceFormat)

theorem performed_offerPool (p : Pipeline ω) :
    Performed Contact p.cast [] [] (Pipeline.offerPool p).2.cast := by
  unfold Pipeline.offerPool
  split
  · next a pool ha _ => exact .one (.offeredPool (source_cast ha) pool)
  · exact .nothing p.cast

theorem performed_configureSink (plan : Plan) (p : Pipeline ω) :
    Performed Contact p.cast [] ((Deed.configureSink plan).seen p)
      (Pipeline.configureSink plan p).2.cast := by
  rcases hsink : p.sink with _ | k
  · simp only [Deed.seen, Pipeline.configureSink, hsink]
    exact .nothing p.cast
  · simp only [Deed.seen, Pipeline.configureSink, hsink]
    exact .one (.announced (c := p.cast) hsink rfl)

theorem performed_setDropIncomplete (drop : Bool) (p : Pipeline ω) :
    Performed Contact p.cast [] [] (Pipeline.setDropIncomplete drop p).2.cast := by
  unfold Pipeline.setDropIncomplete
  split
  · exact .nothing p.cast
  · next a ha => exact .one (.askedToDrop (source_cast ha) drop)

theorem performed_assemble (plan : Plan) (actual : VideoFormat) (p : Pipeline ω) :
    Performed Contact p.cast [] ((Deed.assemble plan actual).seen p)
      (Pipeline.assemble plan actual p).2.cast := by
  rcases hbuild : Chain.build plan p.registry p.world with ⟨err | chain, w⟩
  · have heq : Pipeline.assemble plan actual p = (some err, p.withWorld w) := by
      simp only [Pipeline.assemble, hbuild]
    simp only [Deed.seen, heq, reduceCtorEq, if_false]
    exact .one (.builtInVain (c := p.cast) hbuild)
  · rcases hvalid : chain.validate w actual plan.sinkFormat with err | ⟨⟩
    · have heq : Pipeline.assemble plan actual p = (some err, p.withWorld w) := by
        simp only [Pipeline.assemble, hbuild, hvalid]
      simp only [Deed.seen, heq, reduceCtorEq, if_false]
      exact .one (.builtInVain (c := p.cast) hbuild)
    · have heq : Pipeline.assemble plan actual p =
          (none, { p with assembly := some ⟨plan, chain⟩ }.withWorld w) := by
        simp only [Pipeline.assemble, hbuild, hvalid]
      simp only [Deed.seen, heq, if_true]
      exact .one (.assembled (c := p.cast) hbuild)

/-! Parts are attached, and formats requested. -/

theorem performed_setSource (source : Source ω) (p : Pipeline ω) :
    Performed Contact p.cast [] ((Deed.setSource source).seen p)
      (Pipeline.setSource source p).2.cast := by
  rcases hidle : p.ensureIdle .attachSource with _ | err
  · rcases hempty : (source.catalog p.world).isEmpty with _ | _
    · simp only [Deed.seen, Pipeline.setSource, hidle, hempty, Bool.false_eq_true, if_false,
        if_true]
      exact (Performed.one (Contact.attachedSource p.cast source p.status)).trans
        (.one (.discarded _))
    · simp only [Deed.seen, Pipeline.setSource, hidle, hempty, if_true, reduceCtorEq, if_false]
      exact .nothing p.cast
  · simp only [Deed.seen, Pipeline.setSource, hidle, reduceCtorEq, if_false]
    exact .nothing p.cast

theorem cast_leaveError (p : Pipeline ω) : p.leaveError.cast = p.cast := by
  unfold leaveError
  split
  · rfl
  · rfl

theorem performed_setSink (sink : Sink ω) (p : Pipeline ω) :
    Performed Contact p.cast [] ((Deed.setSink sink).seen p) (Pipeline.setSink sink p).2.cast := by
  rcases hidle : p.ensureIdle .attachSink with _ | err
  · simp only [Deed.seen, Pipeline.setSink, hidle, if_true, cast_leaveError]
    exact (Performed.one (Contact.attachedSink p.cast sink)).trans (.one (.discarded _))
  · simp only [Deed.seen, Pipeline.setSink, hidle, reduceCtorEq, if_false]
    exact .nothing p.cast

theorem performed_setFilter (filter : PropertyFilter ω) (p : Pipeline ω) :
    Performed Contact p.cast [] ((Deed.setFilter filter).seen p)
      (Pipeline.setFilter filter p).2.cast := by
  rcases hidle : p.ensureIdle .replaceFilter with _ | err
  · simp only [Deed.seen, Pipeline.setFilter, hidle, if_true]
    exact .one (.attachedFilter p.cast filter)
  · simp only [Deed.seen, Pipeline.setFilter, hidle, reduceCtorEq, if_false]
    exact .nothing p.cast

theorem performed_request (s : Alternatives) (p : Pipeline ω) :
    Performed Contact p.cast [] [] (Pipeline.request s p).2.cast := by
  unfold Pipeline.request
  rcases p.ensureIdle .request with _ | err
  · simp only [cast_leaveError]
    exact .one (.discarded p.cast)
  · exact .nothing p.cast

theorem performed_requestFormat (f : VideoFormat) (p : Pipeline ω) :
    Performed Contact p.cast [] [] (Pipeline.requestFormat f p).2.cast := by
  have hrequest := performed_request (.ofFormat f) p
  unfold Pipeline.requestFormat
  rcases hanswer : Pipeline.request (.ofFormat f) p with ⟨_ | err, q⟩
  all_goals
    rw [hanswer] at hrequest
    exact hrequest

/-- **What is seen of a deed is what it does to the cast.** -/
theorem performed_deed (d : Deed ω) (p : Pipeline ω) :
    Performed Contact p.cast [] (d.seen p) (d.step p).2.cast := by
  cases d with
  | enter _ | requireParts | countNegotiation _ => exact .nothing p.cast
  | startWorker => exact performed_startWorker p
  | tellSource s => exact performed_tellSource s p
  | tellSink s => exact performed_tellSink s p
  | tellStages s => exact performed_tellStages s p
  | tellFilter s => exact .one (.toldFilter (c := p.cast) rfl)
  | joinWorker => exact performed_joinWorker p
  | returnWaiting =>
    exact performed_requeueAll { p with queue := { p.queue with buffers := [] } } p.queue.buffers
  | discard => exact .one (.discarded p.cast)
  | configureSource plan => exact performed_configureSource plan p
  | offerPool => exact performed_offerPool p
  | configureSink plan => exact performed_configureSink plan p
  | configureFilter plan =>
    exact .one (.configuredFilter p.cast plan.sourceFormat plan.sourceFormat)
  | assemble plan actual => exact performed_assemble plan actual p
  | setSource source => exact performed_setSource source p
  | setSink sink => exact performed_setSink sink p
  | setFilter filter => exact performed_setFilter filter p
  | request s => exact performed_request s p
  | requestFormat f => exact performed_requestFormat f p
  | setDropIncomplete drop => exact performed_setDropIncomplete drop p
  | requeue b => exact performed_requeue p b
  | letGo => exact (Performed.one (Contact.discarded p.cast)).trans (.one (.letGo _))

/-! ### Every schedule -/

/-- The changes of the world that come with a choice. -/
def Choice.turns : Choice ω → List (ω → ω)
  | call _ | proceed => []
  | move m => m.turns

theorem performed_next (s : Scene ω) (c : Choice ω) :
    Performed Contact s.pipeline.cast c.turns (s.seen c) (s.next c).pipeline.cast := by
  obtain ⟨x, todo⟩ := s
  cases c with
  | move m => exact performed_move m x.pipeline
  | call c =>
    cases todo with
    | done _ | act _ _ | look _ => exact .nothing _
  | proceed =>
    cases todo with
    | act d rest => exact performed_deed d x.pipeline
    | done _ | look _ => exact .nothing _

/-- **Whatever is played is performed**: what is seen of it are the calls that the parts receive. -/
theorem performed_run (s : Scene ω) (schedule : List (Choice ω)) :
    ∃ seen, (s.run schedule).history = s.history ++ seen ∧
      Performed Contact s.pipeline.cast (schedule.flatMap Choice.turns) seen
        (s.run schedule).pipeline.cast := by
  induction schedule generalizing s with
  | nil => exact ⟨[], (List.append_nil _).symm, .nothing _⟩
  | cons c rest ih =>
    obtain ⟨seen, hhistory, hrest⟩ := ih (s.next c)
    refine ⟨s.seen c ++ seen, ?_, (performed_next s c).trans hrest⟩
    calc (s.run (c :: rest)).history
        = (s.next c).history ++ seen := hhistory
      _ = s.history ++ (s.seen c ++ seen) := by rw [s.history_next, List.append_assoc]

/-- From a scene of which nothing was seen yet. -/
theorem performed_from {s : Scene ω} (hs : s.history = []) (schedule : List (Choice ω)) :
    Performed Contact s.pipeline.cast (schedule.flatMap Choice.turns) (s.run schedule).history
      (s.run schedule).pipeline.cast := by
  obtain ⟨seen, hhistory, hperformed⟩ := performed_run s schedule
  rw [hs, List.nil_append] at hhistory
  rwa [hhistory]

end Pipeline
end CameraStream
