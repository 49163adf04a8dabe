import CameraStream.Proofs.Pipeline.Accounting

/-!
# Figures

The `Figures` of a pipeline are what its counters say of buffers: how many were accepted, how many
the sink was handed, and how many were dropped, for whatever reason. They are compared with what was
seen. Between two moments of a pipeline that `Counts` as it should,

* every buffer that was accepted is counted as pushed, and every one that was shown as delivered;
* of those that were refused or taken by the worker, every one is counted as dropped or delivered,
  except the one that the worker is still at work on.

Moves count as they should while source and sink are there (`Counts.move`), and so does control
(`Orderly.counts_deed`); hence every schedule does (**`balanced_run`**). Nothing is said here of
buffers that the worker never took.
-/

namespace CameraStream

/-- What is counted of buffers. -/
structure Figures where
  pushed : Nat
  delivered : Nat
  /-- The sum over all reasons. -/
  dropped : Nat
deriving DecidableEq, Repr

namespace Counters

/-- What is counted of the buffers of a pipeline. -/
def figures (c : Counters) (pipeline : String) : Figures where
  pushed := c.get (.pushed pipeline)
  delivered := c.get (.delivered pipeline)
  dropped := c.get (.dropped pipeline .damaged) + c.get (.dropped pipeline .failed) +
    c.get (.dropped pipeline .stopped)

variable (c : Counters) (pipeline : String)

@[simp] theorem figures_count_pushed :
    (c.count (.pushed pipeline)).figures pipeline =
      { c.figures pipeline with pushed := (c.figures pipeline).pushed + 1 } := by
  simp [figures, get_count]

@[simp] theorem figures_count_delivered :
    (c.count (.delivered pipeline)).figures pipeline =
      { c.figures pipeline with delivered := (c.figures pipeline).delivered + 1 } := by
  simp [figures, get_count]

@[simp] theorem figures_count_dropped (r : DropReason) :
    (c.count (.dropped pipeline r)).figures pipeline =
      { c.figures pipeline with dropped := (c.figures pipeline).dropped + 1 } := by
  cases r with
  | damaged | failed | stopped =>
    simp [figures, get_count]
    omega

/-- Times are not among the figures. -/
@[simp] theorem figures_count_stageTime (stage : String) :
    (c.count (.stageTime stage)).figures pipeline = c.figures pipeline := by
  simp [figures, get_count]

@[simp] theorem figures_countNegotiation {α : Type} (planned : Except NegotiationError α) :
    (c.countNegotiation planned).figures pipeline = c.figures pipeline := by
  cases planned with
  | ok plan => rfl
  | error err => simp [countNegotiation, figures, get_count]

@[simp] theorem figures_showDepth (depth : Nat) :
    (c.showDepth depth).figures pipeline = c.figures pipeline := by
  simp [showDepth, figures, get_set]

end Counters

/-! ### Stages -/

variable {ω : Type}

/-- Stages count nothing. -/
theorem Stage.counters_transform (s : Stage ω) (f : Frame) (e : Surroundings ω) :
    (s.transform f e).surroundings.counters = e.counters := by
  cases s with
  | converter c =>
    simp only [transform]
    split <;> rfl
  | whiteBalancer w =>
    simp only [transform]
    split <;> rfl
  | frameCounter c =>
    simp only [transform]
    split <;> rfl
  | device d => rfl

/-- All that is counted of the way through the stages is their times. -/
theorem Chain.figures_run (stages : List (Stage ω)) (f : Frame) (e : Surroundings ω)
    (pipeline : String) :
    (run stages f e).surroundings.counters.figures pipeline = e.counters.figures pipeline := by
  induction stages generalizing f e with
  | nil => rfl
  | cons s rest ih =>
    simp only [run]
    split
    · exact congrArg (Counters.figures · pipeline) (s.counters_transform f e)
    · rw [ih, Counters.figures_count_stageTime, s.counters_transform]

theorem Chain.figures_process (c : Chain ω) (f : Frame) (e : Surroundings ω) (pipeline : String) :
    (c.process f e).surroundings.counters.figures pipeline = e.counters.figures pipeline := by
  unfold process
  split
  · exact figures_run ..
  · rfl

namespace Pipeline

variable {p q r : Pipeline ω} {x : Moment ω}

/-! ### The figures of a pipeline -/

def figures (p : Pipeline ω) : Figures := p.surroundings.counters.figures p.config.name

/-- The queue depth that is shown beside them leaves them as they are. -/
theorem figures_metrics (p : Pipeline ω) : p.metrics.figures p.config.name = p.figures :=
  Counters.figures_showDepth ..

@[simp] theorem figures_wait (p : Pipeline ω) : p.wait.figures = p.figures :=
  Counters.figures_count_stageTime ..

@[simp] theorem figures_drop (p : Pipeline ω) (reason : DropReason) (b : Buffer) :
    (p.drop reason b).figures = { p.figures with dropped := p.figures.dropped + 1 } :=
  Counters.figures_count_dropped ..

@[simp] theorem figures_requeue (p : Pipeline ω) (b : Buffer) :
    (p.requeue b).figures = p.figures := by
  unfold requeue
  split <;> rfl

theorem figures_requeueAll (p : Pipeline ω) (bs : List Buffer) :
    (p.requeueAll bs).figures = p.figures := by
  induction bs generalizing p with
  | nil => rfl
  | cons b bs ih => exact (ih _).trans (figures_requeue p b)

/-! ### What is counted against what is seen -/

/-- How many buffers the worker is at work on. One that is only to be given back is done with. -/
def inWork : Worker → Nat
  | .absent | .waiting | .returning _ => 0
  | .fetched _ | .filtered _ | .processed _ => 1

/-- A buffer was pushed and not accepted. -/
def Event.isRefusal : Event → Bool
  | .pushed _ _ .accepted => false
  | .pushed _ _ _ => true
  | _ => false

/-- The worker took a buffer. -/
def Event.isFetch : Event → Bool
  | .fetched _ => true
  | _ => false

/-- Something is to be counted for the event, now or later. -/
def Event.isCounted : Event → Bool
  | .pushed _ _ _ | .fetched _ | .shown _ => true
  | _ => false

/-- As much was counted from one pipeline to another as was seen meanwhile. -/
structure Counts (p q : Pipeline ω) (es : List Event) : Prop where
  pushed : q.figures.pushed = p.figures.pushed + (accepted es).length
  delivered : q.figures.delivered = p.figures.delivered + (shown es).length
  /-- A buffer that is refused ends at once. One that is taken is in work first. -/
  ended : q.figures.delivered + q.figures.dropped + inWork q.worker =
    p.figures.delivered + p.figures.dropped + inWork p.worker +
      es.countP Event.isRefusal + es.countP Event.isFetch

namespace Counts

theorem trans {es es' : List Event} (h : Counts p q es) (h' : Counts q r es') :
    Counts p r (es ++ es') where
  pushed := by
    rw [h'.pushed, h.pushed, accepted_append, List.length_append, Nat.add_assoc]
  delivered := by
    rw [h'.delivered, h.delivered, shown_append, List.length_append, Nat.add_assoc]
  ended := by
    have hfirst := h.ended
    have hrest := h'.ended
    rw [List.countP_append, List.countP_append]
    omega

/-- Where nothing is to be counted, nothing is. -/
theorem still {es : List Event} (hfigures : q.figures = p.figures)
    (hworker : inWork q.worker = inWork p.worker) (hes : ∀ e ∈ es, e.isCounted = false) :
    Counts p q es := by
  have haccepted : accepted es = [] := by
    refine List.filterMap_eq_nil_iff.mpr fun e he => ?_
    have hcounted := hes e he
    cases e with
    | pushed _ _ _ => cases hcounted
    | _ => rfl
  have hshown : shown es = [] := by
    refine List.filterMap_eq_nil_iff.mpr fun e he => ?_
    have hcounted := hes e he
    cases e with
    | shown _ => cases hcounted
    | _ => rfl
  have hrefused : es.countP Event.isRefusal = 0 := by
    refine List.countP_eq_zero.mpr fun e he => ?_
    have hcounted := hes e he
    cases e with
    | pushed _ _ _ => cases hcounted
    | _ => exact Bool.false_ne_true
  have hfetched : es.countP Event.isFetch = 0 := by
    refine List.countP_eq_zero.mpr fun e he => ?_
    have hcounted := hes e he
    cases e with
    | fetched _ => cases hcounted
    | _ => exact Bool.false_ne_true
  constructor
  · rw [hfigures, haccepted]
    rfl
  · rw [hfigures, hshown]
    rfl
  · rw [hfigures, hworker, hrefused, hfetched]
    rfl

theorem refl (p : Pipeline ω) : Counts p p [] := still rfl rfl (List.forall_mem_nil _)

end Counts

/-! ### Moves -/

/-- A move that the worker has not come to counts nothing, and there is nothing to count. -/
theorem Counts.of_notDue (m : Move ω) (h : m.isDue p.worker = false) :
    Counts p (m.step p) (m.seen p) := by
  have hdoes := does m p
  generalize m.step p = q, m.seen p = seen at hdoes ⊢
  cases hdoes with
  | nothing _ | foundNone _ => exact .refl p
  | fetched hands _ _ | skipped hands _ | filtered hands _ | stopped hands _ | failed hands _ _ _
  | processed hands _ _ _ | kept hands _ | handedBack hands _ _ | shownNobody hands _ _
  | requeued hands _ | givenNobody hands _ _ =>
    rw [hands] at h
    cases h
  | accepted push _ _ | refused push _ _ _ =>
    rcases push with rfl | rfl
    all_goals cases h
  | turned _ _ => cases h

theorem counts_fetch (p : Pipeline ω) : Counts p p.fetch (Move.fetch.seen p) := by
  rcases hworker : p.worker with _ | _ | b | b | b | b
  case waiting =>
    rcases hpop : p.queue.pop with ⟨b | _ | _, queue⟩
    case buffer =>
      simp only [fetch, Move.seen, hworker, hpop]
      refine ⟨rfl, rfl, ?_⟩
      rw [hworker]
      rfl
    all_goals
      simp only [fetch, Move.seen, hworker, hpop]
      exact .refl p
  all_goals exact .of_notDue .fetch (by rw [hworker]; rfl)

/-- A buffer that is dropped is counted as dropped. -/
theorem counts_drop {reason : DropReason} {b : Buffer} (hfigures : q.figures = p.figures)
    (hworker : inWork p.worker = 1) : Counts p (q.drop reason b) [] := by
  refine ⟨?_, ?_, ?_⟩
  · rw [figures_drop, hfigures]
    rfl
  · rw [figures_drop, hfigures]
    rfl
  · rw [figures_drop, hfigures, hworker]
    rfl

theorem counts_applyFilter (p : Pipeline ω) : Counts p p.applyFilter [] := by
  rcases hworker : p.worker with _ | _ | b | b | b | b
  case fetched =>
    simp only [applyFilter, hworker]
    split
    · exact counts_drop rfl (by rw [hworker]; rfl)
    · exact .still rfl (by rw [hworker]; rfl) (List.forall_mem_nil _)
  all_goals exact .of_notDue .applyFilter (by rw [hworker]; rfl)

theorem counts_process (p : Pipeline ω) : Counts p p.process [] := by
  rcases hworker : p.worker with _ | _ | b | b | b | b
  case filtered =>
    have hwork : inWork p.worker = 1 := by rw [hworker]; rfl
    rcases hassembly : p.assembly with _ | a
    · simp only [process, hworker, hassembly]
      exact counts_drop rfl hwork
    · simp only [process, hworker, hassembly]
      split
      · have hfigures := a.chain.figures_process b.toFrame p.surroundings p.config.name
        split
        · exact counts_drop hfigures hwork
        · exact .still hfigures hwork.symm (List.forall_mem_nil _)
      · exact counts_drop rfl hwork
  all_goals exact .of_notDue .process (by rw [hworker]; rfl)

/-- A buffer that the sink was handed is counted as delivered. -/
theorem counts_shown {b : Buffer} {es : List Event} (hes : es = [.shown b] ∨ es = [.shown b, .kept b])
    (hfigures : q.figures = { p.figures with delivered := p.figures.delivered + 1 })
    (hwork : inWork p.worker = 1) (hdone : inWork q.worker = 0) : Counts p q es := by
  rcases hes with rfl | rfl
  all_goals
    refine ⟨by rw [hfigures]; rfl, by rw [hfigures]; rfl, ?_⟩
    rw [hfigures, hwork, hdone]
    show p.figures.delivered + 1 + p.figures.dropped + 0 =
      p.figures.delivered + p.figures.dropped + 1 + 0 + 0
    omega

theorem counts_handToSink (hsink : p.worker ≠ .absent → p.sink.isSome) :
    Counts p p.handToSink (Move.handToSink.seen p) := by
  rcases hworker : p.worker with _ | _ | b | b | b | b
  case processed =>
    have hwork : inWork p.worker = 1 := by rw [hworker]; rfl
    obtain ⟨k, hk⟩ := Option.isSome_iff_exists.mp (hsink (by rw [hworker]; nofun))
    have hdelivered : (p.withWorld (k.push b p.world).2 |>.count (.delivered p.config.name)).figures =
        { p.figures with delivered := p.figures.delivered + 1 } :=
      Counters.figures_count_delivered ..
    rcases hpush : k.push b p.world with ⟨_ | f, w⟩
    · simp only [handToSink, Move.seen, hworker, hk, hpush]
      rw [hpush] at hdelivered
      exact counts_shown (.inr rfl) ((figures_wait _).trans hdelivered) hwork rfl
    · simp only [handToSink, Move.seen, hworker, hk, hpush]
      rw [hpush] at hdelivered
      exact counts_shown (.inl rfl) hdelivered hwork rfl
  all_goals exact .of_notDue .handToSink (by rw [hworker]; rfl)

theorem counts_giveBack (p : Pipeline ω) : Counts p p.giveBack (Move.giveBack.seen p) := by
  rcases hworker : p.worker with _ | _ | b | b | b | b
  case returning =>
    have hes : ∀ e ∈ Move.giveBack.seen p, e.isCounted = false := by
      intro e he
      simp only [Move.seen, hworker] at he
      split at he
      · next heq =>
        obtain rfl := List.mem_singleton.mp he
        rfl
      · cases he
    have hfigures : p.giveBack.figures = p.figures := by
      simp only [giveBack, hworker]
      rw [figures_wait, figures_requeue]
    have hdone : p.giveBack.worker = .waiting := by
      simp only [giveBack, hworker]
      rfl
    exact .still hfigures (by rw [hdone, hworker]; rfl) hes
  all_goals exact .of_notDue .giveBack (by rw [hworker]; rfl)

theorem figures_deliver_of_active (h : p.status.isActive = true) (b : Buffer) :
    (p.deliver b).2.figures = { p.figures with pushed := p.figures.pushed + 1 } := by
  have hpush := Queue.push_of_active (q := p.queue) h b
  simp only [deliver, hpush]
  exact Counters.figures_count_pushed ..

theorem figures_deliver_of_inactive (h : p.status.isActive = false) (b : Buffer) :
    (p.deliver b).2.figures = { p.figures with dropped := p.figures.dropped + 1 } := by
  have hpush := Queue.push_of_inactive (q := p.queue) h b
  simp only [deliver, hpush]
  exact Counters.figures_count_dropped ..

/-- What is delivered is counted as pushed if it is accepted, and as dropped otherwise. -/
theorem counts_deliver {b : Buffer} (hworker : q.worker = p.worker)
    (hfigures : q.figures = (p.deliver b).2.figures) (sourced : Bool) {o : Outcome}
    (ho : o = .accepted ↔ (p.deliver b).1 = none) : Counts p q [.pushed b sourced o] := by
  rcases hactive : p.status.isActive with _ | _
  · obtain ⟨_, heq⟩ := deliver_of_inactive hactive b
    rw [figures_deliver_of_inactive hactive] at hfigures
    rw [heq] at ho
    cases o with
    | accepted => cases ho.mp rfl
    | handedBack _ | sentHome _ | vanished =>
      refine ⟨by rw [hfigures]; rfl, by rw [hfigures]; rfl, ?_⟩
      rw [hfigures, hworker]
      show p.figures.delivered + (p.figures.dropped + 1) + inWork p.worker =
        p.figures.delivered + p.figures.dropped + inWork p.worker + 1 + 0
      omega
  · obtain ⟨_, heq⟩ := deliver_of_active hactive b
    rw [figures_deliver_of_active hactive] at hfigures
    rw [heq] at ho
    obtain rfl := ho.mpr rfl
    refine ⟨by rw [hfigures]; rfl, by rw [hfigures]; rfl, ?_⟩
    rw [hfigures, hworker]
    rfl

theorem counts_push (p : Pipeline ω) (b : Buffer) :
    Counts p (p.deliver b).2 [p.pushEvent b] := by
  refine counts_deliver (worker_deliver p b) rfl _ ?_
  cases (p.deliver b).1 with
  | none => exact iff_of_true rfl rfl
  | some back => exact iff_of_false nofun nofun

theorem counts_pushImage (p : Pipeline ω) (b : Buffer) :
    Counts p (p.pushImage b) [p.pushImageEvent b] := by
  unfold pushImage
  refine counts_deliver ?_ ?_ _ ?_
  · rw [← worker_deliver p b]
    split
    · next heq => rw [heq]
    · next heq =>
      rw [heq]
      unfold requeue
      split <;> rfl
  · split
    · next heq => rw [heq]
    · next heq => rw [figures_requeue, heq]
  · cases (p.deliver b).1 with
    | none => exact iff_of_true rfl rfl
    | some back =>
      cases p.attachment with
      | none => exact iff_of_false nofun nofun
      | some a => exact iff_of_false nofun nofun

/-- **Moves count as they should**, as long as the worker has a sink. -/
theorem Counts.move (hp : Manned p) (m : Move ω) : Counts p (m.step p) (m.seen p) := by
  cases m with
  | fetch => exact counts_fetch p
  | applyFilter => exact counts_applyFilter p
  | process => exact counts_process p
  | handToSink => exact counts_handToSink fun hworker => (hp (.inr (.inl hworker))).2
  | giveBack => exact counts_giveBack p
  | push b => exact counts_push p b
  | pushImage b => exact counts_pushImage p b
  | turn change => exact .still rfl rfl (List.forall_mem_nil _)

theorem Orderly.counts_moves (h : Orderly x) (ms : List (Move ω)) :
    Counts x.pipeline (x.moves ms).pipeline (Moment.moves ⟨x.pipeline, []⟩ ms).history := by
  induction ms generalizing x with
  | nil => exact .refl x.pipeline
  | cons m ms ih =>
    have hevents : (Moment.moves ⟨x.pipeline, []⟩ (m :: ms)).history =
        m.seen x.pipeline ++ (Moment.moves ⟨m.step x.pipeline, []⟩ ms).history :=
      history_moves (Moment.move ⟨x.pipeline, []⟩ m) ms
    rw [hevents]
    exact (Counts.move h.manned m).trans (ih (h.move m))

/-! ### Control -/

/-- The worker ends with nothing to work on. -/
theorem inWork_eq_zero {w : Worker} (h : movesLeft w = 0) : inWork w = 0 := by
  cases w with
  | absent | waiting | returning _ => rfl
  | fetched _ | filtered _ | processed _ => cases h

theorem Orderly.counts_joinWorker (h : Orderly x) :
    Counts x.pipeline x.pipeline.joinWorker (Deed.joinWorker.seen x.pipeline) := by
  have hmoves := h.counts_moves Move.work
  have hwork : inWork (x.moves Move.work).pipeline.worker = 0 := inWork_eq_zero (movesLeft_work x)
  rw [joinWorker_eq x.pipeline x.history]
  have hjoined : Counts (x.moves Move.work).pipeline
      { (x.moves Move.work).pipeline with worker := .absent } [] :=
    .still rfl hwork.symm (List.forall_mem_nil _)
  have hall := hmoves.trans hjoined
  rwa [List.append_nil] at hall

/-- The source delivers buffers while it is told its status. -/
theorem counts_delivered (source : Source ω) (given : List Buffer) (hpq : p.Beside q) :
    Counts q (given.foldl (deliverFrom source) q) (given.map p.pushEvent) := by
  induction given generalizing q with
  | nil => exact .refl q
  | cons b rest ih =>
    have hfirst : Counts q (deliverFrom source q b) [p.pushEvent b] := by
      rw [← hpq.pushEvent b]
      have htold : Counts (q.deliver b).2 (deliverFrom source q b) [] :=
        .still rfl rfl (List.forall_mem_nil _)
      exact (counts_push q b).trans htold
    exact hfirst.trans (ih (hpq.trans (beside_deliverFrom source q b)))

theorem counts_tellSource (s : Status) (p : Pipeline ω) :
    Counts p ((Deed.tellSource s).step p).2 ((Deed.tellSource s).seen p) := by
  rcases ha : p.attachment with _ | a
  · simp only [Deed.step, Deed.seen, commandSource, ha]
    exact .refl p
  · simp only [Deed.step, Deed.seen, commandSource, ha]
    have htold : Counts p (p.withWorld (a.source.setStatus s p.world).2.2)
        [.told .source s (a.source.setStatus s p.world).1] := by
      refine .still rfl rfl ?_
      intro e he
      obtain rfl := List.mem_singleton.mp he
      rfl
    exact htold.trans (counts_delivered a.source _ (beside_withWorld p _))

/-- What waits is returned, and nothing is counted of it. -/
theorem counts_returnWaiting (p : Pipeline ω) :
    Counts p p.returnWaiting (Deed.returnWaiting.seen p) := by
  have hfigures : p.returnWaiting.figures = p.figures := figures_requeueAll ..
  obtain ⟨_, hleft⟩ := exists_surroundings_returnWaiting p
  have hworker : p.returnWaiting.worker = p.worker := by rw [hleft]
  apply Counts.still hfigures (by rw [hworker])
  intro e he
  cases Deed.lets_of_mem_seen he with
  | cleared b => rfl

theorem counts_startWorker (hworker : p.worker = .absent) :
    Counts p (startWorker p).2 [] := by
  rcases startWorker_cases p with ⟨-, -, heq⟩ | heq
  · rw [heq]
    exact .still rfl (by rw [hworker]; rfl) (List.forall_mem_nil _)
  · rw [heq]
    exact .refl p

@[simp] theorem figures_leaveError (p : Pipeline ω) : p.leaveError.figures = p.figures := by
  unfold leaveError
  split <;> rfl

/-- Deeds that leave buffers alone count nothing of them. -/
theorem figures_deed {d : Deed ω} (h : d.leavesBuffers) (p : Pipeline ω) :
    (d.step p).2.figures = p.figures := by
  cases d with
  | tellFilter _ | requireParts | configureFilter _ | discard => rfl
  | countNegotiation planned => exact Counters.figures_countNegotiation ..
  | requeue b => exact figures_requeue p b
  | tellSink _ | tellStages _ | configureSource _ | offerPool | configureSink _
  | setDropIncomplete _ =>
    simp only [Deed.step, commandSink, commandChain, configureSource, offerPool, configureSink,
      setDropIncomplete]
    split <;> rfl
  | assemble plan actual =>
    rcases assemble_cases plan actual p with ⟨chain, w, -, -, heq⟩ | ⟨err, w, -, heq⟩
    · rw [Deed.step, heq]
      rfl
    · rw [Deed.step, heq]
      rfl
  | setSource source =>
    simp only [Deed.step, setSource]
    split
    · rfl
    · split <;> rfl
  | setFilter filter =>
    simp only [Deed.step, setFilter]
    split <;> rfl
  | setSink sink =>
    simp only [Deed.step, setSink]
    split
    · rfl
    · exact figures_leaveError _
  | request s =>
    simp only [Deed.step, Pipeline.request]
    split
    · rfl
    · exact figures_leaveError _
  | requestFormat f =>
    simp only [Deed.step, requestFormat, Pipeline.request]
    rcases p.ensureIdle .request with _ | err
    · exact figures_leaveError { p with requested := .ofFormat f, requestedFormat := none }.discard
    · rfl
  | enter _ | tellSource _ | startWorker | joinWorker | returnWaiting | letGo => cases h

/-- **Deeds count as they should**, in the places they are done. -/
theorem Orderly.counts_deed {C : PropertyFilter ω → Prop} (h : Orderly x) {d : Deed ω}
    (hahead : (protocol C).ahead d x) :
    Counts x.pipeline (d.step x.pipeline).2 (d.seen x.pipeline) := by
  by_cases hleaves : d.leavesBuffers
  · have hworker := (still_deed hleaves x.pipeline).worker
    refine .still (figures_deed hleaves x.pipeline) (by rw [hworker]) ?_
    intro e he
    have hbooked := isBooked_of_leavesBuffers hleaves x.pipeline e he
    cases e with
    | pushed _ _ _ | fetched _ | shown _ => cases hbooked
    | _ => rfl
  · cases d with
    | enter s => exact .still rfl rfl (List.forall_mem_nil _)
    | letGo => exact .still rfl rfl (List.forall_mem_nil _)
    | tellSource s => exact counts_tellSource s x.pipeline
    | startWorker => exact counts_startWorker hahead
    | joinWorker => exact h.counts_joinWorker
    | returnWaiting => exact counts_returnWaiting x.pipeline
    | _ => exact absurd rfl hleaves

/-! ### At all times -/

/-- The books are right, and as much was counted since a start as is in them. -/
structure Balanced (start : Pipeline ω) (x : Moment ω) : Prop extends Orderly x where
  counts : Counts start x.pipeline x.history

namespace Balanced

variable {start : Pipeline ω}

theorem move (h : Balanced start x) (m : Move ω) : Balanced start (x.move m) :=
  ⟨h.toOrderly.move m, h.counts.trans (.move h.manned m)⟩

theorem deed {C : PropertyFilter ω → Prop} (h : Balanced start x) {d : Deed ω}
    (hahead : (protocol C).ahead d x) : Balanced start (x.deed d) :=
  ⟨h.toOrderly.deed hahead, h.counts.trans (h.toOrderly.counts_deed hahead)⟩

end Balanced

/-- **What is counted is what is seen**, after every schedule. -/
theorem balanced_run (registry : Registry (Blueprint ω)) (config : PipelineConfig) (world : ω)
    (schedule : List (Choice ω)) :
    Balanced (create registry config world)
      ((Scene.opening registry config world).run schedule).toMoment := by
  apply Scene.induction (safe_opening (C := fun _ => True) registry config world)
  · exact ⟨orderly_opening registry config world, .refl _⟩
  · intro x m h
    exact h.move m
  · intro x d hahead h
    exact h.deed hahead
  · exact (meets_true schedule).safe

end Pipeline
end CameraStream
