import CameraStream.Proofs.Pipeline.Books
import CameraStream.Proofs.Pipeline.Contact
import CameraStream.Proofs.Pipeline.Outline

/-!
# Every buffer is accounted for

The books of buffers are right after every schedule, whatever was called, whatever the parts answered,
and however calls, the worker and producers took turns (**`accounted_run`**): moves keep them
(`Accounted.move`), and so do deeds, as long as source and sink are there while there is anything to do
with buffers (`Manned`). The books are made from what is seen, and the source and the sink have received
what is seen to go to them (`performed_run`).
-/

namespace CameraStream.Pipeline

variable {ω : Type} {p q : Pipeline ω} {x y : Moment ω}

/-! ### Parts for buffers -/

/-- While there is anything to do with buffers, source and sink are there. -/
def Manned (p : Pipeline ω) : Prop :=
  p.status.isActive = true ∨ p.worker ≠ .absent ∨ p.queue.buffers ≠ [] →
    p.attachment.isSome ∧ p.sink.isSome

theorem Manned.beside (h : Manned p) (hq : p.Beside q) : Manned q := by
  intro hneeded
  rw [hq.attachment, hq.sink]
  rcases hactive : p.status.isActive with _ | _
  · rcases hneeded with hneeded | hneeded | hneeded
    · rw [hq.status, hactive] at hneeded
      cases hneeded
    · exact h (.inr (.inl (hq.worker.not.mp hneeded)))
    · exact h (.inr (.inr (hq.waiting hactive ▸ hneeded)))
  · exact h (.inl hactive)

theorem Manned.of_hands (h : Manned p) {w : Worker} (hands : p.worker = w) (hw : w ≠ .absent) :
    p.attachment.isSome ∧ p.sink.isSome :=
  h (.inr (.inl (hands ▸ hw)))

/-! ### Moves -/

theorem Accounted.move {h : List Event} (hp : Manned p) (hx : Accounted p h) (m : Move ω) :
    Accounted (m.step p) (h ++ m.seen p) := by
  have hdoes := does m p
  generalize m.step p = q, m.seen p = seen at hdoes ⊢
  cases hdoes with
  | nothing _ | foundNone _ | turned _ _ => exact hx.still rfl rfl (List.forall_mem_nil _)
  | @fetched b rest hands _ waiting =>
    refine hx.handled hands (List.forall_mem_singleton.mpr rfl) fun taken soFar hhand => ?_
    cases hhand
    exact ⟨[], [b], [.fetched b], List.forall_mem_nil _, .fetched b, waiting, rfl⟩
  | skipped hands _ =>
    refine hx.handled_unseen hands rfl fun taken soFar hhand => ?_
    cases hhand
    exact .dropped rfl
  | filtered hands _ =>
    refine hx.handled_unseen hands rfl fun taken soFar hhand => ?_
    cases hhand
    exact .filtered rfl
  | stopped hands _ | failed hands _ _ _ =>
    refine hx.handled_unseen hands rfl fun taken soFar hhand => ?_
    cases hhand with
    | filtered slot => exact .dropped slot
  | processed hands _ _ _ =>
    refine hx.handled_unseen hands rfl fun taken soFar hhand => ?_
    cases hhand with
    | filtered slot => exact .processed slot
  | @kept b hands _ =>
    refine hx.handled hands (List.forall_mem_cons.mpr ⟨rfl, List.forall_mem_singleton.mpr rfl⟩)
      fun taken soFar hhand => ?_
    cases hhand with
    | @processed b₀ _ slot =>
      exact ⟨[.kept b₀ b], [], [], List.forall_mem_singleton.mpr slot, .waiting, rfl, rfl⟩
  | handedBack hands _ _ =>
    refine hx.handled hands (List.forall_mem_singleton.mpr rfl) fun taken soFar hhand => ?_
    cases hhand with
    | @processed b₀ _ slot =>
      exact ⟨[], [b₀], _, List.forall_mem_nil _, .handedBack slot slot, rfl, rfl⟩
  | @requeued b hands _ =>
    refine hx.handled hands (List.forall_mem_singleton.mpr rfl) fun taken soFar hhand => ?_
    cases hhand with
    | @dropped b₀ _ slot =>
      exact ⟨[.dropped b₀ b], [], [], List.forall_mem_singleton.mpr slot, .waiting, rfl, rfl⟩
    | @handedBack b₀ shown _ slot slot' =>
      exact ⟨[.handedBack b₀ shown b], [], [], List.forall_mem_singleton.mpr ⟨slot, slot'⟩,
        .waiting, rfl, rfl⟩
  | shownNobody hands sink _ =>
    -- Somebody is there as long as the worker has something in its hands.
    have hsink := (hp.of_hands hands nofun).2
    rw [sink] at hsink
    cases hsink
  | givenNobody hands source _ =>
    have hsource := (hp.of_hands hands nofun).1
    rw [source] at hsource
    cases hsource
  | accepted _ active _ => exact hx.accepts (hp (.inl active)).1 rfl rfl
  | refused _ refused fair _ => exact hx.refuses refused fair rfl rfl

/-- The books are right, and there are parts for all that is in them. -/
structure Orderly (x : Moment ω) : Prop extends Accounted x.pipeline x.history where
  manned : Manned x.pipeline

theorem Orderly.move (h : Orderly x) (m : Move ω) : Orderly (x.move m) :=
  ⟨h.toAccounted.move h.manned m, h.manned.beside (beside_step m x.pipeline)⟩

theorem Orderly.moves (h : Orderly x) (ms : List (Move ω)) : Orderly (x.moves ms) := by
  induction ms generalizing x with
  | nil => exact h
  | cons m ms ih => exact ih (h.move m)

/-! ### The end of the worker -/

/-- How many of its moves the worker is away from having empty hands. -/
def movesLeft : Worker → Nat
  | .absent | .waiting => 0
  | .returning _ => 1
  | .processed _ => 2
  | .filtered _ => 3
  | .fetched _ => 4

theorem movesLeft_le (w : Worker) : movesLeft w ≤ 4 := by
  cases w with
  | absent | waiting | fetched _ | filtered _ | processed _ | returning _ =>
    exact Nat.le_of_ble_eq_true rfl

/-- How many of its moves the worker has left when it has come to one. -/
def Move.place : Move ω → Nat
  | giveBack => 1
  | handToSink => 2
  | process => 3
  | applyFilter => 4
  | fetch | push _ | pushImage _ | turn _ => 0

theorem isDue_of_movesLeft {m : Move ω} (hm : m ∈ Move.work) {w : Worker} (hw : movesLeft w = m.place) :
    m.isDue w = true := by
  simp only [Move.work, List.mem_cons, List.not_mem_nil, or_false] at hm
  rcases hm with rfl | rfl | rfl | rfl
  all_goals
    cases w with
    | absent | waiting | fetched _ | filtered _ | processed _ | returning _ => first | rfl | cases hw

/-- By each of its moves, in order, the worker comes closer to having empty hands. -/
theorem movesLeft_step {m : Move ω} (hm : m ∈ Move.work) (h : movesLeft p.worker ≤ m.place) :
    movesLeft (m.step p).worker < m.place := by
  have hdoes := does m p
  generalize m.step p = q, m.seen p = seen at hdoes ⊢
  cases hdoes with
  | nothing notDue =>
    refine Nat.lt_of_le_of_ne h fun hplace => ?_
    rw [isDue_of_movesLeft hm hplace] at notDue
    cases notDue
  | skipped _ _ | filtered _ _ | stopped _ _ | failed _ _ _ _ | processed _ _ _ _ | kept _ _
  | handedBack _ _ _ | shownNobody _ _ _ | requeued _ _ | givenNobody _ _ _ =>
    exact Nat.le_of_ble_eq_true rfl
  | foundNone _ | fetched _ _ _ | turned _ _ => simp [Move.work] at hm
  | accepted push _ _ | refused push _ _ _ =>
    rcases push with rfl | rfl
    all_goals simp [Move.work] at hm

theorem movesLeft_work (x : Moment ω) : movesLeft (x.moves Move.work).pipeline.worker = 0 := by
  have hfilter := movesLeft_step (m := .applyFilter) (by simp [Move.work])
    (movesLeft_le x.pipeline.worker)
  have hprocess := movesLeft_step (m := .process) (by simp [Move.work]) (Nat.le_of_lt_succ hfilter)
  have hsink := movesLeft_step (m := .handToSink) (by simp [Move.work]) (Nat.le_of_lt_succ hprocess)
  have hback := movesLeft_step (m := .giveBack) (by simp [Move.work]) (Nat.le_of_lt_succ hsink)
  exact Nat.lt_one_iff.mp hback

theorem InHand.eq_nil {w : Worker} {taken : List Buffer} {soFar : List Event}
    (h : InHand w taken soFar) (hw : movesLeft w = 0) : taken = [] ∧ soFar = [] := by
  cases h with
  | absent | waiting => exact ⟨rfl, rfl⟩
  | fetched _ | filtered _ | processed _ | dropped _ | handedBack _ _ => cases hw

/-- What is seen of moves does not depend on what was seen before. -/
theorem history_moves (x : Moment ω) (ms : List (Move ω)) :
    (x.moves ms).history = x.history ++ (Moment.moves ⟨x.pipeline, []⟩ ms).history := by
  induction ms generalizing x with
  | nil => exact (List.append_nil _).symm
  | cons m ms ih =>
    calc (x.moves (m :: ms)).history
        = (x.history ++ m.seen x.pipeline) ++
            (Moment.moves ⟨m.step x.pipeline, []⟩ ms).history := ih (x.move m)
      _ = x.history ++ (m.seen x.pipeline ++
            (Moment.moves ⟨m.step x.pipeline, []⟩ ms).history) := List.append_assoc ..
      _ = x.history ++ (Moment.moves ⟨x.pipeline, []⟩ (m :: ms)).history := by
        exact congrArg (x.history ++ ·) (ih (Moment.move ⟨x.pipeline, []⟩ m)).symm

theorem Orderly.joined (h : Orderly x) : Orderly (x.deed .joinWorker) := by
  have hwork := h.moves Move.work
  have hhistory : (x.deed .joinWorker).history = (x.moves Move.work).history :=
    (history_moves x Move.work).symm
  obtain ⟨journeys, taken, soFar, hsame, hhand, horder, hevents⟩ := hwork.journeys
  -- The worker goes with empty hands.
  obtain ⟨rfl, rfl⟩ := hhand.eq_nil (movesLeft_work x)
  refine ⟨⟨hhistory ▸ hwork.fair, journeys, [], [], hsame, .absent, ?_, ?_⟩, fun hneeded => ?_⟩
  · rw [hhistory]
    exact horder
  · rw [hhistory]
    exact hevents
  · refine hwork.manned (hneeded.imp_right fun hneeded => ?_)
    exact .inr (hneeded.resolve_left (absurd rfl))

/-! ### Other deeds -/

/-- The source delivers buffers while it is told its status. -/
theorem Accounted.delivered (source : Source ω) (given : List Buffer) {h : List Event}
    (hpq : p.Beside q) (hq : Manned q) (hx : Accounted q h) :
    Accounted (given.foldl (deliverFrom source) q) (h ++ given.map p.pushEvent) := by
  induction given generalizing q h with
  | nil =>
    rw [List.map_nil, List.append_nil]
    exact hx
  | cons b rest ih =>
    have hnext := beside_deliverFrom source q b
    have hfirst : Accounted (deliverFrom source q b) (h ++ [p.pushEvent b]) := by
      rw [← hpq.pushEvent b]
      exact (hx.move hq (.push b)).still_nil rfl rfl
    have hrest := ih (hpq.trans hnext) (hq.beside hnext) hfirst
    rwa [List.append_assoc] at hrest

theorem Orderly.toldSource (h : Orderly x) (s : Status) : Orderly (x.deed (.tellSource s)) := by
  refine ⟨?_, h.manned.beside (beside_tell s .source x.pipeline)⟩
  rcases ha : x.pipeline.attachment with _ | a
  · simp only [Moment.deed, Deed.step, Deed.seen, commandSource, ha, List.append_nil]
    exact h.toAccounted
  · have hworld : Accounted (x.pipeline.withWorld (a.source.setStatus s x.pipeline.world).2.2)
        (x.history ++ [.told .source s (a.source.setStatus s x.pipeline.world).1]) :=
      h.toAccounted.still rfl rfl fun e he => by
        obtain rfl := List.mem_singleton.mp he
        rfl
    have hbeside := beside_withWorld x.pipeline (a.source.setStatus s x.pipeline.world).2.2
    have hgiven := hworld.delivered a.source (a.source.setStatus s x.pipeline.world).2.1 hbeside
      (h.manned.beside hbeside)
    rw [List.append_assoc] at hgiven
    simp only [Moment.deed, Deed.step, Deed.seen, commandSource, ha]
    exact hgiven

theorem exists_surroundings_requeueAll (p : Pipeline ω) (bs : List Buffer) :
    ∃ surroundings, p.requeueAll bs = { p with surroundings } := by
  induction bs generalizing p with
  | nil => exact ⟨p.surroundings, rfl⟩
  | cons b bs ih =>
    obtain ⟨first, hfirst⟩ := Deed.exists_surroundings (d := .requeue b) rfl p
    obtain ⟨rest, hrest⟩ := ih { p with surroundings := first }
    have hrequeue : p.requeue b = { p with surroundings := first } := hfirst
    refine ⟨rest, ?_⟩
    rw [requeueAll, List.foldl_cons, hrequeue]
    exact hrest

theorem exists_surroundings_returnWaiting (p : Pipeline ω) :
    ∃ surroundings, p.returnWaiting =
      { p with queue := { p.queue with buffers := [] }, surroundings } :=
  exists_surroundings_requeueAll _ p.queue.buffers

/-- What waits is seen to go to the source, which is there. -/
theorem seen_returnWaiting (h : Manned p) :
    Deed.returnWaiting.seen p = p.queue.buffers.map .requeued := by
  simp only [Deed.seen]
  split
  · next hnone =>
    rcases hbuffers : p.queue.buffers with _ | ⟨b, bs⟩
    · rfl
    · have hsource := (h (.inr (.inr (hbuffers ▸ List.cons_ne_nil b bs)))).1
      rw [hnone] at hsource
      cases hsource
  · rfl

/-- What waits goes to the source, in order, when the worker is gone. -/
theorem Orderly.returned (h : Orderly x) (hworker : x.pipeline.worker = .absent) :
    Orderly (x.deed .returnWaiting) := by
  obtain ⟨surroundings, hleft⟩ := exists_surroundings_returnWaiting x.pipeline
  constructor
  · show Accounted x.pipeline.returnWaiting (x.history ++ Deed.returnWaiting.seen x.pipeline)
    rw [seen_returnWaiting h.manned, hleft]
    refine h.toAccounted.handled hworker (fun e he => ?_) fun taken soFar hhand => ?_
    · obtain ⟨b, -, rfl⟩ := List.mem_map.mp he
      rfl
    · -- The worker has nothing, and all that waits is over at once.
      cases hhand
      refine ⟨x.pipeline.queue.buffers.map .cleared, [], [], fun c hc => ?_, ?_, ?_, ?_⟩
      · obtain ⟨b, -, rfl⟩ := List.mem_map.mp hc
        trivial
      · rw [hworker]
        exact .absent
      · rw [List.map_map, List.append_nil, List.append_nil]
        exact (List.map_id _).symm
      · rw [List.flatMap_map, List.append_nil]
        exact List.map_eq_flatMap ..
  · show Manned x.pipeline.returnWaiting
    rw [hleft]
    exact fun hneeded => h.manned (hneeded.imp_right fun hneeded =>
      .inl (hneeded.resolve_right (absurd rfl)))

/-- Nothing happens to buffers, and what they need stays. -/
structure Still (p q : Pipeline ω) : Prop where
  worker : q.worker = p.worker
  buffers : q.queue.buffers = p.queue.buffers
  active : q.status.isActive = true → p.status.isActive = true
  source : p.attachment.isSome → q.attachment.isSome
  sink : p.sink.isSome → q.sink.isSome

namespace Still

theorem trans {r : Pipeline ω} (h : Still p q) (h' : Still q r) : Still p r :=
  ⟨h'.worker.trans h.worker, h'.buffers.trans h.buffers, h.active ∘ h'.active, h'.source ∘ h.source,
    h'.sink ∘ h.sink⟩

theorem refl (p : Pipeline ω) : Still p p := ⟨rfl, rfl, id, id, id⟩

theorem leaveError (p : Pipeline ω) : Still p p.leaveError := by
  unfold Pipeline.leaveError
  split
  · exact ⟨rfl, rfl, nofun, id, id⟩
  · exact refl p

theorem manned (h : Still p q) (hp : Manned p) : Manned q := by
  intro hneeded
  rw [h.worker, h.buffers] at hneeded
  obtain ⟨hsource, hsink⟩ := hp (hneeded.imp_left h.active)
  exact ⟨h.source hsource, h.sink hsink⟩

end Still

/-- Deeds that do nothing to buffers and let nothing go. -/
def Deed.leavesBuffers : Deed ω → Bool
  | .tellSink _ | .tellStages _ | .tellFilter _ | .requireParts | .discard | .countNegotiation _
  | .configureSource _ | .offerPool | .configureSink _ | .configureFilter _ | .assemble _ _
  | .setSource _ | .setSink _ | .setFilter _ | .request _ | .requestFormat _
  | .setDropIncomplete _ | .requeue _ => true
  | .enter _ | .tellSource _ | .startWorker | .joinWorker | .returnWaiting | .letGo => false

theorem still_outward {d : Deed ω} (h : d.isOutward) (p : Pipeline ω) : Still p (d.step p).2 := by
  obtain ⟨surroundings, heq⟩ := Deed.exists_surroundings h p
  rw [heq]
  exact ⟨rfl, rfl, id, id, id⟩

theorem still_deed {d : Deed ω} (h : d.leavesBuffers) (p : Pipeline ω) : Still p (d.step p).2 := by
  cases d with
  | tellSink _ | tellFilter _ | requireParts | countNegotiation _ | configureSource _ | offerPool
  | configureSink _ | configureFilter _ | setDropIncomplete _ | requeue _ => exact still_outward rfl p
  | discard => exact ⟨rfl, rfl, id, id, id⟩
  | tellStages s =>
    simp only [Deed.step, commandChain]
    split
    · exact .refl p
    · exact ⟨rfl, rfl, id, id, id⟩
  | assemble plan actual =>
    simp only [Deed.step]
    rcases assemble_cases plan actual p with ⟨chain, w, _, _, heq⟩ | ⟨err, w, _, heq⟩
    · rw [heq]
      exact ⟨rfl, rfl, id, id, id⟩
    · rw [heq]
      exact ⟨rfl, rfl, id, id, id⟩
  | setSource source =>
    simp only [Deed.step, setSource]
    split
    · exact .refl p
    · split
      · exact .refl p
      · exact ⟨rfl, rfl, fun h => absurd h Bool.false_ne_true, fun _ => rfl, id⟩
  | setSink sink =>
    simp only [Deed.step, setSink]
    split
    · exact .refl p
    · have hsink : Still p { p with sink := some sink }.discard :=
        ⟨rfl, rfl, id, id, fun _ => rfl⟩
      exact hsink.trans (.leaveError _)
  | setFilter filter =>
    simp only [Deed.step, setFilter]
    split
    · exact .refl p
    · exact ⟨rfl, rfl, id, id, id⟩
  | request s =>
    simp only [Deed.step, Pipeline.request]
    split
    · exact .refl p
    · have hrequest : Still p { p with requested := s, requestedFormat := none }.discard :=
        ⟨rfl, rfl, id, id, id⟩
      exact hrequest.trans (.leaveError _)
  | requestFormat f =>
    simp only [Deed.step, requestFormat, Pipeline.request]
    rcases p.ensureIdle .request with _ | err
    · have hrequest : Still p { p with requested := .ofFormat f, requestedFormat := none }.discard :=
        ⟨rfl, rfl, id, id, id⟩
      have hleft := hrequest.trans (.leaveError _)
      exact ⟨hleft.worker, hleft.buffers, hleft.active, hleft.source, hleft.sink⟩
    · exact .refl p
  | enter _ | tellSource _ | startWorker | joinWorker | returnWaiting | letGo => cases h

theorem isBooked_of_leavesBuffers {d : Deed ω} (h : d.leavesBuffers) (p : Pipeline ω) :
    ∀ e ∈ d.seen p, e.isBooked = false := by
  intro e he
  cases Deed.lets_of_mem_seen he with
  | toldSink _ _ | toldStages _ _ | toldFilter _ _ | announced _ _ | assembled _ _ | attachedSource _
  | attachedSink _ | attachedFilter _ | returned _ => rfl
  | toldSource _ _ | given _ _ _ _ | worked _ | cleared _ => cases h

/-! ### At all times -/

theorem Orderly.started (h : Orderly x) (hworker : x.pipeline.worker = .absent) :
    Orderly (x.deed .startWorker) := by
  rcases startWorker_cases x.pipeline with ⟨hsource, hsink, heq⟩ | heq
  · have hpipeline : (x.deed .startWorker).pipeline = { x.pipeline with worker := .waiting } :=
      congrArg Prod.snd heq
    constructor
    · rw [hpipeline]
      refine h.toAccounted.handled_unseen hworker rfl fun taken soFar hhand => ?_
      cases hhand
      exact .waiting
    · rw [hpipeline]
      exact fun _ => ⟨hsource, hsink⟩
  · have hpipeline : (x.deed .startWorker).pipeline = x.pipeline := heq
    constructor
    · rw [hpipeline]
      exact h.toAccounted.still rfl rfl (List.forall_mem_nil _)
    · rw [hpipeline]
      exact h.manned

theorem Orderly.deed {C : PropertyFilter ω → Prop} (h : Orderly x) {d : Deed ω}
    (hahead : (protocol C).ahead d x) : Orderly (x.deed d) := by
  by_cases hleaves : d.leavesBuffers
  · have hstill := still_deed hleaves x.pipeline
    exact ⟨h.toAccounted.still hstill.worker hstill.buffers
      (isBooked_of_leavesBuffers hleaves x.pipeline), hstill.manned h.manned⟩
  · cases d with
    | enter s =>
      refine ⟨h.toAccounted.still rfl rfl (List.forall_mem_nil _), fun hneeded => ?_⟩
      rcases hneeded with hactive | hneeded
      · exact hahead hactive
      · exact h.manned (.inr hneeded)
    | letGo =>
      refine ⟨h.toAccounted.still rfl rfl (List.forall_mem_nil _), fun hneeded => ?_⟩
      rcases hneeded with hactive | hworker | hbuffers
      · cases hactive
      · exact absurd hahead.worker hworker
      · exact absurd hahead.waiting hbuffers
    | tellSource s => exact h.toldSource s
    | startWorker => exact h.started hahead
    | joinWorker => exact h.joined
    | returnWaiting => exact h.returned hahead
    | _ => exact absurd rfl hleaves

theorem orderly_opening (registry : Registry (Blueprint ω)) (config : PipelineConfig) (world : ω) :
    Orderly (Scene.opening registry config world).toMoment where
  fair _ _ _ h := absurd h List.not_mem_nil
  journeys := ⟨[], [], [], List.forall_mem_nil _, .absent, rfl, rfl⟩
  manned hneeded := by
    rcases hneeded with hactive | hworker | hbuffers
    · cases hactive
    · exact absurd rfl hworker
    · exact absurd rfl hbuffers

/-- **Every buffer is accounted for at all times**, and between calls a pipeline that is not active
has none: all that were accepted have come to their end. What the books are made from was performed:
a buffer that is seen to go to the source, or to be shown to the sink, did so. -/
theorem accounted_run (registry : Registry (Blueprint ω)) (config : PipelineConfig) (world : ω)
    (schedule : List (Choice ω)) :
    let opening := Scene.opening registry config world
    let scene := opening.run schedule
    Accounted scene.pipeline scene.history ∧ InOrder (shown scene.history) (accepted scene.history) ∧
      ((∃ err, scene.todo = .done err) → scene.pipeline.status.isActive = false →
        scene.pipeline.worker = .absent ∧ scene.pipeline.queue.buffers = []) ∧
      Performed Contact opening.pipeline.cast (schedule.flatMap Choice.turns) scene.history
        scene.pipeline.cast := by
  intro opening scene
  have horderly : Orderly scene.toMoment :=
    Scene.induction (safe_opening (C := fun _ => True) registry config world)
      (orderly_opening registry config world) (fun _ m h => h.move m)
      (fun _ _ hahead h => h.deed hahead) schedule (meets_true schedule).safe
  refine ⟨horderly.toAccounted, horderly.toAccounted.inOrder, fun ⟨err, hdone⟩ hinactive => ?_,
    performed_from rfl schedule⟩
  rcases (stands_between_calls registry config world schedule hdone).1 with hidle | hbusy
  · exact ⟨hidle.worker, hidle.waiting⟩
  · rw [hbusy.status] at hinactive
    cases hinactive

end CameraStream.Pipeline
