import CameraStream.Proofs.Library
import CameraStream.Proofs.Pipeline.Accounting
import CameraStream.Proofs.Pipeline.Representation

/-!
# In which format the sink is shown buffers

The sink was told one format, and the plan that the chain was built from says that buffers reach it in
this format. But it is the stages alone that look at formats, each at the one it takes. Let all stages
be the library's own, and let property filters keep formats. Then a buffer that the sink is shown has
the announced format exactly if it came in the format that the plan expects of the source, and
if there is a stage at all, it has come in that format (**`shown_as_announced_iff`**). A plan without
stages lets every buffer through as it came, in whatever format
(`shown_mislabelled`).
-/

namespace CameraStream.Pipeline

variable {ω : Type} {p q : Pipeline ω} {x y : Moment ω}

/-! ### What the worker took last -/

/-- The buffer that the worker took last, as it was then. -/
def lastFetched (h : List Event) : Option Buffer :=
  (h.filterMap fun
    | .fetched b => some b
    | _ => none).getLast?

theorem lastFetched_fetched (h : List Event) (b : Buffer) : lastFetched (h ++ [.fetched b]) = some b := by
  rw [lastFetched, List.filterMap_append]
  exact List.getLast?_concat ..

theorem lastFetched_append {h h' : List Event} (hh' : ∀ e ∈ h', ∀ b, e ≠ .fetched b) :
    lastFetched (h ++ h') = lastFetched h := by
  have hnone : (h'.filterMap fun
      | .fetched b => some b
      | _ => none) = [] := by
    refine List.filterMap_eq_nil_iff.mpr fun e he => ?_
    cases e with
    | fetched b => exact absurd rfl (hh' _ he b)
    | _ => rfl
  rw [lastFetched, lastFetched, List.filterMap_append, hnone, List.append_nil]

/-! ### Formats on the way -/

/-- What getting through the stages of a plan says of the format before and after. -/
structure Through (plan : Plan) (before after : VideoFormat) : Prop where
  looked : plan.stages ≠ [] → before = plan.sourceFormat ∧ after = plan.sinkFormat
  overlooked : plan.stages = [] → after = before

/-- How the format of what the worker has in its hands comes from the format of what it took. -/
def Traced (plan? : Option Plan) (last : Option Buffer) : Worker → Prop
  | .fetched b => last = some b
  | .filtered b => ∃ taken, last = some taken ∧ b.format = taken.format
  | .processed b => ∃ taken plan, last = some taken ∧ plan? = some plan ∧
      Through plan taken.format b.format
  | .absent | .waiting | .returning _ => True

def Moment.Traced (x : Moment ω) : Prop :=
  Pipeline.Traced x.pipeline.plan (lastFetched x.history) x.pipeline.worker

theorem traced_of_movesLeft (h : movesLeft x.pipeline.worker ≤ 1) : x.Traced := by
  unfold Moment.Traced
  rcases hworker : x.pipeline.worker with _ | _ | b | b | b | b
  case fetched | filtered | processed =>
    rw [hworker, movesLeft] at h
    omega
  all_goals trivial

theorem Moment.Traced.still (h : x.Traced) (hworker : y.pipeline.worker = x.pipeline.worker)
    (hplan : y.pipeline.plan = x.pipeline.plan) (hlast : lastFetched y.history = lastFetched x.history) :
    y.Traced := by
  unfold Moment.Traced at h ⊢
  rw [hworker, hplan, hlast]
  exact h

/-- A property filter that changes no format. -/
def KeepsFormat (f : PropertyFilter ω) : Prop := ∀ frame w, (f.apply frame w).1.format = frame.format

theorem Alike.plan (h : p.Alike q) : q.plan = p.plan := by
  have hc := h.assembly
  unfold Pipeline.plan
  generalize p.assembly = a, q.assembly = b at hc
  cases hc with
  | none => rfl
  | some hab => exact congrArg some hab.plan

/-- What gets through a chain that was built from its plan by stages of the library. -/
theorem BuiltFrom.through (hlibrary : p.registry.IsLibrary) {a : Assembly ω} (h : BuiltFrom p a)
    {f : Frame} {e : Surroundings ω} (hok : (Chain.run a.chain.stages f e).error = none) :
    Through a.plan f.format (Chain.run a.chain.stages f e).frame.format := by
  obtain ⟨chain, w, w', actual, hbuild, -, -, hchain⟩ := h.built
  have hrealizes : Realizes a.plan.stages a.chain.stages :=
    (Realizes.of_makeStages hlibrary (Chain.build_ok hbuild).1).continues hchain.stages
  have hformats := hrealizes.format_run (Negotiation.continuous_of_negotiate h.negotiated) hok
  exact ⟨hformats.1, hformats.2⟩

/-! ### Moves -/

theorem Moment.Traced.move {registry : Registry (Blueprint ω)} (hlibrary : registry.IsLibrary)
    (hsound : Sound registry KeepsFormat x) (h : x.Traced) (m : Move ω) : (x.move m).Traced := by
  have hplan : (m.step x.pipeline).plan = x.pipeline.plan := (beside_step m x.pipeline).toAlike.plan
  have hdoes := does m x.pipeline
  unfold Moment.Traced at h
  show Pipeline.Traced (m.step x.pipeline).plan (lastFetched (x.history ++ m.seen x.pipeline))
    (m.step x.pipeline).worker
  generalize m.step x.pipeline = q, m.seen x.pipeline = seen at hplan hdoes ⊢
  rw [hplan]
  cases hdoes with
  | nothing _ | foundNone _ | turned _ _ =>
    rw [List.append_nil]
    exact h
  | fetched _ _ _ => exact lastFetched_fetched ..
  | @filtered b hands _ =>
    rw [hands] at h
    rw [List.append_nil]
    exact ⟨b, h, hsound.filter b.toFrame x.pipeline.world⟩
  | @processed b a done hands assembly run ok =>
    -- The only case with an argument: no stage has failed, so each has looked at the format.
    rw [hands] at h
    rw [List.append_nil]
    obtain ⟨taken, hlast, hformat⟩ := h
    have hbuilt := (hsound.assembly a assembly).1
    have hthrough := hbuilt.through (hsound.registry.symm ▸ hlibrary) (run ▸ ok)
    rw [run] at hthrough
    exact ⟨taken, a.plan, hlast, congrArg (Option.map Assembly.plan) assembly, hformat ▸ hthrough⟩
  | accepted _ _ _ | refused _ _ _ _ =>
    rw [lastFetched_append (List.forall_mem_singleton.mpr fun _ hb => by cases hb)]
    exact h
  | skipped _ _ | stopped _ _ | failed _ _ _ _ | kept _ _ | handedBack _ _ _ | shownNobody _ _ _
  | requeued _ _ | givenNobody _ _ _ => trivial

/-! ### Deeds -/

theorem lastFetched_of_unbooked {h h' : List Event} (hh' : ∀ e ∈ h', e.isBooked = false) :
    lastFetched (h ++ h') = lastFetched h := by
  refine lastFetched_append fun e he b hfetched => ?_
  have hbooked := hh' e he
  rw [hfetched] at hbooked
  cases hbooked

theorem lastFetched_tellSource (s : Status) (x : Moment ω) :
    lastFetched (x.deed (.tellSource s)).history = lastFetched x.history := by
  refine lastFetched_append fun e he b hfetched => ?_
  subst hfetched
  cases Deed.lets_of_mem_seen he

theorem worker_tellSource (s : Status) (p : Pipeline ω) :
    ((Deed.tellSource s).step p).2.worker = p.worker := by
  simp only [Deed.step, commandSource]
  split
  · rfl
  · next a _ =>
    generalize (a.source.setStatus s p.world).2.1 = given
    have hgiven (given : List Buffer) (q : Pipeline ω) :
        (given.foldl (deliverFrom a.source) q).worker = q.worker := by
      induction given generalizing q with
      | nil => rfl
      | cons b rest ih => exact (ih _).trans (worker_deliver q b)
    exact hgiven given _

/-- The plan is changed only while there is no worker. -/
theorem plan_of_leavesBuffers {d : Deed ω} (hleaves : d.leavesBuffers)
    (hahead : (protocol KeepsFormat).ahead d x) :
    x.pipeline.worker = .absent ∨ (d.step x.pipeline).2.plan = x.pipeline.plan := by
  by_cases hparts : d.keepsParts
  · exact .inr (alike_deed hparts x.pipeline).plan
  · cases d with
    | discard => exact .inl hahead
    | configureSink plan =>
      exact .inr (beside_deed (d := .configureSink plan) rfl x.pipeline).toAlike.plan
    | assemble plan actual => exact .inl hahead.1.worker
    | setFilter filter =>
      refine .inr ?_
      simp only [Deed.step, setFilter]
      split
      · rfl
      · rfl
    | setSource _ | setSink _ | request _ | requestFormat _ =>
      exact Or.imp Idle.worker
        (fun hbusy => congrArg plan (refused_of_active rfl hbusy.status).1) hahead
    | letGo => cases hleaves
    | _ => exact absurd rfl hparts

theorem Moment.Traced.deed (h : x.Traced) {d : Deed ω} (hahead : (protocol KeepsFormat).ahead d x) :
    (x.deed d).Traced := by
  by_cases hleaves : d.leavesBuffers
  · have hstill := still_deed hleaves x.pipeline
    rcases plan_of_leavesBuffers hleaves hahead with habsent | hplan
    · refine traced_of_movesLeft ?_
      rw [show (x.deed d).pipeline.worker = .absent from hstill.worker.trans habsent]
      exact Nat.zero_le 1
    · exact h.still hstill.worker hplan
        (lastFetched_of_unbooked (isBooked_of_leavesBuffers hleaves x.pipeline))
  · cases d with
    | enter s => exact h.still rfl rfl (congrArg lastFetched (List.append_nil _))
    | tellSource s =>
      exact h.still (worker_tellSource s x.pipeline) (alike_deed rfl x.pipeline).plan
        (lastFetched_tellSource s x)
    | startWorker =>
      refine traced_of_movesLeft ?_
      show movesLeft (startWorker x.pipeline).2.worker ≤ 1
      rcases startWorker_cases x.pipeline with ⟨_, _, heq⟩ | heq
      · rw [heq]
        exact Nat.zero_le 1
      · rw [heq, show x.pipeline.worker = .absent from hahead]
        exact Nat.zero_le 1
    | joinWorker => exact traced_of_movesLeft (Nat.zero_le 1)
    | returnWaiting =>
      refine traced_of_movesLeft ?_
      have habsent := (returnWaiting_beside x.pipeline).worker.mpr hahead
      show movesLeft x.pipeline.returnWaiting.worker ≤ 1
      rw [habsent]
      exact Nat.zero_le 1
    | letGo =>
      refine traced_of_movesLeft ?_
      show movesLeft x.pipeline.worker ≤ 1
      rw [hahead.worker]
      exact Nat.zero_le 1
    | _ => exact absurd rfl hleaves

/-! ### What the sink is shown -/

/-- The sink is shown a buffer by one move only. -/
theorem processed_of_shown {m : Move ω} {b : Buffer} (h : .shown b ∈ m.seen p) :
    m = .handToSink ∧ p.worker = .processed b := by
  have hdoes := does m p
  generalize m.step p = q, m.seen p = seen at hdoes h
  cases hdoes with
  | kept hands _ =>
    rcases List.mem_cons.mp h with hb | hb
    · cases hb
      exact ⟨rfl, hands⟩
    · cases List.mem_singleton.mp hb
  | handedBack hands _ _ =>
    cases List.mem_singleton.mp h
    exact ⟨rfl, hands⟩
  | fetched _ _ _ | requeued _ _ | accepted _ _ _ | refused _ _ _ _ => cases List.mem_singleton.mp h
  | nothing _ | foundNone _ | skipped _ _ | filtered _ _ | stopped _ _ | failed _ _ _ _
  | processed _ _ _ _ | shownNobody _ _ _ | givenNobody _ _ _ | turned _ _ => cases h

/-- The sink is shown a buffer by one deed only, the end of the worker. -/
theorem processed_of_shown_deed {d : Deed ω} {b : Buffer} (h : .shown b ∈ d.seen x.pipeline) :
    (x.moves [.applyFilter, .process]).pipeline.worker = .processed b := by
  cases Deed.lets_of_mem_seen h with
  | worked _ =>
    simp only [Deed.seen, Moment.moves, Move.work, List.foldl_cons, List.foldl_nil, Moment.move,
      List.mem_append, List.not_mem_nil, false_or, or_assoc] at h
    rcases h with h | h | h | h
    · cases h
    · cases h
    · exact (processed_of_shown h).2
    · -- Giving back shows the sink nothing.
      cases (processed_of_shown h).1

/-- Whatever shows the sink a buffer, the worker comes to have it processed by moves that take no
other. -/
theorem exists_processed_of_shown {s : Scene ω} {c : Choice ω} {b : Buffer} (h : .shown b ∈ s.seen c) :
    ∃ ms : List (Move ω), (s.moves ms).pipeline.worker = .processed b ∧
      lastFetched (s.moves ms).history = lastFetched s.history := by
  obtain ⟨x, todo⟩ := s
  cases c with
  | call _ => cases h
  | move m => exact ⟨[], (processed_of_shown h).2, rfl⟩
  | proceed =>
    cases todo with
    | act d rest =>
      refine ⟨[.applyFilter, .process], processed_of_shown_deed h, ?_⟩
      have hhistory : (x.moves [.applyFilter, .process]).history = x.history := by
        exact (List.append_nil _).trans (List.append_nil _)
      exact congrArg lastFetched hhistory
    | done _ | look _ => cases h

/-- Chains come from plans, and the format of what the worker has from that of what it took. -/
structure Followed (registry : Registry (Blueprint ω)) (x : Moment ω) : Prop
    extends Sound registry KeepsFormat x where
  traced : x.Traced

section Followed

variable {registry : Registry (Blueprint ω)}

theorem stable_followed (hlibrary : registry.IsLibrary) : Stable (Followed registry) :=
  fun _ m h => ⟨h.toSound.move m, h.traced.move hlibrary h.toSound m⟩

theorem followed_run (hlibrary : registry.IsLibrary) (config : PipelineConfig) (world : ω)
    {schedule : List (Choice ω)} (hmeets : Meets KeepsFormat schedule) :
    Followed registry ((Scene.opening registry config world).run schedule).toMoment := by
  have hopening : Followed registry (Scene.opening registry config world).toMoment :=
    ⟨⟨rfl, fun _ _ => rfl, nofun⟩, trivial⟩
  exact Scene.induction (safe_opening registry config world) hopening (stable_followed hlibrary)
    (fun _ _ hahead h => ⟨h.toSound.deed hahead, h.traced.deed hahead⟩) schedule hmeets.safe

/-- What the plan says of a buffer that is ready to be shown. -/
theorem Followed.processed (h : Followed registry x) {b : Buffer}
    (hworker : x.pipeline.worker = .processed b) :
    ∃ plan taken, x.pipeline.plan = some plan ∧ lastFetched x.history = some taken ∧
      x.roster.announced = some plan.sinkFormat ∧ Through plan taken.format b.format ∧
      (plan.stages = [] → plan.sourceFormat = plan.sinkFormat) := by
  have htraced := h.traced
  unfold Moment.Traced at htraced
  rw [hworker] at htraced
  obtain ⟨taken, plan, hlast, hplan, hthrough⟩ := htraced
  obtain ⟨a, ha, rfl⟩ := Option.map_eq_some_iff.mp hplan
  obtain ⟨hbuilt, hannounced⟩ := h.assembly a ha
  refine ⟨a.plan, taken, hplan, hlast, hannounced, hthrough, fun hempty => ?_⟩
  have hcontinuous := Negotiation.continuous_of_negotiate hbuilt.negotiated
  rw [hempty] at hcontinuous
  exact hcontinuous.eq_of_nil

/-- **A buffer that the sink is shown has the announced format exactly if it came in the format that
is planned for the source.** If there is a stage, it has come in that format. -/
theorem shown_as_announced_iff (hlibrary : registry.IsLibrary) (config : PipelineConfig) (world : ω)
    {schedule : List (Choice ω)} (hmeets : Meets KeepsFormat schedule) {c : Choice ω} {b : Buffer}
    (hshown : .shown b ∈ ((Scene.opening registry config world).run schedule).seen c) :
    let scene := (Scene.opening registry config world).run schedule
    ∃ plan taken, scene.pipeline.plan = some plan ∧ lastFetched scene.history = some taken ∧
      (rosterOf scene.history).announced = some plan.sinkFormat ∧
      (b.format = plan.sinkFormat ↔ taken.format = plan.sourceFormat) ∧
      (plan.stages ≠ [] → taken.format = plan.sourceFormat) ∧
      (plan.stages = [] → b.format = taken.format) := by
  intro scene
  have hfollowed : Followed registry scene.toMoment := followed_run hlibrary config world hmeets
  obtain ⟨ms, hworker, hlast⟩ := exists_processed_of_shown hshown
  obtain ⟨plan, taken, hplan, htaken, hannounced, hthrough, hdirect⟩ :=
    ((stable_followed hlibrary).moves hfollowed ms).processed hworker
  refine ⟨plan, taken, ?_, hlast.symm.trans htaken, ?_, ?_, fun hne => (hthrough.looked hne).1,
    hthrough.overlooked⟩
  · exact (beside_moves scene.toMoment ms).toAlike.plan.symm.trans hplan
  · rw [← hannounced, roster_moves]
    rfl
  · by_cases hempty : plan.stages = []
    · rw [hthrough.overlooked hempty, hdirect hempty]
    · obtain ⟨hbefore, hafter⟩ := hthrough.looked hempty
      exact iff_of_true hafter hbefore

end Followed

/-- Not a mosaic. -/
def mislabelled : Buffer := { data := [], info := { format := mosaicFormat.withEncoding .yuyv } }

/-- A pipeline without stages plays mosaics, and its worker takes something else. -/
def upToMislabelled : List (Choice Unit) :=
  upToPlaying ++ [.move (.push mislabelled), .move .fetch, .move .applyFilter, .move .process]

def mislabelling : Scene Unit := (Scene.opening Registry.empty {} ()).run upToMislabelled

/-- **Without stages nobody looks at formats.** The sink was told to expect mosaics. -/
theorem shown_mislabelled :
    .shown mislabelled ∈ mislabelling.seen (.move .handToSink) ∧
      ∃ plan, mislabelling.pipeline.plan = some plan ∧ plan.stages = [] ∧
        (rosterOf mislabelling.history).announced = some plan.sinkFormat ∧
        mislabelled.format ≠ plan.sinkFormat := by
  have hlibrary : (Registry.empty : Registry (Blueprint Unit)).IsLibrary :=
    fun _ hx => absurd hx List.not_mem_nil
  have hmeets : Meets KeepsFormat upToMislabelled := by
    intro c hc
    simp only [upToMislabelled, upToPlaying, List.mem_append, List.mem_cons, List.mem_replicate,
      List.not_mem_nil, Choice.call.injEq, reduceCtorEq, and_false, or_false, false_or] at hc
    rcases hc with rfl | rfl | rfl
    all_goals trivial
  have hseen : mislabelling.seen (.move .handToSink) = [.shown mislabelled] := rfl
  have hshown : .shown mislabelled ∈ mislabelling.seen (.move .handToSink) := by
    rw [hseen]
    exact List.mem_singleton_self _
  obtain ⟨plan, taken, hplan, -, hannounced, -⟩ := shown_as_announced_iff hlibrary {} () hmeets hshown
  have hdirect : mislabelling.pipeline.plan = some (.direct mosaicFormat) := rfl
  obtain rfl : plan = .direct mosaicFormat := Option.some.inj (hplan.symm.trans hdirect)
  exact ⟨hshown, .direct mosaicFormat, hdirect, rfl, hannounced, by decide⟩

end CameraStream.Pipeline
