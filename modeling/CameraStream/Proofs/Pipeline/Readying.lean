import CameraStream.Proofs.Pipeline.Standing

/-!
# Configuring and building

An idle pipeline stays idle while it is configured and built (`Idle.configured`, `Planned.assembled`),
and an active one refuses to be configured (`refused_of_active`). Errors are `Failure`s of those who
were asked for something (`failure_of_asks`), or say that the order of calls is wrong; the two that
would tell of a pipeline that is not what it should be are `Internal`, and only two deeds can have
them (`not_internal`).
-/

namespace CameraStream.Pipeline

variable {ω : Type} {p q : Pipeline ω} {r : Roster}

/-! ### Deeds that leave alone what control goes by -/

/-- Deeds after which a pipeline stands as before. -/
def Deed.keepsStanding : Deed ω → Bool
  | .tellSource _ | .tellSink _ | .tellFilter _ | .requireParts | .countNegotiation _
  | .configureSource _ | .offerPool | .configureSink _ | .configureFilter _ | .setDropIncomplete _
  | .requeue _ => true
  | .enter _ | .tellStages _ | .startWorker | .joinWorker | .returnWaiting | .discard
  | .assemble _ _ | .setSource _ | .setSink _ | .setFilter _ | .request _ | .requestFormat _
  | .letGo => false

theorem beside_outward {d : Deed ω} (h : d.isOutward) (p : Pipeline ω) : p.Beside (d.step p).2 := by
  obtain ⟨surroundings, heq⟩ := Deed.exists_surroundings h p
  rw [heq]
  exact .refl_of p surroundings

theorem beside_deed {d : Deed ω} (h : d.keepsStanding) (p : Pipeline ω) :
    p.Beside (d.step p).2 := by
  cases d with
  | tellSource s => exact beside_tell s .source p
  | tellSink _ | tellFilter _ | requireParts | countNegotiation _ | configureSource _ | offerPool
  | configureSink _ | configureFilter _ | setDropIncomplete _ | requeue _ =>
    exact beside_outward rfl p
  | enter _ | tellStages _ | startWorker | joinWorker | returnWaiting | discard | assemble _ _
  | setSource _ | setSink _ | setFilter _ | request _ | requestFormat _ | letGo => cases h

/-- A worker starts where source and sink are there. -/
theorem startWorker_cases (p : Pipeline ω) :
    (p.attachment.isSome ∧ p.sink.isSome ∧ startWorker p = (none, { p with worker := .waiting })) ∨
      (startWorker p).2 = p := by
  unfold startWorker
  split
  · next hparts =>
    simp only [Bool.and_eq_true] at hparts
    exact .inl ⟨hparts.1.1, hparts.1.2, rfl⟩
  · exact .inr rfl

/-! ### Idle pipelines -/

theorem Idle.discard (h : Idle p r) : Idle p.discard r where
  status := h.status
  worker := h.worker
  waiting := h.waiting
  undefined := h.undefined
  chain := nofun
  quiet := h.quiet
  enrolled := ⟨h.enrolled.parts, nofun⟩

theorem Idle.enter (h : Idle p r) {s : Status} (hs : s.isActive = false)
    (hundefined : s = .undefined ↔ p.attachment = none) : Idle (p.enter s) r where
  status := hs
  worker := h.worker
  waiting := h.waiting
  undefined := hundefined
  chain := h.chain
  quiet := h.quiet
  enrolled := h.enrolled.alike (.refl_of p _ _ _)

/-- A pipeline in the error status has a source. -/
theorem Idle.leaveError (h : Idle p r) : Idle p.leaveError r := by
  unfold Pipeline.leaveError
  split
  · next herror =>
    refine h.enter rfl (iff_of_false nofun fun hnone => ?_)
    rw [h.undefined.mpr hnone] at herror
    cases herror
  · exact h

/-- Whoever is attached gets a line. -/
theorem Enrolled.attached (h : Enrolled p r) {part : Part}
    (hhas : ∀ other, other ≠ part → q.has other = p.has other)
    (hassembly : ∀ a, q.assembly = some a → p.assembly = some a) :
    Enrolled q (r.see (.attached part)) where
  parts other hother := by
    by_cases hne : other = part
    · rw [hne, Roster.parts_attached_self]
      exact List.cons_ne_nil _ _
    · rw [Roster.parts_attached_of_ne r hne]
      exact h.parts other (hhas other hne ▸ hother)
  stages a ha := h.stages a (hassembly a ha)

theorem Idle.requested (h : Idle p r) (s : Alternatives) (f : Option VideoFormat) :
    Idle { p with requested := s, requestedFormat := f } r where
  status := h.status
  worker := h.worker
  waiting := h.waiting
  undefined := h.undefined
  chain := h.chain
  quiet := h.quiet
  enrolled := ⟨fun part hpart => h.enrolled.parts part (by cases part <;> exact hpart),
    h.enrolled.stages⟩

/-! ### Configuring -/

def Deed.configures : Deed ω → Bool
  | .setSource _ | .setSink _ | .setFilter _ | .request _ | .requestFormat _ => true
  | _ => false

theorem ensureIdle_of_inactive (h : p.status.isActive = false) (operation : Operation) :
    p.ensureIdle operation = none := by
  rw [ensureIdle, h]
  rfl

theorem ensureIdle_of_active (h : p.status.isActive = true) (operation : Operation) :
    p.ensureIdle operation = some (.invalidState operation p.status) := by
  rw [ensureIdle, h]
  rfl

/-- An active pipeline refuses to be configured, and nobody notices. -/
theorem refused_of_active {d : Deed ω} (hd : d.configures) (h : p.status.isActive = true) :
    (d.step p).2 = p ∧ d.seen p = [] := by
  cases d with
  | setSource source =>
    simp only [Deed.step, Deed.seen, setSource, ensureIdle_of_active h, reduceCtorEq, if_false,
      and_self]
  | setSink sink =>
    simp only [Deed.step, Deed.seen, setSink, ensureIdle_of_active h, reduceCtorEq, if_false,
      and_self]
  | setFilter filter =>
    simp only [Deed.step, Deed.seen, setFilter, ensureIdle_of_active h, reduceCtorEq, if_false,
      and_self]
  | request s =>
    simp only [Deed.step, Deed.seen, Pipeline.request, ensureIdle_of_active h, and_self]
  | requestFormat f =>
    simp only [Deed.step, Deed.seen, requestFormat, Pipeline.request, ensureIdle_of_active h,
      and_self]
  | _ => cases hd

/-- There is a source, and no chain. -/
theorem Idle.attachedSource (h : Idle p r) (a : Attachment ω) (w : ω) :
    Idle (({ p.withWorld w with attachment := some a }.discard).enter .stopped)
      (r.see (.attached .source)) where
  status := rfl
  worker := h.worker
  waiting := h.waiting
  undefined := iff_of_false nofun nofun
  chain := nofun
  quiet := h.quiet.attached .source
  enrolled := h.enrolled.attached (fun other hne => by cases other <;> trivial) nofun

theorem Idle.attachedSink (h : Idle p r) (k : Sink ω) :
    Idle { p with sink := some k }.discard (r.see (.attached .sink)) where
  status := h.status
  worker := h.worker
  waiting := h.waiting
  undefined := h.undefined
  chain := nofun
  quiet := h.quiet.attached .sink
  enrolled := h.enrolled.attached (fun other hne => by cases other <;> trivial) nofun

theorem Idle.attachedFilter (h : Idle p r) (f : PropertyFilter ω) :
    Idle { p with filter := f } (r.see (.attached .filter)) where
  status := h.status
  worker := h.worker
  waiting := h.waiting
  undefined := h.undefined
  chain := h.chain
  quiet := h.quiet.attached .filter
  enrolled := h.enrolled.attached (fun other _ => by cases other <;> rfl) fun _ ha => ha

/-- **An idle pipeline stays idle when it is configured.** -/
theorem Idle.configured {d : Deed ω} (hd : d.configures) (h : Idle p r) :
    Idle (d.step p).2 (r.seeAll (d.seen p)) := by
  cases d with
  | setSource source =>
    simp only [Deed.step, Deed.seen, setSource, ensureIdle_of_inactive h.status]
    split
    · exact h
    · exact h.attachedSource _ _
  | setSink sink =>
    simp only [Deed.step, Deed.seen, setSink, ensureIdle_of_inactive h.status]
    exact (h.attachedSink sink).leaveError
  | setFilter filter =>
    simp only [Deed.step, Deed.seen, setFilter, ensureIdle_of_inactive h.status]
    exact h.attachedFilter filter
  | request s =>
    simp only [Deed.step, Pipeline.request, ensureIdle_of_inactive h.status]
    exact (h.requested s none).discard.leaveError
  | requestFormat f =>
    simp only [Deed.step, requestFormat, Pipeline.request, ensureIdle_of_inactive h.status]
    exact ((h.requested _ none).discard.leaveError).requested _ (some f)
  | _ => cases hd

/-! ### Errors -/

/-- An error that would tell of a pipeline that is not what it should be. -/
def Internal : StreamError → Prop
  | .invalidState .startUnbuilt _ | .invalidState .startWorker _ => True
  | _ => False

/-- Somebody has refused, or there is no plan. All other errors are about the order of calls. -/
def Failure : StreamError → Prop
  | .negotiation _ | .formatMismatch _ _ _ | .stageFailed _ | .sourceRejected _ | .sinkRejected _ =>
    True
  | .deviceLost _ | .noSource | .noSink | .invalidState _ _ => False

theorem Failure.not_internal {err : StreamError} (h : Failure err) : ¬ Internal err := by
  cases err with
  | invalidState operation s => exact h.elim
  | _ => exact id

theorem failure_of_makeStages {registry : Registry (Blueprint ω)} {ps : List PlannedStage}
    {w w' : ω} {err : StreamError} (h : Chain.makeStages registry ps w = (.error err, w')) :
    Failure err := by
  induction ps generalizing w with
  | nil => cases h
  | cons planned rest ih =>
    simp only [Chain.makeStages] at h
    split at h
    · cases h
      exact trivial
    · next blueprint _ =>
      generalize (blueprint.make w).1.bind planned.input planned.output (blueprint.make w).2 = bound
        at h
      split at h
      · rcases hrest : Chain.makeStages registry rest bound.2.2 with ⟨err' | ss, w''⟩
        · rw [hrest] at h
          cases h
          exact ih hrest
        · rw [hrest] at h
          cases h
      · cases h
        exact trivial

theorem failure_of_walk {ss : List (Stage ω)} {w : ω} {running sink : VideoFormat}
    {err : StreamError} (h : Chain.walk w sink running ss = .error err) : Failure err := by
  induction ss generalizing running with
  | nil =>
    simp only [Chain.walk] at h
    split at h
    · cases h
    · cases h
      exact trivial
  | cons s rest ih =>
    simp only [Chain.walk] at h
    split at h
    · cases h
      exact trivial
    · split at h
      · exact ih h
      · cases h
        exact trivial

/-- The chain of a plan was built and checked, or nothing but the world has changed. -/
theorem assemble_cases (plan : Plan) (actual : VideoFormat) (p : Pipeline ω) :
    (∃ chain w, Chain.build plan p.registry p.world = (.ok chain, w) ∧
      chain.validate w actual plan.sinkFormat = .ok () ∧
      assemble plan actual p = (none, { p with assembly := some ⟨plan, chain⟩ }.withWorld w)) ∨
    ∃ err w, Failure err ∧ assemble plan actual p = (some err, p.withWorld w) := by
  unfold assemble
  rcases hbuild : Chain.build plan p.registry p.world with ⟨err | chain, w⟩
  · refine .inr ⟨err, w, ?_, rfl⟩
    unfold Chain.build at hbuild
    rcases hmade : Chain.makeStages p.registry plan.stages p.world with ⟨err' | ss, w'⟩
    · rw [hmade] at hbuild
      cases hbuild
      exact failure_of_makeStages hmade
    · rw [hmade] at hbuild
      cases hbuild
  · rcases hvalid : chain.validate w actual plan.sinkFormat with err | ⟨⟩
    · exact .inr ⟨err, w, failure_of_walk hvalid, by simp only [hvalid]⟩
    · exact .inl ⟨chain, w, rfl, hvalid, by simp only [hvalid]⟩

theorem eq_of_unless {agreed : Bool} {what err : StreamError}
    (h : (if agreed then none else some what) = some err) : err = what := by
  cases agreed with
  | true => cases h
  | false => exact (Option.some.inj h).symm

/-- Deeds that ask parts or stages for something, which these may refuse. -/
def Deed.asks : Deed ω → Bool
  | .tellSource _ | .tellSink _ | .tellStages _ | .tellFilter _ | .configureSource _ | .offerPool
  | .configureSink _ | .configureFilter _ | .assemble _ _ => true
  | .enter _ | .requireParts | .startWorker | .joinWorker | .returnWaiting | .discard
  | .countNegotiation _ | .setSource _ | .setSink _ | .setFilter _ | .request _ | .requestFormat _
  | .setDropIncomplete _ | .requeue _ | .letGo => false

/-- A stage that refuses is named. -/
theorem tellStages_error {s : Status} {err : StreamError}
    (h : ((Deed.tellStages s).step p).1 = some err) : ∃ name, err = .stageFailed name := by
  simp only [Deed.step, commandChain] at h
  split at h
  · cases h
  · simp only [Chain.setStatus] at h
    split at h
    · split at h
      · cases h
      · next name _ _ _ => exact ⟨name, (Option.some.inj h).symm⟩
    · cases h

theorem failure_of_asks {d : Deed ω} (hd : d.asks) {err : StreamError}
    (h : (d.step p).1 = some err) : Failure err := by
  cases d with
  | tellSource _ | tellSink _ | tellFilter _ | configureFilter _ =>
    rw [eq_of_unless h]
    exact trivial
  | tellStages s =>
    obtain ⟨name, rfl⟩ := tellStages_error h
    exact trivial
  | configureSource plan =>
    simp only [Deed.step, configureSource] at h
    split at h
    · cases h
    · rw [eq_of_unless h]
      exact trivial
  | offerPool =>
    simp only [Deed.step, offerPool] at h
    split at h
    · rw [eq_of_unless h]
      exact trivial
    · cases h
  | configureSink plan =>
    simp only [Deed.step, configureSink] at h
    split at h
    · cases h
    · rw [eq_of_unless h]
      exact trivial
  | assemble plan actual =>
    simp only [Deed.step] at h
    rcases assemble_cases plan actual p with ⟨chain, w, _, _, heq⟩ | ⟨err', w, hfailure, heq⟩
    · rw [heq] at h
      cases h
    · rw [heq] at h
      cases h
      exact hfailure
  | _ => cases hd

theorem not_internal_of_ensureIdle {operation : Operation} {err : StreamError}
    (h : p.ensureIdle operation = some err)
    (hoperation : ∀ s, ¬ Internal (.invalidState operation s)) : ¬ Internal err := by
  unfold ensureIdle at h
  split at h
  · cases h
    exact hoperation p.status
  · cases h

/-- A change that fails leaves everything as it was: it came at the wrong time, or the new source
reports nothing. -/
theorem refused_of_failed {d : Deed ω} (hd : d.configures) {err : StreamError}
    (h : (d.step p).1 = some err) :
    (d.step p).2 = p ∧ d.seen p = [] ∧ ¬ Internal err ∧
      ((∃ operation s, err = .invalidState operation s) ∨
        ∃ source, d = .setSource source ∧ err = .negotiation .nothingAvailable) := by
  rcases hactive : p.status.isActive with _ | _
  · cases d with
    | setSource source =>
      simp only [Deed.step, Deed.seen, setSource, ensureIdle_of_inactive hactive] at h ⊢
      split at h
      · next hempty =>
        cases h
        refine ⟨?_, ?_, id, .inr ⟨source, rfl, rfl⟩⟩
        · simp only [hempty, if_true]
        · simp only [hempty, if_true, reduceCtorEq, if_false]
      · cases h
    | setSink sink =>
      simp only [Deed.step, setSink, ensureIdle_of_inactive hactive, reduceCtorEq] at h
    | setFilter filter =>
      simp only [Deed.step, setFilter, ensureIdle_of_inactive hactive, reduceCtorEq] at h
    | request s =>
      simp only [Deed.step, Pipeline.request, ensureIdle_of_inactive hactive, reduceCtorEq] at h
    | requestFormat f =>
      simp only [Deed.step, requestFormat, Pipeline.request, ensureIdle_of_inactive hactive,
        reduceCtorEq] at h
    | _ => cases hd
  · obtain ⟨hstep, hseen⟩ := refused_of_active hd hactive
    cases d with
    | setSource _ | setSink _ | setFilter _ | request _ | requestFormat _ =>
      simp only [Deed.step, setSource, setSink, setFilter, requestFormat, Pipeline.request,
        ensureIdle_of_active hactive, Option.some.injEq] at h
      subst h
      exact ⟨hstep, hseen, id, .inl ⟨_, _, rfl⟩⟩
    | _ => cases hd

/-- Only two deeds can have an error that should not be. -/
theorem not_internal {d : Deed ω} (hparts : d ≠ .requireParts) (hworker : d ≠ .startWorker)
    {err : StreamError} (h : (d.step p).1 = some err) : ¬ Internal err := by
  by_cases hasks : d.asks
  · exact (failure_of_asks hasks h).not_internal
  by_cases hconfigures : d.configures
  · exact (refused_of_failed hconfigures h).2.2.1
  cases d with
  | setDropIncomplete drop =>
    simp only [Deed.step, setDropIncomplete] at h
    split at h
    · cases h
      exact id
    · cases h
  | requireParts => exact absurd rfl hparts
  | startWorker => exact absurd rfl hworker
  | enter _ | joinWorker | returnWaiting | discard | countNegotiation _ | requeue _ | letGo => cases h
  | setSource _ | setSink _ | setFilter _ | request _ | requestFormat _ =>
    exact absurd rfl hconfigures
  | _ => exact absurd rfl hasks

/-! ### Starting -/

section
variable (hsource : p.attachment.isSome) (hsink : p.sink.isSome) (hassembly : p.assembly.isSome)
include hsource hsink hassembly

theorem step_requireParts : Deed.requireParts.step p = (none, p) := by
  show Pipeline.requireParts p = _
  unfold Pipeline.requireParts
  rw [Option.isNone_eq_false_iff.mpr hsource, Option.isNone_eq_false_iff.mpr hsink,
    Option.isNone_eq_false_iff.mpr hassembly]
  rfl

theorem step_startWorker : Deed.startWorker.step p = (none, { p with worker := .waiting }) := by
  show Pipeline.startWorker p = _
  unfold Pipeline.startWorker
  rw [hsource, hsink, hassembly]
  rfl

end

theorem Whole.step_requireParts (h : Whole p r) : Deed.requireParts.step p = (none, p) :=
  Pipeline.step_requireParts h.source h.sink h.assembly

theorem Whole.step_startWorker (h : Whole p r) :
    Deed.startWorker.step p = (none, { p with worker := .waiting }) :=
  Pipeline.step_startWorker h.source h.sink h.assembly

/-- What control does to start, but for the worker. -/
def activating : List (Deed ω) :=
  [.requireParts, .tellSink .playing, .tellSource .playing, .tellStages .playing,
    .tellFilter .playing]

/-- **One more is started, or refuses.** -/
theorem Starting.deed {done : List (Deed ω)} (h : Starting done p r) {d : Deed ω}
    (hd : d ∈ activating) :
    ((d.step p).1 = none → Starting (d :: done) (d.step p).2 (r.seeAll (d.seen p))) ∧
      ∀ err, (d.step p).1 = some err → Whole (d.step p).2 (r.seeAll (d.seen p)) ∧ ¬ Internal err := by
  have htold (part : Part) :
      (((Deed.tell .playing part).step p).1 = none →
        Starting (.tell .playing part :: done) ((Deed.tell .playing part).step p).2
          (r.seeAll ((Deed.tell .playing part).seen p))) ∧
      ∀ err, ((Deed.tell .playing part).step p).1 = some err →
        Whole ((Deed.tell .playing part).step p).2
          (r.seeAll ((Deed.tell .playing part).seen p)) ∧ ¬ Internal err := by
    refine ⟨h.told, fun err herr => ⟨h.toWhole.told .playing part, not_internal ?_ ?_ herr⟩⟩
    · cases part <;> nofun
    · cases part <;> nofun
  simp only [activating, List.mem_cons, List.not_mem_nil, or_false] at hd
  rcases hd with rfl | rfl | rfl | rfl | rfl
  · rw [h.toWhole.step_requireParts]
    exact ⟨fun _ => h.required, fun err herr => by cases herr⟩
  · exact htold .sink
  · exact htold .source
  · refine ⟨h.toldStages, fun err herr => ?_⟩
    obtain ⟨_, _, _, _, _, _, _, hwhole⟩ := h.toWhole.toldStages .playing
    exact ⟨hwhole, not_internal (d := .tellStages .playing) nofun nofun herr⟩
  · exact htold .filter

/-! ### Building -/

/-- Idle, with a source and a sink, and without a chain. -/
structure Equipped (p : Pipeline ω) (r : Roster) : Prop extends Idle p r where
  source : p.attachment.isSome
  sink : p.sink.isSome
  unbuilt : p.assembly = none

/-- Equipped, with the plan that negotiation has come to. -/
structure Planned (plan : Plan) (p : Pipeline ω) (r : Roster) : Prop extends Equipped p r where
  negotiated : negotiate p.registry p.config.policy p.available p.requested = .ok plan

theorem Equipped.beside (h : Equipped p r) (hq : p.Beside q) : Equipped q r where
  toIdle := h.toIdle.beside hq
  source := hq.attachment.symm ▸ h.source
  sink := hq.sink.symm ▸ h.sink
  unbuilt := hq.assembly_eq_none.mpr h.unbuilt

theorem Planned.beside {plan : Plan} (h : Planned plan p r) (hq : p.Beside q) : Planned plan q r where
  toEquipped := h.toEquipped.beside hq
  negotiated := by
    rw [hq.registry, hq.config, hq.available, hq.requested]
    exact h.negotiated

/-- Announcements are not commands. -/
theorem Planned.announced {plan : Plan} (h : Planned plan p r) (f : Option VideoFormat) :
    Planned plan p { r with announced := f } :=
  ⟨⟨⟨h.status, h.worker, h.waiting, h.undefined, h.chain, ⟨h.quiet.parts, h.quiet.chains⟩,
    ⟨h.enrolled.parts, h.enrolled.stages⟩⟩, h.source, h.sink, h.unbuilt⟩, h.negotiated⟩

/-- The sink is told the format of the plan. -/
theorem Planned.configuredSink {plan : Plan} (h : Planned plan p r) :
    Planned plan ((Deed.configureSink plan).step p).2
        (r.seeAll ((Deed.configureSink plan).seen p)) ∧
      (r.seeAll ((Deed.configureSink plan).seen p)).announced = some plan.sinkFormat := by
  have hq := h.beside (beside_deed (d := .configureSink plan) rfl p)
  obtain ⟨k, hk⟩ := Option.isSome_iff_exists.mp h.sink
  have hseen : r.seeAll ((Deed.configureSink plan).seen p) =
      { r with announced := some plan.sinkFormat } := by
    simp only [Deed.seen, hk]
    rfl
  rw [hseen]
  exact ⟨hq.announced _, rfl⟩

/-- **A chain that was built has its line in the roster, and everything is there to start.** -/
theorem Planned.assembled {plan : Plan} (h : Planned plan p r) {actual : VideoFormat}
    (hok : ((Deed.assemble plan actual).step p).1 = none) :
    Idle ((Deed.assemble plan actual).step p).2 (r.seeAll ((Deed.assemble plan actual).seen p)) ∧
      Whole ((Deed.assemble plan actual).step p).2
        (r.seeAll ((Deed.assemble plan actual).seen p)) := by
  simp only [Deed.step, Deed.seen] at hok ⊢
  rcases assemble_cases plan actual p with ⟨chain, w, hbuild, _, heq⟩ | ⟨err, w, _, heq⟩
  · obtain ⟨hmade, _, _, hstopped⟩ := Chain.build_ok hbuild
    simp only [heq, if_true]
    have hquiet : (r.see (.assembled plan)).Quiet := by
      refine ⟨h.quiet.parts, List.forall_mem_cons.mpr ⟨fun g hg => ?_, h.quiet.chains⟩⟩
      rw [List.eq_of_mem_replicate hg]
      exact Heard.quiet_none
    have henrolled : Enrolled ({ p with assembly := some ⟨plan, chain⟩ }.withWorld w)
        (r.see (.assembled plan)) := by
      refine ⟨fun part hpart => h.enrolled.parts part (by cases part <;> exact hpart), ?_⟩
      rintro a ⟨⟩
      exact ⟨_, _, rfl, List.length_replicate.trans (Chain.length_makeStages hmade).symm⟩
    refine ⟨⟨h.status, h.worker, h.waiting, h.undefined, ?_, hquiet, henrolled⟩,
      h.source, h.sink, rfl, hquiet.othersQuiet, henrolled⟩
    rintro s ⟨⟩
    exact congrArg Status.isActive hstopped
  · rw [heq] at hok
    cases hok

/-- What could not be assembled leaves the pipeline as it was. -/
theorem Equipped.notAssembled {plan : Plan} {actual : VideoFormat} {err : StreamError}
    (h : Equipped p r) (herr : ((Deed.assemble plan actual).step p).1 = some err) :
    Equipped ((Deed.assemble plan actual).step p).2
      (r.seeAll ((Deed.assemble plan actual).seen p)) := by
  simp only [Deed.step, Deed.seen] at herr ⊢
  rcases assemble_cases plan actual p with ⟨chain, w, _, _, heq⟩ | ⟨err', w, _, heq⟩
  · rw [heq] at herr
    cases herr
  · simp only [heq, reduceCtorEq, if_false]
    exact h.beside (beside_withWorld p w)

end CameraStream.Pipeline
