import CameraStream.Proofs.Pipeline.Outline

/-!
# What a pipeline is between calls

A chain is never there by chance: it was built from the plan that negotiation gives for what is
attached and requested, and its formats were checked (`BuiltFrom`). This holds at all times
(**`sound_run`**), together with the sink having been told the format of the plan.

Between calls, the fields of a pipeline fit together in one of two ways (`Representation`), whatever
was called, whatever the parts answered, and however calls, the worker and producers took turns
(**`representation_between_calls`**). So the two errors that would tell of a pipeline that is started
without a chain or without parts never come up.
-/

namespace CameraStream.Pipeline

variable {ω : Type} {p q : Pipeline ω} {x : Moment ω}

/-! ### Where chains come from -/

/-- An assembly was built from the plan that negotiation gives, and was checked from a format that
the source says it produces to the one that the sink is to receive. -/
structure BuiltFrom (p : Pipeline ω) (a : Assembly ω) : Prop where
  negotiated : negotiate p.registry p.config.policy p.available p.requested = .ok a.plan
  built : ∃ chain w w' actual, Chain.build a.plan p.registry w = (.ok chain, w') ∧
    Spoken a.plan actual p ∧ chain.validate w' actual a.plan.sinkFormat = .ok () ∧
    chain.Continues a.chain

theorem BuiltFrom.alike {a b : Assembly ω} (h : BuiltFrom p a) (hq : p.Alike q)
    (hab : a.Continues b) : BuiltFrom q b where
  negotiated := by
    rw [hq.registry, hq.config, hq.available, hq.requested, hab.plan]
    exact h.negotiated
  built := by
    obtain ⟨chain, w, w', actual, hbuild, hspoken, hvalid, hchain⟩ := h.built
    refine ⟨chain, w, w', actual, ?_, ?_, ?_, hchain.trans hab.chain⟩
    · rw [hab.plan, hq.registry]
      exact hbuild
    · rw [hab.plan]
      exact hspoken.beside hq
    · rw [hab.plan]
      exact hvalid

/-- What holds at all times: the registry stays, property filters satisfy `C`, and a chain comes from
a plan whose format the sink was told. -/
structure Sound (registry : Registry (Blueprint ω)) (C : PropertyFilter ω → Prop) (x : Moment ω) :
    Prop where
  registry : x.pipeline.registry = registry
  filter : C x.pipeline.filter
  assembly : ∀ a, x.pipeline.assembly = some a →
    BuiltFrom x.pipeline a ∧ x.roster.announced = some a.plan.sinkFormat

namespace Sound

variable {registry : Registry (Blueprint ω)} {C : PropertyFilter ω → Prop} {y : Moment ω}

theorem alike (h : Sound registry C x) (hq : x.pipeline.Alike y.pipeline)
    (hannounced : y.roster.announced = x.roster.announced) : Sound registry C y where
  registry := hq.registry.trans h.registry
  filter := hq.filter.symm ▸ h.filter
  assembly b hb := by
    obtain ⟨a, ha, hab⟩ := hq.of_assembly hb
    obtain ⟨hbuilt, hsink⟩ := h.assembly a ha
    rw [hannounced, hab.plan]
    exact ⟨hbuilt.alike hq hab, hsink⟩

theorem move (h : Sound registry C x) (m : Move ω) : Sound registry C (x.move m) :=
  h.alike (beside_step m x.pipeline).toAlike (by rw [roster_move])

theorem unassembled (h : Sound registry C x) (hregistry : y.pipeline.registry = x.pipeline.registry)
    (hfilter : y.pipeline.filter = x.pipeline.filter) (hnone : y.pipeline.assembly = none) :
    Sound registry C y where
  registry := hregistry.trans h.registry
  filter := hfilter.symm ▸ h.filter
  assembly a ha := by
    rw [hnone] at ha
    cases ha

end Sound

/-! ### Deeds that leave the parts alone -/

/-- Deeds that neither change what a pipeline is made of nor tell the sink a format. -/
def Deed.keepsParts : Deed ω → Bool
  | .enter _ | .tellSource _ | .tellSink _ | .tellStages _ | .tellFilter _ | .requireParts
  | .startWorker | .joinWorker | .returnWaiting | .countNegotiation _ | .configureSource _
  | .offerPool | .configureFilter _ | .setDropIncomplete _ | .requeue _ => true
  | .discard | .configureSink _ | .assemble _ _ | .setSource _ | .setSink _ | .setFilter _
  | .request _ | .requestFormat _ | .letGo => false

theorem alike_deed {d : Deed ω} (h : d.keepsParts) (p : Pipeline ω) : p.Alike (d.step p).2 := by
  cases d with
  | enter s => exact alike_enter p s
  | tellStages s => exact alike_commandChain s p
  | startWorker =>
    simp only [Deed.step, startWorker]
    split
    · exact .refl_of p _ _ .waiting
    · exact .refl p
  | joinWorker => exact alike_joinWorker p
  | returnWaiting =>
    exact (Alike.refl_of p { p.queue with buffers := [] } _ _).trans (returnWaiting_beside p).toAlike
  | tellSource _ | tellSink _ | tellFilter _ | requireParts | countNegotiation _
  | configureSource _ | offerPool | configureFilter _ | setDropIncomplete _ | requeue _ =>
    exact (beside_deed rfl p).toAlike
  | discard | configureSink _ | assemble _ _ | setSource _ | setSink _ | setFilter _ | request _
  | requestFormat _ | letGo => cases h

theorem isAnnouncement_of_keepsParts {d : Deed ω} (h : d.keepsParts) (p : Pipeline ω) :
    ∀ e ∈ d.seen p, e.isAnnouncement = false := by
  intro e he
  cases Deed.lets_of_mem_seen he with
  | toldSource _ _ | given _ _ _ _ | toldSink _ _ | toldStages _ _ | toldFilter _ _ | cleared _
  | returned _ => rfl
  | worked he => exact Event.isAnnouncement_of_isTraffic (isTraffic_of_mem_seen _ _ e he)
  | announced _ _ | assembled _ _ | attachedSource _ | attachedSink _ | attachedFilter _ => cases h

/-! ### Deeds that change them -/

theorem alike_leaveError (p : Pipeline ω) : p.Alike p.leaveError := by
  unfold leaveError
  split
  · exact alike_enter p .stopped
  · exact .refl p

/-- After a change of what is to be built there is no chain. -/
theorem unassembled_of_configures {d : Deed ω} (hd : d.configures) (hfilter : ∀ f, d ≠ .setFilter f)
    (p : Pipeline ω) :
    ((d.step p).2 = p ∧ d.seen p = []) ∨
      ((d.step p).2.registry = p.registry ∧ (d.step p).2.filter = p.filter ∧
        (d.step p).2.assembly = none) := by
  rcases hactive : p.status.isActive with _ | _
  · cases d with
    | setSource source =>
      simp only [Deed.step, Deed.seen, setSource, ensureIdle_of_inactive hactive]
      split
      · exact .inl ⟨rfl, rfl⟩
      · exact .inr ⟨rfl, rfl, rfl⟩
    | setSink sink =>
      simp only [Deed.step, setSink, ensureIdle_of_inactive hactive]
      have hleft := alike_leaveError { p with sink := some sink }.discard
      exact .inr ⟨hleft.registry, hleft.filter, hleft.assembly_eq_none.mpr rfl⟩
    | setFilter f => exact absurd rfl (hfilter f)
    | request s =>
      simp only [Deed.step, Pipeline.request, ensureIdle_of_inactive hactive]
      have hleft := alike_leaveError { p with requested := s, requestedFormat := none }.discard
      exact .inr ⟨hleft.registry, hleft.filter, hleft.assembly_eq_none.mpr rfl⟩
    | requestFormat f =>
      simp only [Deed.step, requestFormat, Pipeline.request, ensureIdle_of_inactive hactive]
      have hleft := alike_leaveError
        { p with requested := .ofFormat f, requestedFormat := none }.discard
      exact .inr ⟨hleft.registry, hleft.filter, hleft.assembly_eq_none.mpr rfl⟩
    | _ => cases hd
  · exact .inl (refused_of_active hd hactive)

/-! ### At all times -/

section Always

variable {registry : Registry (Blueprint ω)} {C : PropertyFilter ω → Prop}

theorem Sound.unchanged (h : Sound registry C x) {d : Deed ω} (hstep : (d.step x.pipeline).2 = x.pipeline)
    (hseen : d.seen x.pipeline = []) : Sound registry C (x.deed d) := by
  refine h.alike ?_ ?_
  · show x.pipeline.Alike (d.step x.pipeline).2
    rw [hstep]
    exact .refl x.pipeline
  · rw [roster_deed, hseen]
    rfl

theorem Sound.reconfigured (h : Sound registry C x) {d : Deed ω} (hd : d.configures)
    (hfilter : ∀ f, d ≠ .setFilter f) : Sound registry C (x.deed d) := by
  rcases unassembled_of_configures hd hfilter x.pipeline with
    ⟨hstep, hseen⟩ | ⟨hregistry, hfilter, hnone⟩
  · exact h.unchanged hstep hseen
  · exact h.unassembled hregistry hfilter hnone

theorem Sound.assembled (h : Sound registry C x) {plan : Plan} {actual : VideoFormat}
    (hahead : (protocol C).ahead (.assemble plan actual) x) :
    Sound registry C (x.deed (.assemble plan actual)) := by
  obtain ⟨hplanned, hannounced, hspoken⟩ := hahead
  have hroster : (x.deed (.assemble plan actual)).roster.announced = some plan.sinkFormat := by
    rw [roster_deed, ← hannounced]
    refine x.roster.announced_seeAll fun e he => ?_
    cases Deed.lets_of_mem_seen he
    rfl
  rcases assemble_cases plan actual x.pipeline with
    ⟨chain, w, hbuild, hvalid, heq⟩ | ⟨err, w, _, heq⟩
  · have hpipeline : (x.deed (.assemble plan actual)).pipeline =
        { x.pipeline with assembly := some ⟨plan, chain⟩ }.withWorld w := congrArg Prod.snd heq
    refine ⟨?_, ?_, fun a ha => ⟨?_, ?_⟩⟩
    · rw [hpipeline]
      exact h.registry
    · rw [hpipeline]
      exact h.filter
    · rw [hpipeline] at ha ⊢
      cases ha
      exact ⟨hplanned.negotiated, chain, x.pipeline.world, w, actual, hbuild, hspoken, hvalid,
        .refl chain⟩
    · rw [hpipeline] at ha
      cases ha
      exact hroster
  · have halike : x.pipeline.Alike (x.deed (.assemble plan actual)).pipeline := by
      show x.pipeline.Alike (assemble plan actual x.pipeline).2
      rw [heq]
      exact (beside_withWorld x.pipeline w).toAlike
    exact h.unassembled halike.registry halike.filter
      (halike.assembly_eq_none.mpr hplanned.unbuilt)

theorem Sound.refiltered (h : Sound registry C x) {filter : PropertyFilter ω} (hfilter : C filter) :
    Sound registry C (x.deed (.setFilter filter)) := by
  rcases hactive : x.pipeline.status.isActive with _ | _
  · have hstep : setFilter filter x.pipeline = (none, { x.pipeline with filter }) := by
      simp only [setFilter, ensureIdle_of_inactive hactive]
    have hpipeline : (x.deed (.setFilter filter)).pipeline = { x.pipeline with filter } :=
      congrArg Prod.snd hstep
    have hroster : (x.deed (.setFilter filter)).roster.announced = x.roster.announced := by
      rw [roster_deed]
      simp only [Deed.seen, hstep, if_true]
      rfl
    refine ⟨?_, ?_, fun a ha => ?_⟩
    · rw [hpipeline]
      exact h.registry
    · rw [hpipeline]
      exact hfilter
    · rw [hpipeline] at ha
      obtain ⟨hbuilt, hannounced⟩ := h.assembly a ha
      rw [hpipeline, hroster]
      exact ⟨⟨hbuilt.negotiated, hbuilt.built⟩, hannounced⟩
  · obtain ⟨hstep, hseen⟩ := refused_of_active (d := .setFilter filter) rfl hactive
    exact h.unchanged hstep hseen

theorem Sound.deed (h : Sound registry C x) {d : Deed ω} (hahead : (protocol C).ahead d x) :
    Sound registry C (x.deed d) := by
  by_cases hparts : d.keepsParts
  · refine h.alike (alike_deed hparts x.pipeline) ?_
    rw [roster_deed]
    exact x.roster.announced_seeAll (isAnnouncement_of_keepsParts hparts x.pipeline)
  · cases d with
    | discard => exact h.unassembled rfl rfl rfl
    | letGo => exact h.unassembled rfl rfl rfl
    | configureSink plan =>
      have hbeside := beside_deed (d := .configureSink plan) rfl x.pipeline
      exact h.unassembled hbeside.registry hbeside.filter (hbeside.assembly_eq_none.mpr hahead)
    | assemble plan actual => exact h.assembled hahead
    | setFilter filter => exact h.refiltered hahead
    | setSource source | setSink sink | request s | requestFormat f =>
      exact h.reconfigured rfl nofun
    | _ => exact absurd rfl hparts

end Always

/-- **At all times a chain comes from a plan whose format the sink was told.** -/
theorem sound_run {C : PropertyFilter ω → Prop} (registry : Registry (Blueprint ω))
    (config : PipelineConfig) (world : ω) (hidle : C .idle) {schedule : List (Choice ω)}
    (hmeets : Meets C schedule) :
    Sound registry C ((Scene.opening registry config world).run schedule).toMoment := by
  refine Scene.induction (safe_opening registry config world) ?_ (fun _ m h => h.move m)
    (fun _ _ hahead h => h.deed hahead) schedule hmeets.safe
  exact ⟨rfl, hidle, nofun⟩

/-! ### Between calls -/

/-- What holds of the fields of a pipeline together. -/
structure Representation (p : Pipeline ω) : Prop where
  undefined : p.status = .undefined ↔ p.attachment = none
  /-- An active pipeline has all of its parts and an active chain, and it has a worker if it plays,
  but not if it pauses. -/
  active : p.status.isActive = true →
    p.attachment.isSome ∧ p.sink.isSome ∧ p.plan.isSome ∧
      (∃ c, p.chain = some c ∧ c.status.isActive = true) ∧
      (p.worker ≠ .absent ↔ p.status = .playing)
  /-- No other pipeline has a worker, waiting buffers, or an active chain. -/
  inactive : p.status.isActive = false →
    p.worker = .absent ∧ p.queue.buffers = [] ∧ ∀ c, p.chain = some c → c.status.isActive = false
  chain_iff_plan : p.chain.isSome ↔ p.plan.isSome
  built : ∀ a, p.assembly = some a → BuiltFrom p a

theorem Rest.representation {r : Roster} (h : Rest p r)
    (hbuilt : ∀ a, p.assembly = some a → BuiltFrom p a) : Representation p := by
  have hchain : p.chain.isSome ↔ p.plan.isSome := by
    rw [chain, plan, Option.isSome_map, Option.isSome_map]
  rcases h with hidle | hbusy
  · refine ⟨hidle.undefined, fun hactive => ?_, fun _ => ⟨hidle.worker, hidle.waiting, ?_⟩, hchain,
      hbuilt⟩
    · rw [hidle.status] at hactive
      cases hactive
    · intro c hc
      obtain ⟨a, ha, rfl⟩ := Option.map_eq_some_iff.mp hc
      exact hidle.chain a.chain.status (by rw [chainStatus, ha]; rfl)
  · have hactive := hbusy.status
    refine ⟨iff_of_false (fun hundefined => ?_) (Option.ne_none_iff_isSome.mpr hbusy.source),
      fun _ => ?_, fun hinactive => ?_, hchain, hbuilt⟩
    · rw [hundefined] at hactive
      cases hactive
    · obtain ⟨a, ha⟩ := Option.isSome_iff_exists.mp hbusy.assembly
      have hplaying := hbusy.chain
      rw [chainStatus, ha] at hplaying
      refine ⟨hbusy.source, hbusy.sink, by rw [plan, ha]; rfl, ⟨a.chain, by rw [chain, ha]; rfl, ?_⟩,
        hbusy.worker⟩
      exact congrArg Status.isActive (Option.some.inj hplaying)
    · rw [hactive] at hinactive
      cases hinactive

/-- **The fields of a pipeline fit together between calls**, and the two errors of a pipeline whose
fields do not are never the result of a call. -/
theorem representation_between_calls (registry : Registry (Blueprint ω)) (config : PipelineConfig)
    (world : ω) (schedule : List (Choice ω)) {err : Option StreamError}
    (h : ((Scene.opening registry config world).run schedule).todo = .done err) :
    Representation ((Scene.opening registry config world).run schedule).pipeline ∧
      ∀ s, err ≠ some (.invalidState .startUnbuilt s) ∧ err ≠ some (.invalidState .startWorker s) := by
  obtain ⟨hrest, hbenign⟩ := stands_between_calls registry config world schedule h
  have hsound := sound_run (C := fun _ => True) registry config world trivial (meets_true schedule)
  refine ⟨hrest.representation fun a ha => (hsound.assembly a ha).1, fun s => ⟨?_, ?_⟩⟩
  · rintro rfl
    exact hbenign _ rfl trivial
  · rintro rfl
    exact hbenign _ rfl trivial

/-! ### A pipeline that plays -/

/-- Reports a catalog, agrees to everything, and delivers nothing by itself. -/
def obligingSource (catalog : Catalog) : Source ω where
  catalog _ := catalog
  attach _ w := w
  setFormat _ w := (true, w)
  format? _ := none
  adoptPool _ w := (true, w)
  setStatus _ w := (true, [], w)
  delivered _ _ w := w
  requeue _ w := w
  setDropIncomplete _ w := w
  dropsIncomplete _ := false

/-- Agrees to everything, and hands every buffer back. -/
def obligingSink : Sink ω where
  pool? _ := none
  setFormat _ w := (true, w)
  setStatus _ w := (true, w)
  push b w := (some b.toFrame, w)

/-- Mosaics of one size. -/
def mosaicFormat : VideoFormat := ⟨.rggb8, ⟨640, 480⟩, .fps 30⟩

def mosaicCatalog : Catalog :=
  ⟨[⟨mosaicFormat.encoding, [⟨.single mosaicFormat.size, .exactly mosaicFormat.rate⟩]⟩]⟩

/-- A source and a sink are attached, and the pipeline is made to play. -/
def upToPlaying : List (Choice Unit) :=
  [.call (.setSource (obligingSource mosaicCatalog)), .proceed, .call (.setSink obligingSink),
    .proceed, .call (.setStatus .playing)] ++ List.replicate 19 .proceed

/-- A pipeline that plays mosaics through white balance. -/
def balancing : Scene Unit :=
  (Scene.opening (Registry.empty.register .whiteBalance .whiteBalancer) {} ()).run upToPlaying

theorem representation_balancing :
    balancing.todo = .done none ∧ balancing.pipeline.status = .playing ∧
      Representation balancing.pipeline := by
  have hdone : balancing.todo = .done none := rfl
  exact ⟨hdone, rfl, (representation_between_calls _ {} () upToPlaying hdone).1⟩

end CameraStream.Pipeline
