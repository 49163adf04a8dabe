import CameraStream.Proofs.Pipeline.Readying

/-!
# The outline of every call

Between calls a pipeline is `Idle` or `Busy`. This module goes through the scripts of all calls, deed by
deed, and finds that each call leads from one to the other, whatever the parts answer and whatever
moves come between (**`safe_script`**). On the way it notes what holds ahead of those deeds that do
harm at a wrong time (`protocol`): a worker is started where there is none, waiting buffers are
returned and chains are discarded when the worker is gone, a chain is assembled from the plan of
negotiation after the sink was told its format, and source and sink are let go when nothing is going
on.

**`stands_between_calls`** is what this comes to for every schedule.
-/

namespace CameraStream.Pipeline

variable {ω : Type} {x : Moment ω}

/-- How a pipeline stands at a moment. -/
abbrev Moment.Stands (x : Moment ω) (A : Pipeline ω → Roster → Prop) : Prop := A x.pipeline x.roster

theorem roster_deed (x : Moment ω) (d : Deed ω) :
    (x.deed d).roster = x.roster.seeAll (d.seen x.pipeline) :=
  Roster.seeAll_append ..

theorem stands_deed {A : Pipeline ω → Roster → Prop} {d : Deed ω}
    (h : A (d.step x.pipeline).2 (x.roster.seeAll (d.seen x.pipeline))) : (x.deed d).Stands A := by
  rw [Moment.Stands, roster_deed]
  exact h

/-! ### What is to hold -/

/-- Between calls. -/
def Rest (p : Pipeline ω) (r : Roster) : Prop := Idle p r ∨ Busy p r

theorem Rest.beside {p q : Pipeline ω} {r : Roster} (h : Rest p r) (hq : p.Beside q) : Rest q r :=
  h.imp (Idle.beside · hq) (Busy.beside · hq)

/-- A format that the source says, in some world, it produces. -/
def Spoken (plan : Plan) (actual : VideoFormat) (p : Pipeline ω) : Prop :=
  ∃ w, (p.withWorld w).actualFormat plan = actual

theorem Spoken.beside {p q : Pipeline ω} {plan : Plan} {actual : VideoFormat}
    (h : Spoken plan actual p) (hq : p.Alike q) : Spoken plan actual q := by
  obtain ⟨w, hw⟩ := h
  refine ⟨w, ?_⟩
  rw [← hw]
  simp only [actualFormat, withWorld, world, hq.attachment]

/-- What has to hold ahead of deeds, if property filters are to satisfy `C`, and between calls. -/
def protocol (C : PropertyFilter ω → Prop) : Spec ω where
  ahead
  | .enter s, x => s.isActive = true → x.pipeline.attachment.isSome ∧ x.pipeline.sink.isSome
  | .startWorker, x => x.pipeline.worker = .absent
  | .returnWaiting, x => x.pipeline.worker = .absent
  | .discard, x => x.pipeline.worker = .absent
  | .configureSink _, x => x.pipeline.assembly = none
  | .assemble plan actual, x => x.Stands (Planned plan) ∧
      x.roster.announced = some plan.sinkFormat ∧ Spoken plan actual x.pipeline
  | .setFilter f, _ => C f
  | .setSource _, x | .setSink _, x | .request _, x | .requestFormat _, x => x.Stands Rest
  | .letGo, x => x.Stands Idle
  | _, _ => True
  after err x := x.Stands Rest ∧ ∀ e, err = some e → ¬ Internal e

variable {C : PropertyFilter ω → Prop} {A : Pipeline ω → Roster → Prop}

theorem safe_act (hA : ∀ p q r, A p r → p.Beside q → A q r) (hx : x.Stands A) {d : Deed ω}
    {rest : Option StreamError → Script ω}
    (h : ∀ y : Moment ω, y.Stands A → (protocol C).ahead d y ∧
      (rest (d.step y.pipeline).1).Safe (protocol C) (y.deed d)) :
    (Script.act d rest).Safe (protocol C) x :=
  Script.safe_act (stable_of_beside hA) hx h

theorem safe_look (hA : ∀ p q r, A p r → p.Beside q → A q r) (hx : x.Stands A)
    {next : Pipeline ω → Script ω}
    (h : ∀ y : Moment ω, y.Stands A → (next y.pipeline).Safe (protocol C) y) :
    (Script.look next).Safe (protocol C) x :=
  Script.safe_look (stable_of_beside hA) hx h

theorem safe_result {err : Option StreamError} (hx : x.Stands Rest)
    (herr : ∀ e, err = some e → ¬ Internal e) : (Script.done err).Safe (protocol C) x :=
  Script.safe_done (stable_of_beside (A := Rest) fun _ _ _ => Rest.beside) hx
    fun _ hy => ⟨hy, herr⟩

theorem safe_succeeded (hx : x.Stands Rest) : (Script.done none).Safe (protocol C) x :=
  safe_result hx nofun

theorem safe_failed {err : StreamError} (hx : x.Stands Rest) (herr : ¬ Internal err) :
    (Script.done (some err)).Safe (protocol C) x :=
  safe_result hx fun _ h => by
    cases h
    exact herr

/-! ### Stopping and starting -/

theorem safe_halt {k : Script ω} (hx : x.Stands Whole)
    (hk : ∀ y : Moment ω, y.Stands Idle → k.Safe (protocol C) y) :
    (Script.halt k).Safe (protocol C) x := by
  refine safe_act (A := Whole) (fun _ _ _ h hq => h.alike hq.toAlike) hx fun y hy => ⟨nofun, ?_⟩
  show (Script.all [.tellSource .stopped, .tellStages .stopped, .tellSink .stopped,
    .tellFilter .stopped, .joinWorker] (.act .returnWaiting fun _ => k)).Safe (protocol C) _
  refine Script.safe_all [] (B := fun done z => z.Stands (Halting done))
    (fun done => stable_of_beside fun _ _ _ => Halting.beside) ?_ ?_ fun z hz => ?_
  · exact stands_deed ⟨hy.alike (alike_enter ..), rfl, nofun, nofun, nofun, nofun, nofun⟩
  · intro d hd done z hz
    simp only [List.mem_cons, List.not_mem_nil, or_false] at hd
    rcases hd with rfl | rfl | rfl | rfl | rfl
    · exact ⟨trivial, stands_deed (hz.told .source)⟩
    · exact ⟨trivial, stands_deed hz.toldStages⟩
    · exact ⟨trivial, stands_deed (hz.told .sink)⟩
    · exact ⟨trivial, stands_deed (hz.told .filter)⟩
    · exact ⟨trivial, stands_deed hz.joined⟩
  · refine safe_act (A := Halting _) (fun _ _ _ => Halting.beside) hz
      fun u hu => ⟨hu.worker (by simp), hk _ (stands_deed ?_)⟩
    refine hu.returned.idle (fun part => ?_) ?_ ?_ ?_
    · cases part with
      | source | sink | filter => simp [Deed.tell]
    · simp
    · simp
    · simp

theorem safe_rollBack {err : StreamError} (hx : x.Stands Whole) (herr : ¬ Internal err) :
    (Script.rollBack (some err)).Safe (protocol C) x :=
  safe_halt hx fun _ hy => safe_failed (.inl hy) herr

/-- The last deed of starting and of resuming. -/
theorem safe_startWorker (hx : x.Stands fun p r => Heeded p r ∧ p.status = .playing ∧
      p.worker = .absent) :
    (Script.inOrder [.startWorker] Script.rollBack).Safe (protocol C) x := by
  refine safe_act (A := fun p r => Heeded p r ∧ p.status = .playing ∧ p.worker = .absent)
    (fun _ _ _ h hq => ⟨h.1.beside hq, hq.status.trans h.2.1, hq.worker.mpr h.2.2⟩) hx
    fun y hy => ⟨hy.2.2, ?_⟩
  obtain ⟨hheeded, hplaying, -⟩ := hy
  have hstep := hheeded.toWhole.step_startWorker
  have hbusy : (y.deed .startWorker).Stands Busy := by
    refine stands_deed ?_
    rw [hstep]
    refine ⟨hheeded.of_alike (.refl_of y.pipeline _ _ .waiting) rfl, ?_, iff_of_true nofun hplaying⟩
    exact congrArg Status.isActive hplaying
  rw [hstep]
  exact safe_succeeded (.inr hbusy)

theorem safe_start (hx : x.Stands Whole) (hworker : x.pipeline.worker = .absent) :
    Script.start.Safe (protocol C) x := by
  refine safe_act (A := fun p r => Whole p r ∧ p.worker = .absent)
    (fun _ _ _ h hq => ⟨h.1.alike hq.toAlike, hq.worker.mpr h.2⟩) ⟨hx, hworker⟩
    fun y hy => ⟨fun _ => ⟨hy.1.source, hy.1.sink⟩, ?_⟩
  have hstarting : (y.deed (.enter .playing)).Stands (Starting []) :=
    stands_deed ⟨hy.1.alike (alike_enter ..), rfl, hy.2, nofun, nofun, nofun⟩
  show (Script.inOrder (activating ++ [.startWorker]) Script.rollBack).Safe (protocol C) _
  rw [Script.inOrder_append]
  refine Script.safe_inOrder [] (B := fun done z => z.Stands (Starting done))
    (E := fun err z => z.Stands Whole ∧ ¬ Internal err)
    (fun done => stable_of_beside fun _ _ _ => Starting.beside) hstarting ?_ (fun z hz => ?_)
    fun err z hz => safe_rollBack hz.1 hz.2
  · intro d hd done z hz
    obtain ⟨hdone, hfailed⟩ := hz.deed hd
    refine ⟨?_, fun hok => stands_deed (hdone hok), fun err herr =>
      ⟨stands_deed (hfailed err herr).1, (hfailed err herr).2⟩⟩
    simp only [activating, List.mem_cons, List.not_mem_nil, or_false] at hd
    rcases hd with rfl | rfl | rfl | rfl | rfl
    all_goals trivial
  · refine safe_startWorker ⟨hz.heeded (fun part => ?_) ?_, hz.status, hz.worker⟩
    · cases part with
      | source | sink | filter => simp [activating, Deed.tell]
    · simp [activating]

theorem safe_resume (hx : x.Stands fun p r => Busy p r ∧ p.status = .paused) :
    Script.resume.Safe (protocol C) x := by
  refine safe_act (A := fun p r => Busy p r ∧ p.status = .paused)
    (fun _ _ _ h hq => ⟨h.1.beside hq, hq.status.trans h.2⟩) hx
    fun y hy => ⟨fun _ => ⟨hy.1.source, hy.1.sink⟩, ?_⟩
  obtain ⟨hbusy, hpaused⟩ := hy
  -- The worker of a busy pipeline is there only while it plays.
  refine safe_startWorker (stands_deed ⟨?_, rfl, ?_⟩)
  · exact hbusy.toHeeded.of_alike (alike_enter ..) rfl
  · refine Classical.not_not.mp fun hpresent => ?_
    rw [hbusy.worker.mp hpresent] at hpaused
    cases hpaused

theorem safe_pause (hx : x.Stands Busy) : Script.pause.Safe (protocol C) x := by
  refine safe_act (A := Busy) (fun _ _ _ => Busy.beside) hx
    fun y hy => ⟨fun _ => ⟨hy.source, hy.sink⟩, ?_⟩
  have hentered : (y.deed (.enter .paused)).Stands fun p r => Heeded p r ∧ p.status = .paused :=
    stands_deed ⟨hy.toHeeded.of_alike (alike_enter ..) rfl, rfl⟩
  refine safe_act (A := fun p r => Heeded p r ∧ p.status = .paused)
    (fun _ _ _ h hq => ⟨h.1.beside hq, hq.status.trans h.2⟩) hentered fun z hz => ⟨trivial, ?_⟩
  refine safe_succeeded (.inr (stands_deed ?_))
  rw [Roster.seeAll_of_isTraffic _ (isTraffic_of_joinWorker z.pipeline)]
  obtain ⟨q, hq, heq⟩ := joinWorker_beside z.pipeline
  have hpaused : q.status = .paused := hq.status.trans hz.2
  have hstep : (Deed.joinWorker.step z.pipeline).2 = { q with worker := .absent } := heq
  rw [hstep]
  refine ⟨(hz.1.beside hq).of_alike (.refl_of q _ _ .absent) rfl, ?_, iff_of_false (absurd rfl) ?_⟩
  · exact congrArg Status.isActive hpaused
  · intro hplaying
    cases hpaused.symm.trans hplaying

/-! ### Building -/

theorem safe_configureAndAssemble {plan : Plan} {actual : VideoFormat}
    {k : Option StreamError → Script ω}
    (hx : x.Stands fun p r => Planned plan p r ∧ Spoken plan actual p)
    (hk : ∀ y : Moment ω, y.Stands Idle → y.Stands Whole → (k none).Safe (protocol C) y)
    (hE : ∀ (err : StreamError) (y : Moment ω), y.Stands Equipped → ¬ Internal err →
      (k (some err)).Safe (protocol C) y) :
    (Script.inOrder [.configureSink plan, .configureFilter plan, .assemble plan actual] k).Safe
      (protocol C) x := by
  refine safe_act (A := fun p r => Planned plan p r ∧ Spoken plan actual p)
    (fun _ _ _ h hq => ⟨h.1.beside hq, h.2.beside hq.toAlike⟩) hx fun y hy => ⟨hy.1.unbuilt, ?_⟩
  obtain ⟨hsink, hannounced⟩ := hy.1.configuredSink
  have hy' : (y.deed (.configureSink plan)).Stands fun p r => Planned plan p r ∧
      r.announced = some plan.sinkFormat ∧ Spoken plan actual p :=
    stands_deed ⟨hsink, hannounced, hy.2.beside (beside_deed rfl y.pipeline).toAlike⟩
  rcases herr : ((Deed.configureSink plan).step y.pipeline).1 with _ | err
  · refine safe_act (A := fun p r => Planned plan p r ∧ r.announced = some plan.sinkFormat ∧
        Spoken plan actual p)
      (fun _ _ _ h hq => ⟨h.1.beside hq, h.2.1, h.2.2.beside hq.toAlike⟩) hy'
      fun z hz => ⟨trivial, ?_⟩
    have hbeside := beside_deed (d := .configureFilter plan) rfl z.pipeline
    have hz' : (z.deed (.configureFilter plan)).Stands fun p r => Planned plan p r ∧
        r.announced = some plan.sinkFormat ∧ Spoken plan actual p :=
      stands_deed ⟨hz.1.beside hbeside, hz.2.1, hz.2.2.beside hbeside.toAlike⟩
    rcases herr : ((Deed.configureFilter plan).step z.pipeline).1 with _ | err
    · refine safe_act (A := fun p r => Planned plan p r ∧ r.announced = some plan.sinkFormat ∧
          Spoken plan actual p)
        (fun _ _ _ h hq => ⟨h.1.beside hq, h.2.1, h.2.2.beside hq.toAlike⟩) hz'
        fun u hu => ⟨hu, ?_⟩
      rcases herr : ((Deed.assemble plan actual).step u.pipeline).1 with _ | err
      · obtain ⟨hidle, hwhole⟩ := hu.1.assembled herr
        exact hk _ (stands_deed hidle) (stands_deed hwhole)
      · have hequipped := hu.1.toEquipped.notAssembled herr
        exact hE err _ (stands_deed hequipped) (not_internal (d := .assemble plan actual) nofun nofun herr)
    · exact hE err _ hz'.1.toEquipped (not_internal (d := .configureFilter plan) nofun nofun herr)
  · exact hE err _ hy'.1.toEquipped (not_internal (d := .configureSink plan) nofun nofun herr)

theorem safe_realize {plan : Plan} {k : Option StreamError → Script ω}
    (hx : x.Stands (Planned plan))
    (hk : ∀ y : Moment ω, y.Stands Idle → y.Stands Whole → (k none).Safe (protocol C) y)
    (hE : ∀ (err : StreamError) (y : Moment ω), y.Stands Equipped → ¬ Internal err →
      (k (some err)).Safe (protocol C) y) : (Script.realize plan k).Safe (protocol C) x := by
  have hplanned : Stable fun y : Moment ω => y.Stands (Planned plan) :=
    stable_of_beside fun _ _ _ => Planned.beside
  refine Script.safe_inOrder [] (B := fun _ y => y.Stands (Planned plan))
    (E := fun err y => y.Stands Equipped ∧ ¬ Internal err) (fun _ => hplanned) hx ?_
    (fun y hy => ?_) fun err y hy => hE err y hy.1 hy.2
  · intro d hd done y hy
    have hd' : d.keepsStanding ∧ d.seen y.pipeline = [] ∧ d ≠ .requireParts ∧ d ≠ .startWorker ∧
        (protocol C).ahead d y := by
      simp only [List.mem_cons, List.not_mem_nil, or_false] at hd
      rcases hd with rfl | rfl
      · exact ⟨rfl, rfl, nofun, nofun, trivial⟩
      · exact ⟨rfl, rfl, nofun, nofun, trivial⟩
    obtain ⟨hkeeps, hseen, hparts, hworker, hahead⟩ := hd'
    have hy' : (y.deed d).Stands (Planned plan) := by
      refine stands_deed ?_
      rw [hseen]
      exact hy.beside (beside_deed hkeeps y.pipeline)
    exact ⟨hahead, fun _ => hy', fun err herr => ⟨hy'.toEquipped, not_internal hparts hworker herr⟩⟩
  · refine Script.safe_look hplanned hy fun z hz => ?_
    have hspoken : Spoken plan (z.pipeline.actualFormat plan) z.pipeline := ⟨z.pipeline.world, rfl⟩
    -- From here on the format is fixed, whatever the source says later.
    generalize z.pipeline.actualFormat plan = actual at hspoken
    exact safe_configureAndAssemble ⟨hz, hspoken⟩ hk hE

theorem safe_negotiateAndRealize {k : Option StreamError → Script ω} (hx : x.Stands Equipped)
    (hk : ∀ y : Moment ω, y.Stands Idle → y.Stands Whole → (k none).Safe (protocol C) y)
    (hE : ∀ (err : StreamError) (y : Moment ω), y.Stands Equipped → ¬ Internal err →
      (k (some err)).Safe (protocol C) y) :
    (Script.negotiateAndRealize k).Safe (protocol C) x := by
  refine safe_look (A := Equipped) (fun _ _ _ => Equipped.beside) hx fun y hy => ?_
  rcases hplanned : negotiate y.pipeline.registry y.pipeline.config.policy y.pipeline.available
    y.pipeline.requested with err | plan
  · refine safe_act (A := Equipped) (fun _ _ _ => Equipped.beside) hy fun z hz => ⟨trivial, ?_⟩
    exact hE _ _ (stands_deed (hz.beside (beside_deed rfl z.pipeline))) id
  · refine safe_act (A := Planned plan) (fun _ _ _ => Planned.beside) ⟨hy, hplanned⟩
      fun z hz => ⟨trivial, ?_⟩
    exact safe_realize (stands_deed (hz.beside (beside_deed rfl z.pipeline))) hk hE

theorem safe_build {k : Option StreamError → Script ω} (hx : x.Stands Rest)
    (hk : ∀ y : Moment ω, y.Stands Idle → y.Stands Whole → (k none).Safe (protocol C) y)
    (hE : ∀ (err : StreamError) (y : Moment ω), y.Stands Rest → ¬ Internal err →
      (k (some err)).Safe (protocol C) y) : (Script.build k).Safe (protocol C) x := by
  refine safe_look (A := Rest) (fun _ _ _ => Rest.beside) hx fun y hy => ?_
  rcases hrefused : y.pipeline.ensureIdle .build with _ | err
  · -- Nobody refuses to build, so nothing is going on.
    have hidle : y.Stands Idle := hy.resolve_right fun hbusy => by
      rw [ensureIdle_of_active hbusy.status] at hrefused
      cases hrefused
    simp only
    split
    · exact hE _ y hy id
    · next hsource =>
      split
      · exact hE _ y hy id
      · next hsink =>
        refine safe_act (A := fun p r => Idle p r ∧ p.attachment.isSome ∧ p.sink.isSome)
          (fun _ _ _ h hq => ⟨h.1.beside hq, hq.attachment.symm ▸ h.2.1, hq.sink.symm ▸ h.2.2⟩)
          ⟨hidle, Option.isNone_eq_false_iff.mp (eq_false_of_ne_true hsource),
            Option.isNone_eq_false_iff.mp (eq_false_of_ne_true hsink)⟩
          fun z hz => ⟨hz.1.worker, ?_⟩
        refine safe_negotiateAndRealize
          (stands_deed ⟨hz.1.discard, hz.2.1, hz.2.2, rfl⟩) hk fun err u hu herr => ?_
        -- After a failure there is no chain; only the status tells of it.
        refine safe_act (A := Equipped) (fun _ _ _ => Equipped.beside) hu fun v hv => ⟨nofun, ?_⟩
        have hidle := hv.toIdle.enter (s := .error) rfl
          (iff_of_false nofun (Option.ne_none_iff_isSome.mpr hv.source))
        exact hE err _ (.inl (stands_deed hidle)) herr
  · exact hE err y hy (not_internal_of_ensureIdle hrefused fun _ => id)

/-! ### Requests for a status, and the end -/

theorem safe_play (hx : x.Stands fun p r => Rest p r ∧ p.status ≠ .playing) :
    Script.play.Safe (protocol C) x := by
  refine safe_look (A := fun p r => Rest p r ∧ p.status ≠ .playing)
    (fun _ _ _ h hq => ⟨h.1.beside hq, hq.status ▸ h.2⟩) hx fun y hy => ?_
  split
  · next hpaused =>
    refine safe_resume ⟨hy.1.resolve_left fun hidle => ?_, hpaused⟩
    have hinactive := hidle.status
    rw [hpaused] at hinactive
    cases hinactive
  · exact safe_build hy.1 (fun z hidle hwhole => safe_start hwhole hidle.worker)
      fun err z hz herr => safe_failed hz herr

theorem safe_stop (hx : x.Stands Rest) : Script.stop.Safe (protocol C) x := by
  refine safe_look (A := Rest) (fun _ _ _ => Rest.beside) hx fun y hy => ?_
  split
  · next hactive =>
    have hbusy : y.Stands Busy := hy.resolve_left fun hidle =>
      Bool.false_ne_true (hidle.status.symm.trans hactive)
    exact safe_halt hbusy.toWhole fun z hz => safe_succeeded (.inl hz)
  · next hinactive =>
    have hidle : y.Stands Idle := hy.resolve_right fun hbusy => hinactive hbusy.status
    split
    · exact safe_failed hy id
    · split
      · next hsource =>
        refine safe_act (A := fun p r => Idle p r ∧ p.attachment.isSome)
          (fun _ _ _ h hq => ⟨h.1.beside hq, hq.attachment.symm ▸ h.2⟩) ⟨hidle, hsource⟩
          fun z hz => ⟨nofun, ?_⟩
        have hstopped := hz.1.enter (s := .stopped) rfl
          (iff_of_false nofun (Option.ne_none_iff_isSome.mpr hz.2))
        exact safe_succeeded (.inl (stands_deed hstopped))
      · exact safe_failed hy id

theorem safe_setStatus (target : Status) (hx : x.Stands Rest) :
    (Script.setStatus target).Safe (protocol C) x := by
  refine safe_look (A := Rest) (fun _ _ _ => Rest.beside) hx fun y hy => ?_
  split
  · exact safe_succeeded hy
  · next hother =>
    cases target with
    | playing => exact safe_play ⟨hy, hother⟩
    | paused =>
      simp only
      split
      · next hplaying =>
        refine safe_pause (hy.resolve_left fun hidle => ?_)
        have hinactive := hidle.status
        rw [hplaying] at hinactive
        cases hinactive
      · exact safe_failed hy id
    | stopped => exact safe_stop hy
    | undefined => exact safe_failed hy id
    | error => exact safe_failed hy id

theorem safe_letGo (hx : x.Stands Idle) :
    (Script.act .letGo Script.done).Safe (protocol C) x := by
  refine safe_act (A := Idle) (fun _ _ _ => Idle.beside) hx fun y hy => ⟨hy, ?_⟩
  refine safe_succeeded (.inl (stands_deed ?_))
  refine ⟨rfl, hy.worker, hy.waiting, iff_of_true rfl rfl, nofun, hy.quiet, ⟨fun part hpart => ?_, nofun⟩⟩
  cases part with
  | source => cases hpart
  | sink => cases hpart
  | filter => exact hy.enrolled.parts .filter rfl

theorem safe_destroy (hx : x.Stands Rest) : Script.destroy.Safe (protocol C) x := by
  refine safe_look (A := Rest) (fun _ _ _ => Rest.beside) hx fun y hy => ?_
  split
  · next hactive =>
    have hbusy : y.Stands Busy := hy.resolve_left fun hidle =>
      Bool.false_ne_true (hidle.status.symm.trans hactive)
    exact safe_halt hbusy.toWhole fun z hz => safe_letGo hz
  · next hinactive =>
    exact safe_letGo (hy.resolve_right fun hbusy => hinactive hbusy.status)

/-! ### Every call -/

theorem safe_configure {d : Deed ω} (hd : d.configures)
    (hahead : ∀ y : Moment ω, y.Stands Rest → (protocol C).ahead d y) (hx : x.Stands Rest) :
    (Script.act d Script.done).Safe (protocol C) x := by
  refine safe_act (A := Rest) (fun _ _ _ => Rest.beside) hx fun y hy => ⟨hahead y hy, ?_⟩
  refine safe_result ?_ fun err herr => (refused_of_failed hd herr).2.2.1
  -- An idle pipeline takes the change, an active one refuses it.
  rcases hy with hidle | hbusy
  · exact .inl (stands_deed (hidle.configured hd))
  · obtain ⟨hstep, hseen⟩ := refused_of_active hd hbusy.status
    refine .inr (stands_deed ?_)
    rw [hstep, hseen]
    exact hbusy

/-- A call whose property filter, if it is about one, satisfies a condition. -/
def Call.Meets (C : PropertyFilter ω → Prop) : Call ω → Prop
  | .setFilter f => C f
  | _ => True

/-- **Every call leads from rest to rest.** -/
theorem safe_script {c : Call ω} (hc : c.Meets C) (hx : x.Stands Rest) :
    c.script.Safe (protocol C) x := by
  have hbeside {d : Deed ω} (hkeeps : d.keepsStanding) (htraffic : ∀ p, ∀ e ∈ d.seen p, e.isTraffic)
      (hahead : ∀ y, (protocol C).ahead d y) (hparts : d ≠ .requireParts) :
      (Script.act d Script.done).Safe (protocol C) x := by
    refine safe_act (A := Rest) (fun _ _ _ => Rest.beside) hx fun y hy => ⟨hahead y, ?_⟩
    refine safe_result (stands_deed ?_) fun err herr => not_internal hparts ?_ herr
    · rw [Roster.seeAll_of_isTraffic _ (htraffic y.pipeline)]
      exact hy.beside (beside_deed hkeeps y.pipeline)
    · rintro rfl
      cases hkeeps
  cases c with
  | setSource source => exact safe_configure rfl (fun _ hy => hy) hx
  | setSink sink => exact safe_configure rfl (fun _ hy => hy) hx
  | setFilter filter => exact safe_configure rfl (fun _ _ => hc) hx
  | request s => exact safe_configure rfl (fun _ hy => hy) hx
  | requestFormat f => exact safe_configure rfl (fun _ hy => hy) hx
  | setDropIncomplete drop => exact hbeside rfl (fun _ => nofun) (fun _ => trivial) nofun
  | requeue b => exact hbeside rfl (isTraffic_of_requeue b) (fun _ => trivial) nofun
  | build =>
    exact safe_build hx (fun y hidle _ => safe_succeeded (.inl hidle))
      fun err y hy herr => safe_failed hy herr
  | setStatus target => exact safe_setStatus target hx
  | destroy => exact safe_destroy hx

/-! ### Every schedule -/

theorem idle_opening (registry : Registry (Blueprint ω)) (config : PipelineConfig) (world : ω) :
    (Scene.opening registry config world).Stands Idle where
  status := rfl
  worker := rfl
  waiting := rfl
  undefined := iff_of_true rfl rfl
  chain := nofun
  quiet := by
    refine ⟨fun part h hh => ?_, nofun⟩
    cases part with
    | source | sink => cases hh
    | filter =>
      obtain rfl := List.mem_singleton.mp hh
      exact Heard.quiet_none
  enrolled := by
    refine ⟨fun part hpart => ?_, nofun⟩
    cases part with
    | source | sink => cases hpart
    | filter => exact List.cons_ne_nil _ _

theorem safe_opening (registry : Registry (Blueprint ω)) (config : PipelineConfig) (world : ω) :
    (Scene.opening registry config world).todo.Safe (protocol C)
      (Scene.opening registry config world).toMoment :=
  safe_succeeded (.inl (idle_opening registry config world))

/-- Every call of a schedule meets a condition. -/
def Meets (C : PropertyFilter ω → Prop) (schedule : List (Choice ω)) : Prop :=
  ∀ c, .call c ∈ schedule → c.Meets C

theorem Meets.safe {schedule : List (Choice ω)} (h : Meets C schedule) :
    ∀ c, .call c ∈ schedule → ∀ err x, (Script.done err).Safe (protocol C) x →
      c.script.Safe (protocol C) x :=
  fun c hc _ _ hx => safe_script (h c hc) (hx []).1

theorem meets_true (schedule : List (Choice ω)) : Meets (fun _ => True) schedule := by
  intro c _
  cases c with
  | setFilter f => trivial
  | _ => trivial

/-- **Between calls a pipeline is idle or busy**, after every schedule, and no call has had an error
that should not be. -/
theorem stands_between_calls (registry : Registry (Blueprint ω)) (config : PipelineConfig)
    (world : ω) (schedule : List (Choice ω)) {err : Option StreamError}
    (h : ((Scene.opening registry config world).run schedule).todo = .done err) :
    ((Scene.opening registry config world).run schedule).Stands Rest ∧
      ∀ e, err = some e → ¬ Internal e := by
  have hsafe := Scene.safe_run (safe_opening (C := fun _ => True) registry config world) schedule
    (meets_true schedule).safe
  rw [h] at hsafe
  exact hsafe []

end CameraStream.Pipeline
