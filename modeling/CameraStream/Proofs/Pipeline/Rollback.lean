import CameraStream.Proofs.Pipeline.Attempt
import CameraStream.Proofs.Pipeline.Progress

/-!
# Rolling back

A pipeline that is told to play tells sink, source, stages and property filter to play, one after the
other, and the first refusal is the last of these commands. From then on it goes the way of a stop:
source, stages, sink and property filter are told to stop, whatever they answer. The error names who
refused, there is no worker, the chain is stopped, and whatever was accepted while the status said
playing has gone to the source, in order and untouched (**`rolledBack_of_refused`**).

The script of the call is gone through twice over. Building tells nobody anything (`Calm`); then those
who agree grow in number while deeds are left (`Rising`), until all have agreed or somebody has
`Balked`; after that those who were told to stop grow in number (`Falling`) until all is `Undone`.
-/

namespace CameraStream.Pipeline

variable {ω : Type} {p q : Pipeline ω} {x y : Moment ω}

/-- What is left of a call to play that somebody refused: its result, the pipeline, and what was
seen since the call. -/
structure RolledBack (err : Option StreamError) (p : Pipeline ω) (events : List Event) : Prop where
  commands : ∃ c agreed refuser others stopping,
    p.chain = some c ∧ c.status = .stopped ∧
    startOrder c.stages.length = agreed ++ refuser :: others ∧
    commands events = agreed.map .accepted ++ .refused refuser :: stopping ∧
    stopping.map Command.order = (stopOrder c.stages.length).map (·, .stopped) ∧
    ∃ e, err = some e ∧ Blames c.stageNames e refuser
  status : p.status = .stopped
  worker : p.worker = .absent
  waiting : p.queue.buffers = []
  /-- All that was accepted has gone to the source, and nothing else was done to buffers. -/
  returned : handling events = (accepted events).map .requeued

/-! ### What a call to play is to come to -/

/-- If anybody has refused, the call is rolled back. -/
def rollingBack : Spec ω where
  ahead _ _ := True
  after err x := (∃ l, .refused l ∈ commands x.history) → RolledBack err x.pipeline x.history

def Unrefused (x : Moment ω) : Prop := ∀ l, .refused l ∉ commands x.history

theorem commands_move (x : Moment ω) (m : Move ω) :
    commands (x.move m).history = commands x.history := by
  show commands (x.history ++ m.seen x.pipeline) = _
  rw [commands_append, commands_of_isTraffic (isTraffic_of_mem_seen m x.pipeline), List.append_nil]

theorem commands_deed_of_unseen {d : Deed ω} (hd : d.seen x.pipeline = []) :
    commands (x.deed d).history = commands x.history := by
  show commands (x.history ++ d.seen x.pipeline) = _
  rw [hd, List.append_nil]

theorem stable_unrefused : Stable (ω := ω) Unrefused := by
  intro x m h
  rw [Unrefused, commands_move]
  exact h

theorem safe_unrefused {err : Option StreamError} (hx : Unrefused x) :
    (Script.done err).Safe rollingBack x :=
  Script.safe_done stable_unrefused hx fun _ hy ⟨l, hl⟩ => absurd hl (hy l)

theorem unrefused_of_untold (h : commands x.history = []) : Unrefused x := by
  intro l hl
  rw [h] at hl
  cases hl

theorem Underway.unrefused {agreed : List Listener} (h : Underway (agreed.map .accepted) x) :
    Unrefused x := by
  intro l hl
  rw [h.told] at hl
  obtain ⟨_, -, heq⟩ := List.mem_map.mp hl
  cases heq

/-- The last deed of starting and of resuming. -/
theorem safe_startedWorker {names : List String} (hx : Unrefused x)
    (hstaffed : Staffed names x.pipeline) :
    (Script.inOrder [.startWorker] Script.rollBack).Safe rollingBack x := by
  have hstable : Stable fun y : Moment ω => Unrefused y ∧ Staffed names y.pipeline :=
    fun y m hy => ⟨stable_unrefused y m hy.1, Staffed.stable y m hy.2⟩
  refine Script.safe_act hstable ⟨hx, hstaffed⟩ fun y hy => ⟨trivial, ?_⟩
  have hunrefused : Unrefused (y.deed .startWorker) := by
    rw [Unrefused, commands_deed_of_unseen rfl]
    exact hy.1
  rw [hy.2.step_startWorker]
  exact safe_unrefused hunrefused

/-! ### Stopping again -/

section Stopping

variable {names : List String} {starting : List Command}

/-- On the way to a stop that comes after some commands, with the deeds that are done, the last one
first. -/
structure Falling (names : List String) (starting : List Command) (done : List (Deed ω))
    (x : Moment ω) : Prop where
  underway : ∃ stopping,
    stopping.map Command.order =
      (done.reverse.flatMap (Deed.listeners names.length)).map (·, .stopped) ∧
    Underway (starting ++ stopping) x
  status : x.pipeline.status = .stopped
  staffed : Staffed names x.pipeline
  chain : .tellStages .stopped ∈ done → x.pipeline.chainStatus = some .stopped

namespace Falling

variable {done : List (Deed ω)}

theorem stable : Stable (Falling (ω := ω) names starting done) := by
  intro x m h
  have hbeside := beside_step m x.pipeline
  obtain ⟨stopping, horder, hunderway⟩ := h.underway
  exact ⟨⟨stopping, horder, hunderway.move m⟩, hbeside.status.trans h.status,
    h.staffed.alike hbeside.toAlike, fun hdone => hbeside.chainStatus.trans (h.chain hdone)⟩

/-- One more deed is done. -/
theorem deed (h : Falling names starting done x) {d : Deed ω}
    (hunderway : ∀ told, Underway told x →
      Underway (told ++ commands (d.seen x.pipeline)) (x.deed d))
    (horder : (commands (d.seen x.pipeline)).map Command.order =
      (d.listeners names.length).map (·, .stopped))
    (halike : x.pipeline.Alike (x.deed d).pipeline)
    (hstatus : (x.deed d).pipeline.status = x.pipeline.status)
    (hchain : .tellStages .stopped ∈ d :: done → (x.deed d).pipeline.chainStatus = some .stopped) :
    Falling names starting (d :: done) (x.deed d) := by
  obtain ⟨stopping, hstopping, hx⟩ := h.underway
  refine ⟨⟨stopping ++ commands (d.seen x.pipeline), ?_, ?_⟩, hstatus.trans h.status,
    h.staffed.alike halike, hchain⟩
  · rw [List.map_append, hstopping, horder, List.reverse_cons, List.flatMap_append, List.map_append,
      List.flatMap_singleton]
  · rw [← List.append_assoc]
    exact hunderway _ hx

theorem told (h : Falling names starting done x) (part : Part) :
    Falling names starting (.tell .stopped part :: done) (x.deed (.tell .stopped part)) := by
  have hbeside := beside_tell .stopped part x.pipeline
  refine h.deed (fun _ hx => hx.tell .stopped part) ?_ hbeside.toAlike hbeside.status fun hdone => ?_
  · rw [commands_tell .stopped (h.staffed.has part)]
    cases part <;> rfl
  · exact hbeside.chainStatus.trans
      (h.chain (List.mem_of_ne_of_mem (tell_ne_tellStages _ _ _).symm hdone))

theorem toldStages (h : Falling names starting done x) :
    Falling names starting (.tellStages .stopped :: done) (x.deed (.tellStages .stopped)) := by
  obtain ⟨a, ha, hnames⟩ := h.staffed.exists_assembly
  have hlength : names.length = a.chain.stages.length := hnames ▸ List.length_map _
  have hstep : (x.deed (.tellStages .stopped)).pipeline = _ :=
    congrArg Prod.snd (step_tellStages ha .stopped)
  refine h.deed (fun _ hx => hx.deed rfl) ?_ (alike_commandChain .stopped x.pipeline) ?_ fun _ => ?_
  · rw [commands_tellStages ha, Deed.listeners, hlength, List.map_map,
      ← length_stageAnswers (t := .stopped) rfl a.chain.stages x.pipeline.world]
    simp [List.ext_getElem_iff, Command.order]
  · rw [hstep]
    rfl
  · rw [hstep]
    exact congrArg some (a.chain.status_setStatus_of_inactive (t := .stopped) rfl x.pipeline.world)

theorem joined (h : Falling names starting done x) :
    Falling names starting (.joinWorker :: done) (x.deed .joinWorker) := by
  obtain ⟨q, hq, heq⟩ := joinWorker_beside x.pipeline
  have hstep : (x.deed .joinWorker).pipeline = { q with worker := .absent } := heq
  have hnone : commands (Deed.joinWorker.seen x.pipeline) = [] :=
    commands_of_isTraffic (isTraffic_of_joinWorker x.pipeline)
  refine h.deed (fun _ hx => ?_) (hnone ▸ rfl) (alike_joinWorker x.pipeline) ?_ fun hdone => ?_
  · rw [hnone, List.append_nil]
    exact hx.joined
  · rw [hstep]
    exact hq.status
  · rw [hstep]
    exact hq.chainStatus.trans (h.chain (List.mem_of_ne_of_mem (by nofun) hdone))

end Falling

/-- All is stopped again, and what waited has gone to the source. -/
structure Undone (names : List String) (starting : List Command) (x : Moment ω) : Prop where
  told : ∃ stopping, stopping.map Command.order = (stopOrder names.length).map (·, .stopped) ∧
    commands x.history = starting ++ stopping
  status : x.pipeline.status = .stopped
  staffed : Staffed names x.pipeline
  chain : x.pipeline.chainStatus = some .stopped
  worker : x.pipeline.worker = .absent
  waiting : x.pipeline.queue.buffers = []
  returned : handling x.history = (accepted x.history).map .requeued

theorem Undone.stable : Stable (Undone (ω := ω) names starting) := by
  intro x m h
  have hbeside := beside_step m x.pipeline
  have hinactive : x.pipeline.status.isActive = false := by rw [h.status]; rfl
  obtain ⟨-, hhandling, haccepted⟩ := move_of_absent h.worker m
  refine ⟨?_, hbeside.status.trans h.status, h.staffed.alike hbeside.toAlike,
    hbeside.chainStatus.trans h.chain, hbeside.worker.mpr h.worker,
    (hbeside.waiting hinactive).trans h.waiting, ?_⟩
  · rw [commands_move]
    exact h.told
  · show handling (x.history ++ m.seen x.pipeline) = _
    rw [handling_append, hhandling, List.append_nil, h.returned]
    show _ = (accepted (x.history ++ m.seen x.pipeline)).map _
    rw [accepted_append, haccepted hinactive, List.append_nil]

/-- At last what waits goes to the source. -/
theorem Falling.returned (h : Falling names starting stopCommands.reverse x) :
    Undone names starting (x.deed .returnWaiting) := by
  obtain ⟨stopping, horder, hx⟩ := h.underway
  obtain ⟨surroundings, heq⟩ := exists_surroundings_returnWaiting x.pipeline
  have hpipeline : (x.deed .returnWaiting).pipeline = _ := heq
  have hseen : Deed.returnWaiting.seen x.pipeline = x.pipeline.queue.buffers.map .requeued := by
    obtain ⟨a, ha⟩ := Option.isSome_iff_exists.mp h.staffed.source
    simp only [Deed.seen, ha]
  have hhistory : (x.deed .returnWaiting).history =
      x.history ++ (accepted x.history).map .requeued := by
    rw [← hx.waiting, ← hseen]
    rfl
  have hrequeued : ∀ e ∈ (accepted x.history).map Event.requeued, e.isTraffic ∧ e.isHandling := by
    intro e he
    obtain ⟨b, -, rfl⟩ := List.mem_map.mp he
    exact ⟨rfl, rfl⟩
  have hnew : accepted ((accepted x.history).map .requeued) = [] := by
    simp [accepted]
  refine ⟨⟨stopping, ?_, ?_⟩, ?_, ?_, ?_, ?_, ?_, ?_⟩
  · rw [horder, List.reverse_reverse, ← stopOrder_eq]
  · rw [hhistory, commands_append, commands_of_isTraffic fun e he => (hrequeued e he).1,
      List.append_nil, hx.told]
  · rw [hpipeline]
    exact h.status
  · exact h.staffed.alike (alike_deed rfl x.pipeline)
  · rw [hpipeline]
    exact h.chain (by simp [stopCommands])
  · rw [hpipeline]
    exact hx.worker
  · rw [hpipeline]
  · rw [hhistory, handling_append, accepted_append, hnew, List.append_nil, hx.unhandled]
    exact List.filter_eq_self.mpr fun e he => (hrequeued e he).2

end Stopping

/-! ### A refusal -/

section Starting

variable {names : List String}

/-- Everyone ahead of the one who refused has agreed, and nobody else was told anything. -/
def Balked (names : List String) (err : StreamError) (x : Moment ω) : Prop :=
  ∃ agreed refuser others, startOrder names.length = agreed ++ refuser :: others ∧
    Blames names err refuser ∧ Underway (agreed.map .accepted ++ [.refused refuser]) x ∧
    Staffed names x.pipeline

theorem Undone.rolledBack {agreed others : List Listener} {refuser : Listener} {err : StreamError}
    (h : Undone names (agreed.map .accepted ++ [.refused refuser]) x)
    (hsplit : startOrder names.length = agreed ++ refuser :: others)
    (hblames : Blames names err refuser) : RolledBack (some err) x.pipeline x.history := by
  obtain ⟨stopping, horder, htold⟩ := h.told
  obtain ⟨a, ha, rfl⟩ := h.staffed.exists_assembly
  have hlength : a.chain.stageNames.length = a.chain.stages.length := List.length_map _
  have hstatus := h.chain
  rw [chainStatus, ha] at hstatus
  rw [hlength] at hsplit horder
  have hchain : x.pipeline.chain = some a.chain := congrArg (Option.map Assembly.chain) ha
  refine ⟨⟨a.chain, agreed, refuser, others, stopping, hchain, Option.some.inj hstatus, hsplit, ?_,
    horder, err, rfl, hblames⟩, h.status, h.worker, h.waiting, h.returned⟩
  rw [htold, List.append_assoc]
  rfl

theorem Balked.safe_rollBack {err : StreamError} (h : Balked names err x) :
    (Script.rollBack (some err)).Safe rollingBack x := by
  obtain ⟨agreed, refuser, others, hsplit, hblames, hx⟩ := h
  refine Script.safe_act stable_underway_staffed hx fun y hy => ⟨trivial, ?_⟩
  show (Script.all stopCommands (.act .returnWaiting fun _ => .done (some err))).Safe rollingBack _
  refine Script.safe_all [] (B := Falling names (agreed.map .accepted ++ [.refused refuser]))
    (fun _ => Falling.stable) ?_ ?_ fun z hz => ?_
  · exact ⟨⟨[], rfl, (List.append_nil _).symm ▸ hy.1.enter .stopped⟩, rfl,
      hy.2.alike (alike_enter ..), nofun⟩
  · intro d hd done z hz
    simp only [stopCommands, List.mem_cons, List.not_mem_nil, or_false] at hd
    refine ⟨trivial, ?_⟩
    rcases hd with rfl | rfl | rfl | rfl | rfl
    · exact hz.told .source
    · exact hz.toldStages
    · exact hz.told .sink
    · exact hz.told .filter
    · exact hz.joined
  · rw [List.append_nil] at hz
    refine Script.safe_act Falling.stable hz fun u hu => ⟨trivial, ?_⟩
    exact Script.safe_done Undone.stable hu.returned fun v hv _ => hv.rolledBack hsplit hblames

/-! ### On the way to playing -/

/-- All who were told so far have agreed; some deeds are left. -/
def Rising (names : List String) (left : List (Deed ω)) (x : Moment ω) : Prop :=
  ∃ done, startCommands = done ++ left ∧
    Underway ((done.flatMap (Deed.listeners names.length)).map .accepted) x ∧
    Staffed names x.pipeline

theorem Rising.stable (left : List (Deed ω)) : Stable (Rising names left) :=
  fun x m ⟨done, hdone, hx⟩ => ⟨done, hdone, stable_underway_staffed x m hx⟩

theorem Underway.startCommand {told : List Command} (h : Underway told x) {d : Deed ω}
    (hd : d ∈ startCommands) :
    Underway (told ++ commands (d.seen x.pipeline)) (x.deed d) ∧
      x.pipeline.Alike (x.deed d).pipeline := by
  simp only [startCommands, List.mem_cons, List.not_mem_nil, or_false] at hd
  rcases hd with rfl | rfl | rfl | rfl
  · exact ⟨h.deed rfl, alike_deed rfl x.pipeline⟩
  · exact ⟨h.toldSource .playing, alike_deed rfl x.pipeline⟩
  · exact ⟨h.deed rfl, alike_deed rfl x.pipeline⟩
  · exact ⟨h.deed rfl, alike_deed rfl x.pipeline⟩

/-- **One more agrees, or refuses.** -/
theorem Rising.deed {d : Deed ω} {left : List (Deed ω)} (h : Rising names (d :: left) x) :
    ((d.step x.pipeline).1 = none → Rising names left (x.deed d)) ∧
      ∀ err, (d.step x.pipeline).1 = some err → Balked names err (x.deed d) := by
  obtain ⟨done, hdone, hunderway, hstaffed⟩ := h
  have hd : d ∈ startCommands := hdone ▸ List.mem_append_right _ List.mem_cons_self
  obtain ⟨hagreed, hrefused⟩ := hstaffed.plays hd
  obtain ⟨hnext, halike⟩ := hunderway.startCommand hd
  constructor
  · intro hok
    refine ⟨done ++ [d], by rw [hdone, List.append_assoc]; rfl, ?_, hstaffed.alike halike⟩
    rw [List.flatMap_append, List.map_append, List.flatMap_singleton, ← hagreed hok]
    exact hnext
  · intro err herr
    obtain ⟨agreed, refuser, others, hlisteners, hcommands, hblames⟩ := hrefused err herr
    refine ⟨done.flatMap (Deed.listeners names.length) ++ agreed, refuser,
      others ++ left.flatMap (Deed.listeners names.length), ?_, hblames, ?_, hstaffed.alike halike⟩
    · rw [startOrder_eq (ω := ω), hdone, List.flatMap_append, List.flatMap_cons, hlisteners]
      simp only [List.append_assoc, List.cons_append]
    · rw [List.map_append, List.append_assoc, ← hcommands]
      exact hnext

theorem safe_startedAll (hunderway : Underway [] x) (hstaffed : Staffed names x.pipeline) :
    Script.start.Safe rollingBack x := by
  refine Script.safe_act stable_underway_staffed ⟨hunderway, hstaffed⟩ fun y hy => ⟨trivial, ?_⟩
  have hentered : Underway [] (y.deed (.enter .playing)) ∧
      Staffed names (y.deed (.enter .playing)).pipeline :=
    ⟨hy.1.enter .playing, hy.2.alike (alike_enter ..)⟩
  refine Script.safe_act stable_underway_staffed hentered fun z hz => ⟨trivial, ?_⟩
  have hrequired : Rising names startCommands (z.deed .requireParts) :=
    ⟨[], rfl, hz.1.deed (d := .requireParts) rfl, hz.2.alike (alike_deed rfl z.pipeline)⟩
  rw [hz.2.step_requireParts]
  show (Script.inOrder (startCommands ++ [.startWorker]) Script.rollBack).Safe rollingBack _
  rw [Script.inOrder_append]
  exact Script.safe_inOrder_of_left Rising.stable hrequired
    (fun d left u hu => ⟨trivial, hu.deed⟩)
    (fun u ⟨_, _, hunderway, hstaffed⟩ => safe_startedWorker hunderway.unrefused hstaffed)
    fun err u hu => hu.safe_rollBack

end Starting

/-! ### Ahead of the start -/

/-- Nothing is going on, and nobody was told anything since the call. -/
structure Calm (x : Moment ω) : Prop extends Underway [] x where
  inactive : x.pipeline.status.isActive = false

/-- Source and sink are there. -/
def Supplied (p : Pipeline ω) : Prop := p.attachment.isSome ∧ p.sink.isSome

theorem Supplied.alike (h : Supplied p) (hq : p.Alike q) : Supplied q :=
  ⟨hq.attachment.symm ▸ h.1, hq.sink.symm ▸ h.2⟩

/-- Deeds that are done to build a chain. -/
def Deed.builds : Deed ω → Bool
  | .discard | .countNegotiation _ | .configureSource _ | .offerPool | .configureSink _
  | .configureFilter _ | .assemble _ _ => true
  | _ => false

theorem leavesBuffers_of_builds {d : Deed ω} (hd : d.builds) : d.leavesBuffers := by
  cases d with
  | discard | countNegotiation _ | configureSource _ | offerPool | configureSink _
  | configureFilter _ | assemble _ _ => rfl
  | _ => cases hd

theorem commands_of_builds {d : Deed ω} (hd : d.builds) (p : Pipeline ω) :
    commands (d.seen p) = [] := by
  refine List.flatMap_eq_nil_iff.mpr fun e he => ?_
  cases Deed.lets_of_mem_seen he with
  | announced _ _ | assembled _ _ => rfl
  | _ => cases hd

namespace Calm

theorem stable : Stable (ω := ω) Calm := fun x m h =>
  ⟨h.toUnderway.move m, (beside_step m x.pipeline).status.symm ▸ h.inactive⟩

theorem stable_supplied : Stable fun x : Moment ω => Calm x ∧ Supplied x.pipeline :=
  fun x m h => ⟨stable x m h.1, h.2.alike (beside_step m x.pipeline).toAlike⟩

theorem safe_failed (hx : Calm x) (err : Option StreamError) :
    (Script.done err).Safe rollingBack x :=
  safe_unrefused (unrefused_of_untold hx.told)

theorem enter (h : Calm x) {s : Status} (hs : s.isActive = false) : Calm (x.deed (.enter s)) :=
  ⟨h.toUnderway.enter s, hs⟩

theorem built (h : Calm x ∧ Supplied x.pipeline) {d : Deed ω} (hd : d.builds) :
    Calm (x.deed d) ∧ Supplied (x.deed d).pipeline := by
  have hleaves := leavesBuffers_of_builds hd
  have hstill := still_deed hleaves x.pipeline
  have hunderway := h.1.toUnderway.deed hleaves
  rw [commands_of_builds hd] at hunderway
  refine ⟨⟨hunderway, Bool.eq_false_iff.mpr fun hactive => ?_⟩, hstill.source h.2.1, hstill.sink h.2.2⟩
  exact Bool.false_ne_true (h.1.inactive.symm.trans (hstill.active hactive))

/-! Building tells nobody a status, and a chain that was built is there to be started. -/

section

variable {k : Option StreamError → Script ω}

theorem safe_prepare {ds : List (Deed ω)} (hds : ∀ d ∈ ds, d.builds)
    (hx : Calm x ∧ Supplied x.pipeline)
    (hk : ∀ y, Calm y ∧ Supplied y.pipeline → (k none).Safe rollingBack y)
    (hE : ∀ err y, Calm y → (k (some err)).Safe rollingBack y) :
    (Script.inOrder ds k).Safe rollingBack x := by
  refine Script.safe_inOrder [] (B := fun _ y => Calm y ∧ Supplied y.pipeline)
    (E := fun _ y => Calm y) (fun _ => stable_supplied) hx ?_ hk hE
  intro d hd done y hy
  have hbuilt := built hy (hds d hd)
  exact ⟨trivial, fun _ => hbuilt, fun _ _ => hbuilt.1⟩

theorem safe_realize {plan : Plan} (hx : Calm x ∧ Supplied x.pipeline)
    (hk : ∀ names y, Calm y → Staffed names y.pipeline → (k none).Safe rollingBack y)
    (hE : ∀ err y, Calm y → (k (some err)).Safe rollingBack y) :
    (Script.realize plan k).Safe rollingBack x := by
  refine safe_prepare (by simp [Deed.builds]) hx (fun y hy => ?_) hE
  refine Script.safe_look stable_supplied hy fun z hz => ?_
  generalize z.pipeline.actualFormat plan = actual
  show (Script.inOrder ([.configureSink plan, .configureFilter plan] ++ [.assemble plan actual])
    k).Safe rollingBack z
  rw [Script.inOrder_append]
  refine safe_prepare (by simp [Deed.builds]) hz (fun u hu => ?_) hE
  refine Script.safe_act stable_supplied hu fun v hv => ⟨trivial, ?_⟩
  obtain ⟨hcalm, hsupplied⟩ := built hv (d := .assemble plan actual) rfl
  rcases assemble_cases plan actual v.pipeline with ⟨chain, w, -, -, heq⟩ | ⟨err, w, -, heq⟩
  · have hchain : (v.deed (.assemble plan actual)).pipeline.chain = some chain :=
      congrArg (·.2.chain) heq
    rw [show ((Deed.assemble plan actual).step v.pipeline).1 = none from congrArg Prod.fst heq]
    exact hk chain.stageNames _ hcalm ⟨hsupplied.1, hsupplied.2, by rw [hchain]; rfl⟩
  · rw [show ((Deed.assemble plan actual).step v.pipeline).1 = some err from congrArg Prod.fst heq]
    exact hE err _ hcalm

theorem safe_negotiateAndRealize (hx : Calm x ∧ Supplied x.pipeline)
    (hk : ∀ names y, Calm y → Staffed names y.pipeline → (k none).Safe rollingBack y)
    (hE : ∀ err y, Calm y → (k (some err)).Safe rollingBack y) :
    (Script.negotiateAndRealize k).Safe rollingBack x := by
  refine Script.safe_look stable_supplied hx fun y hy => ?_
  refine Script.safe_act stable_supplied hy fun z hz => ⟨trivial, ?_⟩
  have hcounted (planned : Except NegotiationError Plan) :=
    built hz (d := .countNegotiation planned) rfl
  rcases negotiate y.pipeline.registry y.pipeline.config.policy y.pipeline.available
    y.pipeline.requested with err | plan
  · exact hE _ _ (hcounted _).1
  · exact safe_realize (hcounted _) hk hE

theorem safe_build (hx : Calm x)
    (hk : ∀ names y, Calm y → Staffed names y.pipeline → (k none).Safe rollingBack y)
    (hE : ∀ err y, Calm y → (k (some err)).Safe rollingBack y) :
    (Script.build k).Safe rollingBack x := by
  refine Script.safe_look stable hx fun y hy => ?_
  rw [ensureIdle_of_inactive hy.inactive]
  simp only
  split
  · exact hE _ y hy
  · next hsource =>
    split
    · exact hE _ y hy
    · next hsink =>
      have hsupplied : Supplied y.pipeline :=
        ⟨Option.isNone_eq_false_iff.mp (eq_false_of_ne_true hsource),
          Option.isNone_eq_false_iff.mp (eq_false_of_ne_true hsink)⟩
      refine Script.safe_act stable_supplied ⟨hy, hsupplied⟩ fun z hz => ⟨trivial, ?_⟩
      refine safe_negotiateAndRealize (built hz rfl) hk fun err u hu => ?_
      exact Script.safe_act stable hu fun v hv => ⟨trivial, hE err _ (hv.enter rfl)⟩

end

end Calm

/-! ### The call -/

/-- The pipeline is active, and nobody was told anything since the call. -/
structure Running (x : Moment ω) : Prop where
  told : commands x.history = []
  active : x.pipeline.status.isActive = true
  staffed : ∃ names, Staffed names x.pipeline

theorem Running.stable : Stable (ω := ω) Running := by
  intro x m h
  have hbeside := beside_step m x.pipeline
  obtain ⟨names, hstaffed⟩ := h.staffed
  exact ⟨(commands_move x m).trans h.told, hbeside.status.symm ▸ h.active, names,
    hstaffed.alike hbeside.toAlike⟩

/-- Nobody is told anything when a pause ends. -/
theorem Running.safe_resume (hx : Running x) : Script.resume.Safe rollingBack x := by
  refine Script.safe_act stable hx fun y hy => ⟨trivial, ?_⟩
  obtain ⟨names, hstaffed⟩ := hy.staffed
  refine safe_startedWorker ?_ (hstaffed.alike (alike_enter y.pipeline .playing))
  rw [Unrefused, commands_deed_of_unseen rfl]
  exact unrefused_of_untold hy.told

theorem stable_outset : Stable fun x : Moment ω => Calm x ∨ Running x :=
  fun x m h => h.imp (Calm.stable x m) (Running.stable x m)

theorem safe_playFrom (hx : (Calm x ∨ Running x) ∧ x.pipeline.status ≠ .playing) :
    Script.play.Safe rollingBack x := by
  have hstable : Stable fun x : Moment ω => (Calm x ∨ Running x) ∧ x.pipeline.status ≠ .playing :=
    fun y m hy => ⟨stable_outset y m hy.1, (beside_step m y.pipeline).status.symm ▸ hy.2⟩
  refine Script.safe_look hstable hx fun y ⟨hy, hother⟩ => ?_
  split
  · next hpaused =>
    refine Running.safe_resume (hy.resolve_left fun hcalm => ?_)
    have hinactive := hcalm.inactive
    rw [hpaused] at hinactive
    cases hinactive
  · next hunpaused =>
    have hcalm : Calm y := hy.resolve_right fun hrunning =>
      (Status.isActive_iff.mp hrunning.active).elim hother hunpaused
    exact hcalm.safe_build (fun _ z hz hstaffed => safe_startedAll hz.toUnderway hstaffed)
      fun err z hz => hz.safe_failed (some err)

/-- **A call to play is rolled back if anybody refuses.** -/
theorem safe_setPlaying (hx : Calm x ∨ Running x) :
    (Script.setStatus .playing).Safe rollingBack x := by
  refine Script.safe_look stable_outset hx fun y hy => ?_
  split
  · rcases hy with hcalm | hrunning
    · exact hcalm.safe_failed none
    · exact safe_unrefused (unrefused_of_untold hrunning.told)
  · next hother => exact safe_playFrom ⟨hy, hother⟩

/-! ### Every schedule -/

/-- Between calls, as seen from the next one. -/
theorem Rest.outset {r : Roster} (h : Rest p r) : Calm ⟨p, []⟩ ∨ Running ⟨p, []⟩ := by
  rcases h with hidle | hbusy
  · exact .inl ⟨⟨hidle.worker, rfl, hidle.waiting, rfl⟩, hidle.status⟩
  · obtain ⟨a, ha⟩ := Option.isSome_iff_exists.mp hbusy.assembly
    refine .inr ⟨rfl, hbusy.status, a.chain.stageNames, hbusy.source, hbusy.sink, ?_⟩
    rw [chain, ha]
    rfl

/-- **A start that fails is rolled back.** What happens before the call to play is any schedule, and
so is what happens while it runs, but for other calls. The call comes to an end; and if anybody
refuses to play, then those ahead of them in the order of starting were told and agreed, nobody
behind them was told, all were told to stop, the result names who refused, and what was accepted in
the meantime has gone to the source in order. All this was performed: these are the commands and the
buffers that the parts have received. -/
theorem rolledBack_of_refused (registry : Registry (Blueprint ω)) (config : PipelineConfig)
    (world : ω) (before during : List (Choice ω)) {err₀ : Option StreamError}
    (hbefore : ((Scene.opening registry config world).run before).todo = .done err₀)
    (hcalls : ∀ c, .call c ∉ during) :
    let start := (Scene.opening registry config world).run before
    let final := (Scene.opening registry config world).run
      (before ++ .call (.setStatus .playing) :: during)
    (26 ≤ during.countP Choice.isProceed → ∃ err, final.todo = .done err) ∧
    ∃ events, final.history = start.history ++ events ∧
      Performed Contact start.pipeline.cast (during.flatMap Choice.turns) events
        final.pipeline.cast ∧
      ∀ err, final.todo = .done err → (∃ l, .refused l ∈ commands events) →
        RolledBack err final.pipeline events := by
  intro start final
  obtain ⟨hrest, -⟩ := stands_between_calls registry config world before hbefore
  -- The call begins a scene of its own, in which nothing was seen before it.
  let opening : Scene ω :=
    { pipeline := start.pipeline, history := [], todo := (Call.setStatus .playing).script }
  have hfinal : final = (opening.run during).after start.history := by
    have hcalled : start.next (.call (.setStatus .playing)) = opening.after start.history := by
      show Scene.next start _ = Scene.mk ⟨start.pipeline, start.history ++ []⟩ _
      rw [List.append_nil]
      simp only [Scene.next, show start.todo = .done err₀ from hbefore]
      rfl
    show List.foldl _ _ (before ++ _ :: during) = _
    rw [List.foldl_append, List.foldl_cons, ← Scene.run_after, ← hcalled]
    rfl
  refine ⟨fun hproceeds => ?_, (opening.run during).history, by rw [hfinal]; rfl, ?_, ?_⟩
  · obtain ⟨err, herr⟩ := exists_done_of_proceeds (s := opening) (.setStatus .playing) rfl hcalls
      hproceeds
    exact ⟨err, by rw [hfinal]; exact herr⟩
  · rw [hfinal]
    exact performed_from (s := opening) rfl during
  · intro err herr
    have hsafe := Scene.safe_run (s := opening) (safe_setPlaying hrest.outset) during
      fun c hc => absurd hc (hcalls c)
    rw [hfinal] at herr ⊢
    rw [show (opening.run during).todo = .done err from herr] at hsafe
    exact hsafe []

/-! ### A stage that refuses to play -/

/-- Agrees to everything but to play. -/
def reluctantStage : StageDevice ω where
  descriptor := .frameStatistics
  bind _ _ w := (true, w)
  formats _ := some (mosaicFormat, mosaicFormat)
  setStatus s w := (s != .playing, w)
  transform f w := (none, f, w)

/-- White balance, and after it the reluctant stage. -/
def reluctantRegistry : Registry (Blueprint ω) :=
  (Registry.empty.register .whiteBalance .whiteBalancer).register .frameStatistics
    (.device fun w => (reluctantStage, w))

/-- Agrees to everything, and writes down the buffers that it takes back. -/
def notingSource : Source (List Buffer) :=
  { obligingSource mosaicCatalog with requeue := fun b w => w ++ [b] }

/-- The source and a sink are attached. -/
def upToEquipped : List (Choice (List Buffer)) :=
  [.call (.setSource notingSource), .proceed, .call (.setSink obligingSink), .proceed]

def earlyBuffer : Buffer := { data := [], info := { format := mosaicFormat } }

/-- Control proceeds, and a buffer comes as soon as the status says playing. -/
def whileReluctant : List (Choice (List Buffer)) :=
  List.replicate 13 .proceed ++ .move (.push earlyBuffer) :: List.replicate 13 .proceed

def reluctant : Scene (List Buffer) :=
  (Scene.opening reluctantRegistry {} []).run
    (upToEquipped ++ .call (.setStatus .playing) :: whileReluctant)

/-- The source has written down the buffer, and the sink and white balance have agreed to play in
vain. -/
theorem rolledBack_reluctant :
    reluctant.todo = .done (some (.stageFailed "frame-statistics")) ∧
    commands (reluctant.history.drop 2) =
      [.accepted (.part .sink), .accepted (.part .source), .accepted (.stage 0),
        .refused (.stage 1)] ++ (stopOrder 2).map (⟨·, .stopped, true⟩) ∧
    accepted (reluctant.history.drop 2) = [earlyBuffer] ∧ reluctant.pipeline.world = [earlyBuffer] ∧
    Performed Contact ((Scene.opening reluctantRegistry {} []).run upToEquipped).pipeline.cast []
      (reluctant.history.drop 2) reluctant.pipeline.cast ∧
    RolledBack (some (.stageFailed "frame-statistics")) reluctant.pipeline
      (reluctant.history.drop 2) := by
  have hbefore : ((Scene.opening reluctantRegistry {} []).run upToEquipped).todo = .done none := rfl
  obtain ⟨-, events, hevents, hperformed, hrolledBack⟩ :=
    rolledBack_of_refused reluctantRegistry {} [] upToEquipped whileReluctant hbefore
      fun c h => by simp [whileReluctant] at h
  have hdone : reluctant.todo = .done (some (.stageFailed "frame-statistics")) := rfl
  have hdrop : events = reluctant.history.drop 2 := (congrArg (List.drop 2) hevents).symm
  subst hdrop
  have hcommands : commands (reluctant.history.drop 2) =
      [.accepted (.part .sink), .accepted (.part .source), .accepted (.stage 0),
        .refused (.stage 1)] ++ (stopOrder 2).map (⟨·, .stopped, true⟩) := rfl
  exact ⟨hdone, hcommands, rfl, rfl, hperformed,
    hrolledBack _ hdone ⟨.stage 1, by simp [hcommands]⟩⟩

end CameraStream.Pipeline
