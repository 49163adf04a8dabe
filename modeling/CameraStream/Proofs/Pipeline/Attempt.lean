import CameraStream.Proofs.Pipeline.Accounting
import CameraStream.Proofs.Pipeline.Representation

/-!
# Commands one by one

The roster says who heard what last. Where the order counts, commands are read off the events one
after the other (`commands`): who was told what, and whether they agreed.

A call that starts or stops a pipeline without a worker is `Underway`: it has given some commands so
far, the buffers that wait are those that were accepted since the call, and nobody has handled any of
them. Moves keep this, and each deed adds the commands that it gives. A command to play is agreed to by
all who are told, or refused by one of them, whom the error names (**`Staffed.plays`**).
-/

namespace CameraStream.Pipeline

variable {ω : Type} {p q : Pipeline ω} {x y : Moment ω}

/-! ### Commands in order -/

/-- Somebody who is told a status: a part, or a stage by its place in the chain. -/
inductive Listener where
  | part (part : Part)
  | stage (place : Nat)
deriving DecidableEq, Repr

/-- A status that somebody was told, and whether they agreed. -/
structure Command where
  listener : Listener
  status : Status
  agreed : Bool
deriving DecidableEq, Repr

namespace Command

def accepted (l : Listener) : Command := ⟨l, .playing, true⟩

def refused (l : Listener) : Command := ⟨l, .playing, false⟩

/-- What was said to whom, whatever the answer. -/
def order (c : Command) : Listener × Status := (c.listener, c.status)

end Command

def Event.commands : Event → List Command
  | .told part s agreed => [⟨.part part, s, agreed⟩]
  | .toldStages s answers => answers.mapIdx fun place agreed => ⟨.stage place, s, agreed⟩
  | .attached _ | .assembled _ | .announced _ _ | .pushed _ _ _ | .fetched _ | .shown _ | .kept _
  | .requeued _ | .returned _ => []

/-- The commands among some events, in order. -/
def commands (h : List Event) : List Command := h.flatMap Event.commands

theorem commands_append (h h' : List Event) : commands (h ++ h') = commands h ++ commands h' :=
  List.flatMap_append

theorem commands_of_isTraffic {h : List Event} (hh : ∀ e ∈ h, e.isTraffic) : commands h = [] := by
  refine List.flatMap_eq_nil_iff.mpr fun e he => ?_
  have htraffic := hh e he
  cases e with
  | told _ _ _ | toldStages _ _ => cases htraffic
  | _ => rfl

/-- Who is told to play, in order, given the number of stages. -/
def startOrder (stages : Nat) : List Listener :=
  [.part .sink, .part .source] ++ (List.range stages).map .stage ++ [.part .filter]

/-- Who is told to stop, in order. -/
def stopOrder (stages : Nat) : List Listener :=
  [.part .source] ++ (List.range stages).map .stage ++ [.part .sink, .part .filter]

/-- An error names somebody, among stages of some names. -/
inductive Blames (names : List String) : StreamError → Listener → Prop
  | sink : Blames names (.sinkRejected .start) (.part .sink)
  | source : Blames names (.sourceRejected .start) (.part .source)
  | stage {place : Nat} {name : String} (h : names[place]? = some name) :
      Blames names (.stageFailed name) (.stage place)
  | filter : Blames names (.stageFailed "property-filter") (.part .filter)

/-! ### Deeds and their listeners -/

/-- Who is told something by a deed. -/
def Deed.listeners (stages : Nat) : Deed ω → List Listener
  | .tellSource _ => [.part .source]
  | .tellSink _ => [.part .sink]
  | .tellFilter _ => [.part .filter]
  | .tellStages _ => (List.range stages).map .stage
  | _ => []

/-- The commands of starting. -/
def startCommands : List (Deed ω) :=
  [.tellSink .playing, .tellSource .playing, .tellStages .playing, .tellFilter .playing]

/-- The commands of stopping, and the end of the worker. -/
def stopCommands : List (Deed ω) :=
  [.tellSource .stopped, .tellStages .stopped, .tellSink .stopped, .tellFilter .stopped, .joinWorker]

theorem startOrder_eq (stages : Nat) :
    startOrder stages = (startCommands (ω := ω)).flatMap (Deed.listeners stages) := by
  simp [startOrder, startCommands, Deed.listeners]

theorem stopOrder_eq (stages : Nat) :
    stopOrder stages = (stopCommands (ω := ω)).flatMap (Deed.listeners stages) := by
  simp [stopOrder, stopCommands, Deed.listeners]

/-! ### While there is no worker -/

/-- Without a worker, buffers are only accepted or turned down. -/
theorem move_of_absent (h : p.worker = .absent) (m : Move ω) :
    (m.step p).queue.buffers = p.queue.buffers ++ accepted (m.seen p) ∧ handling (m.seen p) = [] ∧
      (p.status.isActive = false → accepted (m.seen p) = []) := by
  have hdoes := does m p
  generalize m.step p = q, m.seen p = seen at hdoes ⊢
  cases hdoes with
  | nothing _ | turned _ _ => exact ⟨(List.append_nil _).symm, rfl, fun _ => rfl⟩
  | accepted _ active _ =>
    refine ⟨rfl, rfl, fun hinactive => ?_⟩
    rw [active] at hinactive
    cases hinactive
  | @refused _ b o _ refused _ _ =>
    have hnone : accepted [.pushed b p.attachment.isSome o] = [] := by
      cases o with
      | accepted => exact absurd rfl refused
      | handedBack _ | sentHome _ | vanished => rfl
    rw [hnone]
    exact ⟨(List.append_nil _).symm, rfl, fun _ => rfl⟩
  | foundNone hands | fetched hands _ _ | skipped hands _ | filtered hands _ | stopped hands _
  | failed hands _ _ _ | processed hands _ _ _ | kept hands _ | handedBack hands _ _
  | shownNobody hands _ _ | requeued hands _ | givenNobody hands _ _ =>
    rw [h] at hands
    cases hands

theorem buffers_deliver (p : Pipeline ω) (b : Buffer) :
    (p.deliver b).2.queue.buffers = p.queue.buffers ++ accepted [p.pushEvent b] := by
  unfold pushEvent
  rcases hactive : p.status.isActive with _ | _
  · obtain ⟨_, heq⟩ := deliver_of_inactive hactive b
    rw [heq]
    exact (List.append_nil _).symm
  · obtain ⟨_, heq⟩ := deliver_of_active hactive b
    rw [heq]
    rfl

theorem buffers_delivered (source : Source ω) (given : List Buffer) (hpq : p.Beside q) :
    (given.foldl (deliverFrom source) q).queue.buffers =
      q.queue.buffers ++ accepted (given.map p.pushEvent) := by
  induction given generalizing q with
  | nil => exact (List.append_nil _).symm
  | cons b rest ih =>
    have hfirst : (deliverFrom source q b).queue.buffers =
        q.queue.buffers ++ accepted [p.pushEvent b] := by
      rw [← hpq.pushEvent b]
      exact buffers_deliver q b
    rw [List.foldl_cons, ih (hpq.trans (beside_deliverFrom source q b)), hfirst, List.append_assoc,
      ← accepted_append]
    rfl

/-- Some commands were given and there is no worker, so whatever was accepted waits. -/
structure Underway (told : List Command) (x : Moment ω) : Prop where
  worker : x.pipeline.worker = .absent
  told : commands x.history = told
  waiting : x.pipeline.queue.buffers = accepted x.history
  unhandled : handling x.history = []

namespace Underway

variable {told : List Command}

theorem see {es : List Event} (h : Underway told x) (hhistory : y.history = x.history ++ es)
    (hworker : y.pipeline.worker = .absent)
    (hbuffers : y.pipeline.queue.buffers = x.pipeline.queue.buffers ++ accepted es)
    (hhandling : handling es = []) : Underway (told ++ commands es) y where
  worker := hworker
  told := by rw [hhistory, commands_append, h.told]
  waiting := by rw [hhistory, accepted_append, hbuffers, h.waiting]
  unhandled := by rw [hhistory, handling_append, h.unhandled, hhandling, List.append_nil]

theorem move (h : Underway told x) (m : Move ω) : Underway told (x.move m) := by
  obtain ⟨hbuffers, hhandling, -⟩ := move_of_absent h.worker m
  have hworker := (beside_step m x.pipeline).worker.mpr h.worker
  have hnext := h.see (y := x.move m) rfl hworker hbuffers hhandling
  rwa [commands_of_isTraffic (isTraffic_of_mem_seen m x.pipeline), List.append_nil] at hnext

theorem stable : Stable (Underway (ω := ω) told) := fun _ m h => h.move m

/-- A deed that does nothing to buffers. -/
theorem deed (h : Underway told x) {d : Deed ω} (hd : d.leavesBuffers) :
    Underway (told ++ commands (d.seen x.pipeline)) (x.deed d) := by
  have hstill := still_deed hd x.pipeline
  have hbooked := isBooked_of_leavesBuffers hd x.pipeline
  refine h.see rfl (hstill.worker.trans h.worker) ?_ (handling_of_unbooked hbooked)
  rw [accepted_of_unbooked hbooked, List.append_nil]
  exact hstill.buffers

theorem enter (h : Underway told x) (s : Status) : Underway told (x.deed (.enter s)) := by
  have hnext := h.see (y := x.deed (.enter s)) rfl h.worker (List.append_nil _).symm rfl
  rwa [show commands _ = [] from rfl, List.append_nil] at hnext

/-- What the source delivers while it is told its status waits as well. -/
theorem toldSource (h : Underway told x) (s : Status) :
    Underway (told ++ commands ((Deed.tellSource s).seen x.pipeline)) (x.deed (.tellSource s)) := by
  have hworker := (beside_tell s .source x.pipeline).worker.mpr h.worker
  rcases ha : x.pipeline.attachment with _ | a
  · have hseen : (Deed.tellSource s).seen x.pipeline = [] := by simp only [Deed.seen, ha]
    have hstep : ((Deed.tellSource s).step x.pipeline).2 = x.pipeline := by
      simp only [Deed.step, commandSource, ha]
    refine h.see rfl hworker ?_ (by rw [hseen]; rfl)
    rw [hseen]
    exact (congrArg (·.queue.buffers) hstep).trans (List.append_nil _).symm
  · have hbuffers := buffers_delivered a.source (a.source.setStatus s x.pipeline.world).2.1
      (beside_withWorld x.pipeline (a.source.setStatus s x.pipeline.world).2.2)
    refine h.see rfl hworker ?_ ?_
    · simp only [Moment.deed, Deed.step, Deed.seen, commandSource, ha]
      exact hbuffers
    · simp only [Deed.seen, ha]
      refine List.filter_eq_nil_iff.mpr fun e he => ?_
      rcases List.mem_cons.mp he with rfl | he
      · exact Bool.false_ne_true
      · obtain ⟨b, -, rfl⟩ := List.mem_map.mp he
        exact Bool.false_ne_true

theorem tell (h : Underway told x) (s : Status) (part : Part) :
    Underway (told ++ commands ((Deed.tell s part).seen x.pipeline)) (x.deed (.tell s part)) := by
  cases part with
  | source => exact h.toldSource s
  | sink | filter => exact h.deed rfl

/-- A worker that is not there has nothing to finish. -/
theorem joined (h : Underway told x) : Underway told (x.deed .joinWorker) := by
  have hwork := stable.moves h Move.work
  have hhistory : (x.deed .joinWorker).history = (x.moves Move.work).history :=
    (history_moves x Move.work).symm
  exact ⟨rfl, hhistory ▸ hwork.told, hhistory ▸ hwork.waiting, hhistory ▸ hwork.unhandled⟩

end Underway

/-! ### Who is there to be told -/

/-- Source and sink are there, and a chain of stages with these names. -/
structure Staffed (names : List String) (p : Pipeline ω) : Prop where
  source : p.attachment.isSome
  sink : p.sink.isSome
  chain : p.chain.map Chain.stageNames = some names

namespace Staffed

variable {names : List String}

theorem alike (h : Staffed names p) (hq : p.Alike q) : Staffed names q where
  source := hq.attachment.symm ▸ h.source
  sink := hq.sink.symm ▸ h.sink
  chain := by
    rw [← h.chain]
    have hassembly := hq.assembly
    unfold Pipeline.chain
    generalize p.assembly = a, q.assembly = b at hassembly
    cases hassembly with
    | none => rfl
    | some hab => exact congrArg some hab.chain.stageNames

theorem stable : Stable fun x : Moment ω => Staffed names x.pipeline :=
  fun x m h => h.alike (beside_step m x.pipeline).toAlike

theorem exists_assembly (h : Staffed names p) :
    ∃ a, p.assembly = some a ∧ a.chain.stageNames = names := by
  obtain ⟨c, hc, hnames⟩ := Option.map_eq_some_iff.mp h.chain
  obtain ⟨a, ha, rfl⟩ := Option.map_eq_some_iff.mp hc
  exact ⟨a, ha, hnames⟩

theorem has (h : Staffed names p) (part : Part) : p.has part := by
  cases part with
  | source => exact h.source
  | sink => exact h.sink
  | filter => rfl

end Staffed

/-- A part that is there is told its status, and the error of the deed is its answer. -/
theorem commands_tell (s : Status) {part : Part} (h : p.has part) :
    commands ((Deed.tell s part).seen p) =
      [⟨.part part, s, ((Deed.tell s part).step p).1.isNone⟩] := by
  cases part with
  | source =>
    obtain ⟨a, ha⟩ := Option.isSome_iff_exists.mp h
    simp only [Deed.tell, Deed.seen, Deed.step, commandSource, ha, isNone_unless]
    generalize (a.source.setStatus s p.world).2.1 = given
    have hgiven : commands (given.map p.pushEvent) = [] := by
      refine commands_of_isTraffic fun e he => ?_
      obtain ⟨b, -, rfl⟩ := List.mem_map.mp he
      rfl
    show _ :: commands (given.map p.pushEvent) = _
    rw [hgiven]
  | sink =>
    obtain ⟨k, hk⟩ := Option.isSome_iff_exists.mp h
    simp only [Deed.tell, Deed.seen, Deed.step, commandSink, hk, isNone_unless]
    rfl
  | filter =>
    have hagreed := isNone_unless (p.filter.setStatus s p.world).1 (.stageFailed "property-filter")
    exact congrArg (fun agreed => [(⟨.part .filter, s, agreed⟩ : Command)]) hagreed.symm

theorem commands_tellStages {a : Assembly ω} (ha : p.assembly = some a) (s : Status) :
    commands ((Deed.tellStages s).seen p) =
      (stageAnswers s a.chain.stages p.world).mapIdx fun place agreed => ⟨.stage place, s, agreed⟩ := by
  simp only [Deed.seen, ha]
  exact List.append_nil _

/-! ### Starting, one by one -/

/-- The stages ahead of the one that refuses have agreed, and those behind it are not told. -/
theorem stageAnswers_of_refused {t : Status} (ht : t.isActive = true) {ss : List (Stage ω)} {w : ω}
    {name : String} (h : (Chain.commandUntilRefusal t ss w).1 = some name) :
    ∃ place, (ss.map Stage.name)[place]? = some name ∧
      stageAnswers t ss w = List.replicate place true ++ [false] := by
  induction ss generalizing w with
  | nil => cases h
  | cons s rest ih =>
    simp only [Chain.commandUntilRefusal] at h
    simp only [stageAnswers, ht, Bool.true_and]
    split at h
    · next hagreed =>
      obtain ⟨place, hname, hanswers⟩ := ih h
      refine ⟨place + 1, hname, ?_⟩
      rw [hagreed, hanswers]
      rfl
    · next hrefused =>
      rw [Bool.not_eq_true] at hrefused
      rw [(s.continues_setStatus t w).name] at h
      refine ⟨0, h, ?_⟩
      rw [hrefused]
      rfl

theorem mapIdx_agreed (f : Nat → Bool → Command) (n : Nat) :
    (List.replicate n true).mapIdx f = (List.range n).map (f · true) := by
  simp [List.ext_getElem_iff]

/-- A place among others, with those ahead of it and those behind. -/
theorem exists_range_eq {place n : Nat} (h : place < n) :
    ∃ others, List.range n = List.range place ++ place :: others := by
  obtain ⟨k, rfl⟩ := Nat.exists_eq_add_of_lt h
  exact ⟨_, by rw [Nat.add_assoc, List.range_add, List.range_succ_eq_map]; rfl⟩

/-- What a command to play comes to: all who are told agree, or one of them refuses and the others
are not told. -/
def Plays (names : List String) (p : Pipeline ω) (d : Deed ω) : Prop :=
  ((d.step p).1 = none →
    commands (d.seen p) = (d.listeners names.length).map .accepted) ∧
  ∀ err, (d.step p).1 = some err → ∃ agreed refuser others,
    d.listeners names.length = agreed ++ refuser :: others ∧
    commands (d.seen p) = agreed.map .accepted ++ [.refused refuser] ∧ Blames names err refuser

namespace Staffed

variable {names : List String}

theorem plays_tell (h : Staffed names p) (part : Part) :
    Plays names p (Deed.tell .playing part) := by
  have hlisteners : (Deed.tell .playing part : Deed ω).listeners names.length = [.part part] := by
    cases part <;> rfl
  have hcommands := commands_tell .playing (h.has part)
  rw [Plays, hlisteners]
  constructor
  · intro hok
    rw [hcommands, hok]
    rfl
  · intro err herr
    refine ⟨[], .part part, [], rfl, ?_, ?_⟩
    · rw [hcommands, herr]
      rfl
    · cases part with
      | source => exact eq_of_unless herr ▸ .source
      | sink => exact eq_of_unless herr ▸ .sink
      | filter => exact eq_of_unless herr ▸ .filter

theorem plays_stages (h : Staffed names p) : Plays names p (.tellStages .playing) := by
  obtain ⟨a, ha, rfl⟩ := h.exists_assembly
  have hlength : a.chain.stageNames.length = a.chain.stages.length := List.length_map _
  rw [Plays, commands_tellStages ha, step_tellStages ha, hlength]
  constructor
  · intro hok
    have hagreed := (a.chain.setStatus_of_agreed (t := .playing) rfl hok).2
    rw [stageAnswers_of_agreed rfl a.chain.stages p.world hagreed, mapIdx_agreed, Deed.listeners,
      List.map_map]
    rfl
  · intro err herr
    obtain ⟨name, rfl, hrefused⟩ := a.chain.setStatus_of_refused (t := .playing) rfl herr
    obtain ⟨place, hname, hanswers⟩ := stageAnswers_of_refused (t := .playing) rfl hrefused
    have hplace : place < a.chain.stages.length := by
      rw [← hlength]
      exact (List.getElem?_eq_some_iff.mp hname).1
    obtain ⟨others, hothers⟩ := exists_range_eq hplace
    refine ⟨(List.range place).map .stage, .stage place, others.map .stage, ?_, ?_, .stage hname⟩
    · rw [Deed.listeners, hothers, List.map_append, List.map_cons]
    · rw [hanswers, List.mapIdx_append, mapIdx_agreed, List.map_map, List.length_replicate]
      simp only [List.mapIdx_cons, List.mapIdx_nil, Nat.zero_add]
      rfl

/-- **Everyone who is told to play agrees, or is named.** -/
theorem plays (h : Staffed names p) {d : Deed ω} (hd : d ∈ startCommands) : Plays names p d := by
  simp only [startCommands, List.mem_cons, List.not_mem_nil, or_false] at hd
  rcases hd with rfl | rfl | rfl | rfl
  · exact h.plays_tell .sink
  · exact h.plays_tell .source
  · exact h.plays_stages
  · exact h.plays_tell .filter

theorem isSome_assembly (h : Staffed names p) : p.assembly.isSome := by
  obtain ⟨a, ha, -⟩ := h.exists_assembly
  exact ha ▸ rfl

theorem step_requireParts (h : Staffed names p) : Deed.requireParts.step p = (none, p) :=
  Pipeline.step_requireParts h.source h.sink h.isSome_assembly

theorem step_startWorker (h : Staffed names p) :
    Deed.startWorker.step p = (none, { p with worker := .waiting }) :=
  Pipeline.step_startWorker h.source h.sink h.isSome_assembly

end Staffed

theorem stable_underway_staffed {names : List String} {told : List Command} :
    Stable fun x : Moment ω => Underway told x ∧ Staffed names x.pipeline :=
  fun x m h => ⟨h.1.move m, Staffed.stable x m h.2⟩

end CameraStream.Pipeline
