import CameraStream.Proofs.Pipeline.Beside
import CameraStream.Proofs.Pipeline.Scene
import CameraStream.Proofs.Pipeline.Roster

/-!
# How a pipeline stands

A pipeline together with the roster stands in one of a few ways. Between calls it is `Idle` or `Busy`;
a call that starts or stops it leads through `Starting` and `Halting`, which collect what the deeds
done so far have brought about. All of them are stable: no move changes how a pipeline stands
(`stable_of_beside`). What one deed brings about is a lemma here (`Starting.told`, `Halting.told`
and so on); that calls put the deeds in the right order is another matter.
-/

namespace CameraStream.Pipeline

variable {ω : Type} {p q : Pipeline ω} {r : Roster}

/-! ### Who is there -/

/-- Whether a part is there to be told something. -/
def has (p : Pipeline ω) : Part → Bool
  | .source => p.attachment.isSome
  | .sink => p.sink.isSome
  | .filter => true

/-- All who are there have their line in the roster. -/
structure Enrolled (p : Pipeline ω) (r : Roster) : Prop where
  parts : ∀ part, p.has part → r.parts part ≠ []
  stages : ∀ a, p.assembly = some a → ∃ newest older, r.chains = newest :: older ∧
    newest.length = a.chain.stages.length

theorem Alike.has (h : p.Alike q) (part : Part) : q.has part = p.has part := by
  cases part with
  | source => exact congrArg Option.isSome h.attachment
  | sink => exact congrArg Option.isSome h.sink
  | filter => rfl

theorem Enrolled.alike (h : Enrolled p r) (hq : p.Alike q) : Enrolled q r where
  parts part hpart := h.parts part (hq.has part ▸ hpart)
  stages b hb := by
    obtain ⟨a, ha, hab⟩ := hq.of_assembly hb
    obtain ⟨newest, older, hchains, hlength⟩ := h.stages a ha
    exact ⟨newest, older, hchains, hlength.trans hab.chain.stages.length_eq⟩

theorem Enrolled.told (h : Enrolled p r) (part : Part) (s : Status) (agreed : Bool) :
    Enrolled p (r.see (.told part s agreed)) where
  parts other hother := by
    by_cases hne : other = part
    · rw [hne, Roster.parts_told_self]
      exact Roster.hear_ne_nil (h.parts part (hne ▸ hother))
    · rw [Roster.parts_told_of_ne r part s agreed hne]
      exact h.parts other hother
  stages := h.stages

theorem Enrolled.toldStages (h : Enrolled p r) (s : Status) (answers : List Bool) :
    Enrolled p (r.see (.toldStages s answers)) := by
  rcases hchains : r.chains with _ | ⟨newest, older⟩
  · simpa only [Roster.see, hchains] using h
  · rw [Roster.see_toldStages s answers hchains]
    refine ⟨h.parts, fun a ha => ?_⟩
    obtain ⟨newest', older', hchains', hlength⟩ := h.stages a ha
    obtain ⟨rfl, rfl⟩ := List.cons.inj (hchains.symm.trans hchains')
    exact ⟨_, _, rfl, (Roster.length_hearAll s answers newest).trans hlength⟩

/-! ### Between calls -/

/-- Nothing is going on, and nobody was told to play last. -/
structure Idle (p : Pipeline ω) (r : Roster) : Prop where
  status : p.status.isActive = false
  worker : p.worker = .absent
  waiting : p.queue.buffers = []
  undefined : p.status = .undefined ↔ p.attachment = none
  chain : ∀ s, p.chainStatus = some s → s.isActive = false
  quiet : r.Quiet
  enrolled : Enrolled p r

/-- All is there, and nobody else was told to play last. -/
structure Whole (p : Pipeline ω) (r : Roster) : Prop where
  source : p.attachment.isSome
  sink : p.sink.isSome
  assembly : p.assembly.isSome
  others : r.OthersQuiet
  enrolled : Enrolled p r

/-- All who are there were told to play last, and agreed. -/
structure Heeded (p : Pipeline ω) (r : Roster) : Prop extends Whole p r where
  chain : p.chainStatus = some .playing
  parts : ∀ part, (r.parts part).head? = some .playing
  stages : ∀ a, p.assembly = some a →
    r.chains.head? = some (List.replicate a.chain.stages.length .playing)

/-- All play, and there is a worker unless the pipeline pauses. -/
structure Busy (p : Pipeline ω) (r : Roster) : Prop extends Heeded p r where
  status : p.status.isActive = true
  worker : p.worker ≠ .absent ↔ p.status = .playing

theorem Idle.beside (h : Idle p r) (hq : p.Beside q) : Idle q r where
  status := hq.status.symm ▸ h.status
  worker := hq.worker.mpr h.worker
  waiting := (hq.waiting h.status).trans h.waiting
  undefined := by
    rw [hq.status, hq.attachment]
    exact h.undefined
  chain s hs := h.chain s (hq.chainStatus ▸ hs)
  quiet := h.quiet
  enrolled := h.enrolled.alike hq.toAlike

theorem Whole.alike (h : Whole p r) (hq : p.Alike q) : Whole q r where
  source := hq.attachment.symm ▸ h.source
  sink := hq.sink.symm ▸ h.sink
  assembly := hq.isSome_assembly.trans h.assembly
  others := h.others
  enrolled := h.enrolled.alike hq

theorem Heeded.of_alike (h : Heeded p r) (hq : p.Alike q) (hchain : q.chainStatus = p.chainStatus) :
    Heeded q r where
  toWhole := h.toWhole.alike hq
  chain := hchain.trans h.chain
  parts := h.parts
  stages b hb := by
    obtain ⟨a, ha, hab⟩ := hq.of_assembly hb
    rw [h.stages a ha, hab.chain.stages.length_eq]

theorem Heeded.beside (h : Heeded p r) (hq : p.Beside q) : Heeded q r :=
  h.of_alike hq.toAlike hq.chainStatus

theorem Busy.beside (h : Busy p r) (hq : p.Beside q) : Busy q r where
  toHeeded := h.toHeeded.beside hq
  status := hq.status.symm ▸ h.status
  worker := by
    rw [hq.status]
    exact hq.worker.not.trans h.worker

/-! ### No move changes it -/

theorem stable_of_beside {A : Pipeline ω → Roster → Prop}
    (h : ∀ p q r, A p r → p.Beside q → A q r) : Stable fun x : Moment ω => A x.pipeline x.roster := by
  intro x m hx
  rw [roster_move]
  exact h _ _ _ hx (beside_step m x.pipeline)

/-! ### What deeds let be seen -/

theorem isNone_unless (agreed : Bool) (err : StreamError) :
    (if agreed then none else some err).isNone = agreed := by
  cases agreed with
  | true => rfl
  | false => rfl

/-- A part agrees if the deed of telling it has no error. -/
theorem seeAll_tell (r : Roster) (s : Status) {part : Part} (h : p.has part) :
    r.seeAll ((Deed.tell s part).seen p) =
      r.see (.told part s ((Deed.tell s part).step p).1.isNone) := by
  cases part with
  | source =>
    obtain ⟨a, ha⟩ := Option.isSome_iff_exists.mp h
    simp only [Deed.tell, Deed.seen, Deed.step, commandSource, ha, isNone_unless]
    generalize (a.source.setStatus s p.world).2.1 = given
    have htraffic : ∀ e ∈ given.map p.pushEvent, e.isTraffic := by
      intro e he
      obtain ⟨b, -, rfl⟩ := List.mem_map.mp he
      rfl
    exact Roster.seeAll_of_isTraffic _ htraffic
  | sink =>
    obtain ⟨k, hk⟩ := Option.isSome_iff_exists.mp h
    simp only [Deed.tell, Deed.seen, Deed.step, commandSink, hk, isNone_unless]
    rfl
  | filter =>
    have hagreed := isNone_unless (p.filter.setStatus s p.world).1 (.stageFailed "property-filter")
    exact (congrArg (fun agreed => r.see (.told .filter s agreed)) hagreed).symm

/-! Some deeds are traffic alone. -/

theorem isTraffic_of_joinWorker (p : Pipeline ω) :
    ∀ e ∈ Deed.joinWorker.seen p, e.isTraffic := by
  intro e he
  cases Deed.lets_of_mem_seen he with
  | worked he => exact isTraffic_of_mem_seen _ _ e he

theorem isTraffic_of_returnWaiting (p : Pipeline ω) :
    ∀ e ∈ Deed.returnWaiting.seen p, e.isTraffic := by
  intro e he
  cases Deed.lets_of_mem_seen he
  rfl

theorem isTraffic_of_requeue (b : Buffer) (p : Pipeline ω) :
    ∀ e ∈ (Deed.requeue b).seen p, e.isTraffic := by
  intro e he
  cases Deed.lets_of_mem_seen he
  rfl

/-! ### Stages answer -/

theorem stageAnswers_of_agreed {t : Status} (ht : t.isActive = true) (ss : List (Stage ω)) (w : ω)
    (h : (Chain.commandUntilRefusal t ss w).1 = none) :
    stageAnswers t ss w = List.replicate ss.length true := by
  induction ss generalizing w with
  | nil => rfl
  | cons s rest ih =>
    simp only [Chain.commandUntilRefusal] at h
    simp only [stageAnswers, ht, Bool.true_and, List.length_cons, List.replicate_succ]
    split at h
    · next hagreed =>
      rw [hagreed, ih _ h]
      rfl
    · cases h

theorem length_stageAnswers {t : Status} (ht : t.isActive = false) (ss : List (Stage ω)) (w : ω) :
    (stageAnswers t ss w).length = ss.length := by
  induction ss generalizing w with
  | nil => rfl
  | cons s rest ih =>
    simp only [stageAnswers, ht, Bool.false_and, Bool.false_eq_true, if_false, List.length_cons, ih]

/-! ### A command to all who are there -/

theorem Whole.has (h : Whole p r) (part : Part) : p.has part := by
  cases part with
  | source => exact h.source
  | sink => exact h.sink
  | filter => rfl

theorem Whole.told (h : Whole p r) (s : Status) (part : Part) :
    Whole ((Deed.tell s part).step p).2 (r.seeAll ((Deed.tell s part).seen p)) := by
  have hq := h.alike (beside_tell s part p).toAlike
  rw [seeAll_tell r s (h.has part)]
  exact ⟨hq.source, hq.sink, hq.assembly, hq.others.told .., hq.enrolled.told ..⟩

theorem Whole.head?_told (h : Whole p r) (s : Status) (part : Part) :
    ((r.seeAll ((Deed.tell s part).seen p)).parts part).head? =
      some (some (s, ((Deed.tell s part).step p).1.isNone)) := by
  rw [seeAll_tell r s (h.has part), Roster.parts_told_self]
  exact Roster.head?_hear (h.enrolled.parts part (h.has part))

theorem Whole.parts_told_of_ne (h : Whole p r) (s : Status) {part other : Part} (hne : other ≠ part) :
    (r.seeAll ((Deed.tell s part).seen p)).parts other = r.parts other := by
  rw [seeAll_tell r s (h.has part)]
  exact Roster.parts_told_of_ne r part s _ hne

theorem Whole.chains_told (h : Whole p r) (s : Status) (part : Part) :
    (r.seeAll ((Deed.tell s part).seen p)).chains = r.chains := by
  rw [seeAll_tell r s (h.has part)]
  rfl

theorem step_tellStages {a : Assembly ω} (ha : p.assembly = some a) (s : Status) :
    (Deed.tellStages s).step p = ((a.chain.setStatus s p.world).1,
      { p with assembly := some { a with chain := (a.chain.setStatus s p.world).2.1 }
        }.withWorld (a.chain.setStatus s p.world).2.2) := by
  show p.commandChain s = _
  simp only [commandChain, ha]

/-- What the stages of the chain are told is seen, and goes to the newest chain of the roster. -/
theorem Whole.toldStages (h : Whole p r) (s : Status) :
    ∃ a newest older, p.assembly = some a ∧ r.chains = newest :: older ∧
      newest.length = a.chain.stages.length ∧
      r.seeAll ((Deed.tellStages s).seen p) = { r with
        chains := Roster.hearAll s (stageAnswers s a.chain.stages p.world) newest :: older } ∧
      Whole ((Deed.tellStages s).step p).2 (r.seeAll ((Deed.tellStages s).seen p)) := by
  obtain ⟨a, ha⟩ := Option.isSome_iff_exists.mp h.assembly
  obtain ⟨newest, older, hchains, hlength⟩ := h.enrolled.stages a ha
  have hseen : r.seeAll ((Deed.tellStages s).seen p) =
      r.see (.toldStages s (stageAnswers s a.chain.stages p.world)) := by
    simp only [Deed.seen, ha]
    rfl
  refine ⟨a, newest, older, ha, hchains, hlength, ?_, ?_⟩
  · rw [hseen, Roster.see_toldStages _ _ hchains]
  · have hq := h.alike (alike_commandChain s p)
    rw [hseen]
    exact ⟨hq.source, hq.sink, hq.assembly, hq.others.toldStages .., hq.enrolled.toldStages ..⟩

/-! ### Starting -/

theorem tell_mem_cons {s : Status} {part other : Part} {done : List (Deed ω)} :
    Deed.tell s other ∈ Deed.tell s part :: done ↔ other = part ∨ Deed.tell s other ∈ done := by
  rw [List.mem_cons]
  refine or_congr_left ⟨fun h => ?_, fun h => h ▸ rfl⟩
  cases part with
  | source | sink | filter =>
    cases other with
    | source | sink | filter => first | rfl | cases h

theorem tell_ne_tellStages (s t : Status) (part : Part) :
    Deed.tell s part ≠ (.tellStages t : Deed ω) := by
  cases part with
  | source | sink | filter => exact nofun

/-- On the way to playing, after the deeds that are done. -/
structure Starting (done : List (Deed ω)) (p : Pipeline ω) (r : Roster) : Prop extends Whole p r where
  status : p.status = .playing
  worker : p.worker = .absent
  parts : ∀ part, Deed.tell .playing part ∈ done → (r.parts part).head? = some .playing
  chain : .tellStages .playing ∈ done → p.chainStatus = some .playing
  stages : .tellStages .playing ∈ done → ∀ a, p.assembly = some a →
    r.chains.head? = some (List.replicate a.chain.stages.length .playing)

namespace Starting

variable {done : List (Deed ω)}

theorem beside (h : Starting done p r) (hq : p.Beside q) : Starting done q r where
  toWhole := h.toWhole.alike hq.toAlike
  status := hq.status.trans h.status
  worker := hq.worker.mpr h.worker
  parts := h.parts
  chain hdone := hq.chainStatus.trans (h.chain hdone)
  stages hdone b hb := by
    obtain ⟨a, ha, hab⟩ := hq.of_assembly hb
    rw [h.stages hdone a ha, hab.chain.stages.length_eq]

theorem told (h : Starting done p r) {part : Part}
    (hagreed : ((Deed.tell .playing part).step p).1 = none) :
    Starting (Deed.tell .playing part :: done) ((Deed.tell .playing part).step p).2
      (r.seeAll ((Deed.tell .playing part).seen p)) := by
  have hq := h.beside (beside_tell .playing part p)
  have hmem {d : Deed ω} (hd : Deed.tell .playing part ≠ d) (h : d ∈ .tell .playing part :: done) :
      d ∈ done := List.mem_of_ne_of_mem hd.symm h
  refine ⟨h.toWhole.told .playing part, hq.status, hq.worker, fun other hother => ?_, fun hdone => ?_,
    fun hdone => ?_⟩
  · by_cases hne : other = part
    · rw [hne, h.toWhole.head?_told, hagreed]
      rfl
    · rw [h.toWhole.parts_told_of_ne _ hne]
      exact h.parts other ((tell_mem_cons.mp hother).resolve_left hne)
  · exact hq.chain (hmem (tell_ne_tellStages _ _ _) hdone)
  · rw [h.toWhole.chains_told]
    exact hq.stages (hmem (tell_ne_tellStages _ _ _) hdone)

theorem toldStages (h : Starting done p r)
    (hagreed : ((Deed.tellStages .playing).step p).1 = none) :
    Starting (.tellStages .playing :: done) ((Deed.tellStages .playing).step p).2
      (r.seeAll ((Deed.tellStages .playing).seen p)) := by
  obtain ⟨a, newest, older, ha, hchains, hlength, hseen, hwhole⟩ := h.toWhole.toldStages .playing
  rw [step_tellStages ha] at hagreed hwhole ⊢
  have hplaying := a.chain.setStatus_of_agreed (t := .playing) rfl hagreed
  have hall : stageAnswers .playing a.chain.stages p.world =
      List.replicate newest.length true := by
    rw [hlength]
    exact stageAnswers_of_agreed rfl a.chain.stages p.world hplaying.2
  have hlengths := (a.chain.continues_setStatus .playing p.world).stages.length_eq
  refine ⟨hwhole, h.status, h.worker, fun part hpart => ?_, fun _ => ?_, fun _ b hb => ?_⟩
  · rw [hseen]
    exact h.parts part (List.mem_of_ne_of_mem (tell_ne_tellStages _ _ _) hpart)
  · exact congrArg some hplaying.1
  · cases hb
    rw [hseen, hall, Roster.hearAll_playing, hlength, hlengths]
    rfl

/-- All parts are there. -/
theorem required (h : Starting done p r) : Starting (.requireParts :: done) p r where
  toWhole := h.toWhole
  status := h.status
  worker := h.worker
  parts part hpart := h.parts part (List.mem_of_ne_of_mem (by cases part <;> nofun) hpart)
  chain hdone := h.chain (List.mem_of_ne_of_mem (by nofun) hdone)
  stages hdone := h.stages (List.mem_of_ne_of_mem (by nofun) hdone)

/-- When everybody was told, all have agreed. -/
theorem heeded (h : Starting done p r) (hparts : ∀ part, Deed.tell .playing part ∈ done)
    (hstages : .tellStages .playing ∈ done) : Heeded p r :=
  ⟨h.toWhole, h.chain hstages, fun part => h.parts part (hparts part), h.stages hstages⟩

end Starting

/-! ### Halting -/

/-- On the way to a stop, after the deeds that are done. -/
structure Halting (done : List (Deed ω)) (p : Pipeline ω) (r : Roster) : Prop extends Whole p r where
  status : p.status = .stopped
  parts : ∀ part, Deed.tell .stopped part ∈ done → ∀ h ∈ r.parts part, h.Quiet
  chain : .tellStages .stopped ∈ done → p.chainStatus = some .stopped
  stages : .tellStages .stopped ∈ done → ∀ c ∈ r.chains, ∀ h ∈ c, h.Quiet
  worker : .joinWorker ∈ done → p.worker = .absent
  waiting : .returnWaiting ∈ done → p.queue.buffers = []

/-- The worker ends where its moves have led. -/
theorem joinWorker_beside (p : Pipeline ω) :
    ∃ q, p.Beside q ∧ p.joinWorker = { q with worker := .absent } :=
  ⟨_, beside_moves ⟨p, []⟩ Move.work, joinWorker_eq p []⟩

/-- What waits is taken out of the queue first. -/
theorem returnWaiting_beside (p : Pipeline ω) :
    { p with queue := { p.queue with buffers := [] } }.Beside p.returnWaiting :=
  beside_requeueAll _ _

namespace Halting

variable {done : List (Deed ω)}

theorem inactive (h : Halting done p r) : p.status.isActive = false := by
  rw [h.status]
  rfl

theorem beside (h : Halting done p r) (hq : p.Beside q) : Halting done q r where
  toWhole := h.toWhole.alike hq.toAlike
  status := hq.status.trans h.status
  parts := h.parts
  chain hdone := hq.chainStatus.trans (h.chain hdone)
  stages := h.stages
  worker hdone := hq.worker.mpr (h.worker hdone)
  waiting hdone := (hq.waiting h.inactive).trans (h.waiting hdone)

theorem told (h : Halting done p r) (part : Part) :
    Halting (Deed.tell .stopped part :: done) ((Deed.tell .stopped part).step p).2
      (r.seeAll ((Deed.tell .stopped part).seen p)) := by
  have hq := h.beside (beside_tell .stopped part p)
  have hmem {d : Deed ω} (hd : Deed.tell .stopped part ≠ d) (h : d ∈ .tell .stopped part :: done) :
      d ∈ done := List.mem_of_ne_of_mem hd.symm h
  refine ⟨h.toWhole.told .stopped part, hq.status, fun other hother => ?_, fun hdone => ?_,
    fun hdone => ?_, fun hdone => ?_, fun hdone => ?_⟩
  · by_cases hne : other = part
    · rw [hne, seeAll_tell r .stopped (h.toWhole.has part), Roster.parts_told_self]
      exact Roster.quiet_hear (Heard.quiet_stopped _) (h.others.parts part)
    · rw [h.toWhole.parts_told_of_ne _ hne]
      exact h.parts other ((tell_mem_cons.mp hother).resolve_left hne)
  · exact hq.chain (hmem (tell_ne_tellStages _ _ _) hdone)
  · rw [h.toWhole.chains_told]
    exact hq.stages (hmem (tell_ne_tellStages _ _ _) hdone)
  · exact hq.worker (hmem (by cases part <;> nofun) hdone)
  · exact hq.waiting (hmem (by cases part <;> nofun) hdone)

theorem toldStages (h : Halting done p r) :
    Halting (.tellStages .stopped :: done) ((Deed.tellStages .stopped).step p).2
      (r.seeAll ((Deed.tellStages .stopped).seen p)) := by
  obtain ⟨a, newest, older, ha, hchains, hlength, hseen, hwhole⟩ := h.toWhole.toldStages .stopped
  have hanswers := length_stageAnswers (t := .stopped) rfl a.chain.stages p.world
  have holder := h.others.chains
  rw [hchains, List.tail_cons] at holder
  rw [step_tellStages ha] at hwhole ⊢
  refine ⟨hwhole, h.status, fun part hpart => ?_, fun _ => ?_, fun _ => ?_, fun hdone => ?_,
    fun hdone => ?_⟩
  · rw [hseen]
    exact h.parts part (List.mem_of_ne_of_mem (tell_ne_tellStages _ _ _) hpart)
  · exact congrArg some (a.chain.status_setStatus_of_inactive (t := .stopped) rfl p.world)
  · rw [hseen]
    exact List.forall_mem_cons.mpr
      ⟨Roster.quiet_hearAll_stopped (hanswers.trans hlength.symm), holder⟩
  · exact h.worker (List.mem_of_ne_of_mem (by nofun) hdone)
  · exact h.waiting (List.mem_of_ne_of_mem (by nofun) hdone)

theorem joined (h : Halting done p r) :
    Halting (.joinWorker :: done) (Deed.joinWorker.step p).2
      (r.seeAll (Deed.joinWorker.seen p)) := by
  rw [r.seeAll_of_isTraffic (isTraffic_of_joinWorker p)]
  obtain ⟨q, hpq, heq⟩ := joinWorker_beside p
  have hq := h.beside hpq
  have hstep : (Deed.joinWorker.step p).2 = { q with worker := .absent } := heq
  rw [hstep]
  refine ⟨hq.toWhole.alike (.refl_of q _ _ _), hq.status, fun part hpart => ?_, fun hdone => ?_,
    fun hdone => ?_, fun _ => rfl, fun hdone => ?_⟩
  · exact h.parts part (List.mem_of_ne_of_mem (by cases part <;> nofun) hpart)
  · exact hq.chain (List.mem_of_ne_of_mem (by nofun) hdone)
  · exact h.stages (List.mem_of_ne_of_mem (by nofun) hdone)
  · exact hq.waiting (List.mem_of_ne_of_mem (by nofun) hdone)

theorem returned (h : Halting done p r) :
    Halting (.returnWaiting :: done) (Deed.returnWaiting.step p).2
      (r.seeAll (Deed.returnWaiting.seen p)) := by
  rw [r.seeAll_of_isTraffic (isTraffic_of_returnWaiting p)]
  have hempty : Halting (.returnWaiting :: done)
      { p with queue := { p.queue with buffers := [] } } r := by
    refine ⟨h.toWhole.alike (.refl_of p _ _ _), h.status, fun part hpart => ?_, fun hdone => ?_,
      fun hdone => ?_, fun hdone => ?_, fun _ => rfl⟩
    · exact h.parts part (List.mem_of_ne_of_mem (by cases part <;> nofun) hpart)
    · exact h.chain (List.mem_of_ne_of_mem (by nofun) hdone)
    · exact h.stages (List.mem_of_ne_of_mem (by nofun) hdone)
    · exact h.worker (List.mem_of_ne_of_mem (by nofun) hdone)
  exact hempty.beside (returnWaiting_beside p)

/-- When all is done, nothing is going on. -/
theorem idle (h : Halting done p r) (hparts : ∀ part, Deed.tell .stopped part ∈ done)
    (hstages : .tellStages .stopped ∈ done) (hworker : .joinWorker ∈ done)
    (hwaiting : .returnWaiting ∈ done) : Idle p r where
  status := h.inactive
  worker := h.worker hworker
  waiting := h.waiting hwaiting
  undefined := by
    rw [h.status]
    exact iff_of_false nofun (Option.ne_none_iff_isSome.mpr h.source)
  chain s hs := by
    rw [h.chain hstages] at hs
    cases hs
    rfl
  quiet := ⟨fun part => h.parts part (hparts part), h.stages hstages⟩
  enrolled := h.enrolled

end Halting

end CameraStream.Pipeline
