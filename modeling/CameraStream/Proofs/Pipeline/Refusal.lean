import CameraStream.Proofs.Pipeline.Representation

/-!
# Calls that fail

A call that is refused has done nothing at all: pipeline, world and history are what they would
be without it. A call that fails while the chain is built leaves the pipeline in the error status
and without a chain; nothing else of it has changed, and nobody was told a status
(**`fails_of_done`**).

While a call runs the pipeline goes on moving. So what a call leaves behind is compared with what
the same moves would have led to without the call. Two moments, the one without the call and the one
with it, go through the script side by side: a move is made by both, a deed or a look by the second
alone (`Script.Ends`). What relates them meanwhile is an assertion about both that moves cannot
spoil (`Together`).
-/

namespace CameraStream.Pipeline

variable {ω : Type}

/-! ### Without the call and with it -/

/-- The moves of a schedule. -/
def movesOf (schedule : List (Choice ω)) : List (Move ω) :=
  schedule.filterMap fun
    | .move m => some m
    | .call _ | .proceed => none

/-- A move that both make does not spoil an assertion about two moments. -/
def Together (A : Moment ω → Moment ω → Prop) : Prop := ∀ x₀ x m, A x₀ x → A (x₀.move m) (x.move m)

theorem Together.moves {A : Moment ω → Moment ω → Prop} (h : Together A) {x₀ x : Moment ω}
    (hx : A x₀ x) (ms : List (Move ω)) : A (x₀.moves ms) (x.moves ms) := by
  induction ms generalizing x₀ x with
  | nil => exact hx
  | cons m ms ih => exact ih (h x₀ x m hx)

namespace Script

/-- Whatever moves come between, the result of a script and the two moments at its end are as `R`
says. -/
def Ends (R : Option StreamError → Moment ω → Moment ω → Prop) :
    Script ω → Moment ω → Moment ω → Prop
  | done err, x₀, x => ∀ ms, R err (x₀.moves ms) (x.moves ms)
  | act d rest, x₀, x => ∀ ms,
      (rest (d.step (x.moves ms).pipeline).1).Ends R (x₀.moves ms) ((x.moves ms).deed d)
  | look next, x₀, x => ∀ ms, (next (x.moves ms).pipeline).Ends R (x₀.moves ms) (x.moves ms)

variable {R : Option StreamError → Moment ω → Moment ω → Prop} {A : Moment ω → Moment ω → Prop}
  {x₀ x : Moment ω}

theorem Ends.move {s : Script ω} (h : s.Ends R x₀ x) (m : Move ω) :
    s.Ends R (x₀.move m) (x.move m) := by
  cases s with
  | done err => exact fun ms => h (m :: ms)
  | act d rest => exact fun ms => h (m :: ms)
  | look next => exact fun ms => h (m :: ms)

theorem ends_done {err : Option StreamError} (hA : Together A) (hx : A x₀ x)
    (h : ∀ y₀ y, A y₀ y → R err y₀ y) : (done err).Ends R x₀ x :=
  fun ms => h _ _ (hA.moves hx ms)

theorem ends_act {d : Deed ω} {rest : Option StreamError → Script ω} (hA : Together A) (hx : A x₀ x)
    (h : ∀ y₀ y, A y₀ y → (rest (d.step y.pipeline).1).Ends R y₀ (y.deed d)) :
    (act d rest).Ends R x₀ x :=
  fun ms => h _ _ (hA.moves hx ms)

theorem ends_look {next : Pipeline ω → Script ω} (hA : Together A) (hx : A x₀ x)
    (h : ∀ y₀ y, A y₀ y → (next y.pipeline).Ends R y₀ y) : (look next).Ends R x₀ x :=
  fun ms => h _ _ (hA.moves hx ms)

/-! Deeds in a row that keep an assertion. -/

theorem ends_all {ds : List (Deed ω)} {k : Script ω} (hA : Together A) (hx : A x₀ x)
    (hds : ∀ d ∈ ds, ∀ y₀ y, A y₀ y → A y₀ (y.deed d))
    (hk : ∀ y₀ y, A y₀ y → k.Ends R y₀ y) : (all ds k).Ends R x₀ x := by
  induction ds generalizing x₀ x with
  | nil => exact hk x₀ x hx
  | cons d ds ih =>
    refine ends_act hA hx fun y₀ y hy => ?_
    exact ih (hds d List.mem_cons_self y₀ y hy) fun d' hd' => hds d' (List.mem_cons_of_mem _ hd')

theorem ends_inOrder {ds : List (Deed ω)} {k : Option StreamError → Script ω} (hA : Together A)
    (hx : A x₀ x) (hds : ∀ d ∈ ds, ∀ y₀ y, A y₀ y → A y₀ (y.deed d)) {E : StreamError → Prop}
    (herr : ∀ d ∈ ds, ∀ y₀ y err, A y₀ y → (d.step y.pipeline).1 = some err → E err)
    (hk : ∀ y₀ y, A y₀ y → (k none).Ends R y₀ y)
    (hE : ∀ err y₀ y, A y₀ y → E err → (k (some err)).Ends R y₀ y) :
    (inOrder ds k).Ends R x₀ x := by
  induction ds generalizing x₀ x with
  | nil => exact hk x₀ x hx
  | cons d ds ih =>
    refine ends_act hA hx fun y₀ y hy => ?_
    have hdone := hds d List.mem_cons_self y₀ y hy
    rcases hresult : (d.step y.pipeline).1 with _ | err
    · exact ih hdone (fun d' hd' => hds d' (List.mem_cons_of_mem _ hd'))
        fun d' hd' => herr d' (List.mem_cons_of_mem _ hd')
    · exact hE err y₀ _ hdone (herr d List.mem_cons_self y₀ y err hy hresult)

end Script

/-- **What is known of a script at the outset holds at every point of a schedule without calls.** -/
theorem Scene.ends_run {R : Option StreamError → Moment ω → Moment ω → Prop} {s : Scene ω}
    {x₀ : Moment ω} (hs : s.todo.Ends R x₀ s.toMoment) {schedule : List (Choice ω)}
    (hcalls : ∀ c, .call c ∉ schedule) :
    (s.run schedule).todo.Ends R (x₀.moves (movesOf schedule)) (s.run schedule).toMoment := by
  -- A move is made on both sides; a deed or a look takes `Ends` one step further.
  induction schedule generalizing s x₀ with
  | nil => exact hs
  | cons choice rest ih =>
    have hrest : ∀ c, .call c ∉ rest := fun c hc => hcalls c (List.mem_cons_of_mem _ hc)
    cases choice with
    | call c => exact absurd List.mem_cons_self (hcalls c)
    | move m => exact ih (s := s.next (.move m)) (hs.move m) hrest
    | proceed =>
      have hnext : (s.next .proceed).todo.Ends R x₀ (s.next .proceed).toMoment := by
        obtain ⟨x, todo⟩ := s
        cases todo with
        | done err => exact hs
        | act d rest => exact hs []
        | look next => exact hs []
      exact ih hnext hrest

/-! ### What a failed call has done -/

/-- Events of which a chain or a status of some part comes. -/
def Event.isMilestone : Event → Bool
  | .attached _ | .assembled _ | .told _ _ _ | .toldStages _ _ => true
  | .announced _ _ | .pushed _ _ _ | .fetched _ | .shown _ | .kept _ | .requeued _ | .returned _ =>
    false

def Moment.milestones (x : Moment ω) : List Event := x.history.filter Event.isMilestone

/-- The call came at the wrong time, something that it needs is missing, or the source that was to
be attached reports nothing. -/
def Call.Refused (c : Call ω) : StreamError → Prop
  | .invalidState _ _ | .noSource | .noSink => True
  | .negotiation .nothingAvailable => ∃ source, c = .setSource source
  | _ => False

/-- An error of a part or a stage that was told to play. -/
def Unready : StreamError → Prop
  | .sourceRejected .start | .sinkRejected .start | .stageFailed _ => True
  | _ => False

/-- With the call, an idle pipeline has come to a status and to no chain. The rest of it is what it
would be without the call, and so are all milestones. -/
structure Stripped (s : Status) (x₀ x : Moment ω) : Prop where
  idle : x₀.pipeline.status.isActive = false
  worker : x₀.pipeline.worker = .absent
  source : x₀.pipeline.attachment.isSome
  sink : x₀.pipeline.sink.isSome
  inactive : s.isActive = false
  pipeline : ∃ surroundings, x.pipeline =
    { x₀.pipeline with
      assembly := none, queue := x₀.pipeline.queue.setStatus s, surroundings }
  milestones : x.milestones = x₀.milestones

/-- With the call there is a new chain, and it was made before anybody was told a status. -/
structure Assembled (x₀ x : Moment ω) : Prop where
  source : x.pipeline.attachment.isSome
  sink : x.pipeline.sink.isSome
  milestones : ∃ plan later, x.milestones = x₀.milestones ++ .assembled plan :: later

/-- What a call that fails with an error has done, given the moment without the call and the one
with it. -/
structure Call.Fails (c : Call ω) (err : StreamError) (x₀ x : Moment ω) : Prop where
  refused : c.Refused err → x = x₀
  /-- Only calls that build can fail in another way. -/
  others : ¬ c.Refused err → c = .build ∨ c = .setStatus .playing
  building : c = .build → ¬ c.Refused err → Stripped .error x₀ x
  /-- Either the chain was not built, or it was, and then somebody did not start. -/
  playing : c = .setStatus .playing → ¬ c.Refused err →
    Stripped .error x₀ x ∨ Unready err ∧ Assembled x₀ x

namespace Call.Fails

variable {c : Call ω} {err : StreamError} {x₀ x : Moment ω}

theorem of_refused (h : c.Refused err) : c.Fails err x x :=
  ⟨fun _ => rfl, fun hn => absurd h hn, fun _ hn => absurd h hn, fun _ hn => absurd h hn⟩

theorem of_stripped (herr : ¬ c.Refused err) (hc : c = .build ∨ c = .setStatus .playing)
    (h : Stripped .error x₀ x) : c.Fails err x₀ x :=
  ⟨fun hr => absurd hr herr, fun _ => hc, fun _ _ => h, fun _ _ => .inl h⟩

theorem of_assembled (herr : Unready err) (h : Assembled x₀ x) :
    (Call.setStatus .playing).Fails err x₀ x := by
  have hplain : ¬ (Call.setStatus (ω := ω) .playing).Refused err := by
    intro hrefused
    cases err with
    | negotiation _ | formatMismatch _ _ _ | deviceLost _ => cases herr
    | stageFailed _ | sourceRejected _ | sinkRejected _ => cases hrefused
    | noSource | noSink | invalidState _ _ => cases herr
  exact ⟨fun hr => absurd hr hplain, fun _ => .inr rfl, nofun, fun _ _ => .inr ⟨herr, h⟩⟩

end Call.Fails

/-! ### Moves and milestones -/

theorem Event.isMilestone_of_isTraffic {e : Event} (h : e.isTraffic) : e.isMilestone = false := by
  cases e with
  | pushed _ _ _ | fetched _ | shown _ | kept _ | requeued _ | returned _ => rfl
  | attached _ | assembled _ | announced _ _ | told _ _ _ | toldStages _ _ => cases h

theorem Moment.milestones_move (x : Moment ω) (m : Move ω) :
    (x.move m).milestones = x.milestones := by
  have hnone : (m.seen x.pipeline).filter Event.isMilestone = [] :=
    List.filter_eq_nil_iff.mpr fun e he =>
      ne_true_of_eq_false (Event.isMilestone_of_isTraffic (isTraffic_of_mem_seen m x.pipeline e he))
  show (x.history ++ m.seen x.pipeline).filter Event.isMilestone = _
  rw [List.filter_append, hnone, List.append_nil]
  rfl

theorem Moment.milestones_deed (x : Moment ω) (d : Deed ω) :
    (x.deed d).milestones = x.milestones ++ (d.seen x.pipeline).filter Event.isMilestone :=
  List.filter_append ..

/-- How many buffers an inactive pipeline turns down. -/
def Move.turnedDown : Move ω → Nat
  | push _ | pushImage _ => 1
  | fetch | applyFilter | process | handToSink | giveBack | turn _ => 0

/-- An idle pipeline turns buffers down, and else only its surroundings change. -/
theorem Move.step_of_idle {p : Pipeline ω} (hidle : p.status.isActive = false)
    (hworker : p.worker = .absent) (m : Move ω) :
    ∃ surroundings, m.step p = { p with
      queue := { p.queue with rejected := p.queue.rejected + m.turnedDown }
      surroundings } := by
  -- The worker's own moves find no worker.
  cases m with
  | fetch =>
    have hsame : p.fetch = p := by simp only [Pipeline.fetch, hworker]
    exact ⟨p.surroundings, hsame⟩
  | applyFilter =>
    have hsame : p.applyFilter = p := by simp only [Pipeline.applyFilter, hworker]
    exact ⟨p.surroundings, hsame⟩
  | process =>
    have hsame : p.process = p := by simp only [Pipeline.process, hworker]
    exact ⟨p.surroundings, hsame⟩
  | handToSink =>
    have hsame : p.handToSink = p := by simp only [Pipeline.handToSink, hworker]
    exact ⟨p.surroundings, hsame⟩
  | giveBack =>
    have hsame : p.giveBack = p := by simp only [Pipeline.giveBack, hworker]
    exact ⟨p.surroundings, hsame⟩
  | push b =>
    obtain ⟨surroundings, heq⟩ := deliver_of_inactive hidle b
    exact ⟨surroundings, congrArg Prod.snd heq⟩
  | pushImage b =>
    obtain ⟨surroundings, heq⟩ := deliver_of_inactive hidle b
    simp only [step, Pipeline.pushImage, heq, requeue]
    split
    · exact ⟨_, rfl⟩
    · exact ⟨_, rfl⟩
  | turn change => exact ⟨_, rfl⟩

/-! ### Assertions about both -/

theorem Stripped.move {s : Status} {x₀ x : Moment ω} (h : Stripped s x₀ x) (m : Move ω) :
    Stripped s (x₀.move m) (x.move m) := by
  -- Both are idle, so the move does the same to the queue of both, and to nothing else.
  obtain ⟨_, heq⟩ := h.pipeline
  have hidle : x.pipeline.status.isActive = false := by rw [heq]; exact h.inactive
  have hworker : x.pipeline.worker = .absent := by rw [heq]; exact h.worker
  obtain ⟨_, hstep₀⟩ := m.step_of_idle h.idle h.worker
  obtain ⟨surroundings, hstep⟩ := m.step_of_idle hidle hworker
  have hwithout : (x₀.move m).pipeline = _ := hstep₀
  have hwith : (x.move m).pipeline = _ := hstep
  have hbeside := beside_step m x₀.pipeline
  refine ⟨?_, hbeside.worker.mpr h.worker, ?_, ?_, h.inactive, ⟨surroundings, ?_⟩, ?_⟩
  · exact hbeside.status.symm ▸ h.idle
  · exact hbeside.attachment.symm ▸ h.source
  · exact hbeside.sink.symm ▸ h.sink
  · rw [hwith, hwithout, heq]
    rfl
  · rw [x.milestones_move, x₀.milestones_move, h.milestones]

theorem together_stripped : Together (ω := ω) fun x₀ x => ∃ s, Stripped s x₀ x :=
  fun _ _ m ⟨s, h⟩ => ⟨s, h.move m⟩

/-- Deeds that get parts ready for a plan. -/
def Deed.prepares : Deed ω → Bool
  | .countNegotiation _ | .configureSource _ | .offerPool | .configureSink _ | .configureFilter _ =>
    true
  | _ => false

theorem isOutward_of_prepares {d : Deed ω} (hd : d.prepares) : d.isOutward := by
  cases d with
  | countNegotiation _ | configureSource _ | offerPool | configureSink _ | configureFilter _ => rfl
  | _ => cases hd

theorem isMilestone_of_prepares {d : Deed ω} (hd : d.prepares) {e : Event} (he : d.Lets e) :
    e.isMilestone = false := by
  cases he with
  | announced plan agreed => rfl
  | _ => cases hd

theorem failure_of_prepares {d : Deed ω} (hd : d.prepares) {p : Pipeline ω} {err : StreamError}
    (h : (d.step p).1 = some err) : Failure err := by
  cases d with
  | countNegotiation planned => cases h
  | configureSource _ | offerPool | configureSink _ | configureFilter _ =>
    exact failure_of_asks rfl h
  | _ => cases hd

theorem Stripped.prepared {s : Status} {x₀ x : Moment ω} (h : Stripped s x₀ x) {d : Deed ω}
    (hd : d.prepares) : Stripped s x₀ (x.deed d) := by
  obtain ⟨_, heq⟩ := h.pipeline
  obtain ⟨surroundings, hstep⟩ := d.exists_surroundings (isOutward_of_prepares hd) x.pipeline
  refine ⟨h.idle, h.worker, h.source, h.sink, h.inactive, ⟨surroundings, ?_⟩, ?_⟩
  · show (d.step x.pipeline).2 = _
    rw [hstep, heq]
  · have hnone : (d.seen x.pipeline).filter Event.isMilestone = [] :=
      List.filter_eq_nil_iff.mpr fun e he =>
        ne_true_of_eq_false (isMilestone_of_prepares hd (Deed.lets_of_mem_seen he))
    rw [x.milestones_deed, hnone, List.append_nil, h.milestones]

theorem Stripped.enter {s : Status} {x₀ x : Moment ω} (h : Stripped s x₀ x) {t : Status}
    (ht : t.isActive = false) : Stripped t x₀ (x.deed (.enter t)) := by
  obtain ⟨surroundings, heq⟩ := h.pipeline
  refine ⟨h.idle, h.worker, h.source, h.sink, ht, ⟨surroundings, ?_⟩, ?_⟩
  · show x.pipeline.enter t = _
    rw [heq]
    rfl
  · rw [x.milestones_deed, ← h.milestones]
    exact List.append_nil _

/-- A chain was made, or nothing has come of the attempt. -/
theorem Stripped.assemble {s : Status} {x₀ x : Moment ω} (h : Stripped s x₀ x) (plan : Plan)
    (actual : VideoFormat) :
    (((Deed.assemble plan actual).step x.pipeline).1 = none ∧
      Assembled x₀ (x.deed (.assemble plan actual))) ∨
    ∃ err, ((Deed.assemble plan actual).step x.pipeline).1 = some err ∧ Failure err ∧
      Stripped s x₀ (x.deed (.assemble plan actual)) := by
  obtain ⟨_, heq⟩ := h.pipeline
  rcases assemble_cases plan actual x.pipeline with ⟨chain, w, _, _, hstep⟩ | ⟨err, w, herr, hstep⟩
  · refine .inl ⟨congrArg Prod.fst hstep, ?_, ?_, plan, [], ?_⟩
    · show (Pipeline.assemble plan actual x.pipeline).2.attachment.isSome
      rw [hstep, heq]
      exact h.source
    · show (Pipeline.assemble plan actual x.pipeline).2.sink.isSome
      rw [hstep, heq]
      exact h.sink
    · rw [x.milestones_deed, h.milestones]
      simp only [Deed.seen, hstep, if_true]
      rfl
  · refine .inr ⟨err, congrArg Prod.fst hstep, herr, h.idle, h.worker, h.source, h.sink, h.inactive,
      ⟨{ x.pipeline.surroundings with world := w }, ?_⟩, ?_⟩
    · show (Pipeline.assemble plan actual x.pipeline).2 = _
      rw [hstep, heq]
      rfl
    · rw [x.milestones_deed, h.milestones]
      simp only [Deed.seen, hstep, reduceCtorEq, if_false]
      exact List.append_nil _

/-- An assertion that neither moves nor the deeds of starting and stopping can spoil. -/
structure Lasting (A : Moment ω → Moment ω → Prop) : Prop where
  moves : Together A
  deeds : ∀ d : Deed ω, d.keepsParts → ∀ x₀ x, A x₀ x → A x₀ (x.deed d)

theorem lasting_true : Lasting (ω := ω) fun _ _ => True :=
  ⟨fun _ _ _ _ => trivial, fun _ _ _ _ _ => trivial⟩

theorem lasting_assembled : Lasting (ω := ω) Assembled where
  moves x₀ x m h := by
    have hbeside := beside_step m x.pipeline
    refine ⟨hbeside.attachment.symm ▸ h.source, hbeside.sink.symm ▸ h.sink, ?_⟩
    rw [x.milestones_move, x₀.milestones_move]
    exact h.milestones
  deeds d hd x₀ x h := by
    have halike := alike_deed hd x.pipeline
    obtain ⟨plan, later, hmilestones⟩ := h.milestones
    refine ⟨halike.attachment.symm ▸ h.source, halike.sink.symm ▸ h.sink, plan,
      later ++ (d.seen x.pipeline).filter Event.isMilestone, ?_⟩
    rw [x.milestones_deed, hmilestones, List.append_assoc, List.cons_append]

/-- With the call everything is as it is without it, and stands in a certain way. -/
def Untouched (A : Pipeline ω → Roster → Prop) (x₀ x : Moment ω) : Prop := x = x₀ ∧ x₀.Stands A

theorem together_untouched {A : Pipeline ω → Roster → Prop}
    (hA : ∀ p q r, A p r → p.Beside q → A q r) : Together (Untouched A) := by
  rintro x₀ x m ⟨rfl, h⟩
  exact ⟨rfl, stable_of_beside hA x m h⟩

theorem together_untouched_rest : Together (Untouched (ω := ω) Rest) :=
  together_untouched fun _ _ _ => Rest.beside

/-- Nothing is going on, and there are a source and a sink to build a chain for. -/
def Ready (p : Pipeline ω) (r : Roster) : Prop := Idle p r ∧ p.attachment.isSome ∧ p.sink.isSome

theorem Ready.beside {p q : Pipeline ω} {r : Roster} (h : Ready p r) (hq : p.Beside q) :
    Ready q r :=
  ⟨h.1.beside hq, hq.attachment.symm ▸ h.2.1, hq.sink.symm ▸ h.2.2⟩

/-- Whoever is ready first drops the chain. -/
theorem Untouched.discarded {x₀ x : Moment ω} (h : Untouched Ready x₀ x) :
    Stripped x₀.pipeline.status x₀ (x.deed .discard) := by
  obtain ⟨rfl, hidle, hsource, hsink⟩ := h
  exact ⟨hidle.status, hidle.worker, hsource, hsink, hidle.status,
    ⟨x.pipeline.surroundings, rfl⟩, (x.milestones_deed .discard).trans (List.append_nil _)⟩

/-! ### Scripts -/

/-- What the outline of a call is to come to: it has failed as it should, unless the error is one
that never comes up. -/
def failing (c : Call ω) (err : Option StreamError) (x₀ x : Moment ω) : Prop :=
  ∀ e, err = some e → ¬ Internal e → c.Fails e x₀ x

section Scripts

variable {c : Call ω} {x₀ x : Moment ω}

theorem failing_none : failing c none x₀ x := nofun

theorem ends_succeeded {A : Moment ω → Moment ω → Prop} (hA : Together A) (hx : A x₀ x) :
    (Script.done none).Ends (failing c) x₀ x :=
  Script.ends_done hA hx fun _ _ _ => failing_none

theorem ends_refused {err : StreamError} (hx : Untouched Rest x₀ x) (herr : c.Refused err) :
    (Script.done (some err)).Ends (failing c) x₀ x := by
  refine Script.ends_done together_untouched_rest hx ?_
  rintro y₀ y ⟨rfl, -⟩ e ⟨⟩ -
  exact .of_refused herr

theorem ends_halt {A : Moment ω → Moment ω → Prop} (hA : Lasting A) (hx : A x₀ x) {k : Script ω}
    (hk : ∀ y₀ y, A y₀ y → k.Ends (failing c) y₀ y) :
    (Script.halt k).Ends (failing c) x₀ x := by
  apply Script.ends_all hA.moves hx _ hk
  intro d hd
  apply hA.deeds
  simp only [List.mem_cons, List.not_mem_nil, or_false] at hd
  rcases hd with rfl | rfl | rfl | rfl | rfl | rfl | rfl
  all_goals rfl

/-- Playing by some deeds fails as one of them does. -/
theorem ends_playBy {A : Moment ω → Moment ω → Prop} (hA : Lasting A) (hx : A x₀ x)
    {ds : List (Deed ω)} (hds : ∀ d ∈ ds, d.keepsParts) {E : StreamError → Prop}
    (herr : ∀ d ∈ ds, ∀ y₀ y err, A y₀ y → (d.step y.pipeline).1 = some err → E err)
    (hE : ∀ err y₀ y, A y₀ y → E err → failing c (some err) y₀ y) :
    (Script.playBy ds).Ends (failing c) x₀ x := by
  refine Script.ends_act hA.moves hx fun y₀ y hy => ?_
  refine Script.ends_inOrder hA.moves (hA.deeds (.enter .playing) rfl y₀ y hy)
    (fun d hd => hA.deeds d (hds d hd)) herr ?_ fun err z₀ z hz hfailed => ?_
  · exact fun z₀ z hz => ends_succeeded hA.moves hz
  · exact ends_halt hA hz fun u₀ u hu =>
      Script.ends_done hA.moves hu fun v₀ v hv => hE err v₀ v hv hfailed

theorem internal_of_startWorker {p : Pipeline ω} {err : StreamError}
    (h : (Deed.startWorker.step p).1 = some err) : Internal err := by
  simp only [Deed.step, startWorker] at h
  split at h
  · cases h
  · cases h
    exact trivial

/-- Only the worker's start can fail here, which it never does. -/
theorem ends_resume : Script.resume.Ends (failing c) x₀ x := by
  refine ends_playBy lasting_true trivial (E := Internal) ?_ ?_ ?_
  · intro d hd
    obtain rfl := List.mem_singleton.mp hd
    rfl
  · intro d hd y₀ y err _ herr
    obtain rfl := List.mem_singleton.mp hd
    exact internal_of_startWorker herr
  · rintro err y₀ y - herr e ⟨⟩ hbenign
    exact absurd herr hbenign

/-- Source, sink and chain are there, so starting fails only if somebody is not ready. -/
theorem Assembled.start_error (h : Assembled x₀ x) {d : Deed ω}
    (hd : d ∈ activating ++ [.startWorker]) {err : StreamError}
    (herr : (d.step x.pipeline).1 = some err) : Unready err ∨ Internal err := by
  simp only [activating, List.cons_append, List.nil_append, List.mem_cons, List.not_mem_nil,
    or_false] at hd
  rcases hd with rfl | rfl | rfl | rfl | rfl | rfl
  · simp only [Deed.step, requireParts, Option.isNone_eq_false_iff.mpr h.source,
      Option.isNone_eq_false_iff.mpr h.sink, Bool.false_eq_true, if_false] at herr
    split at herr
    · cases herr
      exact .inr trivial
    · cases herr
  · rw [eq_of_unless herr]
    exact .inl trivial
  · rw [eq_of_unless herr]
    exact .inl trivial
  · obtain ⟨name, rfl⟩ := tellStages_error herr
    exact .inl trivial
  · rw [eq_of_unless herr]
    exact .inl trivial
  · exact .inr (internal_of_startWorker herr)

theorem ends_start (hx : Assembled x₀ x) :
    Script.start.Ends (failing (.setStatus .playing)) x₀ x := by
  refine ends_playBy lasting_assembled hx (E := fun err => Unready err ∨ Internal err) ?_ ?_ ?_
  · intro d hd
    simp only [List.mem_cons, List.not_mem_nil, or_false] at hd
    rcases hd with rfl | rfl | rfl | rfl | rfl | rfl
    all_goals rfl
  · exact fun d hd y₀ y err hy herr => hy.start_error hd herr
  · rintro err y₀ y hy herr e ⟨⟩ hbenign
    exact .of_assembled (herr.resolve_right hbenign) hy

/-! Building. -/

section Building

variable {R : Option StreamError → Moment ω → Moment ω → Prop} {k : Option StreamError → Script ω}

theorem ends_prepare {ds : List (Deed ω)} (hds : ∀ d ∈ ds, d.prepares)
    (hx : ∃ s, Stripped s x₀ x)
    (hk : ∀ y₀ y, (∃ s, Stripped s y₀ y) → (k none).Ends R y₀ y)
    (hE : ∀ err y₀ y, (∃ s, Stripped s y₀ y) → Failure err → (k (some err)).Ends R y₀ y) :
    (Script.inOrder ds k).Ends R x₀ x := by
  refine Script.ends_inOrder together_stripped hx ?_ ?_ hk hE
  · intro d hd y₀ y ⟨s, hy⟩
    exact ⟨s, hy.prepared (hds d hd)⟩
  · exact fun d hd y₀ y err _ herr => failure_of_prepares (hds d hd) herr

theorem ends_realize {plan : Plan} (hx : ∃ s, Stripped s x₀ x)
    (hk : ∀ y₀ y, Assembled y₀ y → (k none).Ends R y₀ y)
    (hE : ∀ err y₀ y, (∃ s, Stripped s y₀ y) → Failure err → (k (some err)).Ends R y₀ y) :
    (Script.realize plan k).Ends R x₀ x := by
  refine ends_prepare (by simp [Deed.prepares]) hx (fun y₀ y hy => ?_) hE
  refine Script.ends_look together_stripped hy fun z₀ z hz => ?_
  generalize z.pipeline.actualFormat plan = actual
  show (Script.inOrder ([.configureSink plan, .configureFilter plan] ++ [.assemble plan actual])
    k).Ends R z₀ z
  rw [Script.inOrder_append]
  refine ends_prepare (by simp [Deed.prepares]) hz (fun u₀ u hu => ?_) hE
  refine Script.ends_act together_stripped hu fun v₀ v ⟨s, hv⟩ => ?_
  rcases hv.assemble plan actual with ⟨hok, hassembled⟩ | ⟨err, herr, hfailure, hstripped⟩
  · rw [hok]
    exact hk v₀ _ hassembled
  · rw [herr]
    exact hE err v₀ _ ⟨s, hstripped⟩ hfailure

theorem ends_negotiateAndRealize (hx : ∃ s, Stripped s x₀ x)
    (hk : ∀ y₀ y, Assembled y₀ y → (k none).Ends R y₀ y)
    (hE : ∀ err y₀ y, (∃ s, Stripped s y₀ y) → Failure err → (k (some err)).Ends R y₀ y) :
    (Script.negotiateAndRealize k).Ends R x₀ x := by
  refine Script.ends_look together_stripped hx fun y₀ y hy => ?_
  refine Script.ends_act together_stripped hy fun z₀ z ⟨s, hz⟩ => ?_
  have hcounted (planned : Except NegotiationError Plan) :
      Stripped s z₀ (z.deed (.countNegotiation planned)) := hz.prepared rfl
  rcases negotiate y.pipeline.registry y.pipeline.config.policy y.pipeline.available
    y.pipeline.requested with err | plan
  · exact hE _ z₀ _ ⟨s, hcounted _⟩ trivial
  · exact ends_realize ⟨s, hcounted _⟩ hk hE

/-- Building is refused, fails, or leads to a new chain. -/
theorem ends_build (hx : Untouched Rest x₀ x)
    (hrefused : ∀ err y₀ y, Untouched Rest y₀ y → (∀ c : Call ω, c.Refused err) →
      (k (some err)).Ends R y₀ y)
    (hE : ∀ err y₀ y, Stripped .error y₀ y → Failure err → (k (some err)).Ends R y₀ y)
    (hk : ∀ y₀ y, Assembled y₀ y → (k none).Ends R y₀ y) :
    (Script.build k).Ends R x₀ x := by
  refine Script.ends_look together_untouched_rest hx fun y₀ y hy => ?_
  rcases hactive : y.pipeline.status.isActive with _ | _
  · rw [ensureIdle_of_inactive hactive]
    simp only
    split
    · exact hrefused _ y₀ y hy fun c => by cases c <;> trivial
    · next hsource =>
      split
      · exact hrefused _ y₀ y hy fun c => by cases c <;> trivial
      · next hsink =>
        -- Nobody refuses to build, so nothing is going on.
        have hready : Untouched Ready y₀ y := by
          obtain ⟨rfl, hrest⟩ := hy
          refine ⟨rfl, hrest.resolve_right fun hbusy => ?_,
            Option.isNone_eq_false_iff.mp (eq_false_of_ne_true hsource),
            Option.isNone_eq_false_iff.mp (eq_false_of_ne_true hsink)⟩
          exact Bool.false_ne_true (hactive.symm.trans hbusy.status)
        have htogether : Together (Untouched (ω := ω) Ready) :=
          together_untouched fun _ _ _ => Ready.beside
        refine Script.ends_act htogether hready fun z₀ z hz => ?_
        refine ends_negotiateAndRealize ⟨_, hz.discarded⟩ hk fun err u₀ u hu herr => ?_
        refine Script.ends_act together_stripped hu fun v₀ v ⟨s, hv⟩ => ?_
        exact hE err v₀ _ (hv.enter rfl) herr
  · rw [ensureIdle_of_active hactive]
    exact hrefused _ y₀ y hy fun c => by cases c <;> trivial

end Building

/-! Requests for a status, and all other calls. -/

theorem not_refused_of_failure {err : StreamError} (hc : c = .build ∨ c = .setStatus .playing)
    (h : Failure err) : ¬ c.Refused err := by
  rcases hc with rfl | rfl
  all_goals
    intro hrefused
    cases err with
    | negotiation e =>
      cases e with
      | nothingAvailable =>
        obtain ⟨source, hsource⟩ := hrefused
        cases hsource
      | _ => cases hrefused
    | formatMismatch _ _ _ | stageFailed _ | sourceRejected _ | sinkRejected _ => cases hrefused
    | deviceLost _ | noSource | noSink | invalidState _ _ => cases h

/-- A chain could not be built, whoever asked for it. -/
theorem ends_unbuilt (hc : c = .build ∨ c = .setStatus .playing) {err : StreamError}
    (hx : Stripped .error x₀ x) (herr : Failure err) :
    (Script.done (some err)).Ends (failing c) x₀ x := by
  refine Script.ends_done (fun _ _ m hy => hy.move m) hx ?_
  rintro y₀ y hy e ⟨⟩ -
  exact .of_stripped (not_refused_of_failure hc herr) hc hy

theorem ends_play (hx : Untouched Rest x₀ x) :
    Script.play.Ends (failing (.setStatus .playing)) x₀ x := by
  refine Script.ends_look together_untouched_rest hx fun y₀ y hy => ?_
  split
  · exact ends_resume
  · exact ends_build hy (fun err z₀ z hz herr => ends_refused hz (herr _))
      (fun err z₀ z hz herr => ends_unbuilt (.inr rfl) hz herr) fun z₀ z hz => ends_start hz

/-- Only a request to play can fail after it has done something. -/
theorem ends_setStatus (target : Status) (hx : Untouched Rest x₀ x) :
    (Script.setStatus target).Ends (failing (.setStatus target)) x₀ x := by
  refine Script.ends_look together_untouched_rest hx fun y₀ y hy => ?_
  -- Nothing has to be known on the way to a success.
  have htrue := (lasting_true (ω := ω)).moves
  split
  · exact ends_succeeded htrue trivial
  · cases target with
    | playing => exact ends_play hy
    | paused =>
      simp only
      split
      · exact Script.ends_all htrue trivial (fun _ _ _ _ _ => trivial) fun _ _ _ =>
          ends_succeeded htrue trivial
      · exact ends_refused hy trivial
    | stopped =>
      refine Script.ends_look together_untouched_rest hy fun z₀ z hz => ?_
      split
      · exact ends_halt lasting_true trivial fun _ _ _ => ends_succeeded htrue trivial
      · split
        · exact ends_refused hz trivial
        · split
          · exact Script.ends_act htrue trivial fun _ _ _ => ends_succeeded htrue trivial
          · exact ends_refused hz trivial
    | undefined => exact ends_refused hy trivial
    | error => exact ends_refused hy trivial

/-- A single deed that fails only if it does nothing. -/
theorem ends_deed {d : Deed ω} (hx : Untouched Rest x₀ x)
    (hd : ∀ (p : Pipeline ω) err, (d.step p).1 = some err →
      (d.step p).2 = p ∧ d.seen p = [] ∧ c.Refused err) :
    (Script.act d Script.done).Ends (failing c) x₀ x := by
  refine Script.ends_act together_untouched_rest hx fun y₀ y hy => ?_
  rcases hresult : (d.step y.pipeline).1 with _ | err
  · exact ends_succeeded lasting_true.moves trivial
  · obtain ⟨hstep, hseen, hrefused⟩ := hd y.pipeline err hresult
    have hsame : y.deed d = y := by
      show Moment.mk (d.step y.pipeline).2 (y.history ++ d.seen y.pipeline) = y
      rw [hstep, hseen, List.append_nil]
    rw [hsame]
    exact ends_refused hy hrefused

/-- **Every call fails as it should.** -/
theorem ends_script (hx : Untouched Rest x₀ x) : c.script.Ends (failing c) x₀ x := by
  have hchange {d : Deed ω} (hd : d.configures)
      (hsource : ∀ source, d = .setSource source → c = .setSource source) :
      (Script.act d Script.done).Ends (failing c) x₀ x := by
    refine ends_deed hx fun p err herr => ?_
    obtain ⟨hstep, hseen, -, ⟨_, _, rfl⟩ | ⟨source, hd, rfl⟩⟩ := refused_of_failed hd herr
    · exact ⟨hstep, hseen, trivial⟩
    · exact ⟨hstep, hseen, source, hsource source hd⟩
  cases c with
  | setSource source => exact hchange rfl fun _ h => by cases h; rfl
  | setSink sink => exact hchange rfl fun _ h => by cases h
  | setFilter filter => exact hchange rfl fun _ h => by cases h
  | request s => exact hchange rfl fun _ h => by cases h
  | requestFormat f => exact hchange rfl fun _ h => by cases h
  | setDropIncomplete drop =>
    refine ends_deed hx fun p err herr => ?_
    simp only [Deed.step, setDropIncomplete] at herr ⊢
    split at herr
    · cases herr
      exact ⟨rfl, rfl, trivial⟩
    · cases herr
  | requeue b => exact ends_deed hx fun p err herr => by cases herr
  | build =>
    exact ends_build hx (fun err y₀ y hy herr => ends_refused hy (herr _))
      (fun err y₀ y hy herr => ends_unbuilt (.inl rfl) hy herr)
      fun y₀ y _ => ends_succeeded lasting_true.moves trivial
  | setStatus target => exact ends_setStatus target hx
  | destroy =>
    refine Script.ends_look together_untouched_rest hx fun y₀ y hy => ?_
    have htrue := (lasting_true (ω := ω)).moves
    have hlet (z₀ z : Moment ω) :
        (Script.act .letGo Script.done).Ends (failing (.destroy (ω := ω))) z₀ z :=
      Script.ends_act htrue trivial fun _ _ _ => ends_succeeded htrue trivial
    split
    · exact ends_halt lasting_true trivial fun z₀ z _ => hlet z₀ z
    · exact hlet y₀ y

end Scripts

/-! ### Every schedule -/

/-- **A call that fails has done nothing, unless it was to build; and if the chain could not be
built, only the status and the chain are lost.** What happens before the call is any schedule, and
so is what happens while it runs, but for other calls. -/
theorem fails_of_done (registry : Registry (Blueprint ω)) (config : PipelineConfig) (world : ω)
    (before during : List (Choice ω)) (c : Call ω) {err₀ : Option StreamError} {err : StreamError}
    (hbefore : ((Scene.opening registry config world).run before).todo = .done err₀)
    (hcalls : ∀ c', .call c' ∉ during)
    (hfailed : ((Scene.opening registry config world).run (before ++ .call c :: during)).todo =
      .done (some err)) :
    c.Fails err (((Scene.opening registry config world).run before).moves (movesOf during))
      ((Scene.opening registry config world).run (before ++ .call c :: during)).toMoment := by
  obtain ⟨hrest, -⟩ := stands_between_calls registry config world before hbefore
  obtain ⟨-, hbenign⟩ := stands_between_calls registry config world _ hfailed
  set s := (Scene.opening registry config world).run before with hs
  have hrun : (Scene.opening registry config world).run (before ++ .call c :: during) =
      { s with todo := c.script }.run during := by
    rw [Scene.run, List.foldl_append, List.foldl_cons]
    show ((s.next (.call c)).run during) = _
    obtain ⟨x, todo⟩ := s
    cases hbefore
    rfl
  -- At the outset the call has made no difference yet.
  have hscript : c.script.Ends (failing c) s.toMoment s.toMoment := ends_script ⟨rfl, hrest⟩
  have hends := Scene.ends_run (s := { s with todo := c.script }) hscript hcalls
  rw [hrun] at hfailed ⊢
  rw [hfailed] at hends
  exact hends [] err rfl (hbenign err rfl)

/-! ### A sink that refuses its format -/

def pickySink : Sink Unit := { obligingSink with setFormat _ w := (false, w) }

/-- A source and the picky sink are attached. -/
def upToPicky : List (Choice Unit) :=
  [.call (.setSource (obligingSource mosaicCatalog)), .proceed, .call (.setSink pickySink),
    .proceed]

/-- Control proceeds, and a producer is early. -/
def whilePicky : List (Choice Unit) :=
  List.replicate 5 .proceed ++
    .move (.push { data := [], info := { format := mosaicFormat } }) :: List.replicate 9 .proceed

def afterPicky (later : List (Choice Unit)) : Scene Unit :=
  (Scene.opening Registry.empty {} ()).run
    ((upToPicky ++ .call (.setStatus .playing) :: whilePicky) ++ later)

/-- The chain is not built, and then the pipeline refuses to be stopped. -/
theorem fails_picky :
    (afterPicky []).todo = .done (some (.sinkRejected (.format mosaicFormat))) ∧
      Stripped .error
        (((Scene.opening Registry.empty {} ()).run upToPicky).moves (movesOf whilePicky))
        (afterPicky []).toMoment ∧
      (afterPicky [.call (.setStatus .stopped), .proceed, .proceed]).todo =
        .done (some (.invalidState .stop .error)) ∧
      (afterPicky [.call (.setStatus .stopped), .proceed, .proceed]).toMoment =
        (afterPicky []).toMoment := by
  have hbefore : ((Scene.opening Registry.empty {} ()).run upToPicky).todo = .done none := rfl
  have hunbuilt : (afterPicky []).todo = .done (some (.sinkRejected (.format mosaicFormat))) := rfl
  have hrefused : (afterPicky [.call (.setStatus .stopped), .proceed, .proceed]).todo =
      .done (some (.invalidState .stop .error)) := rfl
  have hplaying := fails_of_done Registry.empty {} () upToPicky whilePicky _ hbefore
    (fun c h => by simp [whilePicky] at h) hunbuilt
  have hstopping := fails_of_done Registry.empty {} () _ [.proceed, .proceed] _ hunbuilt
    (fun c h => by simp at h) hrefused
  refine ⟨hunbuilt, ?_, hrefused, hstopping.refused trivial⟩
  exact (hplaying.playing rfl id).resolve_right fun h => h.1

end CameraStream.Pipeline
