import CameraStream.Proofs.Chain
import CameraStream.Proofs.Pipeline.Script

/-!
# What stays beside what changes

Most of what happens to a pipeline leaves alone what it is made of. Two pipelines are `Alike` if they
are made of the same parts, whatever their status, their worker, their queue and the world. One is
`Beside` the other if control would not notice the difference: also the status is the same, there is
a worker or there is none, and what waits while inactive goes on waiting.

Every move leaves a pipeline beside itself (`beside_step`), and so does telling a part its status.
-/

namespace CameraStream

variable {ω : Type}

/-- An assembly at a later time: the plan stays, the chain goes on. -/
structure Assembly.Continues (a a' : Assembly ω) : Prop where
  plan : a'.plan = a.plan
  chain : a.chain.Continues a'.chain

namespace Pipeline

/-- Made of the same parts. -/
structure Alike (p q : Pipeline ω) : Prop where
  config : q.config = p.config
  registry : q.registry = p.registry
  attachment : q.attachment = p.attachment
  sink : q.sink = p.sink
  filter : q.filter = p.filter
  requested : q.requested = p.requested
  assembly : Option.Rel Assembly.Continues p.assembly q.assembly

theorem assembly_refl (a : Option (Assembly ω)) : Option.Rel Assembly.Continues a a := by
  cases a with
  | none => exact .none
  | some a => exact .some ⟨rfl, .refl _⟩

namespace Alike

variable {p q r : Pipeline ω}

/-- Queue, worker and world are not what a pipeline is made of. -/
theorem refl_of (p : Pipeline ω) (queue : Queue) (surroundings : Surroundings ω) (worker : Worker) :
    p.Alike { p with queue, surroundings, worker } :=
  ⟨rfl, rfl, rfl, rfl, rfl, rfl, assembly_refl _⟩

theorem refl (p : Pipeline ω) : p.Alike p := refl_of p p.queue p.surroundings p.worker

theorem trans (h : p.Alike q) (h' : q.Alike r) : p.Alike r where
  config := h'.config.trans h.config
  registry := h'.registry.trans h.registry
  attachment := h'.attachment.trans h.attachment
  sink := h'.sink.trans h.sink
  filter := h'.filter.trans h.filter
  requested := h'.requested.trans h.requested
  assembly := by
    have hq := h.assembly
    have hr := h'.assembly
    generalize p.assembly = a, q.assembly = b, r.assembly = c at hq hr
    cases hq with
    | none => exact hr
    | some hab =>
      cases hr with
      | some hbc => exact .some ⟨hbc.plan.trans hab.plan, hab.chain.trans hbc.chain⟩

theorem isSome_assembly (h : p.Alike q) : q.assembly.isSome = p.assembly.isSome := by
  have hc := h.assembly
  generalize p.assembly = a, q.assembly = b at hc ⊢
  cases hc with
  | none => rfl
  | some _ => rfl

theorem assembly_eq_none (h : p.Alike q) : q.assembly = none ↔ p.assembly = none := by
  rw [← Option.isNone_iff_eq_none, ← Option.isNone_iff_eq_none, ← Option.not_isSome,
    ← Option.not_isSome, h.isSome_assembly]

/-- The assembly of the later pipeline comes from one of the earlier. -/
theorem of_assembly (h : p.Alike q) {b : Assembly ω} (hb : q.assembly = some b) :
    ∃ a, p.assembly = some a ∧ a.Continues b := by
  have hc := h.assembly
  rw [hb] at hc
  generalize p.assembly = a at hc
  cases hc with
  | some hab => exact ⟨_, rfl, hab⟩

theorem available (h : p.Alike q) : q.available = p.available := by
  unfold Pipeline.available
  rw [h.attachment]

end Alike

theorem alike_enter (p : Pipeline ω) (s : Status) : p.Alike (p.enter s) := .refl_of ..

/-- The status of the chain, if there is one. -/
def chainStatus (p : Pipeline ω) : Option Status := p.assembly.map (·.chain.status)

/-- Not to be told apart by control. -/
structure Beside (p q : Pipeline ω) : Prop extends Alike p q where
  status : q.status = p.status
  chainStatus : q.chainStatus = p.chainStatus
  worker : q.worker = .absent ↔ p.worker = .absent
  waiting : p.status.isActive = false → q.queue.buffers = p.queue.buffers

namespace Beside

variable {p q r : Pipeline ω}

theorem refl_of (p : Pipeline ω) (surroundings : Surroundings ω) : p.Beside { p with surroundings } :=
  ⟨.refl_of p p.queue surroundings p.worker, rfl, rfl, .rfl, fun _ => rfl⟩

theorem refl (p : Pipeline ω) : p.Beside p := refl_of p p.surroundings

theorem trans (h : p.Beside q) (h' : q.Beside r) : p.Beside r where
  toAlike := h.toAlike.trans h'.toAlike
  status := h'.status.trans h.status
  chainStatus := h'.chainStatus.trans h.chainStatus
  worker := h'.worker.trans h.worker
  waiting hidle := by
    have hq : q.status.isActive = false := by rw [h.status, hidle]
    exact (h'.waiting hq).trans (h.waiting hidle)

/-- The worker goes on to something else. -/
theorem of_worker {w w' : Worker} (hands : p.worker = w) (hw : w ≠ .absent) (hw' : w' ≠ .absent)
    (surroundings : Surroundings ω) : p.Beside { p with surroundings, worker := w' } where
  toAlike := .refl_of p p.queue surroundings w'
  status := rfl
  chainStatus := rfl
  worker := iff_of_false hw' (hands ▸ hw)
  waiting _ := rfl

/-- So does the chain. -/
theorem of_chain {w w' : Worker} (hands : p.worker = w) (hw : w ≠ .absent) (hw' : w' ≠ .absent)
    {a : Assembly ω} (hassembly : p.assembly = some a) {ss : List (Stage ω)}
    (hss : List.Forall₂ Stage.Continues a.chain.stages ss) (surroundings : Surroundings ω) :
    p.Beside { p with
      assembly := some { a with chain := { a.chain with stages := ss } }
      surroundings
      worker := w' } where
  toAlike := by
    refine ⟨rfl, rfl, rfl, rfl, rfl, rfl, ?_⟩
    rw [hassembly]
    exact .some ⟨rfl, rfl, rfl, hss⟩
  status := rfl
  chainStatus := by
    rw [Pipeline.chainStatus, Pipeline.chainStatus, hassembly]
    rfl
  worker := iff_of_false hw' (hands ▸ hw)
  waiting _ := rfl

/-- The queue only matters to control while the pipeline is inactive. -/
theorem of_active (hactive : p.status.isActive = true) {queue : Queue}
    (hstatus : queue.status = p.queue.status) (surroundings : Surroundings ω) :
    p.Beside { p with queue, surroundings } where
  toAlike := .refl_of p queue surroundings p.worker
  status := hstatus
  chainStatus := rfl
  worker := .rfl
  waiting hinactive := by
    rw [hactive] at hinactive
    cases hinactive

theorem of_buffers {queue : Queue} (hstatus : queue.status = p.queue.status)
    (hbuffers : queue.buffers = p.queue.buffers) (surroundings : Surroundings ω) :
    p.Beside { p with queue, surroundings } where
  toAlike := .refl_of p queue surroundings p.worker
  status := hstatus
  chainStatus := rfl
  worker := .rfl
  waiting _ := hbuffers

end Beside

/-! ### Buffers that come and go -/

theorem beside_withWorld (p : Pipeline ω) (w : ω) : p.Beside (p.withWorld w) := .refl_of p _

theorem beside_deliver (p : Pipeline ω) (b : Buffer) : p.Beside (p.deliver b).2 := by
  rcases hactive : p.status.isActive with _ | _
  · obtain ⟨surroundings, heq⟩ := deliver_of_inactive hactive b
    rw [heq]
    exact .of_buffers (by rfl) (by rfl) surroundings
  · obtain ⟨surroundings, heq⟩ := deliver_of_active hactive b
    rw [heq]
    exact .of_active hactive (by rfl) surroundings

theorem Beside.pushEvent {p q : Pipeline ω} (h : p.Beside q) (b : Buffer) :
    q.pushEvent b = p.pushEvent b := by
  have hback : (q.deliver b).1 = (p.deliver b).1 := by
    rcases hp : p.status.isActive with _ | _
    · obtain ⟨_, hpb⟩ := deliver_of_inactive hp b
      obtain ⟨_, hqb⟩ := deliver_of_inactive (h.status.symm ▸ hp) b
      rw [hpb, hqb]
    · obtain ⟨_, hpb⟩ := deliver_of_active hp b
      obtain ⟨_, hqb⟩ := deliver_of_active (h.status.symm ▸ hp) b
      rw [hpb, hqb]
  rw [Pipeline.pushEvent, Pipeline.pushEvent, hback, h.attachment]

theorem beside_requeue (p : Pipeline ω) (b : Buffer) : p.Beside (p.requeue b) := by
  unfold requeue
  split
  · exact beside_withWorld p _
  · exact .refl p

theorem beside_requeueAll (p : Pipeline ω) (bs : List Buffer) : p.Beside (p.requeueAll bs) := by
  induction bs generalizing p with
  | nil => exact .refl p
  | cons b bs ih => exact (beside_requeue p b).trans (ih _)

theorem beside_deliverFrom (source : Source ω) (p : Pipeline ω) (b : Buffer) :
    p.Beside (deliverFrom source p b) :=
  (beside_deliver p b).trans (beside_withWorld _ _)

/-! ### Moves -/

/-- **No move is noticed by control.** -/
theorem beside_step (m : Move ω) (p : Pipeline ω) : p.Beside (m.step p) := by
  have hdoes := does m p
  generalize m.step p = q, m.seen p = seen at hdoes ⊢
  cases hdoes with
  | nothing _ | foundNone _ => exact .refl p
  | @fetched b _ hands playing _ =>
    have hfetched : p.Beside { p with worker := .fetched b } :=
      .of_worker hands (by nofun) (by nofun) p.surroundings
    refine hfetched.trans (.of_active ?_ (by rfl) p.surroundings)
    exact congrArg Status.isActive playing
  | skipped hands surroundings | filtered hands surroundings | stopped hands surroundings
  | kept hands surroundings | handedBack hands _ surroundings | shownNobody hands _ surroundings
  | requeued hands surroundings | givenNobody hands _ surroundings =>
    exact .of_worker hands (by nofun) (by nofun) surroundings
  | failed hands assembly run surroundings =>
    exact .of_chain hands (by nofun) (by nofun) assembly (run ▸ Chain.continues_run ..) surroundings
  | processed hands assembly run _ =>
    exact .of_chain hands (by nofun) (by nofun) assembly (run ▸ Chain.continues_run ..) _
  | accepted _ active surroundings => exact .of_active active (by rfl) surroundings
  | refused _ _ _ surroundings => exact .of_buffers (by rfl) (by rfl) surroundings
  | turned _ surroundings => exact .refl_of p surroundings

theorem beside_moves (x : Moment ω) (ms : List (Move ω)) :
    x.pipeline.Beside (x.moves ms).pipeline := by
  induction ms generalizing x with
  | nil => exact .refl _
  | cons m ms ih => exact (beside_step m x.pipeline).trans (ih (x.move m))

/-! ### Commands -/

/-- The deed of telling a part a status. -/
def Deed.tell (s : Status) : Part → Deed ω
  | .source => .tellSource s
  | .sink => .tellSink s
  | .filter => .tellFilter s

theorem beside_tell (s : Status) (part : Part) (p : Pipeline ω) :
    p.Beside ((Deed.tell s part).step p).2 := by
  cases part with
  | source =>
    simp only [Deed.tell, Deed.step, commandSource]
    split
    · exact .refl p
    · next a _ =>
      -- The source delivers what it has in its hands.
      generalize (a.source.setStatus s p.world).2.1 = given
      have hgiven (given : List Buffer) (q : Pipeline ω) :
          q.Beside (given.foldl (deliverFrom a.source) q) := by
        induction given generalizing q with
        | nil => exact .refl q
        | cons b rest ih => exact (beside_deliverFrom a.source q b).trans (ih _)
      exact (beside_withWorld p _).trans (hgiven given _)
  | sink =>
    simp only [Deed.tell, Deed.step, commandSink]
    split
    · exact .refl p
    · exact beside_withWorld p _
  | filter => exact beside_withWorld p _

theorem alike_commandChain (s : Status) (p : Pipeline ω) : p.Alike (p.commandChain s).2 := by
  unfold commandChain
  split
  · exact .refl p
  · next a hassembly =>
    refine ⟨rfl, rfl, rfl, rfl, rfl, rfl, ?_⟩
    rw [hassembly]
    exact .some ⟨rfl, a.chain.continues_setStatus s p.world⟩

/-- The end of the worker leaves all else as moves do. -/
theorem alike_joinWorker (p : Pipeline ω) : p.Alike p.joinWorker := by
  have h : p.Alike (Moment.moves ⟨p, []⟩ Move.work).pipeline := (beside_moves ⟨p, []⟩ Move.work).toAlike
  rw [joinWorker_eq p []]
  exact h.trans (.refl_of _ _ _ _)

end Pipeline
end CameraStream
