import CameraStream.Proofs.Pipeline.Move
import Mathlib.Data.List.Forall2

/-!
# The books of buffers

A buffer that is pushed is either accepted or comes back, as it was, to the one who pushed it or to
the source. What becomes of an accepted buffer is its `Journey`: the worker takes it and drops it, or
shows it to the sink, which keeps it or hands it back; or it is still waiting when the pipeline
stops. Parts may change the frame in a buffer, but its memory stays the same on the whole journey.

`Accounted` compares a pipeline with what was seen of it: the accepted buffers are, in the order in
which they were accepted, those whose journeys are over, then the one in the worker's hands, then those
that wait; and the events of buffers are those of the journeys, one journey after the other. So no
buffer is lost, none goes two ways, and the sink is shown buffers in the order in which they were
accepted (**`Accounted.inOrder`**).
-/

namespace CameraStream.Pipeline

variable {ω : Type} {p q : Pipeline ω}

/-! ### Journeys -/

/-- The way of an accepted buffer to its end. -/
inductive Journey where
  /-- It was still waiting when everything stopped, and went to the source. -/
  | cleared (b : Buffer)
  /-- It was taken and went to the source without having been shown to the sink. -/
  | dropped (b back : Buffer)
  /-- It was shown to the sink, which handed it back, and went to the source. -/
  | handedBack (b shown back : Buffer)
  /-- It was shown to the sink, which kept it. -/
  | kept (b shown : Buffer)
deriving DecidableEq, Repr

namespace Journey

/-- The buffer as it was accepted. -/
def origin : Journey → Buffer
  | cleared b | dropped b _ | handedBack b _ _ | kept b _ => b

/-- What is seen of it after it was accepted. -/
def events : Journey → List Event
  | cleared b => [.requeued b]
  | dropped b back => [.fetched b, .requeued back]
  | handedBack b shown back => [.fetched b, .shown shown, .requeued back]
  | kept b shown => [.fetched b, .shown shown, .kept shown]

/-- It is the same memory all the way. -/
def SameSlot : Journey → Prop
  | cleared _ => True
  | dropped b back => back.slot = b.slot
  | handedBack b shown back => shown.slot = b.slot ∧ back.slot = b.slot
  | kept b shown => shown.slot = b.slot

end Journey

/-- What the worker has in its hands, as it was accepted, and what was seen of it so far. -/
inductive InHand : Worker → List Buffer → List Event → Prop
  | absent : InHand .absent [] []
  | waiting : InHand .waiting [] []
  | fetched (b : Buffer) : InHand (.fetched b) [b] [.fetched b]
  | filtered {b b' : Buffer} (slot : b'.slot = b.slot) : InHand (.filtered b') [b] [.fetched b]
  | processed {b b' : Buffer} (slot : b'.slot = b.slot) : InHand (.processed b') [b] [.fetched b]
  | dropped {b b' : Buffer} (slot : b'.slot = b.slot) : InHand (.returning b') [b] [.fetched b]
  | handedBack {b shown b' : Buffer} (slot : shown.slot = b.slot) (slot' : b'.slot = b.slot) :
      InHand (.returning b') [b] [.fetched b, .shown shown]

/-! ### The books -/

/-- The buffers that were accepted, in order. -/
def accepted (h : List Event) : List Buffer :=
  h.filterMap fun
    | .pushed b _ .accepted => some b
    | _ => none

/-- An event of an accepted buffer. -/
def Event.isHandling : Event → Bool
  | .fetched _ | .shown _ | .kept _ | .requeued _ => true
  | _ => false

def handling (h : List Event) : List Event := h.filter Event.isHandling

structure Accounted (p : Pipeline ω) (h : List Event) : Prop where
  fair : ∀ b sourced o, .pushed b sourced o ∈ h → o.Fair b sourced
  journeys : ∃ (journeys : List Journey) (taken : List Buffer) (soFar : List Event),
    (∀ j ∈ journeys, j.SameSlot) ∧ InHand p.worker taken soFar ∧
      accepted h = journeys.map Journey.origin ++ taken ++ p.queue.buffers ∧
      handling h = journeys.flatMap Journey.events ++ soFar

theorem accepted_append (h h' : List Event) : accepted (h ++ h') = accepted h ++ accepted h' :=
  List.filterMap_append

theorem handling_append (h h' : List Event) : handling (h ++ h') = handling h ++ handling h' :=
  List.filter_append ..

/-- The buffers that the sink was shown, in order. -/
def shown (h : List Event) : List Buffer :=
  h.filterMap fun
    | .shown b => some b
    | _ => none

/-- Buffers that are some of others, in the same order, each in the same memory. -/
abbrev InOrder : List Buffer → List Buffer → Prop := List.SublistForall₂ fun b b' => b.slot = b'.slot

/-- An event that the books are about. -/
def Event.isBooked : Event → Bool
  | .pushed _ _ _ | .fetched _ | .shown _ | .kept _ | .requeued _ => true
  | _ => false

theorem accepted_of_unbooked {h : List Event} (hh : ∀ e ∈ h, e.isBooked = false) :
    accepted h = [] := by
  refine List.filterMap_eq_nil_iff.mpr fun e he => ?_
  have hbooked := hh e he
  cases e with
  | pushed b sourced o => cases hbooked
  | _ => rfl

theorem handling_of_unbooked {h : List Event} (hh : ∀ e ∈ h, e.isBooked = false) :
    handling h = [] := by
  refine List.filter_eq_nil_iff.mpr fun e he => ?_
  have hbooked := hh e he
  cases e with
  | pushed _ _ _ | fetched _ | shown _ | kept _ | requeued _ => cases hbooked
  | _ => exact Bool.false_ne_true

namespace Accounted

variable {h h' : List Event}

theorem fair_append (hx : Accounted p h) (hfair : ∀ b sourced o, .pushed b sourced o ∈ h' →
    o.Fair b sourced) : ∀ b sourced o, .pushed b sourced o ∈ h ++ h' → o.Fair b sourced := by
  intro b sourced o ho
  rcases List.mem_append.mp ho with ho | ho
  · exact hx.fair b sourced o ho
  · exact hfair b sourced o ho

/-- What is not in the books does not change them. -/
theorem still (hx : Accounted p h) (hworker : q.worker = p.worker)
    (hbuffers : q.queue.buffers = p.queue.buffers) (hh' : ∀ e ∈ h', e.isBooked = false) :
    Accounted q (h ++ h') := by
  refine ⟨hx.fair_append fun b sourced o ho => ?_, ?_⟩
  · exact nomatch hh' _ ho
  · rw [accepted_append, handling_append, accepted_of_unbooked hh', handling_of_unbooked hh',
      List.append_nil, List.append_nil, hworker, hbuffers]
    exact hx.journeys

theorem still_nil (hx : Accounted p h) (hworker : q.worker = p.worker)
    (hbuffers : q.queue.buffers = p.queue.buffers) : Accounted q h := by
  have hq : Accounted q (h ++ []) := hx.still hworker hbuffers (List.forall_mem_nil _)
  rwa [List.append_nil] at hq

end Accounted

/-! ### Entries -/

namespace Accounted

variable {h : List Event}

/-- Nothing new was accepted, and what the worker has in its hands is further on its journey. -/
theorem handled (hx : Accounted p h) {w : Worker} (hands : p.worker = w)
    {es : List Event} (hes : ∀ e ∈ es, e.isHandling = true)
    (hjourneys : ∀ taken soFar, InHand w taken soFar →
      ∃ (ended : List Journey) (taken' : List Buffer) (soFar' : List Event),
        (∀ j ∈ ended, j.SameSlot) ∧ InHand q.worker taken' soFar' ∧
          taken ++ p.queue.buffers = ended.map Journey.origin ++ taken' ++ q.queue.buffers ∧
          soFar ++ es = ended.flatMap Journey.events ++ soFar') : Accounted q (h ++ es) := by
  have haccepted : accepted es = [] := by
    refine List.filterMap_eq_nil_iff.mpr fun e he => ?_
    have hhandling := hes e he
    cases e with
    | pushed _ _ _ => cases hhandling
    | _ => rfl
  have hhandling : handling es = es := List.filter_eq_self.mpr hes
  obtain ⟨journeys, taken, soFar, hsame, hhand, horder, hevents⟩ := hx.journeys
  obtain ⟨ended, taken', soFar', hsame', hhand', horder', hevents'⟩ :=
    hjourneys taken soFar (hands ▸ hhand)
  have hfair : ∀ b sourced o, Event.pushed b sourced o ∈ es → o.Fair b sourced := by
    intro b sourced o ho
    cases hes _ ho
  refine ⟨hx.fair_append hfair, journeys ++ ended, taken', soFar', ?_, hhand', ?_, ?_⟩
  · exact List.forall_mem_append.mpr ⟨hsame, hsame'⟩
  · rw [accepted_append, haccepted, List.append_nil, horder, List.append_assoc, horder',
      List.map_append, List.append_assoc, List.append_assoc, List.append_assoc]
  · rw [handling_append, hhandling, hevents, List.append_assoc, hevents', List.flatMap_append,
      List.append_assoc]

/-- What the worker has in its hands is further on its journey, and nobody sees it. -/
theorem handled_unseen (hx : Accounted p h) {w : Worker} (hands : p.worker = w)
    (hbuffers : q.queue.buffers = p.queue.buffers)
    (hhand : ∀ taken soFar, InHand w taken soFar → InHand q.worker taken soFar) :
    Accounted q (h ++ []) := by
  refine hx.handled hands (List.forall_mem_nil _) fun taken soFar htaken => ?_
  refine ⟨[], taken, soFar, List.forall_mem_nil _, hhand taken soFar htaken, ?_, List.append_nil _⟩
  rw [hbuffers]
  rfl

/-- A buffer that is accepted waits behind all others. -/
theorem accepts (hx : Accounted p h) {b : Buffer} {sourced : Bool} (hsourced : sourced = true)
    (hworker : q.worker = p.worker) (hbuffers : q.queue.buffers = p.queue.buffers ++ [b]) :
    Accounted q (h ++ [.pushed b sourced .accepted]) := by
  obtain ⟨journeys, taken, soFar, hsame, hhand, horder, hhandling⟩ := hx.journeys
  refine ⟨hx.fair_append fun b' sourced' o ho => ?_, journeys, taken, soFar, hsame, hworker ▸ hhand, ?_,
    ?_⟩
  · cases List.mem_singleton.mp ho
    exact hsourced
  · rw [accepted_append, hbuffers, horder, ← List.append_assoc]
    rfl
  · rw [handling_append, hhandling]
    exact List.append_nil _

/-- A buffer that is not accepted comes back. -/
theorem refuses (hx : Accounted p h) {b : Buffer} {sourced : Bool} {o : Outcome} (ho : o ≠ .accepted)
    (hfair : o.Fair b sourced) (hworker : q.worker = p.worker)
    (hbuffers : q.queue.buffers = p.queue.buffers) : Accounted q (h ++ [.pushed b sourced o]) := by
  obtain ⟨journeys, taken, soFar, hsame, hhand, horder, hhandling⟩ := hx.journeys
  refine ⟨hx.fair_append fun b' sourced' o' ho' => ?_, journeys, taken, soFar, hsame, hworker ▸ hhand,
    ?_, ?_⟩
  · cases List.mem_singleton.mp ho'
    exact hfair
  · rw [accepted_append, hbuffers, horder]
    cases o with
    | accepted => exact absurd rfl ho
    | handedBack _ | sentHome _ | vanished => exact List.append_nil _
  · rw [handling_append, hhandling]
    exact List.append_nil _

end Accounted

/-! ### The order in which the sink is shown buffers -/

theorem InOrder.append {l₁ l₂ l₃ l₄ : List Buffer} (h : InOrder l₁ l₂) (h' : InOrder l₃ l₄) :
    InOrder (l₁ ++ l₃) (l₂ ++ l₄) := by
  induction h with
  | @nil l =>
    induction l with
    | nil => exact h'
    | cons _ _ ih => exact .cons_right ih
  | cons hslot _ ih => exact .cons hslot ih
  | cons_right _ ih => exact .cons_right ih

theorem shown_append (h h' : List Event) : shown (h ++ h') = shown h ++ shown h' :=
  List.filterMap_append

theorem shown_handling (h : List Event) : shown (handling h) = shown h := by
  induction h with
  | nil => rfl
  | cons e rest ih =>
    cases e with
    | shown b => exact congrArg (b :: ·) ih
    | _ => exact ih

theorem Journey.inOrder {j : Journey} (h : j.SameSlot) : InOrder (shown j.events) [j.origin] := by
  cases j with
  | cleared b => exact .nil
  | dropped b back => exact .nil
  | handedBack b shown back => exact .cons h.1 .nil
  | kept b shown => exact .cons h .nil

theorem InHand.inOrder {w : Worker} {taken : List Buffer} {soFar : List Event}
    (h : InHand w taken soFar) : InOrder (shown soFar) taken := by
  cases h with
  | absent | waiting | fetched _ | filtered _ | processed _ | dropped _ => exact .nil
  | handedBack slot _ => exact .cons slot .nil

/-- **The sink is shown buffers in the order in which they were accepted.** -/
theorem Accounted.inOrder {h : List Event} (hx : Accounted p h) : InOrder (shown h) (accepted h) := by
  obtain ⟨journeys, taken, soFar, hsame, hhand, horder, hhandling⟩ := hx.journeys
  have hjourneys : InOrder (shown (journeys.flatMap Journey.events)) (journeys.map Journey.origin) := by
    -- Each journey adds one accepted buffer, and one that was shown or none.
    clear horder hhandling
    induction journeys with
    | nil => exact .nil
    | cons j rest ih =>
      rw [List.forall_mem_cons] at hsame
      rw [List.flatMap_cons, shown_append]
      exact (Journey.inOrder hsame.1).append (ih hsame.2)
  -- What waits was not shown yet.
  have hall := (hjourneys.append hhand.inOrder).append (.nil (l := p.queue.buffers))
  rw [← shown_handling, hhandling, horder, shown_append]
  rwa [List.append_nil] at hall

end CameraStream.Pipeline
