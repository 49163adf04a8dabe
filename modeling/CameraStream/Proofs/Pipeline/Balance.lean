import CameraStream.Proofs.Pipeline.Figures
import CameraStream.Proofs.Pipeline.Representation

/-!
# The balance of dropped buffers

Every buffer that is pushed should end up in one of three places: the sink was handed it, it was
counted as dropped, or it still waits. This balance is kept at all times for all buffers but two kinds.
One is the buffer that the worker is at work on. The others are those **cleared**: they were still
waiting when everything stopped, and went to the source without the worker ever having taken them.
They never reached the sink, and are counted nowhere (**`balance_run`**).

So while the worker is not at work, the balance holds exactly if no buffer was cleared yet.
-/

namespace CameraStream.Pipeline

variable {ω : Type} {p : Pipeline ω}

/-! ### Cleared buffers -/

/-- The buffers that went to the source without having been taken, while the worker has one in its
hands at the beginning or has none. -/
def untakenFrom : Bool → List Event → List Buffer
  | _, [] => []
  | _, .fetched _ :: h => untakenFrom true h
  | _, .kept _ :: h => untakenFrom false h
  | true, .requeued _ :: h => untakenFrom false h
  | false, .requeued b :: h => b :: untakenFrom false h
  | busy, _ :: h => untakenFrom busy h

/-- The buffers that went to the source without having been taken by the worker. -/
def untaken (h : List Event) : List Buffer := untakenFrom false h

/-- A buffer was pushed, with whatever outcome. -/
def Event.isPush : Event → Bool
  | .pushed _ _ _ => true
  | _ => false

theorem countP_isPush (h : List Event) :
    h.countP Event.isPush = (accepted h).length + h.countP Event.isRefusal := by
  induction h with
  | nil => rfl
  | cons e rest ih =>
    have haccepted : accepted (e :: rest) = accepted [e] ++ accepted rest :=
      accepted_append [e] rest
    rw [haccepted, List.length_append, List.countP_cons, List.countP_cons, ih]
    cases e with
    | pushed b sourced o =>
      cases o with
      | accepted =>
        show _ + 1 = 1 + _ + (_ + 0)
        omega
      | handedBack _ | sentHome _ | vanished =>
        show _ + 1 = 0 + _ + (_ + 1)
        omega
    | _ =>
      show _ + 0 = 0 + _ + (_ + 0)
      omega

/-! Both can be read off what happened to accepted buffers alone. -/

theorem untakenFrom_handling (busy : Bool) (h : List Event) :
    untakenFrom busy (handling h) = untakenFrom busy h := by
  induction h generalizing busy with
  | nil => rfl
  | cons e rest ih =>
    cases e with
    | requeued b =>
      cases busy with
      | true => exact ih false
      | false => exact congrArg (b :: ·) (ih false)
    | _ => cases busy <;> exact ih _

theorem countP_isFetch_handling (h : List Event) :
    (handling h).countP Event.isFetch = h.countP Event.isFetch := by
  rw [handling, List.countP_filter]
  apply List.countP_congr
  intro e _
  cases e <;> simp [Event.isFetch, Event.isHandling]

/-- Of a journey that is over, the worker took the buffer, or it was cleared. -/
theorem Journey.taken_or_cleared (j : Journey) (h : List Event) :
    (j.events ++ h).countP Event.isFetch + (untaken (j.events ++ h)).length =
      h.countP Event.isFetch + (untaken h).length + 1 := by
  rw [List.countP_append]
  cases j with
  | cleared b =>
    show 0 + _ + ((untaken h).length + 1) = _
    omega
  | dropped b back | handedBack b shown back | kept b shown =>
    show 1 + _ + (untaken h).length = _
    omega

/-- A buffer in the hands of the worker was taken. -/
theorem InHand.taken {w : Worker} {taken : List Buffer} {soFar : List Event}
    (h : InHand w taken soFar) :
    soFar.countP Event.isFetch = taken.length ∧ untaken soFar = [] := by
  cases h with
  | absent | waiting | fetched _ | filtered _ | processed _ | dropped _ | handedBack _ _ =>
    exact ⟨rfl, rfl⟩

/-- So it is with journeys in a row, ahead of what the worker has in its hands. -/
theorem InHand.taken_or_cleared {w : Worker} {taken : List Buffer} {soFar : List Event}
    (h : InHand w taken soFar) (journeys : List Journey) :
    (journeys.flatMap Journey.events ++ soFar).countP Event.isFetch +
      (untaken (journeys.flatMap Journey.events ++ soFar)).length = journeys.length + taken.length := by
  induction journeys with
  | nil =>
    obtain ⟨htaken, hnone⟩ := h.taken
    show soFar.countP Event.isFetch + (untaken soFar).length = 0 + taken.length
    rw [htaken, hnone]
    exact Nat.add_comm ..
  | cons j rest ih =>
    rw [List.flatMap_cons, List.append_assoc, j.taken_or_cleared, ih, List.length_cons]
    omega

/-- **Every accepted buffer was taken by the worker, was cleared, or waits.** -/
theorem Accounted.length_accepted {h : List Event} (hx : Accounted p h) :
    (accepted h).length = h.countP Event.isFetch + (untaken h).length + p.queue.depth := by
  obtain ⟨journeys, taken, soFar, -, hhand, horder, hevents⟩ := hx.journeys
  have hall := hhand.taken_or_cleared journeys
  rw [← hevents, countP_isFetch_handling, untaken, untakenFrom_handling] at hall
  rw [horder, List.length_append, List.length_append, List.length_map, ← hall]
  rfl

/-! ### The balance -/

/-- **Dropped buffers are counted, but for those that were cleared.** Every buffer that was refused or
taken is counted once, as dropped or as delivered, unless the worker is still at work on it. Together
with those that wait and those that were cleared these are all that were pushed; so with nothing in
work the balance holds exactly if none was cleared. -/
theorem balance_run (registry : Registry (Blueprint ω)) (config : PipelineConfig) (world : ω)
    (schedule : List (Choice ω)) :
    let scene := (Scene.opening registry config world).run schedule
    let figures := scene.pipeline.metrics.figures scene.pipeline.config.name
    figures.pushed = (accepted scene.history).length ∧
    figures.delivered = (shown scene.history).length ∧
    figures.delivered + figures.dropped + inWork scene.pipeline.worker =
      scene.history.countP Event.isRefusal + scene.history.countP Event.isFetch ∧
    scene.history.countP Event.isPush =
      figures.delivered + figures.dropped + inWork scene.pipeline.worker +
        scene.pipeline.queue.depth + (untaken scene.history).length ∧
    (scene.pipeline.worker = .absent ∨ scene.pipeline.worker = .waiting →
      (scene.history.countP Event.isPush =
        figures.delivered + figures.dropped + scene.pipeline.queue.depth ↔
          untaken scene.history = [])) := by
  intro scene figures
  have hbalanced : Balanced (create registry config world) scene.toMoment :=
    balanced_run registry config world schedule
  have hfigures : figures = scene.pipeline.figures := figures_metrics scene.pipeline
  have haccepted := hbalanced.length_accepted
  have hpushes := countP_isPush scene.history
  obtain ⟨hpushed, hdelivered, hended⟩ := hbalanced.counts
  -- A pipeline begins with all figures zero and no worker.
  rw [← hfigures] at hpushed hdelivered hended
  change _ = 0 + _ at hpushed
  change _ = 0 + _ at hdelivered
  change _ = 0 + 0 + 0 + _ + _ at hended
  refine ⟨by omega, by omega, by omega, by omega, ?_⟩
  intro hhands
  have hnone : inWork scene.pipeline.worker = 0 := by
    rcases hhands with h | h <;> rw [h] <;> rfl
  rw [← List.length_eq_zero_iff]
  omega

/-- A mosaic without data. -/
def leftOver : Buffer := { data := [], info := { format := mosaicFormat } }

/-- A pipeline pauses, accepts a buffer, and is stopped with the buffer still waiting. -/
def upToStopped : List (Choice Unit) :=
  upToPlaying ++ .call (.setStatus .paused) :: List.replicate 3 .proceed ++
    [.move (.push leftOver), .call (.setStatus .stopped)] ++ List.replicate 9 .proceed

def stopping : Scene Unit := (Scene.opening Registry.empty {} ()).run upToStopped

/-- **A buffer that was cleared is counted nowhere.** It was accepted, it never reached the sink, and
it waits no more. -/
theorem cleared_by_stopping :
    stopping.todo = .done none ∧ stopping.pipeline.worker = .absent ∧
      untaken stopping.history = [leftOver] ∧
      stopping.pipeline.metrics.figures stopping.pipeline.config.name = ⟨1, 0, 0⟩ ∧
      stopping.pipeline.queue.depth = 0 ∧
      stopping.history.countP Event.isPush ≠
        (stopping.pipeline.metrics.figures stopping.pipeline.config.name).delivered +
          (stopping.pipeline.metrics.figures stopping.pipeline.config.name).dropped +
            stopping.pipeline.queue.depth := by
  have hworker : stopping.pipeline.worker = .absent := rfl
  have huntaken : untaken stopping.history = [leftOver] := rfl
  obtain ⟨-, -, -, -, hbalance⟩ := balance_run Registry.empty {} () upToStopped
  refine ⟨rfl, hworker, huntaken, rfl, rfl, ?_⟩
  intro h
  have hnone : untaken stopping.history = [] := (hbalance (.inl hworker)).mp h
  rw [huntaken] at hnone
  cases hnone

end CameraStream.Pipeline
