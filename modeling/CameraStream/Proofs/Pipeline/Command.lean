import CameraStream.Proofs.Pipeline.Contact
import CameraStream.Proofs.Pipeline.Representation

/-!
# Who was told to play

Nobody is left running. Between calls, if a pipeline is not active, then no source, sink, property
filter or stage that was ever attached or was ever in its chain has received the command to play as
its last one. If it is active, then those that are there now have, and all of them agreed; nobody
else has (**`disciplined_between_calls`**). Parts may refuse to start or to stop, and may be replaced.

The roster is written from events. That these are the commands which the parts receive, with the
answers they give and what they make of the world, is part of the result.
-/

namespace CameraStream.Pipeline

variable {ω : Type} {p : Pipeline ω} {r : Roster}

/-- The last commands in a roster are what the status of a pipeline says. -/
structure Disciplined (p : Pipeline ω) (r : Roster) : Prop where
  inactive : p.status.isActive = false → r.Quiet
  active : p.status.isActive = true →
    r.OthersQuiet ∧ (∀ part, (r.parts part).head? = some .playing) ∧
      ∃ c, p.chain = some c ∧ r.chains.head? = some (List.replicate c.stages.length .playing)

theorem Rest.disciplined (h : Rest p r) : Disciplined p r := by
  rcases h with hidle | hbusy
  · refine ⟨fun _ => hidle.quiet, fun hactive => ?_⟩
    rw [hidle.status] at hactive
    cases hactive
  · refine ⟨fun hinactive => ?_, fun _ => ⟨hbusy.others, hbusy.parts, ?_⟩⟩
    · rw [hbusy.status] at hinactive
      cases hinactive
    · obtain ⟨a, ha⟩ := Option.isSome_iff_exists.mp hbusy.assembly
      exact ⟨a.chain, by rw [chain, ha]; rfl, hbusy.stages a ha⟩

/-- **Nobody is left running, and all who should be running are.** The commands in the roster are
those that the parts have received. -/
theorem disciplined_between_calls (registry : Registry (Blueprint ω)) (config : PipelineConfig)
    (world : ω) (schedule : List (Choice ω)) {err : Option StreamError}
    (h : ((Scene.opening registry config world).run schedule).todo = .done err) :
    let opening := Scene.opening registry config world
    let scene := opening.run schedule
    Disciplined scene.pipeline (rosterOf scene.history) ∧
      Performed Contact opening.pipeline.cast (schedule.flatMap Choice.turns) scene.history
        scene.pipeline.cast :=
  ⟨(stands_between_calls registry config world schedule h).1.disciplined, performed_from rfl schedule⟩

/-! ### A sink that writes down what it is told -/

def notingSink : Sink (List Status) :=
  { obligingSink with setStatus := fun s w => (true, w ++ [s]) }

/-- A source and the sink are attached, and the pipeline is made to play. -/
def upToNoted : List (Choice (List Status)) :=
  [.call (.setSource (obligingSource mosaicCatalog)), .proceed, .call (.setSink notingSink),
    .proceed, .call (.setStatus .playing)] ++ List.replicate 19 .proceed

/-- A pipeline that plays mosaics through white balance. -/
def noting : Scene (List Status) :=
  (Scene.opening (Registry.empty.register .whiteBalance .whiteBalancer) {} []).run upToNoted

/-- The sink has written down the command to play, and white balance is the stage that has received
it too. -/
theorem disciplined_noting :
    noting.todo = .done none ∧ noting.pipeline.status = .playing ∧
      noting.pipeline.world = [.playing] ∧ (rosterOf noting.history).chains = [[.playing]] ∧
      Disciplined noting.pipeline (rosterOf noting.history) ∧
      Performed Contact (create (Registry.empty.register .whiteBalance .whiteBalancer) {} []).cast []
        noting.history noting.pipeline.cast := by
  have hdone : noting.todo = .done none := rfl
  exact ⟨hdone, rfl, rfl, rfl, disciplined_between_calls _ {} [] upToNoted hdone⟩

end CameraStream.Pipeline
