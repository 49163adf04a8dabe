import CameraStream.Proofs.Chain
import CameraStream.Proofs.Negotiation.Shape

/-!
# The stages of the library

Stages of the library are bound to formats once and for all (`Stage.BoundTo`), and look at the format
of every frame: a stage that does not fail was given a frame in the format it takes, and leaves one
in the format it makes. In a chain that is continuous this goes on from stage to stage, so a frame
that gets through came in the source's format and leaves in the sink's, provided that there is a
stage to look at it (`format_run`). A chain without stages lets every frame through as it is.
-/

namespace CameraStream

variable {ω : Type}

/-! ### One stage -/

/-- The stages that a blueprint makes are the library's own. -/
def Blueprint.IsLibrary : Blueprint ω → Prop
  | .converter _ _ | .whiteBalancer | .frameCounter => True
  | .device _ => False

def Registry.IsLibrary (r : Registry (Blueprint ω)) : Prop := ∀ x ∈ r.entries, x.blueprint.IsLibrary

namespace Stage

/-- A stage of the library, bound to a format that it takes and a format that it makes. -/
inductive BoundTo : Stage ω → VideoFormat → VideoFormat → Prop
  | converter {c : Converter} {input output : VideoFormat} (formats : c.formats = some (input, output)) :
      BoundTo (.converter c) input output
  | whiteBalancer {b : WhiteBalancer} {f : VideoFormat} (format : b.format = some f) :
      BoundTo (.whiteBalancer b) f f
  | frameCounter {c : FrameCounter} {f : VideoFormat} (format : c.format = some f) :
      BoundTo (.frameCounter c) f f

theorem boundTo_of_bind {blueprint : Blueprint ω} (h : blueprint.IsLibrary) {w w' v : ω}
    {input output : VideoFormat} {s : Stage ω}
    (hbind : (blueprint.make w).1.bind input output w' = (true, s, v)) : s.BoundTo input output := by
  cases blueprint with
  | converter d k =>
    simp only [Blueprint.make, bind, Converter.bind] at hbind
    split at hbind
    · cases hbind
      exact .converter rfl
    · cases hbind
  | whiteBalancer =>
    simp only [Blueprint.make, bind, WhiteBalancer.bind] at hbind
    split at hbind
    · next hformats =>
      cases hbind
      obtain rfl := hformats.1
      exact .whiteBalancer rfl
    · cases hbind
  | frameCounter =>
    simp only [Blueprint.make, bind, FrameCounter.bind] at hbind
    split at hbind
    · next hformats =>
      cases hbind
      obtain rfl := hformats
      exact .frameCounter rfl
    · cases hbind
  | device make => exact h.elim

theorem BoundTo.continues {s t : Stage ω} {input output : VideoFormat} (h : s.BoundTo input output)
    (ht : s.Continues t) : t.BoundTo input output := by
  cases h with
  | converter formats =>
    cases ht with
    | converter _ _ hformats => exact .converter (hformats.trans formats)
  | whiteBalancer format =>
    cases ht with
    | whiteBalancer hformat => exact .whiteBalancer (hformat.trans format)
  | frameCounter format =>
    cases ht
    exact .frameCounter format

theorem format_of_checkFormat {stage : String} {expected : VideoFormat} {f : Frame}
    (h : checkFormat stage expected f = .ok ()) : f.format = expected := by
  unfold checkFormat at h
  split at h
  · next hformat => exact hformat
  · cases h

/-- **A stage that does not fail has looked at the format.** -/
theorem format_transform {s : Stage ω} {input output : VideoFormat} (h : s.BoundTo input output)
    {f : Frame} {e : Surroundings ω} (hok : (s.transform f e).error = none) :
    f.format = input ∧ (s.transform f e).frame.format = output := by
  cases h with
  | @converter c _ _ hformats =>
    rcases hcheck : checkFormat c.descriptor.name input f with err | _
    · simp [transform, Converter.transform, hformats, hcheck, Bind.bind, Except.bind] at hok
    · refine ⟨format_of_checkFormat hcheck, ?_⟩
      simp only [transform, Converter.transform, hformats, hcheck]
      rfl
  | @whiteBalancer b _ hformat =>
    rcases hcheck : checkFormat StageDescriptor.whiteBalance.name input f with err | _
    · simp [transform, WhiteBalancer.transform, hformat, hcheck, Bind.bind, Except.bind] at hok
    · refine ⟨format_of_checkFormat hcheck, ?_⟩
      rcases hmosaic : input.encoding.mosaic with _ | m
      · simp only [transform, WhiteBalancer.transform, hformat, hcheck, hmosaic]
        exact format_of_checkFormat hcheck
      · simp only [transform, WhiteBalancer.transform, hformat, hcheck, hmosaic]
        exact format_of_checkFormat hcheck
  | @frameCounter c _ hformat =>
    rcases hcheck : checkFormat StageDescriptor.frameStatistics.name input f with err | _
    · simp [transform, FrameCounter.observe, hformat, hcheck, Bind.bind, Except.bind] at hok
    · refine ⟨format_of_checkFormat hcheck, ?_⟩
      simp only [transform, FrameCounter.observe, hformat, hcheck]
      exact format_of_checkFormat hcheck

end Stage

/-! ### Chains -/

theorem Continuous.eq_of_nil {f g : VideoFormat} (h : Continuous f [] g) : f = g := by
  cases h
  rfl

/-- Stages at work, each bound to the formats that are planned for it. -/
def Realizes (planned : List PlannedStage) (ss : List (Stage ω)) : Prop :=
  List.Forall₂ (fun s t => t.BoundTo s.input s.output) planned ss

namespace Realizes

theorem of_makeStages {r : Registry (Blueprint ω)} (hr : r.IsLibrary) {ps : List PlannedStage}
    {w w' : ω} {ss : List (Stage ω)} (h : Chain.makeStages r ps w = (.ok ss, w')) :
    Realizes ps ss := by
  refine Chain.forall₂_makeStages ?_ h
  intro planned x stage _ _ _ hx _ hbind
  exact Stage.boundTo_of_bind (hr x hx) hbind

theorem continues {planned : List PlannedStage} {ss ss' : List (Stage ω)} (h : Realizes planned ss)
    (hss : List.Forall₂ Stage.Continues ss ss') : Realizes planned ss' :=
  Chain.forall₂_continues h hss Stage.BoundTo.continues

/-- **A frame that gets through a continuous chain has the format at its end**, if it had the one at
the beginning, and it has had it if there was a stage to look at it. -/
theorem format_run {planned : List PlannedStage} {ss : List (Stage ω)} (h : Realizes planned ss)
    {input output : VideoFormat} (hcontinuous : Continuous input planned output) {f : Frame}
    {e : Surroundings ω} (hok : (Chain.run ss f e).error = none) :
    (planned ≠ [] → f.format = input ∧ (Chain.run ss f e).frame.format = output) ∧
      (planned = [] → (Chain.run ss f e).frame.format = f.format) := by
  induction h generalizing input f e with
  | nil => exact ⟨fun hne => absurd rfl hne, fun _ => rfl⟩
  | @cons s t rest ts hs hrest ih =>
    refine ⟨fun _ => ?_, nofun⟩
    cases hcontinuous with
    | cons hcontinuous =>
      rcases herror : (t.transform f e).error with _ | err
      · obtain ⟨hinput, houtput⟩ := Stage.format_transform hs herror
        simp only [Chain.run, herror] at hok ⊢
        obtain ⟨hsome, hnone⟩ := ih hcontinuous hok
        refine ⟨hinput, ?_⟩
        -- The rest, if there is any, makes the format at the end; if not, this stage has made it.
        by_cases hempty : rest = []
        · subst hempty
          exact (hnone rfl).trans (houtput.trans hcontinuous.eq_of_nil)
        · exact (hsome hempty).2
      · simp only [Chain.run, herror] at hok
        cases hok

end Realizes

/-! ### Plans of negotiation -/

namespace Negotiation

variable {β : Type}

theorem Continuous.interpretations {f g : VideoFormat} {ds : List StageDescriptor}
    {rest : List PlannedStage} (h : Continuous f rest g) :
    Continuous f (ds.map (fun d => ⟨d.name, d.kind, f, f⟩) ++ rest) g := by
  induction ds with
  | nil => exact h
  | cons d ds ih => exact .cons (s := ⟨d.name, d.kind, f, f⟩) ih

/-- The stages of a plan lead from the source's format to the sink's. -/
theorem continuous_of_negotiate {r : Registry β} {p : Policy} {available : Catalog}
    {requested : Alternatives} {plan : Plan} (h : negotiate r p available requested = .ok plan) :
    Continuous plan.sourceFormat plan.stages plan.sinkFormat := by
  obtain ⟨base, hbase, rfl⟩ := exists_decided_of_negotiate h
  rw [stages_interpret]
  refine Continuous.interpretations ?_
  cases hbase with
  | mostCapable _ _ _ => exact .nil _
  | direct _ _ => exact .nil _
  | @bridged roles source route sink f _ _ _ hleads hf =>
    have hsource : f.withEncoding source = f := by
      rw [← encoding_of_settleAcross? hf]
      exact f.withEncoding_self
    exact hsource ▸ continuous_bindRoute hleads f

end Negotiation
end CameraStream
