import CameraStream.Proofs.Library

/-!
# Plans can be made real

Negotiation goes by descriptors. The chain is made of stages, which agree to formats or do not, and
are looked up by name. Where every registered stage is `Honest`, that is, made as its descriptor says,
the two come to the same: each stage of a plan is found under its name and agrees to the formats that
are planned for it (`provides_of_negotiate`). So the chain of the plan can be built, in whatever world,
and formats continue through it from one end to the other (**`buildable_of_negotiate`**).

Frames have to have at least one pixel, since white balance refuses to look at empty ones.
-/

namespace CameraStream

variable {ω : Type}

/-! ### Honest registries -/

/-- A stage is made as its descriptor says: it converts by that very descriptor, or is one of the two
interpretations of the library. -/
inductive RegistryEntry.Honest : RegistryEntry (Blueprint ω) → Prop
  | conversion {d : StageDescriptor} {role : Role} (kind : d.kind = .conversion role) (k : Kernel) :
      Honest ⟨d, .converter d k⟩
  | whiteBalance : Honest ⟨.whiteBalance, .whiteBalancer⟩
  | frameStatistics : Honest ⟨.frameStatistics, .frameCounter⟩

theorem RegistryEntry.mem_put {β : Type} {x y : RegistryEntry β} {xs : List (RegistryEntry β)}
    (h : y ∈ x.put xs) : y = x ∨ y ∈ xs := by
  induction xs with
  | nil => exact Or.inl (List.mem_singleton.mp h)
  | cons z rest ih =>
    rw [put] at h
    split at h
    · rcases List.mem_cons.mp h with rfl | h
      · exact Or.inl rfl
      · exact Or.inr (List.mem_cons_of_mem z h)
    · rcases List.mem_cons.mp h with rfl | h
      · exact Or.inr List.mem_cons_self
      · exact (ih h).imp_right (List.mem_cons_of_mem z)

namespace Registry

/-- What is so of all entries stays so when stages are registered of which it is. -/
theorem forall_mem_registerAll {β : Type} {P : RegistryEntry β → Prop} {r : Registry β}
    (hr : ∀ x ∈ r.entries, P x) {stages : List (StageDescriptor × β)}
    (hstages : ∀ x ∈ stages, P ⟨x.1, x.2⟩) : ∀ x ∈ (r.registerAll stages).entries, P x := by
  induction stages generalizing r with
  | nil => exact hr
  | cons x rest ih =>
    rw [List.forall_mem_cons] at hstages
    apply ih _ hstages.2
    intro y hy
    rcases RegistryEntry.mem_put hy with rfl | hy
    · exact hstages.1
    · exact hr y hy

def Honest (r : Registry (Blueprint ω)) : Prop := ∀ x ∈ r.entries, x.Honest

variable {r : Registry (Blueprint ω)}

/-- A stage may be replaced by another of its name, as long as that one is honest. -/
theorem Honest.registerAll (hr : r.Honest) {stages : List (StageDescriptor × Blueprint ω)}
    (hstages : ∀ x ∈ stages, RegistryEntry.Honest ⟨x.1, x.2⟩) : (r.registerAll stages).Honest :=
  forall_mem_registerAll hr hstages

theorem Honest.isLibrary (hr : r.Honest) : r.IsLibrary := by
  intro x hx
  cases hr x hx with
  | conversion _ _ | whiteBalance | frameStatistics => trivial

/-- What is found under the name of a registered stage makes that stage. -/
theorem Honest.exists_blueprint (hr : r.Honest) {d : StageDescriptor} (hd : d ∈ r.descriptors) :
    ∃ b, r.blueprint? d.name = some b ∧ RegistryEntry.Honest ⟨d, b⟩ := by
  obtain ⟨x, hx, rfl⟩ := List.mem_map.mp hd
  refine ⟨x.blueprint, ?_, hr x hx⟩
  exact congrArg (Option.map (·.blueprint)) (find?_name r.nodup_names hx)

/-! ### Planned stages that are to be had -/

/-- What is made under the planned name agrees to the planned formats. -/
def Provides (r : Registry (Blueprint ω)) (s : PlannedStage) : Prop :=
  ∃ b, r.blueprint? s.name = some b ∧ ∀ w, ∃ stage,
    (b.make w).1.bind s.input s.output (b.make w).2 = (true, stage, w)

/-- A conversion agrees to what its descriptor says it converts. -/
theorem Honest.provides_conversion (hr : r.Honest) {d : StageDescriptor} {role : Role}
    (hd : d ∈ r.descriptors) (hkind : d.kind = .conversion role) {e out : Encoding}
    (hout : out ∈ d.outputsFor e) (f : VideoFormat) :
    r.Provides ⟨d.name, d.kind, f.withEncoding e, f.withEncoding out⟩ := by
  obtain ⟨b, hb, hhonest⟩ := hr.exists_blueprint hd
  refine ⟨b, hb, ?_⟩
  intro w
  cases hhonest with
  | conversion _ k =>
    have hcan : (Converter.mk d k none .stopped).canConvert (f.withEncoding e)
        (f.withEncoding out) = true := by
      simp [Converter.canConvert, StageDescriptor.converts, hout]
    refine ⟨.converter ⟨d, k, some (f.withEncoding e, f.withEncoding out), .stopped⟩, ?_⟩
    simp only [Blueprint.make, Stage.bind, Converter.bind, hcan, if_true]
  | whiteBalance => cases hkind
  | frameStatistics => cases hkind

/-- An interpretation agrees to formats of what it accepts, unless frames are empty. -/
theorem Honest.provides_interpretation (hr : r.Honest) {d : StageDescriptor}
    (hd : d ∈ r.descriptors) (hkind : d.kind = .interpretation) {f : VideoFormat}
    (haccepts : d.accepts f.encoding) (hwidth : f.size.width ≠ 0) (hheight : f.size.height ≠ 0) :
    r.Provides ⟨d.name, d.kind, f, f⟩ := by
  obtain ⟨b, hb, hhonest⟩ := hr.exists_blueprint hd
  refine ⟨b, hb, ?_⟩
  intro w
  cases hhonest with
  | conversion hkind' _ => cases hkind.symm.trans hkind'
  | whiteBalance =>
    refine ⟨.whiteBalancer { format := some f }, ?_⟩
    simp only [Blueprint.make, Stage.bind, WhiteBalancer.bind, haccepts, hwidth, hheight, ne_eq,
      not_false_eq_true, and_self, if_true]
  | frameStatistics =>
    refine ⟨.frameCounter ⟨some f⟩, ?_⟩
    simp only [Blueprint.make, Stage.bind, FrameCounter.bind, if_true]

end Registry

/-! ### Plans -/

namespace Negotiation

variable {r : Registry (Blueprint ω)} {p : Policy} {available : Catalog} {requested : Alternatives}

theorem provides_bindRoute (hr : r.Honest) {roles : List Role} {source sink : Encoding}
    {route : List Hop} (h : Route.Leads r roles source route sink) (f : VideoFormat) :
    ∀ s ∈ bindRoute f route, r.Provides s := by
  induction h with
  | done e => exact nofun
  | hop hd hkind hout _ ih =>
    intro s hs
    rcases List.mem_cons.mp hs with rfl | hs
    · exact hr.provides_conversion hd hkind hout f
    · exact ih s hs

/-- **Every stage of a plan is to be had.** -/
theorem provides_of_negotiate (hr : r.Honest) {plan : Plan}
    (h : negotiate r p available requested = .ok plan) (hwidth : plan.sourceFormat.size.width ≠ 0)
    (hheight : plan.sourceFormat.size.height ≠ 0) : ∀ s ∈ plan.stages, r.Provides s := by
  obtain ⟨base, hbase, rfl⟩ := exists_decided_of_negotiate h
  intro s hs
  rw [stages_interpret, List.mem_append] at hs
  rcases hs with hs | hs
  · obtain ⟨d, hd, rfl⟩ := List.mem_map.mp hs
    obtain ⟨hd, hinterprets⟩ := List.mem_filter.mp hd
    obtain ⟨hkind, haccepts⟩ := of_decide_eq_true hinterprets
    exact hr.provides_interpretation hd hkind haccepts hwidth hheight
  · -- Only a route has conversions.
    cases hbase with
    | mostCapable _ _ _ => cases hs
    | direct _ _ => cases hs
    | bridged _ _ _ hleads _ => exact provides_bindRoute hr hleads _ s hs

end Negotiation

/-! ### Chains -/

namespace Chain

/-- Stages that are to be had can be made one after the other. -/
theorem exists_makeStages {r : Registry (Blueprint ω)} {ps : List PlannedStage}
    (h : ∀ s ∈ ps, r.Provides s) (w : ω) : ∃ ss, makeStages r ps w = (.ok ss, w) := by
  induction ps with
  | nil => exact ⟨[], rfl⟩
  | cons s rest ih =>
    rw [List.forall_mem_cons] at h
    obtain ⟨b, hb, hbind⟩ := h.1
    obtain ⟨stage, hstage⟩ := hbind w
    obtain ⟨others, hothers⟩ := ih h.2
    refine ⟨stage :: others, ?_⟩
    simp only [makeStages, hb, hstage, hothers, if_true]
    rfl

end Chain

theorem Stage.BoundTo.formats {s : Stage ω} {input output : VideoFormat}
    (h : s.BoundTo input output) (w : ω) : s.formats w = some (input, output) := by
  cases h with
  | converter hformats => exact hformats
  | whiteBalancer hformat => simp only [Stage.formats, hformat, Option.map_some]
  | frameCounter hformat => simp only [Stage.formats, hformat, Option.map_some]

/-- Formats continue through stages as they do through the plan that these make real. -/
theorem Realizes.walk {planned : List PlannedStage} {ss : List (Stage ω)}
    (h : Realizes planned ss) {f g : VideoFormat} (hcontinuous : Continuous f planned g) (w : ω) :
    Chain.walk w g f ss = .ok () := by
  induction h generalizing f with
  | nil =>
    cases hcontinuous
    simp only [Chain.walk, if_true]
  | cons hs _ ih =>
    cases hcontinuous with
    | cons hrest =>
      simp only [Chain.walk, hs.formats w, if_true]
      exact ih hrest

namespace Negotiation

/-- **Every plan can be made real.** If all stages of a registry are made as their descriptors say,
and frames are not empty, then the chain of a plan can be built from the registry, and formats continue
through it from the source's to the sink's. -/
theorem buildable_of_negotiate {r : Registry (Blueprint ω)} (hr : r.Honest) {p : Policy}
    {available : Catalog} {requested : Alternatives} {plan : Plan}
    (h : negotiate r p available requested = .ok plan) (hwidth : plan.sourceFormat.size.width ≠ 0)
    (hheight : plan.sourceFormat.size.height ≠ 0) (w : ω) :
    ∃ c, Chain.build plan r w = (.ok c, w) ∧
      ∀ v, c.validate v plan.sourceFormat plan.sinkFormat = .ok () := by
  obtain ⟨ss, hmade⟩ := Chain.exists_makeStages (provides_of_negotiate hr h hwidth hheight) w
  have hrealizes : Realizes plan.stages ss := .of_makeStages hr.isLibrary hmade
  refine ⟨⟨ss, plan.sourceFormat, plan.sinkFormat, .stopped⟩, ?_, ?_⟩
  · simp only [Chain.build, hmade]
    rfl
  · intro v
    exact hrealizes.walk (continuous_of_negotiate h) v

/-- White balance and demosaicing, of which the latter was registered twice. -/
def balancingStages : List (StageDescriptor × Blueprint Unit) :=
  [(.debayer, .converter .debayer Kernel.relabel), (.whiteBalance, .whiteBalancer),
    (.debayer, .converter .debayer Pixels.demosaic)]

/-- The plan by which the device serves colour, with white balance in front. -/
def balancedPlan : Plan :=
  { debayerPlan with stages := ⟨"white-balance", .interpretation, debayerPlan.sourceFormat,
      debayerPlan.sourceFormat⟩ :: debayerPlan.stages }

/-- Stages of both kinds, one of which was replaced. -/
theorem buildable_balancedPlan :
    (Registry.empty.registerAll balancingStages).Honest ∧
      negotiate (Registry.empty.registerAll balancingStages) {} mosaicDevice (.ofFormat fullColor) =
        .ok balancedPlan ∧
      ∃ c, Chain.build balancedPlan (Registry.empty.registerAll balancingStages) () = (.ok c, ()) ∧
        c.validate () balancedPlan.sourceFormat balancedPlan.sinkFormat = .ok () := by
  have hhonest : (Registry.empty.registerAll balancingStages).Honest := by
    apply Registry.Honest.registerAll
    · intro x hx
      cases hx
    · intro x hx
      simp only [balancingStages, List.mem_cons, List.not_mem_nil, or_false] at hx
      rcases hx with rfl | rfl | rfl
      · exact .conversion rfl _
      · exact .whiteBalance
      · exact .conversion rfl _
  have hplan : negotiate (Registry.empty.registerAll balancingStages) {} mosaicDevice
      (.ofFormat fullColor) = .ok balancedPlan := by
    unfold negotiate decide?
    rw [convert?_mosaicDevice]
    rfl
  obtain ⟨c, hbuild, hvalid⟩ := buildable_of_negotiate hhonest hplan (by decide) (by decide) ()
  exact ⟨hhonest, hplan, c, hbuild, hvalid ()⟩

end Negotiation
end CameraStream
