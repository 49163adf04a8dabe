import CameraStream.Proofs.Negotiation.Decision

/-!
# How a plan is built

Every plan is a front of interpretations and a chain of conversions (`ComposedOf`). The front is
what the registry has for the source's encoding. The chain is `Continuous`: it leads from the
source's format to the sink's, and each stage takes what the one before it made. Names in the chain
stand for registered stages that make these outputs (`Registry.Resolves`), and its roles are those
of an enabled strategy, unless it is empty.

The chain is a route at one size and rate, so all of this is proved of routes first, by induction
on `Route.Leads` (`continuous_bindRoute`, `resolves_bindRoute`, `kinds_bindRoute`), and put together
for plans in `composedOf_of_negotiate`.
-/

namespace CameraStream

/-! ### Names in a registry -/

namespace Registry

variable {β : Type}

theorem find?_name {entries : List (RegistryEntry β)}
    (hnodup : (entries.map RegistryEntry.name).Nodup) {x : RegistryEntry β} (hx : x ∈ entries) :
    entries.find? (·.name == x.name) = some x := by
  induction entries with
  | nil => cases hx
  | cons y rest ih =>
    rw [List.map_cons, List.nodup_cons] at hnodup
    obtain ⟨hfresh, hrest⟩ := hnodup
    rcases List.mem_cons.mp hx with rfl | hx
    · exact List.find?_cons_of_pos (beq_self_eq_true _)
    · have hne : y.name ≠ x.name := fun h => hfresh (h ▸ List.mem_map_of_mem hx)
      rw [List.find?_cons_of_neg (by simpa using hne)]
      exact ih hrest hx

/-- A registered stage is found under its name, because no other stage has that name. -/
theorem descriptor?_name {r : Registry β} {d : StageDescriptor} (h : d ∈ r.descriptors) :
    r.descriptor? d.name = some d := by
  obtain ⟨x, hx, rfl⟩ := List.mem_map.mp h
  exact congrArg (Option.map (·.descriptor)) (find?_name r.nodup_names hx)

/-- The stage that is registered under a planned name makes the planned output. -/
def Resolves (r : Registry β) (s : PlannedStage) : Prop :=
  ∃ d, r.descriptor? s.name = some d ∧ d.kind = s.kind ∧
    s.output.encoding ∈ d.outputsFor s.input.encoding

end Registry

/-! ### Chains -/

/-- Stages from one format to another, each taking what the one before it made. -/
inductive Continuous : VideoFormat → List PlannedStage → VideoFormat → Prop
  | nil (f : VideoFormat) : Continuous f [] f
  | cons {s rest g} : Continuous s.output rest g → Continuous s.input (s :: rest) g

/-- Formats that differ in their encodings only. -/
def SameFrames (f g : VideoFormat) : Prop := f.size = g.size ∧ f.rate = g.rate

/-- A plan is every interpretation of the source's encoding, then a chain of conversions. -/
structure ComposedOf {β : Type} (r : Registry β) (p : Policy) (plan : Plan)
    (chain : List PlannedStage) : Prop where
  stages_eq : plan.stages =
    (r.descriptors.filter fun d =>
        d.kind = .interpretation ∧ d.accepts plan.sourceFormat.encoding).map
      (fun d => ⟨d.name, d.kind, plan.sourceFormat, plan.sourceFormat⟩) ++ chain
  continuous : Continuous plan.sourceFormat chain plan.sinkFormat
  sameFrames_sink : SameFrames plan.sourceFormat plan.sinkFormat
  sameFrames : ∀ s ∈ chain,
    SameFrames plan.sourceFormat s.input ∧ SameFrames plan.sourceFormat s.output
  resolves : ∀ s ∈ chain, r.Resolves s
  roles : chain = [] ∨
    ∃ roles, Negotiation.Enabled p roles ∧ chain.map (·.kind) = roles.map .conversion

namespace Negotiation

variable {β : Type} {r : Registry β} {p : Policy} {available : Catalog} {requested : Alternatives}

/-! ### Routes at one size and rate -/

section
variable {roles : List Role} {source sink : Encoding} {route : List Hop}
  (h : Route.Leads r roles source route sink) (f : VideoFormat)
include h

theorem continuous_bindRoute :
    Continuous (f.withEncoding source) (bindRoute f route) (f.withEncoding sink) := by
  induction h with
  | done e => exact .nil _
  | @hop role roles d e out route sink _ _ _ _ ih =>
    exact .cons (s := ⟨d.name, d.kind, f.withEncoding e, f.withEncoding out⟩) ih

theorem resolves_bindRoute : ∀ s ∈ bindRoute f route, r.Resolves s := by
  induction h with
  | done e => exact fun _ hs => nomatch hs
  | @hop role roles d e out route sink hd _ hout _ ih =>
    intro s hs
    rcases List.mem_cons.mp hs with rfl | hs
    · exact ⟨d, Registry.descriptor?_name hd, rfl, hout⟩
    · exact ih s hs

theorem kinds_bindRoute : (bindRoute f route).map (·.kind) = roles.map .conversion := by
  induction h with
  | done e => rfl
  | hop _ hkind _ _ ih =>
    rw [List.map_cons, ← ih, ← hkind]
    rfl

end

theorem sameFrames_bindRoute (f : VideoFormat) (route : List Hop) :
    ∀ s ∈ bindRoute f route, SameFrames f s.input ∧ SameFrames f s.output := by
  intro s hs
  obtain ⟨hop, -, rfl⟩ := List.mem_map.mp hs
  exact ⟨⟨rfl, rfl⟩, ⟨rfl, rfl⟩⟩

/-! ### Plans -/

theorem stages_interpret (r : Registry β) (plan : Plan) :
    (interpret r plan).stages =
      (r.descriptors.filter fun d =>
          d.kind = .interpretation ∧ d.accepts plan.sourceFormat.encoding).map
        (fun d => ⟨d.name, d.kind, plan.sourceFormat, plan.sourceFormat⟩) ++ plan.stages := by
  have hfront : r.interpretations plan.sourceFormat.encoding = r.descriptors.filter fun d =>
      d.kind = .interpretation ∧ d.accepts plan.sourceFormat.encoding := by
    apply List.filter_congr
    intro d _
    rw [Bool.decide_and, Bool.decide_eq_true]
    rfl
  rw [← hfront]
  rfl

theorem composedOf_direct (r : Registry β) (p : Policy) (f : VideoFormat) :
    ComposedOf r p (interpret r (.direct f)) [] where
  stages_eq := stages_interpret r _
  continuous := .nil f
  sameFrames_sink := ⟨rfl, rfl⟩
  sameFrames := fun _ hs => nomatch hs
  resolves := fun _ hs => nomatch hs
  roles := Or.inl rfl

/-- **Every plan is the interpretations of the source's encoding and a chain of conversions.** -/
theorem composedOf_of_negotiate (r : Registry β) (p : Policy) (available : Catalog)
    (requested : Alternatives) (plan : Plan) (h : negotiate r p available requested = .ok plan) :
    ∃ chain, ComposedOf r p plan chain := by
  obtain ⟨base, hbase, rfl⟩ := exists_decided_of_negotiate h
  cases hbase with
  | mostCapable _ _ _ => exact ⟨[], composedOf_direct r p _⟩
  | direct _ _ => exact ⟨[], composedOf_direct r p _⟩
  | @bridged roles source route sink f _ henabled _ hleads hf =>
    have hsource : f.withEncoding source = f := by
      rw [← encoding_of_settleAcross? hf]
      exact f.withEncoding_self
    exact ⟨bindRoute f route, {
      stages_eq := stages_interpret r _
      continuous := hsource ▸ continuous_bindRoute hleads f
      sameFrames_sink := ⟨rfl, rfl⟩
      sameFrames := sameFrames_bindRoute f route
      resolves := resolves_bindRoute hleads f
      roles := Or.inr ⟨roles, henabled, kinds_bindRoute hleads f⟩ }⟩

/-- A stage that looks at mosaics comes in front of the conversion. -/
theorem composedOf_balanced :
    negotiate (debayerOnly.register .whiteBalance ()) {} mosaicDevice (.ofFormat fullColor) =
      .ok { debayerPlan with stages := ⟨"white-balance", .interpretation,
        debayerPlan.sourceFormat, debayerPlan.sourceFormat⟩ :: debayerPlan.stages } ∧
    ∃ chain, ComposedOf (debayerOnly.register .whiteBalance ()) {}
      { debayerPlan with stages := ⟨"white-balance", .interpretation,
        debayerPlan.sourceFormat, debayerPlan.sourceFormat⟩ :: debayerPlan.stages } chain := by
  have hplan : negotiate (debayerOnly.register .whiteBalance ()) {} mosaicDevice
      (.ofFormat fullColor) =
      .ok { debayerPlan with stages := ⟨"white-balance", .interpretation,
        debayerPlan.sourceFormat, debayerPlan.sourceFormat⟩ :: debayerPlan.stages } := by
    unfold negotiate decide?
    rw [convert?_mosaicDevice]
    rfl
  exact ⟨hplan, composedOf_of_negotiate _ _ _ _ _ hplan⟩

end Negotiation
end CameraStream
