import CameraStream.Negotiation.Negotiate
import CameraStream.Proofs.Negotiation.Route
import CameraStream.Proofs.Ranking
import CameraStream.Proofs.Report
import CameraStream.Stage.Builtin

/-!
# What negotiation decides

`Negotiation.Decided` lists the three ways a plan comes about: the most capable format of the
source, a format of both sides, or a route between two encodings with size and rate settled on for
all of it. Whatever holds of every plan is proved from these three (`exists_decided_of_negotiate`).

The size and rate settled on for a route come from one alternative of either side
(`exists_of_settleAcross?`), whatever the encodings at its ends.
-/

namespace CameraStream

namespace Negotiation

variable {β : Type} {r : Registry β} {p : Policy} {available : Catalog} {requested : Alternatives}

/-! ### Settling across a route -/

theorem mem_offered {offer : Alternatives} {source : Encoding} {d : FormatConstraint} :
    d ∈ (offer.filterEncoding source).toList ↔
      ∃ b ∈ offer.toList, b.encoding.accepts source ∧ d = { b with encoding := .exactly source } := by
  simp only [Alternatives.filterEncoding, Alternatives.withEncoding, Alternatives.mapEncoding,
    List.mem_map, List.mem_filter, and_assoc, eq_comm]

theorem mem_wanted {sink : Encoding} {c : FormatConstraint} :
    c ∈ (requested.filterEncoding sink).withoutEncoding.toList ↔
      ∃ a ∈ requested.toList, a.encoding.accepts sink ∧ c = { a with encoding := .any } := by
  simp only [Alternatives.filterEncoding, Alternatives.withEncoding, Alternatives.withoutEncoding,
    Alternatives.mapEncoding, List.map_map, List.mem_map, List.mem_filter, and_assoc,
    Function.comp_def, eq_comm]

/-- **Size and rate across a route come from one alternative on either side.** -/
theorem exists_of_settleAcross? {offer : Alternatives} {source sink : Encoding} {f : VideoFormat}
    (h : settleAcross? offer requested source sink = some f) :
    ∃ a ∈ requested.toList, a.encoding.accepts sink ∧
    ∃ b ∈ offer.toList, b.encoding.accepts source ∧
    ∃ e, FormatConstraint.inter { a with encoding := .any } { b with encoding := .exactly source }
      = some e ∧ e.largest? = some f := by
  obtain ⟨c, hc, d, hd, e, hcd, hf⟩ := Alternatives.exists_of_settleAgainst? h
  obtain ⟨a, ha, hsink, rfl⟩ := mem_wanted.mp hc
  obtain ⟨b, hb, hsource, rfl⟩ := mem_offered.mp hd
  exact ⟨a, ha, hsink, b, hb, hsource, e, hcd, hf⟩

theorem encoding_of_settleAcross? {offer : Alternatives} {source sink : Encoding} {f : VideoFormat}
    (h : settleAcross? offer requested source sink = some f) : f.encoding = source := by
  obtain ⟨a, -, -, b, -, -, e, hinter, hf⟩ := exists_of_settleAcross? h
  exact (FormatConstraint.encoding_of_inter_exactly rfl hinter hf).1

/-! ### One bridge -/

/-- A strategy that the policy leaves open. -/
def Enabled (p : Policy) (roles : List Role) : Prop := roles ∈ strategies ∧ roles.all p.allows

theorem Enabled.ne_nil {roles : List Role} (h : Enabled p roles) : roles ≠ [] := by
  rintro rfl
  exact absurd h.1 (by decide)

/-- A bridge is the route found, with size and rate settled on between its ends. -/
theorem bridge?_eq_some_iff {offer : Alternatives} {roles : List Role} {source : Encoding}
    {plan : Plan} (hroles : roles ≠ []) :
    bridge? r offer requested roles source = some plan ↔
      ∃ route sink f, Route.find? r requested roles source = some route ∧
        Route.Leads r roles source route sink ∧
        settleAcross? offer requested source sink = some f ∧
        plan = ⟨f, f.withEncoding sink, bindRoute f route⟩ := by
  unfold bridge?
  simp only [Option.bind_eq_bind, Option.bind_eq_some_iff, Option.pure_def, Option.some.injEq]
  constructor
  · rintro ⟨route, hroute, last, hlast, f, hf, rfl⟩
    obtain ⟨sink, hleads, -⟩ := Route.find?_sound hroute
    obtain ⟨last', hlast', rfl⟩ := hleads.exists_last hroles
    cases Option.some.inj (hlast.symm.trans hlast')
    exact ⟨route, last.output, f, hroute, hleads, hf, rfl⟩
  · rintro ⟨route, sink, f, hroute, hleads, hf, rfl⟩
    obtain ⟨last, hlast, rfl⟩ := hleads.exists_last hroles
    exact ⟨route, hroute, last, hlast, f, hf, rfl⟩

/-! ### Plans -/

/-- How a plan comes about, before interpretations are put in front. -/
inductive Decided (r : Registry β) (p : Policy) (available : Catalog) (requested : Alternatives) :
    Plan → Prop
  /-- Nothing in particular is requested. -/
  | mostCapable {e f} : requested.isEmpty = true → e ∈ available.encodings →
      available.largestFormat? e = some f → Decided r p available requested (.direct f)
  /-- Both sides accept a format as it is. -/
  | direct {f} : requested.isEmpty = false →
      requested.settleAgainst? available.constraints = some f →
      Decided r p available requested (.direct f)
  /-- A route leads on from an encoding of the source, and one format is settled on for all of it. -/
  | bridged {roles source route sink f} : requested.isEmpty = false → Enabled p roles →
      source ∈ available.encodings → Route.Leads r roles source route sink →
      settleAcross? available.constraints requested source sink = some f →
      Decided r p available requested ⟨f, f.withEncoding sink, bindRoute f route⟩

theorem decide?_sound {plan : Plan} (h : decide? r p available requested = some plan) :
    Decided r p available requested plan := by
  unfold decide? at h
  split at h
  · next hempty =>
    unfold mostCapable? at h
    simp only [Option.bind_eq_bind, Option.bind_eq_some_iff, Option.pure_def,
      Option.some.injEq] at h
    obtain ⟨e, he, f, hf, rfl⟩ := h
    exact .mostCapable hempty (Ranking.preferred?_eq_some_iff.mp he).mem hf
  · next hne =>
    have hne : requested.isEmpty = false := Bool.eq_false_iff.mpr hne
    split at h
    · next f hf =>
      cases h
      exact .direct hne hf
    · -- Strategies are searched first, and the source's encodings for each of them.
      obtain ⟨roles, hroles, h⟩ := List.exists_of_findSome?_eq_some h
      obtain ⟨source, hsource, h⟩ := List.exists_of_findSome?_eq_some h
      have henabled : Enabled p roles := List.mem_filter.mp hroles
      have hsource := ((p.ranking.mem_sort _ _).mp hsource).1
      obtain ⟨route, sink, f, -, hleads, hf, rfl⟩ := (bridge?_eq_some_iff henabled.ne_nil).mp h
      exact .bridged hne henabled hsource hleads hf

/-- A result is a plan that was decided on, with the interpretations in front. -/
theorem negotiate_eq_ok_iff {plan : Plan} :
    negotiate r p available requested = .ok plan ↔
      available.encodings.isEmpty = false ∧
        ∃ base, decide? r p available requested = some base ∧ interpret r base = plan := by
  unfold negotiate
  cases available.encodings.isEmpty with
  | true => simp
  | false => cases decide? r p available requested <;> simp

/-- **Every plan comes about in one of three ways.** -/
theorem exists_decided_of_negotiate {plan : Plan}
    (h : negotiate r p available requested = .ok plan) :
    ∃ base, Decided r p available requested base ∧ plan = interpret r base := by
  obtain ⟨-, base, hbase, rfl⟩ := negotiate_eq_ok_iff.mp h
  exact ⟨base, decide?_sound hbase, rfl⟩

/-! ### A plan to look at -/

/-- A device with a mosaic of one size. -/
def mosaicDevice : Catalog :=
  ⟨[⟨.rggb8, [⟨.single ⟨1920, 1080⟩, .exactly (.fps 30)⟩]⟩]⟩

def debayerOnly : Registry Unit := Registry.empty.register .debayer ()

/-- Colour of the size that the device has. -/
def fullColor : VideoFormat := ⟨.rgb24, ⟨1920, 1080⟩, .fps 30⟩

/-- The plan by which the device serves colour. -/
def debayerPlan : Plan where
  sourceFormat := fullColor.withEncoding .rggb8
  sinkFormat := fullColor
  stages := [⟨"debayer", .conversion .debayer, fullColor.withEncoding .rggb8, fullColor⟩]

/-- With one encoding there is nothing to rank, whatever the policy. -/
theorem convert?_mosaicDevice (r : Registry β) (p : Policy) (requested : Alternatives) :
    convert? r p mosaicDevice requested =
      (strategies.filter (·.all p.allows)).findSome? fun roles =>
        bridge? r mosaicDevice.constraints requested roles .rggb8 := by
  have hsort : p.ranking.sort mosaicDevice.encodings = [.rggb8] := List.mergeSort_singleton _
  unfold convert?
  rw [hsort]
  simp only [List.findSome?_singleton]

end Negotiation
end CameraStream
