import CameraStream.Proofs.Negotiation.Decision

/-!
# When negotiation fails

A route *bridges* the two sides if an enabled strategy takes it and some size and rate can be
settled on between its ends (`Bridges`). Negotiation does not try every such route. For a strategy
and an encoding of the source it takes the first route to an encoding that the request accepts, and
only then asks for size and rate. If these cannot be settled on at the end of that route, later
routes are hidden behind it (`Shadowed`).

* **Exactness** (`incompatible_iff_shadowed`): negotiation fails exactly if both sides share no
  format and every route that bridges them is hidden.
* **Completeness for uniform requests** (`not_bridges_of_uniform`): if all alternatives accept the
  same encodings, as a single one does, nothing is ever hidden.
-/

namespace CameraStream.Negotiation

variable {β : Type} {r : Registry β} {p : Policy} {available : Catalog} {requested : Alternatives}

/-! ### Routes that bridge and routes that hide -/

/-- A route by which the two sides could be bridged. -/
structure Bridges (r : Registry β) (p : Policy) (available : Catalog) (requested : Alternatives)
    (roles : List Role) (source : Encoding) (route : List Hop) : Prop where
  enabled : Enabled p roles
  source_mem : source ∈ available.encodings
  settles : ∃ sink, Route.Leads r roles source route sink ∧
    (settleAcross? available.constraints requested source sink).isSome

/-- An earlier route of the same strategy and source ends in an encoding that the request accepts,
but where no size and rate can be settled on. -/
def Shadowed (r : Registry β) (available : Catalog) (requested : Alternatives)
    (roles : List Role) (source : Encoding) (route : List Hop) : Prop :=
  ∃ first sink, Route.Leads r roles source first sink ∧ requested.acceptsEncoding sink ∧
    settleAcross? available.constraints requested source sink = none ∧
    Route.Precedes r requested first route

theorem acceptsEncoding_of_settleAcross? {offer : Alternatives} {source sink : Encoding}
    (h : (settleAcross? offer requested source sink).isSome) : requested.acceptsEncoding sink := by
  obtain ⟨f, hf⟩ := Option.isSome_iff_exists.mp h
  obtain ⟨a, ha, hsink, -⟩ := exists_of_settleAcross? hf
  exact List.any_eq_true.mpr ⟨a, ha, hsink⟩

/-! ### No bridge -/

theorem bridge?_eq_none_iff {offer : Alternatives} {roles : List Role} {source : Encoding}
    (hroles : roles ≠ []) :
    bridge? r offer requested roles source = none ↔
      ∀ first sink, Route.find? r requested roles source = some first →
        Route.Leads r roles source first sink →
        settleAcross? offer requested source sink = none := by
  rw [Option.eq_none_iff_forall_ne_some]
  constructor
  · intro h first sink hfirst hleads
    rw [Option.eq_none_iff_forall_ne_some]
    intro f hf
    exact h _ ((bridge?_eq_some_iff hroles).mpr ⟨first, sink, f, hfirst, hleads, hf, rfl⟩)
  · intro h plan hplan
    obtain ⟨first, sink, f, hfirst, hleads, hf, -⟩ := (bridge?_eq_some_iff hroles).mp hplan
    rw [h first sink hfirst hleads] at hf
    cases hf

theorem convert?_eq_none_iff :
    convert? r p available requested = none ↔
      ∀ roles, Enabled p roles → ∀ source ∈ available.encodings,
        bridge? r available.constraints requested roles source = none := by
  unfold convert?
  rw [List.findSome?_eq_none_iff]
  constructor
  · intro h roles hroles source hsource
    refine List.findSome?_eq_none_iff.mp (h roles (List.mem_filter.mpr hroles)) source ?_
    exact (p.ranking.mem_sort _ _).mpr ⟨hsource, ((available.mem_encodings _).mp hsource).1⟩
  · intro h roles hroles
    refine List.findSome?_eq_none_iff.mpr fun source hsource => ?_
    exact h roles (List.mem_filter.mp hroles) source ((p.ranking.mem_sort _ _).mp hsource).1

theorem negotiate_eq_incompatible_iff (h : requested.isEmpty = false) :
    negotiate r p available requested = .error (.incompatible available requested) ↔
      available.encodings ≠ [] ∧ requested.settleAgainst? available.constraints = none ∧
        convert? r p available requested = none := by
  unfold negotiate decide?
  rw [h]
  cases hencodings : available.encodings with
  | nil => simp
  | cons e es =>
    cases requested.settleAgainst? available.constraints with
    | some f => simp
    | none => cases convert? r p available requested <;> simp

/-! ### Hidden routes -/

/-- A strategy finds no bridge from an encoding exactly if every bridge there is hidden. -/
theorem bridge?_eq_none_iff_shadowed {roles : List Role} {source : Encoding}
    (hroles : Enabled p roles) (hsource : source ∈ available.encodings) :
    bridge? r available.constraints requested roles source = none ↔
      ∀ route, Bridges r p available requested roles source route →
        Shadowed r available requested roles source route := by
  rw [bridge?_eq_none_iff hroles.ne_nil]
  constructor
  · rintro h route ⟨-, -, sink, hleads, hsome⟩
    have hacc := acceptsEncoding_of_settleAcross? hsome
    obtain ⟨first, hfirst⟩ := Option.isSome_iff_exists.mp (Route.find?_complete hleads hacc)
    obtain ⟨sink', hleads', hacc'⟩ := Route.find?_sound hfirst
    have hnone := h first sink' hfirst hleads'
    -- The route found does not settle, so it is another one than the bridge.
    rcases Route.eq_or_precedes_of_find? hleads hacc hfirst with rfl | hprecedes
    · rw [hleads.sink_unique hleads', hnone] at hsome
      cases hsome
    · exact ⟨first, sink', hleads', hacc', hnone, hprecedes⟩
  · intro h first sink hfirst hleads
    by_contra hne
    obtain ⟨earlier, sink', hleads', hacc', -, hprecedes⟩ :=
      h first ⟨hroles, hsource, sink, hleads, Option.isSome_iff_ne_none.mpr hne⟩
    -- The route found is the first of all, so nothing precedes it.
    rcases Route.eq_or_precedes_of_find? hleads' hacc' hfirst with rfl | hprecedes'
    · exact hprecedes.asymm hprecedes
    · exact hprecedes.asymm hprecedes'

/-- **Negotiation fails exactly if both sides share no format and every bridge between them is
hidden behind a route that it tries before.** -/
theorem incompatible_iff_shadowed (r : Registry β) (p : Policy) (available : Catalog)
    (requested : Alternatives) (h : requested.isEmpty = false) :
    negotiate r p available requested = .error (.incompatible available requested) ↔
      available.encodings ≠ [] ∧ requested.settleAgainst? available.constraints = none ∧
        ∀ roles source route, Bridges r p available requested roles source route →
          Shadowed r available requested roles source route := by
  rw [negotiate_eq_incompatible_iff h, convert?_eq_none_iff]
  refine and_congr_right fun _ => and_congr_right fun _ => ?_
  constructor
  · intro hnone roles source route hb
    exact (bridge?_eq_none_iff_shadowed hb.enabled hb.source_mem).mp
      (hnone roles hb.enabled source hb.source_mem) route hb
  · intro hshadowed roles hroles source hsource
    exact (bridge?_eq_none_iff_shadowed hroles hsource).mpr (hshadowed roles source)

/-- Colour of one size in one encoding, or of another size in another encoding. A stage that makes
both is asked for the first, and the second stays hidden. -/
def colorByEncoding : Alternatives :=
  ⟨[{ encoding := .exactly .rgb24, width := .exactly 640, height := .exactly 480 },
    { encoding := .exactly .bgr24, width := .exactly 1920, height := .exactly 1080 }]⟩

theorem incompatible_although_bridged :
    colorByEncoding.isEmpty = false ∧
    negotiate debayerOnly {} mosaicDevice colorByEncoding =
      .error (.incompatible mosaicDevice colorByEncoding) ∧
    Bridges debayerOnly {} mosaicDevice colorByEncoding [.debayer] .rggb8
      [⟨.debayer, .rggb8, .bgr24⟩] ∧
    Shadowed debayerOnly mosaicDevice colorByEncoding [.debayer] .rggb8
      [⟨.debayer, .rggb8, .bgr24⟩] := by
  have hfails : negotiate debayerOnly {} mosaicDevice colorByEncoding =
      .error (.incompatible mosaicDevice colorByEncoding) := by
    rw [negotiate_eq_incompatible_iff rfl, convert?_mosaicDevice]
    exact ⟨by decide, by decide, rfl⟩
  have hbridges : Bridges debayerOnly {} mosaicDevice colorByEncoding [.debayer] .rggb8
      [⟨.debayer, .rggb8, .bgr24⟩] := {
    enabled := ⟨by decide, by decide⟩
    source_mem := by decide
    settles := ⟨.bgr24, .hop (by decide) rfl (by decide) (.done _), by decide⟩ }
  have hshadowed := ((incompatible_iff_shadowed _ _ _ _ rfl).mp hfails).2.2 _ _ _ hbridges
  exact ⟨rfl, hfails, hbridges, hshadowed⟩

/-! ### Uniform requests -/

/-- If all alternatives accept an encoding, it makes no difference to what they ask for else. -/
theorem withoutEncoding_filterEncoding {e : Encoding}
    (h : ∀ a ∈ requested.toList, a.encoding.accepts e) :
    (requested.filterEncoding e).withoutEncoding = requested.withoutEncoding := by
  unfold Alternatives.filterEncoding Alternatives.withEncoding Alternatives.withoutEncoding
    Alternatives.mapEncoding
  rw [List.filter_eq_self.mpr h, List.map_map]
  rfl

/-- **If all alternatives accept the same encodings, a failure means that nothing bridges the two
sides.** -/
theorem not_bridges_of_uniform
    (huniform : ∀ a ∈ requested.toList, ∀ b ∈ requested.toList, ∀ e,
      a.encoding.accepts e = b.encoding.accepts e)
    (hne : requested.isEmpty = false)
    (h : negotiate r p available requested = .error (.incompatible available requested))
    (roles : List Role) (source : Encoding) (route : List Hop) :
    ¬ Bridges r p available requested roles source route := by
  intro hb
  have hnone := (convert?_eq_none_iff.mp ((negotiate_eq_incompatible_iff hne).mp h).2.2)
    roles hb.enabled source hb.source_mem
  obtain ⟨_, _, -, hacc', hsettle', -⟩ :=
    (bridge?_eq_none_iff_shadowed hb.enabled hb.source_mem).mp hnone route hb
  obtain ⟨sink, -, hsettle⟩ := hb.settles
  -- An encoding that one alternative accepts is accepted by all of them.
  have hall : ∀ {e}, requested.acceptsEncoding e → ∀ a ∈ requested.toList, a.encoding.accepts e := by
    intro e hacc a ha
    obtain ⟨b, hbmem, hbe⟩ := List.any_eq_true.mp hacc
    rw [huniform a ha b hbmem e]
    exact hbe
  unfold settleAcross? at hsettle hsettle'
  rw [withoutEncoding_filterEncoding (hall (acceptsEncoding_of_settleAcross? hsettle))] at hsettle
  rw [withoutEncoding_filterEncoding (hall hacc')] at hsettle'
  rw [hsettle'] at hsettle
  cases hsettle

end CameraStream.Negotiation
