import CameraStream.Proofs.Negotiation.Failure
import CameraStream.Proofs.Negotiation.Shape

/-!
# What negotiation takes from a registry

Negotiation knows a registry only by what it finds there for a kind of stage and an encoding. The
search for a plan asks for the roles of the strategies it tries, and for nothing else: registries
that agree on these roles lead to the same plan (`bridge?_congr`), and what a strategy that the policy
forbids could come to makes no difference (`negotiate_congr`).

Two things follow about registries that differ.

* **Switches** (`negotiate_switched_off`): to forbid a role is to remove the stages that fill it.
* **Interpretations** (`negotiate_register_interpretation`): one more interpretation takes its place
  in the plan, behind the others and ahead of the conversions, and changes nothing else of the result.
-/

namespace CameraStream

/-! ### Registries that differ -/

namespace RegistryEntry

/-- An entry under a new name is the last one. -/
theorem put_of_fresh {β : Type} {x : RegistryEntry β} {xs : List (RegistryEntry β)}
    (h : x.name ∉ xs.map name) : x.put xs = xs ++ [x] := by
  induction xs with
  | nil => rfl
  | cons y rest ih =>
    rw [List.map_cons, List.mem_cons, not_or] at h
    obtain ⟨hne, hrest⟩ := h
    rw [put, if_neg (Ne.symm hne), ih hrest]
    rfl

end RegistryEntry

namespace Registry

variable {β : Type}

/-- The registry without the stages that fill a role. -/
def without (r : Registry β) (role : Role) : Registry β where
  entries := r.entries.filter fun x => x.descriptor.kind != .conversion role
  nodup_names := r.nodup_names.sublist (List.filter_sublist.map _)

theorem find_without (r : Registry β) (role : Role) (k : StageKind) (e : Encoding) :
    (r.without role).find k e = if k = .conversion role then [] else r.find k e := by
  have hdescriptors : (r.without role).descriptors =
      r.descriptors.filter fun d => d.kind != .conversion role := by
    unfold descriptors without
    rw [List.filter_map]
    rfl
  unfold find
  rw [hdescriptors, List.filter_filter]
  split
  · next hk =>
    refine List.filter_eq_nil_iff.mpr fun d _ => ?_
    subst hk
    cases hkind : d.kind == .conversion role <;> simp [bne, hkind]
  · next hk =>
    apply List.filter_congr
    intro d _
    by_cases hkind : d.kind = k
    · simp [hkind, hk]
    · simp [hkind]

theorem find_register {r : Registry β} {d : StageDescriptor} (b : β)
    (hfresh : d.name ∉ r.entries.map RegistryEntry.name) (k : StageKind) (e : Encoding) :
    (r.register d b).find k e =
      r.find k e ++ if d.kind = k ∧ d.accepts e then [d] else [] := by
  have hdescriptors : (r.register d b).descriptors = r.descriptors ++ [d] := by
    show (RegistryEntry.put ⟨d, b⟩ r.entries).map (·.descriptor) = _
    rw [RegistryEntry.put_of_fresh (x := ⟨d, b⟩) hfresh, List.map_append]
    rfl
  unfold find
  rw [hdescriptors, List.filter_append]
  congr 1
  by_cases hd : d.kind = k ∧ d.accepts e
  · rw [if_pos hd]
    simp [hd.1, hd.2]
  · rw [if_neg hd, List.filter_eq_nil_iff]
    simpa using hd

/-- Two registries have the same stages, in the same order, for each of some roles. -/
def AgreeOn (r r' : Registry β) (roles : List Role) : Prop :=
  ∀ role ∈ roles, ∀ e, r'.find (.conversion role) e = r.find (.conversion role) e

end Registry

/-! ### What a search asks for -/

namespace Route

variable {β : Type} {r r' : Registry β} {requested : Alternatives}

theorem find?_congr {roles : List Role} (h : r.AgreeOn r' roles) (e : Encoding) :
    find? r' requested roles e = find? r requested roles e := by
  induction roles generalizing e with
  | nil => rfl
  | cons role roles ih =>
    have hrest : r.AgreeOn r' roles := fun other hother => h other (List.mem_cons_of_mem _ hother)
    rw [find?_step, find?_step, h role List.mem_cons_self]
    simp only [ih hrest]

/-- No route goes by a role that nobody fills. -/
theorem Leads.not_mem_of_without {role : Role} {roles : List Role} {e sink : Encoding}
    {route : List Hop} (h : Leads (r.without role) roles e route sink) : role ∉ roles := by
  induction h with
  | done _ => exact List.not_mem_nil
  | @hop role' _ d _ _ _ _ hd hkind _ _ ih =>
    have hne : role ≠ role' := by
      rintro rfl
      obtain ⟨x, hx, rfl⟩ := List.mem_map.mp hd
      exact bne_iff_ne.mp (List.mem_filter.mp hx).2 hkind
    exact List.not_mem_cons_of_ne_of_not_mem hne ih

end Route

namespace Negotiation

variable {β : Type} {r r' : Registry β} {p p' : Policy} {available : Catalog}
  {requested : Alternatives}

theorem bridge?_congr {offer : Alternatives} {roles : List Role} (h : r.AgreeOn r' roles)
    (source : Encoding) :
    bridge? r' offer requested roles source = bridge? r offer requested roles source := by
  unfold bridge?
  rw [Route.find?_congr h]

/-- What a strategy comes to from one encoding of the source, if the policy allows it. -/
def attempt? (r : Registry β) (p : Policy) (offer requested : Alternatives) (roles : List Role)
    (source : Encoding) : Option Plan :=
  if roles.all p.allows then bridge? r offer requested roles source else none

/-- Strategies that the policy forbids may be searched for as well, since they come to nothing. -/
theorem convert?_eq_findSome? (r : Registry β) (p : Policy) (available : Catalog)
    (requested : Alternatives) :
    convert? r p available requested = strategies.findSome? fun roles =>
      (p.ranking.sort available.encodings).findSome?
        (attempt? r p available.constraints requested roles) := by
  unfold convert?
  rw [findSome?_filter]
  apply findSome?_congr
  intro roles _
  unfold attempt?
  cases roles.all p.allows with
  | true => rfl
  | false => exact (List.findSome?_eq_none_iff.mpr fun _ _ => rfl).symm

theorem decide?_congr (hranking : p'.ranking = p.ranking)
    (hattempt : ∀ roles ∈ strategies, ∀ source,
      attempt? r' p' available.constraints requested roles source =
        attempt? r p available.constraints requested roles source) :
    decide? r' p' available requested = decide? r p available requested := by
  have hconvert : convert? r' p' available requested = convert? r p available requested := by
    rw [convert?_eq_findSome?, convert?_eq_findSome?, hranking]
    apply findSome?_congr
    intro roles hroles
    exact findSome?_congr fun source _ => hattempt roles hroles source
  unfold decide? mostCapable?
  rw [hranking, hconvert]

/-- **Registries and policies that every strategy comes to the same with lead to the same result**, if
they also have the same interpretations. -/
theorem negotiate_congr (hranking : p'.ranking = p.ranking)
    (hattempt : ∀ roles ∈ strategies, ∀ source,
      attempt? r' p' available.constraints requested roles source =
        attempt? r p available.constraints requested roles source)
    (hinterpretations : ∀ e, r'.interpretations e = r.interpretations e) :
    negotiate r' p' available requested = negotiate r p available requested := by
  have hinterpret : interpret r' = interpret r := by
    funext plan
    unfold interpret
    rw [hinterpretations]
  unfold negotiate
  rw [decide?_congr hranking hattempt, hinterpret]

/-! ### Roles that are forbidden -/

/-- Without stages for one of its roles a strategy comes to nothing. -/
theorem bridge?_without {offer : Alternatives} {roles : List Role} {role : Role}
    (hrole : role ∈ roles) (source : Encoding) :
    bridge? (r.without role) offer requested roles source = none := by
  refine (bridge?_eq_none_iff (List.ne_nil_of_mem hrole)).mpr fun first sink _ hleads => ?_
  exact absurd hrole hleads.not_mem_of_without

/-- A policy that forbids one role more, over a registry, comes to the same as the policy that allows
it over the registry without its stages. -/
theorem negotiate_of_forbidden {role : Role} (hranking : p'.ranking = p.ranking)
    (hforbidden : p'.allows role = false)
    (hothers : ∀ other, other ≠ role → p'.allows other = p.allows other) :
    negotiate r p' available requested = negotiate (r.without role) p available requested := by
  refine negotiate_congr hranking (fun roles _ source => ?_) fun e => ?_
  · unfold attempt?
    by_cases hrole : role ∈ roles
    · -- The strategy is forbidden here, and lacks a stage there.
      rw [bridge?_without hrole, ite_self, if_neg]
      intro hall
      rw [List.all_eq_true.mp hall role hrole] at hforbidden
      cases hforbidden
    · have hne : ∀ other ∈ roles, other ≠ role := fun other hother h => hrole (h ▸ hother)
      have hagree : (r.without role).AgreeOn r roles := by
        intro other hother e
        rw [Registry.find_without, if_neg fun h => hne other hother (StageKind.conversion.inj h)]
      have hall : roles.all p'.allows = roles.all p.allows := by
        rw [Bool.eq_iff_iff, List.all_eq_true, List.all_eq_true]
        exact forall₂_congr fun other hother => by rw [hothers other (hne other hother)]
      rw [hall, bridge?_congr hagree]
  · rw [Registry.interpretations, Registry.interpretations, Registry.find_without,
      if_neg StageKind.noConfusion]

/-- **To switch off a strategy is to remove the stages it needs.** Negotiation without combined stages,
or without reduction to one byte, has the same result, plan or error, as negotiation with it over the
registry without the stages that do it. -/
theorem negotiate_switched_off (r : Registry β) (p : Policy) (available : Catalog)
    (requested : Alternatives) :
    negotiate r { p with useCombined := false } available requested =
        negotiate (r.without .combined) { p with useCombined := true } available requested ∧
      negotiate r { p with useNormalize := false } available requested =
        negotiate (r.without .bayerNormalize) { p with useNormalize := true } available
          requested := by
  constructor
  · refine negotiate_of_forbidden rfl rfl fun other hother => ?_
    cases other with
    | combined => exact absurd rfl hother
    | bayerNormalize | debayer | colorConvert | decode => rfl
  · refine negotiate_of_forbidden rfl rfl fun other hother => ?_
    cases other with
    | bayerNormalize => exact absurd rfl hother
    | combined | debayer | colorConvert | decode => rfl

/-! ### One interpretation more -/

section Interpretation

variable {d : StageDescriptor} (b : β) (hkind : d.kind = .interpretation)
  (hfresh : d.name ∉ r.entries.map RegistryEntry.name)
include hkind hfresh

theorem decide?_register_interpretation :
    decide? (r.register d b) p available requested = decide? r p available requested := by
  refine decide?_congr rfl fun roles _ source => ?_
  have hagree : r.AgreeOn (r.register d b) roles := by
    intro role _ e
    rw [Registry.find_register b hfresh, hkind, if_neg fun h => StageKind.noConfusion h.1,
      List.append_nil]
  unfold attempt?
  rw [bridge?_congr hagree]

/-- The new stage comes behind the other interpretations. -/
theorem interpret_register_interpretation (plan : Plan) :
    interpret (r.register d b) plan = { plan with
      stages := (r.interpretations plan.sourceFormat.encoding).map
          (fun d => ⟨d.name, d.kind, plan.sourceFormat, plan.sourceFormat⟩) ++
        (if d.input.contains plan.sourceFormat.encoding then
          [⟨d.name, .interpretation, plan.sourceFormat, plan.sourceFormat⟩] else []) ++
        plan.stages } := by
  unfold interpret Registry.interpretations
  rw [Registry.find_register b hfresh, List.map_append]
  simp only [hkind, true_and, StageDescriptor.accepts]
  cases d.input.contains plan.sourceFormat.encoding with
  | true => simp only [if_true, List.map_cons, List.map_nil, hkind]
  | false => rfl

end Interpretation

/-- What is decided on is made of conversions. -/
theorem Decided.kind_ne_interpretation {plan : Plan} (h : Decided r p available requested plan) :
    ∀ s ∈ plan.stages, s.kind ≠ .interpretation := by
  cases h with
  | mostCapable _ _ _ | direct _ _ => exact fun _ hs => nomatch hs
  | @bridged roles _ route _ f _ _ _ hleads _ =>
    intro s hs hinterpretation
    have hkinds := kinds_bindRoute hleads f
    have hmem : s.kind ∈ roles.map StageKind.conversion := hkinds ▸ List.mem_map_of_mem hs
    obtain ⟨role, -, hrole⟩ := List.mem_map.mp hmem
    rw [hinterpretation] at hrole
    cases hrole

/-- **An interpretation does not influence negotiation.** With one more of them, under a new name,
negotiation fails as before, or it succeeds as before with the same formats and conversions; the
new stage is in the plan once, between the other interpretations and the conversions, exactly if it
takes the source's encoding. -/
theorem negotiate_register_interpretation (r : Registry β) (p : Policy) (available : Catalog)
    (requested : Alternatives) (d : StageDescriptor) (b : β) (hkind : d.kind = .interpretation)
    (hfresh : d.name ∉ r.entries.map RegistryEntry.name) :
    (∀ err, negotiate (r.register d b) p available requested = .error err ↔
      negotiate r p available requested = .error err) ∧
    ∀ plan, negotiate r p available requested = .ok plan →
      ∃ front conversions, plan.stages = front ++ conversions ∧
        (∀ s ∈ front, s.kind = .interpretation) ∧ (∀ s ∈ conversions, s.kind ≠ .interpretation) ∧
        negotiate (r.register d b) p available requested = .ok { plan with
          stages := front ++ (if d.input.contains plan.sourceFormat.encoding then
            [⟨d.name, .interpretation, plan.sourceFormat, plan.sourceFormat⟩] else []) ++
            conversions } := by
  have hdecide : decide? (r.register d b) p available requested = decide? r p available requested :=
    decide?_register_interpretation b hkind hfresh
  constructor
  · intro err
    unfold negotiate
    rw [hdecide]
    split
    · exact Iff.rfl
    · cases decide? r p available requested with
      | none => exact Iff.rfl
      | some _ => simp only [reduceCtorEq]
  · intro plan hplan
    obtain ⟨hoffered, base, hbase, rfl⟩ := negotiate_eq_ok_iff.mp hplan
    refine ⟨_, base.stages, rfl, ?_, (decide?_sound hbase).kind_ne_interpretation, ?_⟩
    · -- The front is what the registry has found as interpretations.
      intro s hs
      obtain ⟨d', hd', rfl⟩ := List.mem_map.mp hs
      exact beq_iff_eq.mp (Bool.and_eq_true_iff.mp (List.mem_filter.mp hd').2).1
    · refine negotiate_eq_ok_iff.mpr ⟨hoffered, base, hdecide.trans hbase, ?_⟩
      exact interpret_register_interpretation b hkind hfresh base

/-- The statistics of a registry that already has white balance come behind it. -/
theorem negotiate_register_statistics :
    StageDescriptor.frameStatistics.kind = .interpretation ∧
    StageDescriptor.frameStatistics.name ∉
      (debayerOnly.register .whiteBalance ()).entries.map RegistryEntry.name ∧
    ∃ front conversions,
      [⟨"white-balance", .interpretation, debayerPlan.sourceFormat, debayerPlan.sourceFormat⟩] ++
          debayerPlan.stages = front ++ conversions ∧
        (∀ s ∈ front, s.kind = .interpretation) ∧ (∀ s ∈ conversions, s.kind ≠ .interpretation) ∧
        negotiate ((debayerOnly.register .whiteBalance ()).register .frameStatistics ()) {}
            mosaicDevice (.ofFormat fullColor) =
          .ok { debayerPlan with
            stages := front ++ [⟨"frame-statistics", .interpretation, debayerPlan.sourceFormat,
              debayerPlan.sourceFormat⟩] ++ conversions } := by
  have hplan : negotiate (debayerOnly.register .whiteBalance ()) {} mosaicDevice
      (.ofFormat fullColor) =
      .ok { debayerPlan with
        stages := [⟨"white-balance", .interpretation, debayerPlan.sourceFormat,
          debayerPlan.sourceFormat⟩] ++ debayerPlan.stages } := by
    unfold negotiate decide?
    rw [convert?_mosaicDevice]
    rfl
  have hkind : StageDescriptor.frameStatistics.kind = .interpretation := rfl
  have hfresh : StageDescriptor.frameStatistics.name ∉
      (debayerOnly.register .whiteBalance ()).entries.map RegistryEntry.name := by decide
  obtain ⟨-, hok⟩ := negotiate_register_interpretation (debayerOnly.register .whiteBalance ()) {}
    mosaicDevice (.ofFormat fullColor) .frameStatistics () hkind hfresh
  exact ⟨hkind, hfresh, hok _ hplan⟩

end Negotiation
end CameraStream
