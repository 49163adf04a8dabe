import CameraStream.Proofs.Negotiation.Backtrack
import CameraStream.Proofs.Search

/-!
# The route that a search finds

`Route.Leads` says what a route is: one registered conversion for every role, each making an output
it has for the encoding it is given, and each starting where the one before it ended.
`Route.Precedes` says which of two routes comes first: at the hop where they part, the stage
registered earlier or the output preferred. `Route.find?` is characterized by the two:

* **Soundness** (`find?_sound`): what is found is a route to an encoding that the request accepts.
* **Completeness** (`find?_complete`): if there is such a route, one is found.
* **Order** (`eq_or_precedes_of_find?`): the route found precedes every other one.

Since `Precedes` is asymmetric (`Precedes.asymm`), there is only one first route. **`search_spec`**
says what becomes of the path on which the search is made: the first route is added to it, or
nothing at all.
-/

namespace CameraStream

/-! ### What stages make of an encoding -/

theorem StageDescriptor.accepts_of_mem_outputsFor {d : StageDescriptor} {e out : Encoding}
    (h : out ∈ d.outputsFor e) : d.accepts e := by
  unfold outputsFor at h
  split at h
  · next ha => exact ha
  · cases h

namespace Route

/-! ### Routes and their order -/

/-- A route by the given roles from one encoding to another, over registered stages. -/
inductive Leads {β : Type} (r : Registry β) :
    List Role → Encoding → List Hop → Encoding → Prop
  | done (e : Encoding) : Leads r [] e [] e
  | hop {role roles d e out route sink} : d ∈ r.descriptors → d.kind = .conversion role →
      out ∈ d.outputsFor e → Leads r roles out route sink →
      Leads r (role :: roles) e (⟨d, e, out⟩ :: route) sink

/-- The encodings to try on a hop, the preferred one first: outputs as the stage lists them, and
on the last hop what the request names before them. -/
def preference (d : StageDescriptor) (e : Encoding) (last : Bool) (requested : Alternatives) :
    List Encoding :=
  if last then requested.encodings ++ d.outputsFor e else d.outputsFor e

/-- Which of two routes comes first, decided at the hop where they part. -/
inductive Precedes {β : Type} (r : Registry β) (requested : Alternatives) :
    List Hop → List Hop → Prop
  | stage {h h' t t'} : r.descriptors.idxOf h.stage < r.descriptors.idxOf h'.stage →
      Precedes r requested (h :: t) (h' :: t')
  | output {d e a b t t'} : t.isEmpty = t'.isEmpty →
      (preference d e t.isEmpty requested).idxOf a < (preference d e t.isEmpty requested).idxOf b →
      Precedes r requested (⟨d, e, a⟩ :: t) (⟨d, e, b⟩ :: t')
  | rest {h t t'} : Precedes r requested t t' → Precedes r requested (h :: t) (h :: t')

variable {β : Type} {r : Registry β} {requested : Alternatives}

theorem Precedes.asymm {route route' : List Hop} (h : Precedes r requested route route') :
    ¬ Precedes r requested route' route := by
  induction h with
  | stage hlt =>
    intro h'
    cases h' with
    | stage hlt' => exact Nat.lt_asymm hlt hlt'
    | output _ _ => exact Nat.lt_irrefl _ hlt
    | rest _ => exact Nat.lt_irrefl _ hlt
  | output hlast hlt =>
    intro h'
    cases h' with
    | stage hlt' => exact Nat.lt_irrefl _ hlt'
    | output _ hlt' =>
      rw [← hlast] at hlt'
      exact Nat.lt_asymm hlt hlt'
    | rest _ => exact Nat.lt_irrefl _ hlt
  | rest _ ih =>
    intro h'
    cases h' with
    | stage hlt' => exact Nat.lt_irrefl _ hlt'
    | output _ hlt' => exact Nat.lt_irrefl _ hlt'
    | rest h'' => exact ih h''

theorem Leads.isEmpty_eq {roles : List Role} {e sink : Encoding} {route : List Hop}
    (h : Leads r roles e route sink) : route.isEmpty = roles.isEmpty := by
  cases h <;> rfl

theorem Leads.sink_unique {roles : List Role} {e sink sink' : Encoding} {route : List Hop}
    (h : Leads r roles e route sink) (h' : Leads r roles e route sink') : sink = sink' := by
  induction h with
  | done e =>
    cases h'
    rfl
  | hop _ _ _ _ ih =>
    cases h' with
    | hop _ _ _ htail => exact ih htail

/-- The last hop of a route makes the encoding it leads to. -/
theorem Leads.exists_last {roles : List Role} {e sink : Encoding} {route : List Hop}
    (h : Leads r roles e route sink) (hroles : roles ≠ []) :
    ∃ last, route.getLast? = some last ∧ last.output = sink := by
  induction h with
  | done e => exact absurd rfl hroles
  | @hop role roles d e out route sink _ _ _ htail ih =>
    cases htail with
    | done _ => exact ⟨⟨d, e, out⟩, rfl, rfl⟩
    | hop _ _ _ _ =>
      obtain ⟨last, hlast, hout⟩ := ih (List.cons_ne_nil _ _)
      refine ⟨last, ?_, hout⟩
      rw [List.getLast?_cons_cons]
      exact hlast

/-! ### The search, hop by hop -/

theorem mem_preference {d : StageDescriptor} {e out : Encoding} (h : out ∈ d.outputsFor e)
    (last : Bool) (requested : Alternatives) : out ∈ preference d e last requested := by
  unfold preference
  split
  · exact List.mem_append_right _ h
  · exact h

/-- Searching candidates is searching the outputs of a stage by preference, when the search fails
on what the request does not accept at the last hop. -/
theorem findSome?_candidates {γ : Type} (d : StageDescriptor) (e : Encoding) (last : Bool)
    (f : Encoding → Option γ)
    (hf : last = true → ∀ out, requested.acceptsEncoding out = false → f out = none) :
    (candidates d e last requested).findSome? f =
      (preference d e last requested).findSome? fun out =>
        if out ∈ d.outputsFor e then f out else none := by
  cases last with
  | false =>
    apply findSome?_congr
    intro out hout
    exact (if_pos hout).symm
  | true =>
    -- What the request names is filtered by the outputs, and the outputs by the request.
    show (Encoding.distinct _).findSome? f = (requested.encodings ++ d.outputsFor e).findSome? _
    rw [Encoding.findSome?_distinct, List.findSome?_append, List.findSome?_append,
      findSome?_filter, findSome?_filter]
    congr 1
    · apply findSome?_congr
      intro out _
      simp only [List.contains_iff_mem]
    · apply findSome?_congr
      intro out hout
      rw [if_pos hout]
      cases hacc : requested.acceptsEncoding out with
      | true => rfl
      | false => exact (hf rfl out hacc).symm

/-- The first route whose first hop is by a given stage. -/
def via? (r : Registry β) (requested : Alternatives) (roles : List Role) (e : Encoding)
    (d : StageDescriptor) : Option (List Hop) :=
  (preference d e roles.isEmpty requested).findSome? fun out =>
    if out ∈ d.outputsFor e then (find? r requested roles out).map (⟨d, e, out⟩ :: ·) else none

/-- Any output of a stage that leads on makes the stage one to start with. -/
theorem isSome_via? {roles : List Role} {d : StageDescriptor} {e out : Encoding}
    (hout : out ∈ d.outputsFor e) (h : (find? r requested roles out).isSome) :
    (via? r requested roles e d).isSome := by
  refine List.findSome?_isSome_iff.mpr ⟨out, mem_preference hout _ _, ?_⟩
  rw [if_pos hout, Option.isSome_map]
  exact h

/-- One hop of the search: stages in order of registration, and outputs by preference. -/
theorem find?_cons (role : Role) (roles : List Role) (e : Encoding) :
    find? r requested (role :: roles) e =
      r.descriptors.findSome? fun d =>
        if d.kind = .conversion role then via? r requested roles e d else none := by
  rw [find?_step, Registry.find, findSome?_filter]
  apply findSome?_congr
  intro d _
  by_cases hacc : d.accepts e
  · rw [via?, findSome?_candidates]
    · simp only [hacc, Bool.and_true, beq_iff_eq]
    · intro hlast out hout
      rw [List.isEmpty_iff.mp hlast, find?_nil, hout]
      rfl
  · -- A stage that does not take the encoding makes nothing of it.
    have hnone : via? r requested roles e d = none := by
      refine List.findSome?_eq_none_iff.mpr fun out _ => if_neg fun hout => hacc ?_
      exact StageDescriptor.accepts_of_mem_outputsFor hout
    rw [hnone, ite_self, if_neg]
    simp [hacc]

/-! ### Soundness and completeness -/

/-- **What is found is a route to an encoding that the request accepts.** -/
theorem find?_sound {roles : List Role} {e : Encoding} {route : List Hop}
    (h : find? r requested roles e = some route) :
    ∃ sink, Leads r roles e route sink ∧ requested.acceptsEncoding sink := by
  induction roles generalizing e route with
  | nil =>
    rw [find?_nil] at h
    split at h
    · next hacc =>
      cases h
      exact ⟨e, .done e, hacc⟩
    · cases h
  | cons role roles ih =>
    -- The first hop is by `d` to `out`, and the rest of the route is found from there.
    rw [find?_cons] at h
    obtain ⟨d, hd, h⟩ := List.exists_of_findSome?_eq_some h
    split at h
    · next hkind =>
      obtain ⟨out, -, h⟩ := List.exists_of_findSome?_eq_some h
      split at h
      · next hout =>
        obtain ⟨rest, hrest, rfl⟩ := Option.map_eq_some_iff.mp h
        obtain ⟨sink, hleads, hacc⟩ := ih hrest
        exact ⟨sink, .hop hd hkind hout hleads, hacc⟩
      · cases h
    · cases h

/-- **Where some route leads to an accepted encoding, one is found.** -/
theorem find?_complete {roles : List Role} {e sink : Encoding} {route : List Hop}
    (h : Leads r roles e route sink) (hacc : requested.acceptsEncoding sink) :
    (find? r requested roles e).isSome := by
  induction h with
  | done e =>
    rw [find?_nil, if_pos hacc]
    rfl
  | @hop role roles d e out route sink hd hkind hout _ ih =>
    rw [find?_cons]
    refine List.findSome?_isSome_iff.mpr ⟨d, hd, ?_⟩
    rw [if_pos hkind]
    exact isSome_via? hout (ih hacc)

/-- **The route found comes before every other one.** -/
theorem eq_or_precedes_of_find? {roles : List Role} {e sink : Encoding} {route first : List Hop}
    (h : Leads r roles e route sink) (hacc : requested.acceptsEncoding sink)
    (hfirst : find? r requested roles e = some first) :
    route = first ∨ Precedes r requested first route := by
  induction h generalizing first with
  | done e =>
    rw [find?_nil, if_pos hacc] at hfirst
    exact Or.inl (Option.some.inj hfirst)
  | @hop role roles d e out route sink hd hkind hout htail ih =>
    have hrest := find?_complete htail hacc
    rw [find?_cons] at hfirst
    obtain ⟨d₁, -, hvia, hstages⟩ := exists_first_of_findSome? hfirst
    split at hvia
    · -- Stages are compared first, and outputs only if both routes start with one stage.
      obtain ⟨out₁, -, hout₁, houtputs⟩ := exists_first_of_findSome? hvia
      split at hout₁
      · obtain ⟨rest, hfound, rfl⟩ := Option.map_eq_some_iff.mp hout₁
        rcases hstages d hd (by rw [if_pos hkind]; exact isSome_via? hout hrest) with rfl | hlt
        · rcases houtputs out (mem_preference hout _ _)
              (by rw [if_pos hout, Option.isSome_map]; exact hrest) with rfl | hlt
          · rcases ih hacc hfound with rfl | hrec
            · exact Or.inl rfl
            · exact Or.inr (.rest hrec)
          · right
            obtain ⟨_, hleads, -⟩ := find?_sound hfound
            refine .output (hleads.isEmpty_eq.trans htail.isEmpty_eq.symm) ?_
            rw [hleads.isEmpty_eq]
            exact hlt
        · exact Or.inr (.stage hlt)
      · cases hout₁
    · cases hvia

/-! ### The search and its path -/

/-- A route leads to an encoding that the request accepts. -/
def Serves (r : Registry β) (requested : Alternatives) (roles : List Role) (e : Encoding)
    (route : List Hop) : Prop :=
  ∃ sink, Leads r roles e route sink ∧ requested.acceptsEncoding sink

/-- A route serves the request and precedes every other one that does. -/
structure First (r : Registry β) (requested : Alternatives) (roles : List Role) (e : Encoding)
    (route : List Hop) : Prop where
  serves : Serves r requested roles e route
  precedes : ∀ other, Serves r requested roles e other →
    other = route ∨ Precedes r requested route other

theorem First.unique {roles : List Role} {e : Encoding} {route route' : List Hop}
    (h : First r requested roles e route) (h' : First r requested roles e route') :
    route = route' := by
  rcases h.precedes route' h'.serves with heq | hlt
  · exact heq.symm
  · rcases h'.precedes route h.serves with heq | hlt'
    · exact heq
    · exact absurd hlt' hlt.asymm

theorem first_of_find? {roles : List Role} {e : Encoding} {route : List Hop}
    (h : find? r requested roles e = some route) : First r requested roles e route where
  serves := find?_sound h
  precedes := fun _ ⟨_, hleads, hacc⟩ => eq_or_precedes_of_find? hleads hacc h

theorem not_serves_of_find? {roles : List Role} {e : Encoding}
    (h : find? r requested roles e = none) (route : List Hop) :
    ¬ Serves r requested roles e route := by
  rintro ⟨sink, hleads, hacc⟩
  have hsome := find?_complete hleads hacc
  rw [h] at hsome
  cases hsome

/-- **A search succeeds exactly if some route serves the request. It adds the first such route to
the path, and leaves the path as it was if there is none.** -/
theorem search_spec (r : Registry β) (requested : Alternatives) (roles : List Role) (e : Encoding)
    (path : Array Hop) :
    ∃ found path', (search r requested roles e).run path = (found, path') ∧
      (found = true ↔ ∃ route, Serves r requested roles e route) ∧
      (found = true → ∃ route, First r requested roles e route ∧ path' = path ++ route) ∧
      (found = false → path' = path) := by
  have hrun : Adds (search r requested roles e) (find? r requested roles e) := adds_search roles e
  cases hfind : find? r requested roles e with
  | some route =>
    rw [hfind] at hrun
    have hfirst := first_of_find? hfind
    exact ⟨true, path ++ route, hrun path, ⟨fun _ => ⟨route, hfirst.serves⟩, fun _ => rfl⟩,
      fun _ => ⟨route, hfirst, rfl⟩, Bool.noConfusion⟩
  | none =>
    rw [hfind] at hrun
    have hnone : ¬ ∃ route, Serves r requested roles e route :=
      fun ⟨route, hserves⟩ => not_serves_of_find? hfind route hserves
    exact ⟨false, path, hrun path, ⟨Bool.noConfusion, fun h => absurd h hnone⟩, Bool.noConfusion,
      fun _ => rfl⟩

end Route
end CameraStream
