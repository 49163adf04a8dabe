import CameraStream.Proofs.Negotiation.Decision

/-!
# A request for nothing in particular

Such a request settles for one encoding before it asks for a format. It takes the best of all
encodings that are reported, and then the largest format of that one encoding
(`Negotiation.negotiate_empty_eq_ok_iff`). An encoding has no largest format if no size is reported
for it, or only with the rates left open. If such an encoding is ranked best, nothing else is tried.

**`Negotiation.negotiate_empty_spec`** compares this with the best of those encodings that have a
largest format, `Catalog.producible`. Nothing else is ever served, but it is missed exactly if the
best of all encodings has no largest format.
-/

namespace CameraStream

/-! ### What is reported -/

namespace Catalog

variable {c : Catalog} {k : Ranking} {e : Encoding}

/-- The encodings that are reported, offer by offer. -/
def reported (c : Catalog) : List Encoding := c.offers.map (·.encoding)

/-- The encodings among them that have a largest format. -/
def producible (c : Catalog) : List Encoding :=
  c.reported.filter fun e => (c.largestFormat? e).isSome

theorem mem_producible : e ∈ c.producible ↔ e ∈ c.reported ∧ ∃ f, c.largestFormat? e = some f := by
  rw [producible, List.mem_filter, Option.isSome_iff_exists]

theorem best_encodings_iff : k.Best c.encodings e ↔ k.Best c.reported e := by
  rw [encodings, Ranking.best_distinct_iff, Ranking.best_filter_isValid_iff, reported]

/-- What is best of all is best of what can be produced, if it can be produced itself. -/
theorem best_producible_of_best (h : k.Best c.reported e) {f : VideoFormat}
    (hf : c.largestFormat? e = some f) : k.Best c.producible e where
  mem := mem_producible.mpr ⟨h.mem, f, hf⟩
  ranked := h.ranked
  first := by
    intro x n m hx hn hm
    obtain ⟨hreported, g, hg⟩ := mem_producible.mp hx
    have horder := idxOf_filter_lt_iff (p := fun e => (c.largestFormat? e).isSome) c.reported
      (Option.isSome_of_mem hf) (Option.isSome_of_mem hg)
    rw [producible, horder]
    exact h.first hreported hn hm

theorem not_isEmpty_of_best (h : k.Best c.reported e) : c.encodings.isEmpty = false := by
  rw [List.isEmpty_eq_false_iff]
  exact List.ne_nil_of_mem (best_encodings_iff.mpr h).mem

end Catalog

namespace Negotiation

variable {β : Type} {r : Registry β} {p : Policy} {c : Catalog}

/-! ### What is served -/

theorem mostCapable?_eq_some_iff {plan : Plan} :
    mostCapable? p c = some plan ↔
      ∃ e f, p.ranking.Best c.reported e ∧ c.largestFormat? e = some f ∧ plan = .direct f := by
  unfold mostCapable?
  simp only [Option.bind_eq_bind, Option.bind_eq_some_iff, Option.pure_def, Option.some.injEq,
    Ranking.preferred?_eq_some_iff, Catalog.best_encodings_iff]
  constructor
  · rintro ⟨e, he, f, hf, rfl⟩
    exact ⟨e, f, he, hf, rfl⟩
  · rintro ⟨e, f, he, hf, rfl⟩
    exact ⟨e, he, f, hf, rfl⟩

theorem mostCapable?_eq_none_iff :
    mostCapable? p c = none ↔ ∀ e, p.ranking.Best c.reported e → c.largestFormat? e = none := by
  rw [← Option.not_isSome_iff_eq_none, Option.isSome_iff_exists]
  simp only [mostCapable?_eq_some_iff]
  constructor
  · intro h e he
    by_contra hsome
    obtain ⟨f, hf⟩ := Option.ne_none_iff_exists'.mp hsome
    exact h ⟨_, e, f, he, hf, rfl⟩
  · rintro h ⟨-, e, f, he, hf, -⟩
    cases (h e he).symm.trans hf

theorem negotiate_empty_eq_ok_iff {plan : Plan} :
    negotiate r p c {} = .ok plan ↔
      ∃ e f, p.ranking.Best c.reported e ∧ c.largestFormat? e = some f ∧
        plan = interpret r (.direct f) := by
  rw [negotiate_eq_ok_iff]
  constructor
  · rintro ⟨-, base, hbase, rfl⟩
    obtain ⟨e, f, he, hf, rfl⟩ := mostCapable?_eq_some_iff.mp hbase
    exact ⟨e, f, he, hf, rfl⟩
  · rintro ⟨e, f, he, hf, rfl⟩
    exact ⟨Catalog.not_isEmpty_of_best he, _, mostCapable?_eq_some_iff.mpr ⟨e, f, he, hf, rfl⟩, rfl⟩

theorem negotiate_empty_eq_incompatible_iff :
    negotiate r p c {} = .error (.incompatible c {}) ↔
      c.encodings.isEmpty = false ∧ mostCapable? p c = none := by
  have hdecide : decide? r p c {} = mostCapable? p c := rfl
  unfold negotiate
  rw [hdecide]
  cases c.encodings.isEmpty <;> cases mostCapable? p c <;> simp

/-- **What is served is the best that can be produced, and that is served exactly if nothing is
ranked before it.** -/
theorem negotiate_empty_spec (r : Registry β) (p : Policy) (c : Catalog) :
    (∀ plan, negotiate r p c {} = .ok plan →
      ∃ e f, p.ranking.Best c.producible e ∧ c.largestFormat? e = some f ∧
        plan = interpret r (.direct f) ∧ plan.sourceFormat = f ∧ plan.sinkFormat = f) ∧
    ∀ e f, p.ranking.Best c.producible e → c.largestFormat? e = some f →
      (negotiate r p c {} = .ok (interpret r (.direct f)) ↔ p.ranking.Best c.reported e) ∧
      (negotiate r p c {} = .error (.incompatible c {}) ↔
        ∃ first, p.ranking.Best c.reported first ∧ c.largestFormat? first = none) := by
  refine ⟨?_, ?_⟩
  · intro plan h
    obtain ⟨e, f, he, hf, rfl⟩ := negotiate_empty_eq_ok_iff.mp h
    exact ⟨e, f, Catalog.best_producible_of_best he hf, hf, rfl, rfl, rfl⟩
  · intro e f he hf
    -- Something has a rank, so there is a best encoding, which alone decides.
    obtain ⟨first, hfirst⟩ := Ranking.exists_best (Catalog.mem_producible.mp he.mem).1 he.ranked
    refine ⟨?_, ?_⟩
    · rw [negotiate_empty_eq_ok_iff]
      constructor
      · rintro ⟨e', f', he', hf', -⟩
        rwa [he.unique (Catalog.best_producible_of_best he' hf')]
      · intro hbest
        exact ⟨e, f, hbest, hf, rfl⟩
    · rw [negotiate_empty_eq_incompatible_iff, mostCapable?_eq_none_iff]
      constructor
      · rintro ⟨-, hnone⟩
        exact ⟨first, hfirst, hnone first hfirst⟩
      · rintro ⟨e', he', hnone⟩
        refine ⟨Catalog.not_isEmpty_of_best he', fun e'' he'' => ?_⟩
        rwa [he''.unique he']

/-- A device that reports a mosaic without a size, and compressed frames of one size. -/
def sizelessDevice : Catalog :=
  ⟨[⟨.rggb8, []⟩, ⟨.mjpeg, [⟨.single ⟨640, 480⟩, .exactly (.fps 30)⟩]⟩]⟩

/-- The mosaic is ranked before the compressed frames, so these are not served. -/
theorem sizelessDevice_incompatible :
    Ranking.standard.Best sizelessDevice.producible .mjpeg ∧
    sizelessDevice.largestFormat? .mjpeg = some ⟨.mjpeg, ⟨640, 480⟩, .fps 30⟩ ∧
    negotiate debayerOnly {} sizelessDevice {} = .error (.incompatible sizelessDevice {}) := by
  have hbest : Ranking.standard.Best sizelessDevice.producible .mjpeg :=
    Ranking.preferred?_eq_some_iff.mp (by decide)
  have hlargest : sizelessDevice.largestFormat? .mjpeg = some ⟨.mjpeg, ⟨640, 480⟩, .fps 30⟩ := by
    decide
  have hfirst : Ranking.standard.Best sizelessDevice.reported .rggb8 :=
    Ranking.preferred?_eq_some_iff.mp (by decide)
  refine ⟨hbest, hlargest, ?_⟩
  exact ((negotiate_empty_spec debayerOnly {} sizelessDevice).2 _ _ hbest hlargest).2.mpr
    ⟨.rggb8, hfirst, by decide⟩

end Negotiation
end CameraStream
