import CameraStream.Proofs.Report

/-!
# What the alternatives of a report accept

`Catalog.constraints` names some sizes of a grid one by one before the grid itself. Where that
leaves the set of formats alone, the alternatives accept what `Catalog.supports` says the device
can produce; here it is worked out when it does.

No format is lost: the grid is among its own alternatives (`exists_constraint_of_supports`). What
can be gained is the largest size of a grid, which is named whether or not the steps lead up to it.
So the alternatives accept the supported formats and those of a reported largest size
(`accepts_constraints_iff`), and the two readings of a report agree as soon as the steps of every
grid divide its extent (`Sizes.Even`).
-/

namespace CameraStream

namespace Sizes

/-- The steps from the smallest size lead up to the largest one. -/
def Even : Sizes → Prop
  | single _ => True
  | grid lo hi widthStep heightStep =>
    max widthStep 1 ∣ hi.width - lo.width ∧ max heightStep 1 ∣ hi.height - lo.height

instance : (x : Sizes) → Decidable x.Even
  | single _ => inferInstanceAs (Decidable True)
  | grid lo hi widthStep heightStep =>
    inferInstanceAs (Decidable (max widthStep 1 ∣ hi.width - lo.width ∧
      max heightStep 1 ∣ hi.height - lo.height))

/-- The largest size can be produced exactly if the steps lead up to it. -/
theorem contains_largest_iff {x : Sizes} (hx : x.Forward) : x.contains x.largest ↔ x.Even := by
  cases x with
  | single s => simp [contains, largest, Even]
  | grid lo hi widthStep heightStep =>
    obtain ⟨hwidth, hheight⟩ := hx
    simp only [contains, largest, Even, onGrid, Bool.and_eq_true, decide_eq_true_eq, onStep_iff,
      hwidth, hheight, le_refl, true_and]

end Sizes

namespace Resolution

/-- Every size that can be produced satisfies one of the constraints. -/
theorem exists_constraint_of_contains {r : Resolution} {f : VideoFormat}
    (hsize : r.contains f.size) (hrate : r.rates.accepts f.rate) :
    ∃ d ∈ r.constraints f.encoding, d.accepts f := by
  unfold contains at hsize
  cases hsizes : r.sizes with
  | single s =>
    rw [hsizes] at hsize
    have hs : s = f.size := beq_iff_eq.mp hsize
    have hlandmark : f.size ∈ r.sizes.landmarks := by
      rw [hsizes, hs]
      exact List.mem_singleton_self f.size
    refine ⟨r.atSize f.encoding f.size, r.atSize_mem_constraints _ hlandmark, ?_⟩
    rw [FormatConstraint.accepts_iff]
    exact ⟨beq_self_eq_true _, (Extent.accepts_exactly_iff _ _).mpr rfl,
      (Extent.accepts_exactly_iff _ _).mpr rfl, hrate⟩
  | grid lo hi widthStep heightStep =>
    rw [hsizes, Sizes.contains, Sizes.onGrid_eq_accepts, Sizes.onGrid_eq_accepts,
      Bool.and_eq_true] at hsize
    -- The grid itself is the last of the constraints.
    refine ⟨_, List.mem_append_right _ (by rw [hsizes]; exact List.mem_singleton_self _), ?_⟩
    rw [FormatConstraint.accepts_iff]
    exact ⟨beq_self_eq_true _, hsize.1, hsize.2, hrate⟩

end Resolution

namespace Catalog

/-- No entry has an inverted range of sizes. -/
def SizesForward (c : Catalog) : Prop := ∀ o ∈ c.offers, ∀ r ∈ o.resolutions, r.sizes.Forward

/-- The alternatives accept exactly what the device can produce in a valid encoding. -/
def ExpandsExactly (c : Catalog) : Prop :=
  ∀ f, c.constraints.accepts f ↔ f.encoding.isValid ∧ c.supports f

instance (c : Catalog) : Decidable c.SizesForward :=
  inferInstanceAs (Decidable (∀ o ∈ c.offers, ∀ r ∈ o.resolutions, r.sizes.Forward))

/-- **No format is lost**: what can be produced satisfies one of the alternatives. -/
theorem exists_constraint_of_supports {c : Catalog} {f : VideoFormat} (he : f.encoding.isValid)
    (h : c.supports f) : ∃ d ∈ c.constraints.toList, d.accepts f := by
  obtain ⟨o, ho, henc, r, hr, hsize, hrate⟩ := (supports_iff c f).mp h
  obtain ⟨d, hd, hf⟩ := Resolution.exists_constraint_of_contains hsize hrate
  refine ⟨d, ?_, hf⟩
  rw [mem_constraints]
  rw [← henc] at he hd
  exact ⟨o, ho, he, r, hr, hd⟩

/-- **Only largest sizes are gained.** -/
theorem accepts_constraints_iff {c : Catalog} (hc : c.SizesForward) (f : VideoFormat) :
    c.constraints.accepts f ↔ f.encoding.isValid ∧ (c.supports f ∨ c.ReportsLargest f) := by
  rw [Alternatives.accepts_iff]
  constructor
  · rintro ⟨d, hd, hf⟩
    obtain ⟨hencoding, hrest⟩ := (FormatConstraint.accepts_iff d f).mp hf
    obtain ⟨o, ho, hvalid, r, hr, hmem⟩ := (mem_constraints c d).mp hd
    rw [Resolution.encoding_of_mem_constraints hmem] at hencoding
    have henc : o.encoding = f.encoding := beq_iff_eq.mp hencoding
    obtain ⟨hsize, hrate⟩ := Resolution.contains_or_eq_largest hmem (hc o ho r hr) hrest
    refine ⟨henc ▸ hvalid, ?_⟩
    rcases hsize with hsize | hsize
    · exact Or.inl ((supports_iff c f).mpr ⟨o, ho, henc, r, hr, hsize, hrate⟩)
    · exact Or.inr ⟨o, ho, henc, r, hr, hsize.symm, hrate⟩
  · rintro ⟨hvalid, hsupports | hlargest⟩
    · exact exists_constraint_of_supports hvalid hsupports
    · exact exists_constraint_of_reportsLargest hvalid hlargest

/-- A largest size that the steps lead up to is supported like every other size. -/
theorem supports_of_reportsLargest {c : Catalog} (hc : c.SizesForward)
    (heven : ∀ o ∈ c.offers, ∀ r ∈ o.resolutions, r.sizes.Even) {f : VideoFormat}
    (h : c.ReportsLargest f) : c.supports f := by
  obtain ⟨o, ho, henc, r, hr, hsize, hrate⟩ := h
  refine (supports_iff c f).mpr ⟨o, ho, henc, r, hr, ?_, hrate⟩
  rw [Resolution.contains, ← hsize, Sizes.contains_largest_iff (hc o ho r hr)]
  exact heven o ho r hr

/-- **The alternatives of a report accept what it supports, and its largest sizes.** They accept
just what it supports exactly if the largest sizes it reports are supported themselves, and so they
do where the steps of every grid lead from its smallest size to its largest. -/
theorem expandsExactly_iff {c : Catalog} (hc : c.SizesForward) :
    (∀ f, c.constraints.accepts f ↔
      f.encoding.isValid ∧ (c.supports f ∨ c.ReportsLargest f)) ∧
    (c.ExpandsExactly ↔ ∀ f, f.encoding.isValid → c.ReportsLargest f → c.supports f) ∧
    ((∀ o ∈ c.offers, ∀ r ∈ o.resolutions, r.sizes.Even) → c.ExpandsExactly) := by
  have hiff : c.ExpandsExactly ↔
      ∀ f, f.encoding.isValid → c.ReportsLargest f → c.supports f := by
    constructor
    · intro hexact f hvalid hlargest
      have haccepts := (accepts_constraints_iff hc f).mpr ⟨hvalid, Or.inr hlargest⟩
      exact ((hexact f).mp haccepts).2
    · intro hlargest f
      rw [accepts_constraints_iff hc]
      refine and_congr_right fun hvalid => ?_
      exact ⟨fun h => h.elim id (hlargest f hvalid), Or.inl⟩
  refine ⟨accepts_constraints_iff hc, hiff, ?_⟩
  intro heven
  exact hiff.mpr fun f _ => supports_of_reportsLargest hc heven

/-- Widths 8 and 12, with 13 reported as the largest. -/
def oddDevice : Catalog := ⟨[⟨.rggb8, [⟨.grid ⟨8, 8⟩ ⟨13, 8⟩ 4 1, .exactly (.fps 30)⟩]⟩]⟩

theorem oddDevice_not_expandsExactly :
    oddDevice.SizesForward ∧ oddDevice.constraints.accepts ⟨.rggb8, ⟨13, 8⟩, .fps 30⟩ ∧
    oddDevice.supports ⟨.rggb8, ⟨13, 8⟩, .fps 30⟩ = false ∧ ¬ oddDevice.ExpandsExactly := by
  have hforward : oddDevice.SizesForward := by decide
  have hvalid : (VideoFormat.mk .rggb8 ⟨13, 8⟩ (.fps 30)).encoding.isValid := by decide
  have hlargest : oddDevice.ReportsLargest ⟨.rggb8, ⟨13, 8⟩, .fps 30⟩ :=
    ⟨_, List.mem_singleton_self _, rfl, _, List.mem_singleton_self _, rfl, by decide⟩
  have hsupports : oddDevice.supports ⟨.rggb8, ⟨13, 8⟩, .fps 30⟩ = false := by decide
  obtain ⟨haccepts, hexact, -⟩ := expandsExactly_iff hforward
  refine ⟨hforward, (haccepts _).mpr ⟨hvalid, Or.inr hlargest⟩, hsupports, ?_⟩
  intro h
  rw [hexact.mp h _ hvalid hlargest] at hsupports
  cases hsupports

end Catalog
end CameraStream
