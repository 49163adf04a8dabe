import CameraStream.Catalog.Basic
import CameraStream.Proofs.Search
import CameraStream.Proofs.Settling

/-!
# Reports as sets of formats

A device's report is read in two ways: `Catalog.supports` asks whether a format can be produced,
`Catalog.constraints` turns the report into alternatives for negotiation. The two agree but for one
case, the largest size of a grid. It becomes an alternative as it was reported, also where the
steps from the smallest size miss it, and then it cannot be produced.

So a format of the alternatives is supported or has the largest size of some entry
(`Catalog.supports_or_reportsLargest`), and every largest size that is reported for a valid
encoding has an alternative (`Catalog.exists_constraint_of_reportsLargest`).
-/

namespace CameraStream

/-! ### Sizes -/

namespace Sizes

def Forward : Sizes → Prop
  | single _ => True
  | grid lo hi _ _ => lo.width ≤ hi.width ∧ lo.height ≤ hi.height

instance : (x : Sizes) → Decidable x.Forward
  | single _ => inferInstanceAs (Decidable True)
  | grid lo hi _ _ => inferInstanceAs (Decidable (lo.width ≤ hi.width ∧ lo.height ≤ hi.height))

/-- A grid of sizes is tested as the extents of its dimensions are. -/
theorem onGrid_eq_accepts (lo hi step v : Nat) :
    onGrid lo hi step v = (Extent.mk (.range lo hi) step).accepts v := by
  rw [Bool.eq_iff_iff]
  show (decide (lo ≤ v) && decide (v ≤ hi) && onStep step lo v) = true ↔
    (Constraint.inRange lo hi v && onStep step lo v) = true
  simp only [Bool.and_eq_true, decide_eq_true_eq, Extent.inRange_iff_le]

theorem largest_mem_landmarks (x : Sizes) : x.largest ∈ x.landmarks := by
  cases x with
  | single s => exact List.mem_singleton.mpr rfl
  | grid lo hi widthStep heightStep =>
    unfold landmarks largest
    by_cases h : hi = lo
    · simp [h]
    · simp [h]

/-- Sizes named one by one can be produced, but for the largest one. -/
theorem contains_of_mem_landmarks {x : Sizes} (hx : x.Forward) {s : FrameSize}
    (h : s ∈ x.landmarks) : x.contains s ∨ s = x.largest := by
  cases x with
  | single t =>
    right
    exact List.mem_singleton.mp h
  | grid lo hi widthStep heightStep =>
    rw [landmarks, List.cons_append, List.mem_cons, List.mem_append] at h
    -- The least size is where the grid begins, and standard sizes were tested for it.
    rcases h with rfl | h | h
    · left
      obtain ⟨hwidth, hheight⟩ := hx
      simp [contains, onGrid, onStep, hwidth, hheight]
    · left
      have hs := (List.mem_filter.mp h).2
      simp only [Bool.and_eq_true] at hs
      exact hs.2
    · right
      split at h
      · cases h
      · exact List.mem_singleton.mp h

end Sizes

/-! ### Resolutions -/

namespace Resolution

/-- Neither sizes nor rates are an inverted range, and every rate is proper. -/
structure WellFormed (r : Resolution) : Prop where
  sizes : r.sizes.Forward
  rates : r.rates.Forward
  proper : r.rates.Within FrameRate.Proper

def atSize (r : Resolution) (e : Encoding) (s : FrameSize) : FormatConstraint where
  encoding := .exactly e
  width := .exactly s.width
  height := .exactly s.height
  rate := r.rates

/-- A constraint that a report stands for is that of one size, or of the whole grid. -/
theorem mem_constraints_cases {r : Resolution} {e : Encoding} {d : FormatConstraint}
    (h : d ∈ r.constraints e) :
    (∃ s ∈ r.sizes.landmarks, d = r.atSize e s) ∨
    (∃ lo hi widthStep heightStep, r.sizes = .grid lo hi widthStep heightStep ∧
      d = { encoding := .exactly e, width := ⟨.range lo.width hi.width, widthStep⟩,
            height := ⟨.range lo.height hi.height, heightStep⟩, rate := r.rates }) := by
  unfold constraints at h
  simp only [List.mem_append] at h
  rcases h with h | h
  · left
    obtain ⟨s, hs, rfl⟩ := List.mem_map.mp h
    exact ⟨s, hs, rfl⟩
  · right
    cases hsizes : r.sizes with
    | single s =>
      rw [hsizes] at h
      cases h
    | grid lo hi widthStep heightStep =>
      rw [hsizes] at h
      exact ⟨lo, hi, widthStep, heightStep, rfl, List.mem_singleton.mp h⟩

theorem atSize_mem_constraints (r : Resolution) (e : Encoding) {s : FrameSize}
    (h : s ∈ r.sizes.landmarks) : r.atSize e s ∈ r.constraints e :=
  List.mem_append_left _ (List.mem_map.mpr ⟨s, h, rfl⟩)

section
variable {r : Resolution} {e : Encoding} {d : FormatConstraint} (h : d ∈ r.constraints e)
include h

theorem encoding_of_mem_constraints : d.encoding = .exactly e := by
  rcases mem_constraints_cases h with ⟨s, -, rfl⟩ | ⟨lo, hi, ws, hs, -, rfl⟩ <;> rfl

theorem rate_of_mem_constraints : d.rate = r.rates := by
  rcases mem_constraints_cases h with ⟨s, -, rfl⟩ | ⟨lo, hi, ws, hs, -, rfl⟩ <;> rfl

theorem constrained_of_mem_constraints : d.width.values ≠ .any ∧ d.height.values ≠ .any := by
  rcases mem_constraints_cases h with ⟨s, -, rfl⟩ | ⟨lo, hi, ws, hs, -, rfl⟩ <;>
    exact ⟨nofun, nofun⟩

theorem forward_of_mem_constraints (hr : r.sizes.Forward) :
    d.width.Forward ∧ d.height.Forward := by
  rcases mem_constraints_cases h with ⟨s, -, rfl⟩ | ⟨lo, hi, ws, hs, hsizes, rfl⟩
  · exact ⟨trivial, trivial⟩
  · rw [hsizes] at hr
    exact ⟨Nat.isLE_compare.mpr hr.1, Nat.isLE_compare.mpr hr.2⟩

/-- What satisfies a constraint of a report can be produced, or has the largest size reported. -/
theorem contains_or_eq_largest (hr : r.sizes.Forward) {f : VideoFormat}
    (hf : d.AcceptsSizeAndRate f) :
    (r.contains f.size ∨ f.size = r.sizes.largest) ∧ r.rates.accepts f.rate := by
  obtain ⟨hw, hh, hrate⟩ := hf
  rw [rate_of_mem_constraints h] at hrate
  refine ⟨?_, hrate⟩
  rcases mem_constraints_cases h with ⟨s, hs, rfl⟩ | ⟨lo, hi, ws, hs, hsizes, rfl⟩
  · -- A landmark leaves one size, and the grid leaves just what can be produced.
    have hsize : f.size = s := by
      have hw' : s.width = f.size.width := (Extent.accepts_exactly_iff _ _).mp hw
      have hh' : s.height = f.size.height := (Extent.accepts_exactly_iff _ _).mp hh
      cases s
      simp only at hw' hh'
      rw [hw', hh']
    rw [hsize]
    exact Sizes.contains_of_mem_landmarks hr hs
  · left
    rw [contains, hsizes, Sizes.contains, Sizes.onGrid_eq_accepts, Sizes.onGrid_eq_accepts,
      Bool.and_eq_true]
    exact ⟨hw, hh⟩

end

end Resolution

/-! ### Catalogs -/

namespace Catalog

/-- No entry has an inverted range or an improper rate. -/
def WellFormed (c : Catalog) : Prop := ∀ o ∈ c.offers, ∀ r ∈ o.resolutions, r.WellFormed

/-- Every rate of every entry is proper. -/
def RatesProper (c : Catalog) : Prop :=
  ∀ o ∈ c.offers, ∀ r ∈ o.resolutions, r.rates.Within FrameRate.Proper

instance (c : Catalog) : Decidable c.RatesProper :=
  inferInstanceAs (Decidable (∀ o ∈ c.offers, ∀ r ∈ o.resolutions, r.rates.Within FrameRate.Proper))

theorem WellFormed.ratesProper {c : Catalog} (h : c.WellFormed) : c.RatesProper :=
  fun o ho r hr => (h o ho r hr).proper

/-- A format has the largest size of some entry of its encoding, at a rate of that entry. -/
def ReportsLargest (c : Catalog) (f : VideoFormat) : Prop :=
  ∃ o ∈ c.offers, o.encoding = f.encoding ∧
    ∃ r ∈ o.resolutions, r.sizes.largest = f.size ∧ r.rates.accepts f.rate

/-- The largest sizes that are reported can be produced, as far as negotiation gets to see them. -/
def Aligned (c : Catalog) : Prop :=
  ∀ f, f.encoding.isValid → f.rate.Proper → c.ReportsLargest f → c.supports f

theorem mem_encodings (c : Catalog) (e : Encoding) :
    e ∈ c.encodings ↔ e.isValid ∧ ∃ o ∈ c.offers, o.encoding = e := by
  rw [encodings, Encoding.mem_distinct, List.mem_filter, List.mem_map, and_comm]

theorem mem_constraints (c : Catalog) (d : FormatConstraint) :
    d ∈ c.constraints.toList ↔
      ∃ o ∈ c.offers, o.encoding.isValid ∧ ∃ r ∈ o.resolutions, d ∈ r.constraints o.encoding := by
  simp only [constraints, Offer.constraints, List.mem_flatMap, List.mem_filter, and_assoc]

section
variable {c : Catalog} {d : FormatConstraint} (hd : d ∈ c.constraints.toList)
include hd

theorem encoding_of_mem_constraints : ∃ e, d.encoding = .exactly e ∧ e.isValid := by
  obtain ⟨o, -, hvalid, r, -, hmem⟩ := (mem_constraints c d).mp hd
  exact ⟨o.encoding, Resolution.encoding_of_mem_constraints hmem, hvalid⟩

theorem constrained_of_mem_constraints : d.width.values ≠ .any ∧ d.height.values ≠ .any := by
  obtain ⟨o, -, -, r, -, hmem⟩ := (mem_constraints c d).mp hd
  exact Resolution.constrained_of_mem_constraints hmem

theorem proper_of_mem_constraints (hc : c.RatesProper) : d.rate.Within FrameRate.Proper := by
  obtain ⟨o, ho, -, r, hr, hmem⟩ := (mem_constraints c d).mp hd
  rw [Resolution.rate_of_mem_constraints hmem]
  exact hc o ho r hr

theorem forward_of_mem_constraints (hc : c.WellFormed) :
    d.rate.Forward ∧ d.width.Forward ∧ d.height.Forward := by
  obtain ⟨o, ho, -, r, hr, hmem⟩ := (mem_constraints c d).mp hd
  have hr' := hc o ho r hr
  rw [Resolution.rate_of_mem_constraints hmem]
  exact ⟨hr'.rates, Resolution.forward_of_mem_constraints hmem hr'.sizes⟩

end

theorem supports_iff (c : Catalog) (f : VideoFormat) :
    c.supports f = true ↔ ∃ o ∈ c.offers, o.encoding = f.encoding ∧
      ∃ r ∈ o.resolutions, r.contains f.size ∧ r.rates.accepts f.rate := by
  simp only [supports, Offer.supports, Resolution.supports, List.any_eq_true, Bool.and_eq_true,
    beq_iff_eq]
  simp only [eq_comm]

/-- **The alternatives of a report are what it supports, and its largest sizes.** -/
theorem supports_or_reportsLargest {c : Catalog} (hc : c.WellFormed) {d : FormatConstraint}
    (hd : d ∈ c.constraints.toList) {f : VideoFormat} (he : d.encoding = .exactly f.encoding)
    (hf : d.AcceptsSizeAndRate f) : c.supports f ∨ c.ReportsLargest f := by
  obtain ⟨o, ho, -, r, hr, hmem⟩ := (mem_constraints c d).mp hd
  have henc : o.encoding = f.encoding := by
    rw [Resolution.encoding_of_mem_constraints hmem] at he
    exact Constraint.exactly.inj he
  obtain ⟨hsize, hrate⟩ := Resolution.contains_or_eq_largest hmem (hc o ho r hr).sizes hf
  rcases hsize with hsize | hsize
  · left
    exact (supports_iff c f).mpr ⟨o, ho, henc, r, hr, hsize, hrate⟩
  · right
    exact ⟨o, ho, henc, r, hr, hsize.symm, hrate⟩

theorem exists_constraint_of_reportsLargest {c : Catalog} {f : VideoFormat}
    (he : f.encoding.isValid) (h : c.ReportsLargest f) :
    ∃ d ∈ c.constraints.toList, d.accepts f := by
  obtain ⟨o, ho, henc, r, hr, hsize, hrate⟩ := h
  refine ⟨r.atSize o.encoding r.sizes.largest, ?_, ?_⟩
  · rw [mem_constraints]
    exact ⟨o, ho, henc ▸ he, r, hr,
      r.atSize_mem_constraints _ (Sizes.largest_mem_landmarks r.sizes)⟩
  · rw [FormatConstraint.accepts_iff, hsize, henc]
    refine ⟨beq_self_eq_true f.encoding, ?_, ?_, hrate⟩ <;>
      exact (Extent.accepts_exactly_iff _ _).mpr rfl

/-! ### The largest format of an encoding -/

theorem exists_of_largestFormat? {c : Catalog} {e : Encoding} {f : VideoFormat}
    (h : c.largestFormat? e = some f) :
    ∃ o ∈ c.offers, o.encoding = e ∧ ∃ r ∈ o.resolutions, r.rates.largest? = some f.rate ∧
      f.encoding = e ∧ f.size = r.sizes.largest := by
  obtain ⟨o, ho, hof⟩ := List.mem_filterMap.mp (VideoFormat.mem_of_largest? h)
  obtain ⟨ho, henc⟩ := List.mem_filter.mp ho
  obtain ⟨r, hr, hrf⟩ := List.mem_filterMap.mp (VideoFormat.mem_of_largest? hof)
  obtain ⟨rate, hrate, rfl⟩ := Option.map_eq_some_iff.mp hrf
  exact ⟨o, ho, beq_iff_eq.mp henc, r, hr, hrate, beq_iff_eq.mp henc, rfl⟩

theorem reportsLargest_of_largestFormat? {c : Catalog} (hc : c.WellFormed) {e : Encoding}
    {f : VideoFormat} (h : c.largestFormat? e = some f) :
    f.encoding = e ∧ f.rate.Proper ∧ c.ReportsLargest f := by
  obtain ⟨o, ho, henc, r, hr, hrate, henc', hsize⟩ := exists_of_largestFormat? h
  have hr' := hc o ho r hr
  refine ⟨henc', hr'.proper _ (Constraint.mentioned_largest? hrate), o, ho, henc.trans henc'.symm,
    r, hr, hsize.symm, ?_⟩
  exact Constraint.accepts_largest? FrameRate.orderedOn_proper hr'.proper hr'.rates hrate

end Catalog
end CameraStream
