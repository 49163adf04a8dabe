import CameraStream.Proofs.Expansion
import CameraStream.Proofs.Largest

/-!
# The most a device can do in an encoding

`Catalog.largestFormat?` goes through the entries of all offers of an encoding. Every entry whose
rates have a largest one stands for its largest size at that rate, and the largest of these formats
is the result. It is compared here with all formats that can be produced in the encoding.

Nothing that an entry with bounded rates can produce exceeds the result
(`Catalog.isLE_largestFormat?`), whichever offer the entry belongs to. But the result itself can be
out of reach: it has the largest size of an entry as that was reported, and the steps of the entry
need not lead up to it. **`Catalog.supports_largestFormat_iff`** says when it can be produced.
-/

namespace CameraStream

/-! ### Formats by extent -/

namespace VideoFormat

/-- Formats of one extent have the same size and the same rate. -/
theorem sizeAndRate_eq_of_isLE {f g : VideoFormat} (hf : f.rate.Proper) (hg : g.rate.Proper)
    (hfg : (f.compareExtent g).isLE) (hgf : (g.compareExtent f).isLE) :
    f.size = g.size ∧ f.rate = g.rate := by
  rw [isLE_compareExtent_iff] at hfg hgf
  have hwidth : f.size.width = g.size.width := by omega
  have hheight : f.size.height = g.size.height := by omega
  have hrate : (compare f.rate g.rate).isLE ∧ (compare g.rate f.rate).isLE := by
    simpa [hwidth, hheight] using And.intro hfg hgf
  refine ⟨?_, FrameRate.orderedOn_proper.eq_of_isLE_of_isLE hf hg hrate.1 hrate.2⟩
  cases hsize : f.size
  cases hsize' : g.size
  simp only [hsize, hsize'] at hwidth hheight
  rw [hwidth, hheight]

/-- Every format of a list is at most the largest one. -/
theorem exists_largest?_of_mem {fs : List VideoFormat} (hfs : ∀ f ∈ fs, f.rate.Proper)
    {g : VideoFormat} (hg : g ∈ fs) :
    ∃ f, largest? fs = some f ∧ f.rate.Proper ∧ (g.compareExtent f).isLE := by
  obtain ⟨f, hf⟩ := Option.isSome_iff_exists.mp
    ((isSome_largest?_iff fs).mpr (List.ne_nil_of_mem hg))
  have hfirst := firstLargest_of_largest? hfs hf
  exact ⟨f, hf, hfs f hfirst.mem, hfirst.isLE hg⟩

end VideoFormat

/-! ### Entries -/

theorem Sizes.le_largest_of_contains {x : Sizes} {s : FrameSize} (h : x.contains s) :
    s.width ≤ x.largest.width ∧ s.height ≤ x.largest.height := by
  cases x with
  | single t =>
    rw [← beq_iff_eq.mp h]
    exact ⟨Nat.le_refl _, Nat.le_refl _⟩
  | grid lo hi widthStep heightStep =>
    simp only [contains, onGrid, Bool.and_eq_true, decide_eq_true_eq] at h
    exact ⟨h.1.1.2, h.2.1.2⟩

namespace Resolution

variable {r : Resolution} {e : Encoding} {f g : VideoFormat}

theorem largestFormat?_eq_some_iff :
    r.largestFormat? e = some f ↔
      f.encoding = e ∧ f.size = r.sizes.largest ∧ r.rates.largest? = some f.rate := by
  unfold largestFormat?
  rw [Option.map_eq_some_iff]
  constructor
  · rintro ⟨rate, hrate, rfl⟩
    exact ⟨rfl, rfl, hrate⟩
  · rintro ⟨rfl, hsize, hrate⟩
    exact ⟨f.rate, hrate, by rw [← hsize]⟩

/-- Rates that are bounded have a largest one, unless there are none. -/
theorem exists_largestFormat? (hany : r.rates ≠ .any) {rate : FrameRate}
    (hrate : r.rates.accepts rate) (e : Encoding) : ∃ f, r.largestFormat? e = some f := by
  have hlargest : ∃ m, r.rates.largest? = some m := by
    generalize r.rates = rates at hany hrate
    cases rates with
    | any => exact absurd rfl hany
    | exactly v => exact ⟨v, rfl⟩
    | range lo hi => exact ⟨hi, rfl⟩
    | oneOf values =>
      cases values with
      | nil => cases hrate
      | cons v rest => exact ⟨_, rfl⟩
  obtain ⟨m, hm⟩ := hlargest
  exact ⟨⟨e, r.sizes.largest, m⟩, largestFormat?_eq_some_iff.mpr ⟨rfl, rfl, hm⟩⟩

section
variable (hr : r.WellFormed) (h : r.largestFormat? e = some f)
include hr h

theorem proper_of_largestFormat? : f.rate.Proper :=
  hr.proper _ (Constraint.mentioned_largest? (largestFormat?_eq_some_iff.mp h).2.2)

/-- **An entry can produce nothing larger than its largest format.** -/
theorem isLE_largestFormat? (hsize : r.contains g.size) (hrate : r.rates.accepts g.rate) :
    (g.compareExtent f).isLE := by
  obtain ⟨-, hlargest, hm⟩ := largestFormat?_eq_some_iff.mp h
  obtain ⟨hwidth, hheight⟩ := Sizes.le_largest_of_contains hsize
  have hle := Constraint.isLE_largest? FrameRate.orderedOn_proper hr.proper hm hrate
  rw [← hlargest] at hwidth hheight
  exact VideoFormat.isLE_compareExtent_of_le hwidth hheight hle

/-- An entry can produce its largest format exactly if its steps lead up to its largest size. -/
theorem supports_largestFormat?_iff_even : r.supports f.size f.rate ↔ r.sizes.Even := by
  obtain ⟨-, hlargest, hm⟩ := largestFormat?_eq_some_iff.mp h
  have hrate := Constraint.accepts_largest? FrameRate.orderedOn_proper hr.proper hr.rates hm
  rw [supports, hrate, Bool.and_true, contains, hlargest, Sizes.contains_largest_iff hr.sizes]

end

end Resolution

/-! ### Offers -/

/-- Every entry's largest format is at most that of the offer. -/
theorem Offer.exists_largestFormat?_of_mem {o : Offer} (ho : ∀ r ∈ o.resolutions, r.WellFormed)
    {r : Resolution} (hr : r ∈ o.resolutions) {g : VideoFormat}
    (hg : r.largestFormat? o.encoding = some g) :
    ∃ f, o.largestFormat? = some f ∧ f.rate.Proper ∧ (g.compareExtent f).isLE := by
  refine VideoFormat.exists_largest?_of_mem ?_ (List.mem_filterMap.mpr ⟨r, hr, hg⟩)
  intro f hf
  obtain ⟨x, hx, hxf⟩ := List.mem_filterMap.mp hf
  exact Resolution.proper_of_largestFormat? (ho x hx) hxf

/-! ### Catalogs -/

namespace Catalog

/-- An entry belongs to one of the offers of an encoding. -/
def Reports (c : Catalog) (e : Encoding) (r : Resolution) : Prop :=
  ∃ o ∈ c.offers, o.encoding = e ∧ r ∈ o.resolutions

variable {c : Catalog} {e : Encoding} {f g : VideoFormat} {r : Resolution}

theorem Reports.wellFormed (h : c.Reports e r) (hc : c.WellFormed) : r.WellFormed := by
  obtain ⟨o, ho, -, hr⟩ := h
  exact hc o ho r hr

theorem supports_iff_reports :
    c.supports f ↔ ∃ r, c.Reports f.encoding r ∧ r.supports f.size f.rate := by
  rw [supports_iff]
  constructor
  · rintro ⟨o, ho, henc, r, hr, hsize, hrate⟩
    exact ⟨r, ⟨o, ho, henc, hr⟩, Bool.and_eq_true_iff.mpr ⟨hsize, hrate⟩⟩
  · rintro ⟨r, ⟨o, ho, henc, hr⟩, hsupports⟩
    obtain ⟨hsize, hrate⟩ := Bool.and_eq_true_iff.mp hsupports
    exact ⟨o, ho, henc, r, hr, hsize, hrate⟩

/-- The result is the largest format of one of the entries. -/
theorem exists_reports_of_largestFormat? (h : c.largestFormat? e = some f) :
    ∃ r, c.Reports e r ∧ r.largestFormat? e = some f := by
  obtain ⟨o, ho, henc, r, hr, hrate, hencoding, hsize⟩ := exists_of_largestFormat? h
  exact ⟨r, ⟨o, ho, henc, hr⟩, Resolution.largestFormat?_eq_some_iff.mpr ⟨hencoding, hsize, hrate⟩⟩

section
variable (hc : c.WellFormed)
include hc

/-- Every entry's largest format is at most the result, whichever offer it belongs to. -/
theorem exists_largestFormat?_of_reports (hr : c.Reports e r) (hg : r.largestFormat? e = some g) :
    ∃ f, c.largestFormat? e = some f ∧ (g.compareExtent f).isLE := by
  obtain ⟨o, ho, rfl, hr⟩ := hr
  obtain ⟨m, hm, hproper, hgm⟩ := o.exists_largestFormat?_of_mem (hc o ho) hr hg
  have hoffers : ∀ x ∈ (c.offers.filter (·.encoding == o.encoding)).filterMap (·.largestFormat?),
      x.rate.Proper := by
    intro x hx
    obtain ⟨o', ho', hx⟩ := List.mem_filterMap.mp hx
    obtain ⟨r', hr', hrx⟩ := List.mem_filterMap.mp (VideoFormat.mem_of_largest? hx)
    exact Resolution.proper_of_largestFormat? (hc o' (List.mem_filter.mp ho').1 r' hr') hrx
  have hmem : m ∈ (c.offers.filter (·.encoding == o.encoding)).filterMap (·.largestFormat?) :=
    List.mem_filterMap.mpr ⟨o, List.mem_filter.mpr ⟨ho, beq_self_eq_true _⟩, hm⟩
  obtain ⟨f, hf, hproper', hmf⟩ := VideoFormat.exists_largest?_of_mem hoffers hmem
  have hgproper := Resolution.proper_of_largestFormat? (hc o ho r hr) hg
  exact ⟨f, hf, VideoFormat.isLE_compareExtent_trans hgproper hproper hproper' hgm hmf⟩

theorem largestFormat?_eq_none_iff :
    c.largestFormat? e = none ↔ ∀ r, c.Reports e r → r.rates.largest? = none := by
  constructor
  · intro hnone r hr
    by_contra hrates
    obtain ⟨m, hm⟩ := Option.ne_none_iff_exists'.mp hrates
    obtain ⟨f, hf, -⟩ := exists_largestFormat?_of_reports hc hr
      (Resolution.largestFormat?_eq_some_iff (f := ⟨e, r.sizes.largest, m⟩).mpr ⟨rfl, rfl, hm⟩)
    rw [hnone] at hf
    cases hf
  · intro h
    by_contra hsome
    obtain ⟨f, hf⟩ := Option.ne_none_iff_exists'.mp hsome
    obtain ⟨r, hr, hrf⟩ := exists_reports_of_largestFormat? hf
    rw [Resolution.largestFormat?_eq_some_iff, h r hr] at hrf
    cases hrf.2.2

/-- What an entry of bounded rates can produce is at most its own largest format, and that is at most
the result. -/
theorem exists_largestFormat?_between (h : c.largestFormat? e = some f) (hr : c.Reports e r)
    (hany : r.rates ≠ .any) (hg : r.supports g.size g.rate) :
    ∃ m, r.largestFormat? e = some m ∧ g.rate.Proper ∧ m.rate.Proper ∧
      (g.compareExtent m).isLE ∧ (m.compareExtent f).isLE := by
  obtain ⟨hsize, hrate⟩ := Bool.and_eq_true_iff.mp hg
  have hwf := hr.wellFormed hc
  obtain ⟨m, hm⟩ := Resolution.exists_largestFormat? hany hrate e
  obtain ⟨f', hf', hmf⟩ := exists_largestFormat?_of_reports hc hr hm
  cases Option.some.inj (h.symm.trans hf')
  refine ⟨m, hm, ?_, Resolution.proper_of_largestFormat? hwf hm,
    Resolution.isLE_largestFormat? hwf hm hsize hrate, hmf⟩
  by_contra hnot
  exact hany (Constraint.eq_any_of_accepts_not_proper hwf.proper hnot hrate)

/-- **Nothing that an entry of bounded rates can produce is larger.** -/
theorem isLE_largestFormat? (h : c.largestFormat? e = some f) (hr : c.Reports e r)
    (hany : r.rates ≠ .any) (hg : r.supports g.size g.rate) : (g.compareExtent f).isLE := by
  obtain ⟨m, -, hgproper, hmproper, hgm, hmf⟩ := exists_largestFormat?_between hc h hr hany hg
  have hfproper := (reportsLargest_of_largestFormat? hc h).2.1
  exact VideoFormat.isLE_compareExtent_trans hgproper hmproper hfproper hgm hmf

/-- An entry of bounded rates that can produce the result has no larger format of its own. -/
theorem largestFormat?_of_supports (h : c.largestFormat? e = some f) (hr : c.Reports e r)
    (hany : r.rates ≠ .any) (hf : r.supports f.size f.rate) : r.largestFormat? e = some f := by
  obtain ⟨m, hm, hfproper, hmproper, hfm, hmf⟩ := exists_largestFormat?_between hc h hr hany hf
  obtain ⟨hsize, hrate⟩ := VideoFormat.sizeAndRate_eq_of_isLE hfproper hmproper hfm hmf
  rw [Resolution.largestFormat?_eq_some_iff] at hm ⊢
  rw [hsize, hrate]
  exact ⟨(reportsLargest_of_largestFormat? hc h).1, hm.2⟩

/-- **The result can be produced where steps lead up to it.** Either some entry has it for its own
largest format and steps that lead up to its largest size, or an entry that leaves the rate open can
produce the size. -/
theorem supports_iff_of_largestFormat? (h : c.largestFormat? e = some f) :
    c.supports f ↔ ∃ r, c.Reports e r ∧
      (r.largestFormat? e = some f ∧ r.sizes.Even ∨ r.rates = .any ∧ r.contains f.size) := by
  rw [supports_iff_reports, (reportsLargest_of_largestFormat? hc h).1]
  refine exists_congr fun r => and_congr_right fun hr => ?_
  have hwf := hr.wellFormed hc
  constructor
  · intro hf
    by_cases hany : r.rates = .any
    · exact Or.inr ⟨hany, (Bool.and_eq_true_iff.mp hf).1⟩
    · have hown := largestFormat?_of_supports hc h hr hany hf
      exact Or.inl ⟨hown, (Resolution.supports_largestFormat?_iff_even hwf hown).mp hf⟩
  · rintro (⟨hown, heven⟩ | ⟨hany, hsize⟩)
    · exact (Resolution.supports_largestFormat?_iff_even hwf hown).mpr heven
    · rw [Resolution.supports, hsize, hany]
      rfl

end

/-- **The largest format of an encoding bounds what can be produced in it, and can be produced itself
exactly where steps lead up to it.** There is none exactly if no entry has a largest rate. Otherwise
no entry with bounded rates can produce a larger format, and the format is supported exactly if an
entry whose own largest format it is has even steps, or an entry of open rates contains its size; so
it always is where all steps are even. -/
theorem supports_largestFormat_iff {c : Catalog} (hc : c.WellFormed) (e : Encoding) :
    (c.largestFormat? e = none ↔ ∀ r, c.Reports e r → r.rates.largest? = none) ∧
    ∀ f, c.largestFormat? e = some f →
      f.encoding = e ∧
      (∀ r, c.Reports e r → r.rates ≠ .any → ∀ g : VideoFormat, r.supports g.size g.rate →
        (g.compareExtent f).isLE) ∧
      (c.supports f ↔ ∃ r, c.Reports e r ∧
        (r.largestFormat? e = some f ∧ r.sizes.Even ∨ r.rates = .any ∧ r.contains f.size)) ∧
      ((∀ r, c.Reports e r → r.sizes.Even) → c.supports f) := by
  refine ⟨largestFormat?_eq_none_iff hc, fun f h => ?_⟩
  refine ⟨(reportsLargest_of_largestFormat? hc h).1, ?_, supports_iff_of_largestFormat? hc h, ?_⟩
  · intro r hr hany g hg
    exact isLE_largestFormat? hc h hr hany hg
  · intro heven
    obtain ⟨r, hr, hown⟩ := exists_reports_of_largestFormat? h
    exact (supports_iff_of_largestFormat? hc h).mpr ⟨r, hr, Or.inl ⟨hown, heven r hr⟩⟩

/-- Two offers of one encoding. The largest size comes from a grid whose steps miss it, and an entry
of open rates does not count, although it has a larger size. -/
def unevenDevice : Catalog :=
  ⟨[⟨.rggb8, [⟨.single ⟨640, 480⟩, .oneOf [.fps 15, .fps 30]⟩, ⟨.single ⟨1920, 1080⟩, .any⟩]⟩,
    ⟨.rggb8, [⟨.grid ⟨320, 240⟩ ⟨1001, 480⟩ 16 4, .exactly (.fps 30)⟩]⟩]⟩

theorem unevenDevice_not_supports :
    unevenDevice.WellFormed ∧
    unevenDevice.largestFormat? .rggb8 = some ⟨.rggb8, ⟨1001, 480⟩, .fps 30⟩ ∧
    ¬ unevenDevice.supports ⟨.rggb8, ⟨1001, 480⟩, .fps 30⟩ := by
  have hwellFormed : unevenDevice.WellFormed := by
    intro o ho r hr
    simp only [unevenDevice, List.mem_cons, List.not_mem_nil, or_false] at ho
    rcases ho with rfl | rfl
    · simp only [List.mem_cons, List.not_mem_nil, or_false] at hr
      rcases hr with rfl | rfl
      · exact { sizes := trivial, rates := trivial, proper := by decide }
      · exact { sizes := trivial, rates := trivial, proper := by decide }
    · cases List.mem_singleton.mp hr
      exact { sizes := by decide, rates := trivial, proper := by decide }
  have hlargest : unevenDevice.largestFormat? .rggb8 = some ⟨.rggb8, ⟨1001, 480⟩, .fps 30⟩ := by
    decide
  refine ⟨hwellFormed, hlargest, ?_⟩
  rw [((supports_largestFormat_iff hwellFormed .rggb8).2 _ hlargest).2.2.1]
  -- Three entries are left, and none of them can produce the format.
  rintro ⟨r, ⟨o, ho, -, hr⟩, hpossible⟩
  simp only [unevenDevice, List.mem_cons, List.not_mem_nil, or_false] at ho
  rcases ho with rfl | rfl
  · simp only [List.mem_cons, List.not_mem_nil, or_false] at hr
    rcases hr with rfl | rfl
    · exact absurd hpossible (by decide)
    · exact absurd hpossible (by decide)
  · cases List.mem_singleton.mp hr
    exact absurd hpossible (by decide)

end Catalog
end CameraStream
