import CameraStream.Constraint.Alternatives
import CameraStream.Proofs.Grid

/-!
# Settling on a format

A format is settled on in three steps: alternatives are intersected in pairs, every intersection
that leaves no field free determines its largest format, and one of these is picked. The lemmas
here invert the three steps, down to the pair of alternatives a format comes from
(`Alternatives.exists_of_settleAgainst?`), and say that a format is settled on whenever there is
such a pair (`Alternatives.isSome_settleAgainst?_iff`).

The values of the pair's intersection are compared with its two sides field by field
(`FormatConstraint.sizeAndRate_left`, `FormatConstraint.sizeAndRate_right`). Encodings are left
out there, because negotiation replaces them on the way.
-/

namespace CameraStream

/-! ### Whole formats -/

namespace FormatConstraint

/-- No field is an inverted range, and every rate is proper. -/
structure WellFormed (c : FormatConstraint) : Prop where
  encoding : c.encoding.Forward
  width : c.width.Forward
  height : c.height.Forward
  rate : c.rate.Forward
  proper : c.rate.Within FrameRate.Proper

instance (c : FormatConstraint) : Decidable c.WellFormed :=
  decidable_of_iff (c.encoding.Forward ∧ c.width.Forward ∧ c.height.Forward ∧ c.rate.Forward ∧
      c.rate.Within FrameRate.Proper)
    ⟨fun ⟨he, hw, hh, hr, hp⟩ => ⟨he, hw, hh, hr, hp⟩, fun h => ⟨h.1, h.2, h.3, h.4, h.5⟩⟩

theorem wellFormed_ofFormat {f : VideoFormat} (h : f.rate.Proper) : (ofFormat f).WellFormed where
  encoding := trivial
  width := trivial
  height := trivial
  rate := trivial
  proper := by
    intro r hr
    rw [List.mem_singleton.mp hr]
    exact h

theorem accepts_iff (c : FormatConstraint) (f : VideoFormat) :
    c.accepts f = true ↔ c.encoding.accepts f.encoding ∧ c.width.accepts f.size.width ∧
      c.height.accepts f.size.height ∧ c.rate.accepts f.rate := by
  unfold accepts
  simp only [Bool.and_eq_true, and_assoc]

theorem accepts_ofFormat_iff (f g : VideoFormat) : (ofFormat f).accepts g = true ↔ g = f := by
  rw [accepts_iff]
  constructor
  · rintro ⟨he, hw, hh, hr⟩
    have hw := (Extent.accepts_exactly_iff _ _).mp hw
    have hh := (Extent.accepts_exactly_iff _ _).mp hh
    obtain ⟨fe, ⟨fw, fh⟩, fr⟩ := f
    obtain ⟨ge, ⟨gw, gh⟩, gr⟩ := g
    cases beq_iff_eq.mp he
    cases beq_iff_eq.mp hr
    cases hw
    cases hh
    rfl
  · rintro rfl
    exact ⟨beq_self_eq_true _, (Extent.accepts_exactly_iff _ _).mpr rfl,
      (Extent.accepts_exactly_iff _ _).mpr rfl, beq_self_eq_true _⟩

theorem inter_eq_some_iff (c d e : FormatConstraint) :
    c.inter d = some e ↔ c.encoding.inter d.encoding = some e.encoding ∧
      c.width.inter d.width = some e.width ∧ c.height.inter d.height = some e.height ∧
      c.rate.inter d.rate = some e.rate := by
  unfold inter
  simp only [Option.bind_eq_bind, Option.bind_eq_some_iff, Option.pure_def, Option.some.injEq]
  constructor
  · rintro ⟨encoding, he, width, hw, height, hh, rate, hr, rfl⟩
    exact ⟨he, hw, hh, hr⟩
  · rintro ⟨he, hw, hh, hr⟩
    exact ⟨_, he, _, hw, _, hh, _, hr, rfl⟩

theorem largest?_eq_some_iff (c : FormatConstraint) (f : VideoFormat) :
    c.largest? = some f ↔ c.encoding.preferred? = some f.encoding ∧
      c.width.largest? = some f.size.width ∧ c.height.largest? = some f.size.height ∧
      c.rate.largest? = some f.rate := by
  unfold largest?
  simp only [Option.bind_eq_bind, Option.bind_eq_some_iff, Option.pure_def, Option.some.injEq]
  constructor
  · rintro ⟨encoding, he, width, hw, height, hh, rate, hr, rfl⟩
    exact ⟨he, hw, hh, hr⟩
  · rintro ⟨he, hw, hh, hr⟩
    exact ⟨_, he, _, hw, _, hh, _, hr, rfl⟩

/-- One format meets a constraint in that format, if at all. -/
theorem ofFormat_inter (f : VideoFormat) (d : FormatConstraint) :
    (ofFormat f).inter d = if d.accepts f then some (ofFormat f) else none := by
  unfold inter accepts
  simp only [ofFormat, Constraint.exactly_inter, Extent.exactly_inter]
  cases d.encoding.accepts f.encoding
  · rfl
  · cases d.width.accepts f.size.width
    · rfl
    · cases d.height.accepts f.size.height
      · rfl
      · cases d.rate.accepts f.rate <;> rfl

/-- The fields of a constraint that conversions keep hold of a format. -/
def AcceptsSizeAndRate (c : FormatConstraint) (f : VideoFormat) : Prop :=
  c.width.accepts f.size.width ∧ c.height.accepts f.size.height ∧ c.rate.accepts f.rate

theorem accepts_withEncoding_iff (c : FormatConstraint) (f : VideoFormat) (e : Encoding) :
    c.accepts (f.withEncoding e) = true ↔ c.encoding.accepts e ∧ c.AcceptsSizeAndRate f :=
  accepts_iff c (f.withEncoding e)

section
variable {c d e : FormatConstraint} {f : VideoFormat} (hc : c.rate.Within FrameRate.Proper)
  (hd : d.rate.Within FrameRate.Proper) (h : c.inter d = some e) (hf : e.largest? = some f)
include hc hd h hf

/-- Size and rate of the largest common format satisfy the first side. Its dimensions may be
inverted where the second side has a say in them. -/
theorem sizeAndRate_left (hrate : c.rate.Forward) (hwidth : d.width.values ≠ .any)
    (hheight : d.height.values ≠ .any) : c.AcceptsSizeAndRate f := by
  rw [inter_eq_some_iff] at h
  rw [largest?_eq_some_iff] at hf
  obtain ⟨-, hw, hh, hr⟩ := h
  obtain ⟨-, hw', hh', hr'⟩ := hf
  exact ⟨Extent.accepts_left_of_largest? (Or.inr hwidth) hw hw',
    Extent.accepts_left_of_largest? (Or.inr hheight) hh hh',
    Constraint.accepts_left_of_largest? FrameRate.orderedOn_proper hc hd hrate hr hr'⟩

theorem sizeAndRate_right (hrate : d.rate.Forward) (hwidth : d.width.Forward)
    (hheight : d.height.Forward) : d.AcceptsSizeAndRate f := by
  rw [inter_eq_some_iff] at h
  rw [largest?_eq_some_iff] at hf
  obtain ⟨-, hw, hh, hr⟩ := h
  obtain ⟨-, hw', hh', hr'⟩ := hf
  exact ⟨Extent.accepts_right_of_largest? hwidth hw hw',
    Extent.accepts_right_of_largest? hheight hh hh',
    Constraint.accepts_right_of_largest? FrameRate.orderedOn_proper hc hd hrate hr hr'⟩

end

theorem proper_of_inter {c d e : FormatConstraint} {f : VideoFormat}
    (hc : c.rate.Within FrameRate.Proper) (hd : d.rate.Within FrameRate.Proper)
    (h : c.inter d = some e) (hf : e.largest? = some f) : f.rate.Proper := by
  have hr := ((inter_eq_some_iff c d e).mp h).2.2.2
  have hr' := ((largest?_eq_some_iff e f).mp hf).2.2.2
  exact Constraint.within_inter hc hd hr _ (Constraint.mentioned_largest? hr')

/-- Where the second side names one encoding, that is the encoding of every common format. -/
theorem encoding_of_inter_exactly {c d e : FormatConstraint} {f : VideoFormat} {x : Encoding}
    (hd : d.encoding = .exactly x) (h : c.inter d = some e) (hf : e.largest? = some f) :
    f.encoding = x ∧ c.encoding.accepts x := by
  have he := ((inter_eq_some_iff c d e).mp h).1
  have hf' := ((largest?_eq_some_iff e f).mp hf).1
  rw [hd, Constraint.inter_exactly] at he
  split at he
  · -- What is left names one encoding, which is then also the preferred one.
    next hx =>
    rw [← Option.some.inj he] at hf'
    exact ⟨(Option.some.inj hf').symm, hx⟩
  · cases he

end FormatConstraint

/-! ### The largest of several formats -/

theorem VideoFormat.mem_of_largest? {fs : List VideoFormat} {f : VideoFormat}
    (h : largest? fs = some f) : f ∈ fs := by
  -- The best format so far is the one to begin with, or one that was passed since.
  have hfold : ∀ (rest : List VideoFormat) (g : VideoFormat),
      rest.foldl (fun best g => if (compareExtent best g).isLT then g else best) g ∈
        g :: rest := by
    intro rest
    induction rest with
    | nil =>
      intro g
      exact List.mem_singleton.mpr rfl
    | cons g' rest ih =>
      intro g
      rw [List.foldl_cons]
      have := ih (if (compareExtent g g').isLT then g' else g)
      rw [List.mem_cons] at this ⊢
      rcases this with heq | hmem
      · rw [heq]
        split <;> simp
      · exact Or.inr (List.mem_cons_of_mem _ hmem)
  cases fs with
  | nil => cases h
  | cons g rest =>
    cases h
    exact hfold rest g

theorem VideoFormat.isSome_largest?_iff (fs : List VideoFormat) :
    (largest? fs).isSome ↔ fs ≠ [] := by
  cases fs <;> simp [largest?]

/-! ### Alternatives -/

namespace Alternatives

/-- No alternative has an inverted range or an improper rate. -/
def WellFormed (s : Alternatives) : Prop := ∀ c ∈ s.toList, c.WellFormed

instance (s : Alternatives) : Decidable s.WellFormed :=
  inferInstanceAs (Decidable (∀ c ∈ s.toList, c.WellFormed))

/-- Every rate of every alternative is proper. -/
def RatesProper (s : Alternatives) : Prop := ∀ c ∈ s.toList, c.rate.Within FrameRate.Proper

/-- No alternative has an inverted range of rates. -/
def RatesForward (s : Alternatives) : Prop := ∀ c ∈ s.toList, c.rate.Forward

instance (s : Alternatives) : Decidable s.RatesProper :=
  inferInstanceAs (Decidable (∀ c ∈ s.toList, c.rate.Within FrameRate.Proper))

instance (s : Alternatives) : Decidable s.RatesForward :=
  inferInstanceAs (Decidable (∀ c ∈ s.toList, c.rate.Forward))

theorem accepts_iff (s : Alternatives) (f : VideoFormat) :
    s.accepts f = true ↔ ∃ c ∈ s.toList, c.accepts f :=
  List.any_eq_true

theorem accepts_ofFormat_iff (f g : VideoFormat) : (ofFormat f).accepts g = true ↔ g = f := by
  rw [accepts_iff, ← FormatConstraint.accepts_ofFormat_iff]
  simp [ofFormat]

theorem mem_inter (s t : Alternatives) (e : FormatConstraint) :
    e ∈ (s.inter t).toList ↔ ∃ c ∈ s.toList, ∃ d ∈ t.toList, c.inter d = some e := by
  simp [inter, List.mem_flatMap, List.mem_filterMap]

theorem exists_of_pick? {s : Alternatives} {bySize : Bool} {f : VideoFormat}
    (h : s.pick? bySize = some f) : ∃ c ∈ s.toList, c.largest? = some f := by
  cases bySize with
  | true =>
    exact List.exists_of_findSome?_eq_some h
  | false =>
    have hmem : f ∈ s.toList.filterMap (·.largest?) := VideoFormat.mem_of_largest? h
    exact List.mem_filterMap.mp hmem

theorem isSome_pick?_iff (s : Alternatives) (bySize : Bool) :
    (s.pick? bySize).isSome ↔ ∃ c ∈ s.toList, c.largest?.isSome := by
  cases bySize with
  | true => exact List.findSome?_isSome_iff
  | false =>
    show (VideoFormat.largest? _).isSome ↔ _
    rw [VideoFormat.isSome_largest?_iff]
    constructor
    · intro hne
      obtain ⟨f, hf⟩ := List.exists_mem_of_ne_nil _ hne
      obtain ⟨c, hc, hcf⟩ := List.mem_filterMap.mp hf
      exact ⟨c, hc, by rw [hcf]; rfl⟩
    · rintro ⟨c, hc, hsome⟩
      obtain ⟨f, hf⟩ := Option.isSome_iff_exists.mp hsome
      exact List.ne_nil_of_mem (List.mem_filterMap.mpr ⟨c, hc, hf⟩)

/-- **Every format settled on comes from one pair of alternatives.** -/
theorem exists_of_settleAgainst? {s offer : Alternatives} {f : VideoFormat}
    (h : s.settleAgainst? offer = some f) :
    ∃ c ∈ s.toList, ∃ d ∈ offer.toList, ∃ e, c.inter d = some e ∧ e.largest? = some f := by
  obtain ⟨e, he, hf⟩ := exists_of_pick? h
  obtain ⟨c, hc, d, hd, hcd⟩ := (mem_inter s offer e).mp he
  exact ⟨c, hc, d, hd, e, hcd, hf⟩

/-- A format is settled on exactly when some pair of alternatives determines one. -/
theorem isSome_settleAgainst?_iff (s offer : Alternatives) :
    (s.settleAgainst? offer).isSome ↔
      ∃ c ∈ s.toList, ∃ d ∈ offer.toList, ∃ e, c.inter d = some e ∧ e.largest?.isSome := by
  unfold settleAgainst?
  rw [isSome_pick?_iff]
  simp only [mem_inter]
  constructor
  · rintro ⟨e, ⟨c, hc, d, hd, hcd⟩, hsome⟩
    exact ⟨c, hc, d, hd, e, hcd, hsome⟩
  · rintro ⟨c, hc, d, hd, e, hcd, hsome⟩
    exact ⟨e, ⟨c, hc, d, hd, hcd⟩, hsome⟩

end Alternatives
end CameraStream
