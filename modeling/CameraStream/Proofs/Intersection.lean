import CameraStream.Proofs.Settling

/-!
# Intersections as sets of formats

`Constraint.any_accepts_inter` and `Extent.any_accepts_inter` read the intersection of one field as
an intersection of sets. Here the fields are put together: the intersection of two constraints on
formats holds of exactly the formats both hold of, with nothing returned only where there are none
(`FormatConstraint.any_accepts_inter`), and so does the intersection of two lists of alternatives
(`Alternatives.accepts_inter`). As sets of formats, intersections commute and associate; as
descriptions they do not, since lists keep the order of the first side.

Only the rates *in the constraints* have to be proper. A format may come with any rate at all,
because an improper one lies in no range of proper bounds and equals no proper rate: it satisfies
the constraints that leave the rate free, and no others (`Constraint.accepts_of_not_proper`).
-/

namespace CameraStream

/-- Encodings are ordered by their codes. -/
theorem Encoding.orderedOn : OrderedOn (fun _ : Encoding => True) where
  swap {a b} _ _ := Std.OrientedOrd.eq_swap (a := b.code)
  trans {a b c} _ _ _ h h' := Std.TransOrd.isLE_trans (b := b.code) h h'
  eq_of_compare {a b} _ _ h := by
    have hcode : a.code = b.code := Std.LawfulEqOrd.eq_of_compare h
    cases a
    cases b
    rw [Encoding.mk.injEq]
    exact hcode

/-! ### Rates without a denominator -/

namespace Constraint

/-- `n/0` compares above every proper rate, or below every one of them if `n` is zero. -/
theorem inRange_of_not_proper {lo hi v : FrameRate} (hlo : lo.Proper) (hhi : hi.Proper)
    (hv : ¬ v.Proper) : inRange lo hi v = false := by
  have hden : v.den = 0 := not_not.mp hv
  rw [← Bool.not_eq_true, inRange, Bool.and_eq_true, ← Ordering.isLE_swap,
    ← FrameRate.compare_swap, FrameRate.isLE_iff, FrameRate.isLE_iff, hden]
  unfold FrameRate.Proper at hlo hhi
  rcases Nat.eq_zero_or_pos v.num with hnum | hnum
  · rw [hnum]
    omega
  · have hpos : 0 < v.num * hi.den := Nat.mul_pos hnum (Nat.pos_of_ne_zero hhi)
    omega

theorem accepts_of_not_proper {c : Constraint FrameRate} (hc : c.Within FrameRate.Proper)
    {v : FrameRate} (hv : ¬ v.Proper) : c.accepts v = c.isAny := by
  have hne : ∀ w ∈ c.mentioned, v ≠ w := by
    rintro w hw rfl
    exact hv (hc v hw)
  cases c with
  | any => rfl
  | exactly w =>
    have hw : w ≠ v := (hne w (List.mem_singleton_self w)).symm
    simp [accepts, isAny, hw]
  | range lo hi =>
    exact inRange_of_not_proper (hc lo (by simp [mentioned])) (hc hi (by simp [mentioned])) hv
  | oneOf values =>
    have hmem : v ∉ values := fun h => hne v h rfl
    simp [accepts, isAny, hmem]

theorem eq_any_of_accepts_not_proper {c : Constraint FrameRate} (hc : c.Within FrameRate.Proper)
    {v : FrameRate} (hv : ¬ v.Proper) (h : c.accepts v) : c = .any := by
  rw [accepts_of_not_proper hc hv] at h
  cases c with
  | any => rfl
  | exactly _ | range _ _ | oneOf _ => cases h

/-- An intersection is free only where both sides are. -/
theorem any_isAny_inter {α : Type} [Ord α] [BEq α] (c d : Constraint α) :
    (c.inter d).any isAny = (c.isAny && d.isAny) := by
  rw [Bool.eq_iff_iff, Option.any_eq_true, Bool.and_eq_true]
  constructor
  · rintro ⟨e, he, hany⟩
    cases e with
    | any =>
      obtain ⟨rfl, rfl⟩ := any_of_inter he
      exact ⟨rfl, rfl⟩
    | exactly _ | range _ _ | oneOf _ => cases hany
  · rintro ⟨hc, hd⟩
    cases c <;> cases hc
    cases d <;> cases hd
    exact ⟨any, rfl, rfl⟩

/-- **Intersections of rates are exact** at every rate, proper or not. -/
theorem any_accepts_inter_rate {c d : Constraint FrameRate} (hc : c.Within FrameRate.Proper)
    (hd : d.Within FrameRate.Proper) (v : FrameRate) :
    (c.inter d).any (·.accepts v) = (c.accepts v && d.accepts v) := by
  by_cases hv : v.Proper
  · exact any_accepts_inter FrameRate.orderedOn_proper hc hd hv
  · rw [accepts_of_not_proper hc hv, accepts_of_not_proper hd hv, ← any_isAny_inter]
    cases h : c.inter d with
    | none => rfl
    | some e => exact accepts_of_not_proper (within_inter hc hd h) hv

end Constraint

/-! ### All four fields -/

namespace FormatConstraint

/-- **Intersection is exact**: its result holds of the formats both sides hold of, and where there
is no result there is no such format. -/
theorem any_accepts_inter {c d : FormatConstraint} (hc : c.rate.Within FrameRate.Proper)
    (hd : d.rate.Within FrameRate.Proper) (f : VideoFormat) :
    (c.inter d).any (·.accepts f) = (c.accepts f && d.accepts f) := by
  have hencoding := Constraint.any_accepts_inter Encoding.orderedOn c.encoding.within_true
    d.encoding.within_true (v := f.encoding) trivial
  have hwidth := Extent.any_accepts_inter c.width d.width f.size.width
  have hheight := Extent.any_accepts_inter c.height d.height f.size.height
  have hrate := Constraint.any_accepts_inter_rate hc hd f.rate
  rw [Bool.eq_iff_iff, Option.any_eq_true, Bool.and_eq_true] at *
  rw [accepts_iff, accepts_iff]
  constructor
  · rintro ⟨e, he, hf⟩
    obtain ⟨he, hw, hh, hr⟩ := (inter_eq_some_iff c d e).mp he
    obtain ⟨hfe, hfw, hfh, hfr⟩ := (accepts_iff e f).mp hf
    obtain ⟨hce, hde⟩ := hencoding.mp ⟨_, he, hfe⟩
    obtain ⟨hcw, hdw⟩ := hwidth.mp ⟨_, hw, hfw⟩
    obtain ⟨hch, hdh⟩ := hheight.mp ⟨_, hh, hfh⟩
    obtain ⟨hcr, hdr⟩ := hrate.mp ⟨_, hr, hfr⟩
    exact ⟨⟨hce, hcw, hch, hcr⟩, hde, hdw, hdh, hdr⟩
  · rintro ⟨⟨hce, hcw, hch, hcr⟩, hde, hdw, hdh, hdr⟩
    -- Each field has a common value, so it has an intersection, and the four make up one constraint.
    obtain ⟨encoding, he, hfe⟩ := hencoding.mpr ⟨hce, hde⟩
    obtain ⟨width, hw, hfw⟩ := hwidth.mpr ⟨hcw, hdw⟩
    obtain ⟨height, hh, hfh⟩ := hheight.mpr ⟨hch, hdh⟩
    obtain ⟨rate, hr, hfr⟩ := hrate.mpr ⟨hcr, hdr⟩
    refine ⟨⟨encoding, width, height, rate⟩, ?_, ?_⟩
    · exact (inter_eq_some_iff c d _).mpr ⟨he, hw, hh, hr⟩
    · exact (accepts_iff _ f).mpr ⟨hfe, hfw, hfh, hfr⟩

theorem accepts_of_inter {c d e : FormatConstraint} (hc : c.rate.Within FrameRate.Proper)
    (hd : d.rate.Within FrameRate.Proper) (h : c.inter d = some e) (f : VideoFormat) :
    e.accepts f = (c.accepts f && d.accepts f) := by
  have := any_accepts_inter hc hd f
  rwa [h, Option.any_some] at this

theorem not_accepts_of_inter_eq_none {c d : FormatConstraint}
    (hc : c.rate.Within FrameRate.Proper) (hd : d.rate.Within FrameRate.Proper)
    (h : c.inter d = none) (f : VideoFormat) : (c.accepts f && d.accepts f) = false := by
  have := any_accepts_inter hc hd f
  rwa [h, Option.any_none, eq_comm] at this

end FormatConstraint

/-! ### Alternatives -/

namespace Alternatives

/-- Intersections invent no rates. -/
theorem RatesProper.inter {s t : Alternatives} (hs : s.RatesProper) (ht : t.RatesProper) :
    (s.inter t).RatesProper := by
  intro e he
  obtain ⟨c, hc, d, hd, hcd⟩ := (mem_inter s t e).mp he
  have hrate := ((FormatConstraint.inter_eq_some_iff c d e).mp hcd).2.2.2
  exact Constraint.within_inter (hs c hc) (ht d hd) hrate

theorem accepts_inter {s t : Alternatives} (hs : s.RatesProper) (ht : t.RatesProper)
    (f : VideoFormat) : (s.inter t).accepts f = (s.accepts f && t.accepts f) := by
  rw [Bool.eq_iff_iff, Bool.and_eq_true, accepts_iff, accepts_iff, accepts_iff]
  constructor
  · rintro ⟨e, he, hf⟩
    obtain ⟨c, hc, d, hd, hcd⟩ := (mem_inter s t e).mp he
    rw [FormatConstraint.accepts_of_inter (hs c hc) (ht d hd) hcd, Bool.and_eq_true] at hf
    exact ⟨⟨c, hc, hf.1⟩, d, hd, hf.2⟩
  · rintro ⟨⟨c, hc, hcf⟩, d, hd, hdf⟩
    have hboth := FormatConstraint.any_accepts_inter (hs c hc) (ht d hd) f
    rw [hcf, hdf, Bool.and_self, Option.any_eq_true] at hboth
    obtain ⟨e, hcd, hf⟩ := hboth
    exact ⟨e, (mem_inter s t e).mpr ⟨c, hc, d, hd, hcd⟩, hf⟩

end Alternatives

/-- **Intersection is exact.** The intersection of two constraints holds of exactly the formats
both hold of, and there is none only where no format satisfies both. Hence a list of alternatives
intersected with another holds of exactly the formats both hold of, and which formats an
intersection accepts depends neither on the order of the sides nor on how they are bracketed. -/
theorem inter_exact {a b : FormatConstraint} {s t u : Alternatives}
    (ha : a.rate.Within FrameRate.Proper) (hb : b.rate.Within FrameRate.Proper)
    (hs : s.RatesProper) (ht : t.RatesProper) (hu : u.RatesProper) (f : VideoFormat) :
    (∀ c, a.inter b = some c → (c.accepts f ↔ a.accepts f ∧ b.accepts f)) ∧
    (a.inter b = none → ¬ (a.accepts f ∧ b.accepts f)) ∧
    ((s.inter t).accepts f ↔ s.accepts f ∧ t.accepts f) ∧
    (s.inter t).accepts f = (t.inter s).accepts f ∧
    ((s.inter t).inter u).accepts f = (s.inter (t.inter u)).accepts f := by
  refine ⟨?_, ?_, ?_, ?_, ?_⟩
  · intro c hc
    rw [FormatConstraint.accepts_of_inter ha hb hc, Bool.and_eq_true]
  · intro hnone
    rw [← Bool.and_eq_true, FormatConstraint.not_accepts_of_inter_eq_none ha hb hnone]
    exact Bool.false_ne_true
  · rw [Alternatives.accepts_inter hs ht, Bool.and_eq_true]
  · rw [Alternatives.accepts_inter hs ht, Alternatives.accepts_inter ht hs, Bool.and_comm]
  · rw [Alternatives.accepts_inter (hs.inter ht) hu, Alternatives.accepts_inter hs ht,
      Alternatives.accepts_inter hs (ht.inter hu), Alternatives.accepts_inter ht hu, Bool.and_assoc]

/-! The widths 10, 16, 22, 28, 34, 40 and 12, 16, …, 44 have 16, 28 and 40 in common. -/

def sixthWidths : FormatConstraint where
  width := ⟨.range 10 40, 6⟩
  rate := .range ⟨15, 1⟩ ⟨60, 1⟩

def fourthWidths : FormatConstraint where
  encoding := .exactly .rggb8
  width := ⟨.range 12 44, 4⟩
  rate := .oneOf [⟨120, 1⟩, ⟨30, 1⟩]

def twelfthWidths : FormatConstraint where
  encoding := .exactly .rggb8
  width := ⟨.range 16 40, 12⟩
  rate := .exactly ⟨30, 1⟩

/-- Two grids of different origins and steps, at a format on both of them. -/
theorem inter_exact_of_grids :
    sixthWidths.rate.Within FrameRate.Proper ∧ fourthWidths.rate.Within FrameRate.Proper ∧
    sixthWidths.inter fourthWidths = some twelfthWidths ∧
    (twelfthWidths.accepts ⟨.rggb8, ⟨28, 7⟩, ⟨30, 1⟩⟩ ↔
      sixthWidths.accepts ⟨.rggb8, ⟨28, 7⟩, ⟨30, 1⟩⟩ ∧
        fourthWidths.accepts ⟨.rggb8, ⟨28, 7⟩, ⟨30, 1⟩⟩) ∧
    (Alternatives.inter ⟨[sixthWidths]⟩ ⟨[fourthWidths]⟩).accepts ⟨.rggb8, ⟨28, 7⟩, ⟨30, 1⟩⟩ =
      (Alternatives.inter ⟨[fourthWidths]⟩ ⟨[sixthWidths]⟩).accepts
        ⟨.rggb8, ⟨28, 7⟩, ⟨30, 1⟩⟩ := by
  have hsixth : sixthWidths.rate.Within FrameRate.Proper := by decide
  have hfourth : fourthWidths.rate.Within FrameRate.Proper := by decide
  have hinter : sixthWidths.inter fourthWidths = some twelfthWidths := by decide
  obtain ⟨hsome, -, -, hcomm, -⟩ := inter_exact (s := ⟨[sixthWidths]⟩) (t := ⟨[fourthWidths]⟩)
    (u := ⟨[twelfthWidths]⟩) hsixth hfourth (by decide) (by decide) (by decide)
    ⟨.rggb8, ⟨28, 7⟩, ⟨30, 1⟩⟩
  exact ⟨hsixth, hfourth, hinter, hsome _ hinter, hcomm⟩

end CameraStream
