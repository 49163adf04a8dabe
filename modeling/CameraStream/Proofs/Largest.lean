import CameraStream.Proofs.Intersection

/-!
# The largest common format

A request settles on a format by way of pairs, one alternative of either side at a time. Every pair
that has formats in common, and leaves no field free, has a largest one (`largestCommon?`). That this
is a format of both, and that no other common format exceeds it in any dimension, is proved field by
field: what is described is at most the largest value described (`Constraint.isLE_largest?`,
`Extent.le_largest?`), through lists, ranges and grids.

Among the pairs, in the order of the request and for one alternative of the request in that of the
offer, the first one wins if the request asks for a size, and the one with the largest format
otherwise, the earliest of several (`FirstLargest`). **`settleAgainst_spec`** puts the two together.
-/

namespace CameraStream

/-! ### No value exceeds the largest -/

namespace Constraint

variable {α : Type} [Ord α] {P : α → Prop}

theorem isLE_foldl_larger (hP : OrderedOn P) {values : List α} {v : α} (hv : P v)
    (hvalues : ∀ w ∈ values, P w) : ∀ w ∈ v :: values, (compare w (values.foldl larger v)).isLE := by
  induction values generalizing v with
  | nil =>
    intro w hw
    rw [List.mem_singleton.mp hw, List.foldl_nil, hP.compare_self hv]
    rfl
  | cons x rest ih =>
    rw [List.forall_mem_cons] at hvalues
    have hlarger : P (larger v x) := by rcases larger_cases v x with h | h <;> rw [h] <;> tauto
    have hrest := ih hlarger hvalues.2
    rw [List.forall_mem_cons] at hrest
    -- The larger of the first two is at most the result, so both of them are.
    have hresult : P (rest.foldl larger (larger v x)) := by
      rcases foldl_larger_mem rest (larger v x) with h | h
      · rw [h]
        exact hlarger
      · exact hvalues.2 _ h
    obtain ⟨hfirst, hsecond⟩ := (larger_isLE_iff hP hv hvalues.1 hresult).mp hrest.1
    exact List.forall_mem_cons.mpr ⟨hfirst, List.forall_mem_cons.mpr ⟨hsecond, hrest.2⟩⟩

/-- **What is described is at most the largest value described.** -/
theorem isLE_largest? [BEq α] [LawfulBEq α] (hP : OrderedOn P) {c : Constraint α}
    (hc : c.Within P) {m v : α} (hm : c.largest? = some m) (hv : c.accepts v) :
    (compare v m).isLE := by
  cases c with
  | any => cases hm
  | exactly w =>
    cases hm
    rw [← beq_iff_eq.mp hv, hP.compare_self (hc _ (List.mem_singleton_self _))]
    rfl
  | range lo hi =>
    cases hm
    exact (Bool.and_eq_true_iff.mp hv).2
  | oneOf values =>
    have hmem : v ∈ values := List.contains_iff_mem.mp hv
    cases values with
    | nil => cases hm
    | cons w rest =>
      cases hm
      exact isLE_foldl_larger hP (hc w List.mem_cons_self)
        (fun x hx => hc x (List.mem_cons_of_mem _ hx)) v hmem

theorem accepts_preferred? [BEq α] [LawfulBEq α] (hP : OrderedOn P) {c : Constraint α}
    (hc : c.Within P) (hf : c.Forward) {v : α} (h : c.preferred? = some v) : c.accepts v := by
  cases c with
  | any => rfl
  | exactly w =>
    cases h
    exact beq_self_eq_true _
  | range lo hi =>
    cases h
    have hlo : P v := hc v (by simp [mentioned])
    show inRange v _ _ = true
    rw [inRange_iff hP hlo hlo]
    exact ⟨by simp [hP.compare_self hlo], hf⟩
  | oneOf values => exact List.contains_iff_mem.mpr (List.mem_of_mem_head? h)

end Constraint

theorem Extent.le_largest? {x : Extent} {m v : Nat} (hm : x.largest? = some m)
    (hv : x.accepts v) : v ≤ m := by
  obtain ⟨c, step⟩ := x
  cases c with
  | range lo hi =>
    rw [accepts_range_iff] at hv
    have hle : lo ≤ hi := hv.1.1.trans hv.2
    have hlast := ((onGrid_last hle).mp hv).2
    rw [← Option.some.inj hm]
    split
    · next hstep => rwa [Nat.max_eq_left (Nat.le_of_lt hstep)] at hlast
    · exact hv.2
  | any | exactly w | oneOf values =>
    rw [← Nat.isLE_compare]
    refine Constraint.isLE_largest? OrderedOn.of_lawful (Constraint.within_true _) ?_
      (accepts_values hv)
    exact hm

/-! ### Formats by extent -/

namespace VideoFormat

theorem isLE_compareExtent_iff (f g : VideoFormat) :
    (f.compareExtent g).isLE ↔
      f.size.width < g.size.width ∨ f.size.width = g.size.width ∧
        (f.size.height < g.size.height ∨ f.size.height = g.size.height ∧
          (compare f.rate g.rate).isLE) := by
  show (((compare f.size.width g.size.width).then (compare f.size.height g.size.height)).then
    (compare f.rate g.rate)).isLE ↔ _
  rw [Ordering.then_assoc, Ordering.isLE_then_iff_or, Ordering.isLE_then_iff_or, Nat.compare_eq_lt,
    Nat.compare_eq_eq, Nat.compare_eq_lt, Nat.compare_eq_eq]

/-- What exceeds a format in no dimension does not exceed it in extent. -/
theorem isLE_compareExtent_of_le {f g : VideoFormat} (hwidth : f.size.width ≤ g.size.width)
    (hheight : f.size.height ≤ g.size.height) (hrate : (compare f.rate g.rate).isLE) :
    (f.compareExtent g).isLE := by
  rw [isLE_compareExtent_iff]
  rcases Nat.lt_or_eq_of_le hwidth with hlt | heq
  · exact .inl hlt
  · exact .inr ⟨heq, (Nat.lt_or_eq_of_le hheight).imp_right fun heq => ⟨heq, hrate⟩⟩

theorem compareExtent_swap (f g : VideoFormat) :
    g.compareExtent f = (f.compareExtent g).swap := by
  show ((compare g.size.width f.size.width).then (compare g.size.height f.size.height)).then
      (compare g.rate f.rate) = _
  rw [FrameRate.compare_swap f.rate, ← Nat.compare_swap f.size.width,
    ← Nat.compare_swap f.size.height, ← Ordering.swap_then, ← Ordering.swap_then]
  rfl

/-- One format is smaller than another unless it is at least as large. -/
theorem isLT_compareExtent_iff (f g : VideoFormat) :
    (f.compareExtent g).isLT ↔ ¬ (g.compareExtent f).isLE := by
  rw [compareExtent_swap f g]
  cases f.compareExtent g <;> simp

theorem isLE_compareExtent_refl (f : VideoFormat) : (f.compareExtent f).isLE := by
  simp [isLE_compareExtent_iff, FrameRate.isLE_iff]

theorem isLE_compareExtent_trans {f g h : VideoFormat} (hf : f.rate.Proper) (hg : g.rate.Proper)
    (hh : h.rate.Proper) (hfg : (f.compareExtent g).isLE) (hgh : (g.compareExtent h).isLE) :
    (f.compareExtent h).isLE := by
  rw [isLE_compareExtent_iff] at *
  have hrate := FrameRate.isLE_trans hf hg hh
  rcases hfg with hfg | ⟨hfg, hfg' | ⟨hfg', hfg''⟩⟩ <;>
    rcases hgh with hgh | ⟨hgh, hgh' | ⟨hgh', hgh''⟩⟩
  case inr.inr.inr.inr =>
    exact .inr ⟨hfg.trans hgh, .inr ⟨hfg'.trans hgh', hrate hfg'' hgh''⟩⟩
  all_goals omega

/-- A format is the earliest of the largest ones in a list. -/
def FirstLargest (fs : List VideoFormat) (f : VideoFormat) : Prop :=
  ∃ before after, fs = before ++ f :: after ∧ (∀ g ∈ before, (g.compareExtent f).isLT) ∧
    ∀ g ∈ after, (g.compareExtent f).isLE

namespace FirstLargest

variable {fs : List VideoFormat} {f g : VideoFormat}

theorem mem (h : FirstLargest fs f) : f ∈ fs := by
  obtain ⟨before, after, rfl, -, -⟩ := h
  exact List.mem_append_right _ List.mem_cons_self

theorem isLE (h : FirstLargest fs f) (hg : g ∈ fs) : (g.compareExtent f).isLE := by
  obtain ⟨before, after, rfl, hbefore, hafter⟩ := h
  rcases List.mem_append.mp hg with hg | hg
  · have hlt := hbefore g hg
    cases hc : g.compareExtent f <;> simp [hc] at hlt ⊢
  · rcases List.mem_cons.mp hg with rfl | hg
    · exact isLE_compareExtent_refl g
    · exact hafter g hg

theorem cons (h : FirstLargest fs f) (hg : (g.compareExtent f).isLT) : FirstLargest (g :: fs) f := by
  obtain ⟨before, after, rfl, hbefore, hafter⟩ := h
  exact ⟨g :: before, after, rfl, List.forall_mem_cons.mpr ⟨hg, hbefore⟩, hafter⟩

/-- A format that does not exceed the first one may be passed over. -/
theorem insert {x : VideoFormat} (h : FirstLargest (x :: fs) f) (hg : (g.compareExtent x).isLE)
    (hlt : (x.compareExtent f).isLT → (g.compareExtent f).isLT) :
    FirstLargest (x :: g :: fs) f := by
  obtain ⟨before, after, heq, hbefore, hafter⟩ := h
  rcases before with _ | ⟨y, before⟩
  · cases heq
    exact ⟨[], g :: fs, rfl, List.forall_mem_nil _, List.forall_mem_cons.mpr ⟨hg, hafter⟩⟩
  · cases heq
    rw [List.forall_mem_cons] at hbefore
    exact ⟨x :: g :: before, after, rfl,
      List.forall_mem_cons.mpr ⟨hbefore.1, List.forall_mem_cons.mpr ⟨hlt hbefore.1, hbefore.2⟩⟩,
      hafter⟩

end FirstLargest

section
variable {f g h : VideoFormat} (hf : f.rate.Proper) (hg : g.rate.Proper) (hh : h.rate.Proper)
include hf hg hh

theorem isLT_of_isLT_of_isLE (hfg : (f.compareExtent g).isLT) (hgh : (g.compareExtent h).isLE) :
    (f.compareExtent h).isLT := by
  rw [isLT_compareExtent_iff] at hfg ⊢
  exact fun hhf => hfg (isLE_compareExtent_trans hg hh hf hgh hhf)

theorem isLT_of_isLE_of_isLT (hfg : (f.compareExtent g).isLE) (hgh : (g.compareExtent h).isLT) :
    (f.compareExtent h).isLT := by
  rw [isLT_compareExtent_iff] at hgh ⊢
  exact fun hhf => hgh (isLE_compareExtent_trans hh hf hg hhf hfg)

end

/-- **The largest format of a list is the earliest of the largest ones.** -/
theorem firstLargest_of_largest? {fs : List VideoFormat} (hfs : ∀ f ∈ fs, f.rate.Proper)
    {f : VideoFormat} (h : largest? fs = some f) : FirstLargest fs f := by
  -- The best format so far stands for all that were passed, so the fold is from a list to its result.
  have hfold : ∀ (rest : List VideoFormat) (best : VideoFormat), (∀ g ∈ best :: rest, g.rate.Proper) →
      FirstLargest (best :: rest)
        (rest.foldl (fun best g => if (compareExtent best g).isLT then g else best) best) := by
    intro rest
    induction rest with
    | nil =>
      intro best _
      exact ⟨[], [], rfl, List.forall_mem_nil _, List.forall_mem_nil _⟩
    | cons g rest ih =>
      intro best hproper
      rw [List.forall_mem_cons, List.forall_mem_cons] at hproper
      obtain ⟨hbest, hg, hrest⟩ := hproper
      rw [List.foldl_cons]
      split
      · next hlt =>
        have hproper : ∀ x ∈ g :: rest, x.rate.Proper := List.forall_mem_cons.mpr ⟨hg, hrest⟩
        have hlater := ih g hproper
        have hresult := hproper _ hlater.mem
        exact hlater.cons (isLT_of_isLT_of_isLE hbest hg hresult hlt
          (hlater.isLE List.mem_cons_self))
      · next hnot =>
        have hle : (g.compareExtent best).isLE := by
          rwa [isLT_compareExtent_iff, not_not] at hnot
        have hproper : ∀ x ∈ best :: rest, x.rate.Proper :=
          List.forall_mem_cons.mpr ⟨hbest, hrest⟩
        have hlater := ih best hproper
        have hresult := hproper _ hlater.mem
        exact hlater.insert hle (isLT_of_isLE_of_isLT hg hbest hresult hle)
  cases fs with
  | nil => cases h
  | cons g rest =>
    cases h
    exact hfold rest g hfs

end VideoFormat

/-! ### What two constraints have in common -/

namespace FormatConstraint

/-- The largest format that holds of two constraints, unless they leave a field free. -/
def largestCommon? (c d : FormatConstraint) : Option VideoFormat := (c.inter d).bind (·.largest?)

/-- Neither dimension is constrained. -/
def SizeFree (c : FormatConstraint) : Prop := c.width.values = .any ∧ c.height.values = .any

instance (c : FormatConstraint) : Decidable c.SizeFree :=
  inferInstanceAs (Decidable (c.width.values = .any ∧ c.height.values = .any))

theorem WellFormed.inter {c d e : FormatConstraint} (hc : c.WellFormed) (hd : d.WellFormed)
    (h : c.inter d = some e) : e.WellFormed := by
  obtain ⟨hencoding, hwidth, hheight, hrate⟩ := (inter_eq_some_iff c d e).mp h
  -- What is not inverted on either side is not inverted in common.
  have hconstraint {α : Type} [Ord α] [BEq α] {x y z : Constraint α} (hx : x.Forward)
      (hy : y.Forward) (hxy : x.inter y = some z) : z.Forward := by
    rcases Constraint.forward_inter hxy with ⟨-, rfl⟩ | ⟨-, rfl⟩ | hz
    · exact hy
    · exact hx
    · exact hz
  have hextent {x y z : Extent} (hx : x.Forward) (hy : y.Forward) (hxy : x.inter y = some z) :
      z.Forward := by
    rcases Extent.forward_inter hxy with ⟨-, rfl⟩ | ⟨-, rfl⟩ | hz
    · exact hy
    · exact hx
    · exact hz
  exact {
    encoding := hconstraint hc.encoding hd.encoding hencoding
    width := hextent hc.width hd.width hwidth
    height := hextent hc.height hd.height hheight
    rate := hconstraint hc.rate hd.rate hrate
    proper := Constraint.within_inter hc.proper hd.proper hrate }

theorem accepts_largest? {c : FormatConstraint} (hc : c.WellFormed) {f : VideoFormat}
    (h : c.largest? = some f) : c.accepts f := by
  obtain ⟨hencoding, hwidth, hheight, hrate⟩ := (largest?_eq_some_iff c f).mp h
  exact (accepts_iff c f).mpr
    ⟨Constraint.accepts_preferred? Encoding.orderedOn (Constraint.within_true _) hc.encoding hencoding,
      Extent.accepts_largest? hc.width hwidth, Extent.accepts_largest? hc.height hheight,
      Constraint.accepts_largest? FrameRate.orderedOn_proper hc.proper hc.rate hrate⟩

/-- No common format exceeds another one in any dimension. -/
structure LargestIn (c d : FormatConstraint) (f : VideoFormat) : Prop where
  left : c.accepts f
  right : d.accepts f
  isLE : ∀ g, c.accepts g → d.accepts g → g.size.width ≤ f.size.width ∧
    g.size.height ≤ f.size.height ∧ (compare g.rate f.rate).isLE

theorem LargestIn.isLE_compareExtent {c d : FormatConstraint} {f g : VideoFormat}
    (h : LargestIn c d f) (hc : c.accepts g) (hd : d.accepts g) : (g.compareExtent f).isLE := by
  obtain ⟨hwidth, hheight, hrate⟩ := h.isLE g hc hd
  exact VideoFormat.isLE_compareExtent_of_le hwidth hheight hrate

section
variable {c d : FormatConstraint} (hc : c.WellFormed) (hd : d.WellFormed) {f : VideoFormat}
  (h : c.largestCommon? d = some f)
include hc hd h

/-- **The largest common format is common, and the largest.** -/
theorem largestIn_of_largestCommon? : LargestIn c d f := by
  obtain ⟨e, hinter, hlargest⟩ := Option.bind_eq_some_iff.mp h
  have he := hc.inter hd hinter
  have hboth := accepts_of_inter hc.proper hd.proper hinter
  have hf := (hboth f).symm.trans (accepts_largest? he hlargest)
  rw [Bool.and_eq_true] at hf
  refine ⟨hf.1, hf.2, fun g hgc hgd => ?_⟩
  have hg : e.accepts g := by rw [hboth, hgc, hgd]; rfl
  obtain ⟨-, hwidth, hheight, hrate⟩ := (largest?_eq_some_iff e f).mp hlargest
  obtain ⟨-, hgwidth, hgheight, hgrate⟩ := (accepts_iff e g).mp hg
  exact ⟨Extent.le_largest? hwidth hgwidth, Extent.le_largest? hheight hgheight,
    Constraint.isLE_largest? FrameRate.orderedOn_proper he.proper hrate hgrate⟩

theorem proper_of_largestCommon? : f.rate.Proper := by
  obtain ⟨e, hinter, hlargest⟩ := Option.bind_eq_some_iff.mp h
  exact proper_of_inter hc.proper hd.proper hinter hlargest

/-- Where there is a largest format the rate is not left free, so no common rate is improper. -/
theorem proper_of_accepts_of_largestCommon? {g : VideoFormat} (hgc : c.accepts g)
    (hgd : d.accepts g) : g.rate.Proper := by
  obtain ⟨e, hinter, hlargest⟩ := Option.bind_eq_some_iff.mp h
  have hg : e.accepts g := by rw [accepts_of_inter hc.proper hd.proper hinter, hgc, hgd]; rfl
  have hrate := ((accepts_iff e g).mp hg).2.2.2
  by_contra hnot
  have hfixed := ((largest?_eq_some_iff e f).mp hlargest).2.2.2
  rw [Constraint.eq_any_of_accepts_not_proper (hc.inter hd hinter).proper hnot hrate] at hfixed
  cases hfixed

end

end FormatConstraint

/-! ### Pairs of alternatives -/

namespace Alternatives

/-- The pairs of one alternative of either side, those of the first alternative of `s` first. -/
def pairs (s t : Alternatives) : List (FormatConstraint × FormatConstraint) :=
  s.toList.flatMap fun c => t.toList.map fun d => (c, d)

theorem mem_pairs {s t : Alternatives} {c d : FormatConstraint} :
    (c, d) ∈ s.pairs t ↔ c ∈ s.toList ∧ d ∈ t.toList := by
  simp [pairs, List.mem_flatMap, and_comm]

theorem toList_inter (s t : Alternatives) :
    (s.inter t).toList = (s.pairs t).filterMap fun pair => pair.1.inter pair.2 := by
  unfold inter pairs
  rw [List.filterMap_flatMap]
  simp only [List.filterMap_map]
  rfl

/-- The earliest pair with formats in common settles a request for a size, and the largest of what
the pairs have in common any other request. -/
theorem settleAgainst?_eq (s offer : Alternatives) :
    s.settleAgainst? offer =
      if s.asksForSize then (s.pairs offer).findSome? fun pair => pair.1.largestCommon? pair.2
      else VideoFormat.largest?
        ((s.pairs offer).filterMap fun pair => pair.1.largestCommon? pair.2) := by
  unfold settleAgainst? pick? first? largest?
  rw [toList_inter, List.filterMap_filterMap, ← List.head?_filterMap, List.filterMap_filterMap,
    List.head?_filterMap]
  rfl

theorem asksForSize_eq_false_iff (s : Alternatives) :
    s.asksForSize = false ↔ ∀ c ∈ s.toList, c.SizeFree := by
  unfold asksForSize
  rw [List.any_eq_false]
  refine forall₂_congr fun c _ => ?_
  unfold FormatConstraint.asksForSize Extent.isConstrained FormatConstraint.SizeFree
  cases c.width.values <;> cases c.height.values <;> simp [Constraint.isAny]

/-- A format is the largest one of a pair, with the given pairs before it. -/
structure SettledBy (s offer : Alternatives) (before : List (FormatConstraint × FormatConstraint))
    (c d : FormatConstraint) (f : VideoFormat) : Prop where
  split : ∃ after, s.pairs offer = before ++ (c, d) :: after
  common : c.largestCommon? d = some f

section
variable {s offer : Alternatives} {f : VideoFormat}

theorem exists_settledBy_of_findSome?
    (h : (s.pairs offer).findSome? (fun pair => pair.1.largestCommon? pair.2) = some f) :
    ∃ before c d, SettledBy s offer before c d f ∧
      ∀ pair ∈ before, pair.1.largestCommon? pair.2 = none := by
  obtain ⟨before, ⟨c, d⟩, after, hsplit, hcommon, hbefore⟩ := List.findSome?_eq_some_iff.mp h
  exact ⟨before, c, d, ⟨⟨after, hsplit⟩, hcommon⟩, hbefore⟩

theorem exists_settledBy_of_firstLargest
    (h : VideoFormat.FirstLargest
      ((s.pairs offer).filterMap fun pair => pair.1.largestCommon? pair.2) f) :
    ∃ before c d, SettledBy s offer before c d f ∧
      ∀ pair ∈ before, ∀ g, pair.1.largestCommon? pair.2 = some g → (g.compareExtent f).isLT := by
  obtain ⟨smaller, others, hfs, hsmaller, -⟩ := h
  obtain ⟨front, back, hpairs, hfront, hback⟩ := List.filterMap_eq_append_iff.mp hfs
  obtain ⟨skipped, ⟨c, d⟩, after, rfl, hskipped, hcommon, -⟩ := List.filterMap_eq_cons_iff.mp hback
  refine ⟨front ++ skipped, c, d, ⟨⟨after, by rw [hpairs, List.append_assoc]⟩, hcommon⟩, ?_⟩
  intro pair hpair g hg
  rcases List.mem_append.mp hpair with hmem | hmem
  · exact hsmaller g (hfront ▸ List.mem_filterMap.mpr ⟨pair, hmem, hg⟩)
  · rw [hskipped pair hmem] at hg
    cases hg

theorem SettledBy.mem {before : List (FormatConstraint × FormatConstraint)} {c d : FormatConstraint}
    (h : SettledBy s offer before c d f) : c ∈ s.toList ∧ d ∈ offer.toList := by
  obtain ⟨after, hsplit⟩ := h.split
  rw [← mem_pairs, hsplit]
  exact List.mem_append_right _ List.mem_cons_self

theorem settleAgainst?_eq_none_iff :
    s.settleAgainst? offer = none ↔
      ∀ c ∈ s.toList, ∀ d ∈ offer.toList, c.largestCommon? d = none := by
  have hpairs : (∀ pair ∈ s.pairs offer, pair.1.largestCommon? pair.2 = none) ↔
      ∀ c ∈ s.toList, ∀ d ∈ offer.toList, c.largestCommon? d = none :=
    ⟨fun h c hc d hd => h (c, d) (mem_pairs.mpr ⟨hc, hd⟩),
      fun h (c, d) hpair => h c (mem_pairs.mp hpair).1 d (mem_pairs.mp hpair).2⟩
  rw [settleAgainst?_eq, ← hpairs]
  split
  · exact List.findSome?_eq_none_iff
  · rw [← Option.not_isSome_iff_eq_none, VideoFormat.isSome_largest?_iff, not_not]
    exact List.filterMap_eq_nil_iff

variable (hs : s.WellFormed) (hoffer : offer.WellFormed)
include hs hoffer

theorem SettledBy.largestIn {before : List (FormatConstraint × FormatConstraint)}
    {c d : FormatConstraint} (h : SettledBy s offer before c d f) :
    FormatConstraint.LargestIn c d f :=
  FormatConstraint.largestIn_of_largestCommon? (hs c h.mem.1) (hoffer d h.mem.2) h.common

/-- A format that is at least as large as the largest one of every pair is at least as large as
every format a pair with a largest one has in common. -/
theorem isLE_of_firstLargest
    (h : VideoFormat.FirstLargest
      ((s.pairs offer).filterMap fun pair => pair.1.largestCommon? pair.2) f)
    {c d : FormatConstraint} (hc : c ∈ s.toList) (hd : d ∈ offer.toList)
    (hsome : (c.largestCommon? d).isSome) {g : VideoFormat} (hgc : c.accepts g)
    (hgd : d.accepts g) : (g.compareExtent f).isLE := by
  obtain ⟨⟨c', d'⟩, hpair, hcommon⟩ := List.mem_filterMap.mp h.mem
  obtain ⟨hc', hd'⟩ := mem_pairs.mp hpair
  obtain ⟨largest, hlargest⟩ := Option.isSome_iff_exists.mp hsome
  have hle : (largest.compareExtent f).isLE :=
    h.isLE (List.mem_filterMap.mpr ⟨(c, d), mem_pairs.mpr ⟨hc, hd⟩, hlargest⟩)
  have hin := FormatConstraint.largestIn_of_largestCommon? (hs c hc) (hoffer d hd) hlargest
  exact VideoFormat.isLE_compareExtent_trans
    (FormatConstraint.proper_of_accepts_of_largestCommon? (hs c hc) (hoffer d hd) hlargest hgc hgd)
    (FormatConstraint.proper_of_largestCommon? (hs c hc) (hoffer d hd) hlargest)
    (FormatConstraint.proper_of_largestCommon? (hs c' hc') (hoffer d' hd') hcommon)
    (hin.isLE_compareExtent hgc hgd) hle

end

section
open FormatConstraint

/-- **A request settles on the right format.** There is none exactly if no pair of alternatives
determines a format. Otherwise both sides accept the format settled on, and it is the largest one of
some pair. If the request leaves the size open altogether, it is at least as large as every format
that a pair which determines one has in common, and the earliest pair with a format of that size
wins; if it asks for a size anywhere, the earliest pair that determines a format wins. -/
theorem settleAgainst_spec {r s : Alternatives} (hr : r.WellFormed) (hs : s.WellFormed) :
    (r.settleAgainst? s = none ↔ ∀ c ∈ r.toList, ∀ d ∈ s.toList, c.largestCommon? d = none) ∧
    ∀ f, r.settleAgainst? s = some f →
      (r.accepts f ∧ s.accepts f) ∧
      ∃ before c d, SettledBy r s before c d f ∧ LargestIn c d f ∧
        ((∀ a ∈ r.toList, a.SizeFree) →
          (∀ a ∈ r.toList, ∀ b ∈ s.toList, (a.largestCommon? b).isSome →
            ∀ g, a.accepts g → b.accepts g → (g.compareExtent f).isLE) ∧
          ∀ pair ∈ before, ∀ g, pair.1.largestCommon? pair.2 = some g →
            (g.compareExtent f).isLT) ∧
        ((∃ a ∈ r.toList, ¬ a.SizeFree) →
          ∀ pair ∈ before, pair.1.largestCommon? pair.2 = none) := by
  refine ⟨settleAgainst?_eq_none_iff, fun f hf => ?_⟩
  -- Wherever the format comes from, its pair is one of alternatives that accept it.
  have haccepts {before c d} (hby : SettledBy r s before c d f) : r.accepts f ∧ s.accepts f := by
    have hin := hby.largestIn hr hs
    exact ⟨(accepts_iff r f).mpr ⟨c, hby.mem.1, hin.left⟩,
      (accepts_iff s f).mpr ⟨d, hby.mem.2, hin.right⟩⟩
  rw [settleAgainst?_eq] at hf
  split at hf
  case isTrue hsize =>
    obtain ⟨before, c, d, hby, hbefore⟩ := exists_settledBy_of_findSome? hf
    refine ⟨haccepts hby, before, c, d, hby, hby.largestIn hr hs, ?_, fun _ => hbefore⟩
    intro hfree
    rw [← asksForSize_eq_false_iff, hsize] at hfree
    cases hfree
  case isFalse hsize =>
    have hfree := (asksForSize_eq_false_iff r).mp (Bool.not_eq_true _ ▸ hsize)
    have hfirst : VideoFormat.FirstLargest _ f := VideoFormat.firstLargest_of_largest? (by
      intro g hg
      obtain ⟨⟨c, d⟩, hpair, hcommon⟩ := List.mem_filterMap.mp hg
      obtain ⟨hc, hd⟩ := mem_pairs.mp hpair
      exact proper_of_largestCommon? (hr c hc) (hs d hd) hcommon) hf
    obtain ⟨before, c, d, hby, hbefore⟩ := exists_settledBy_of_firstLargest hfirst
    refine ⟨haccepts hby, before, c, d, hby, hby.largestIn hr hs, fun _ => ⟨?_, hbefore⟩, ?_⟩
    · intro a ha b hb hsome g hga hgb
      exact isLE_of_firstLargest hr hs hfirst ha hb hsome hga hgb
    · rintro ⟨a, ha, hconstrained⟩
      exact absurd (hfree a ha) hconstrained

/-! Two requests for an encoding tie on 40×30, the largest size of a grid that ends at 45. -/

def mosaicsOnly : Alternatives :=
  ⟨[{ encoding := .exactly .rggb8 }, { encoding := .oneOf [.bggr8, .rggb8] }]⟩

def gridAndFixedSizes : Alternatives :=
  ⟨[{ width := .exactly 28, height := .exactly 30, rate := .exactly ⟨60, 1⟩ },
    { width := ⟨.range 10 45, 6⟩, height := .exactly 30, rate := .oneOf [⟨15, 1⟩, ⟨30, 1⟩] },
    { width := .exactly 40, height := .exactly 30, rate := .range ⟨15, 1⟩ ⟨30, 1⟩ }]⟩

theorem settleAgainst_mosaicsOnly :
    mosaicsOnly.WellFormed ∧ gridAndFixedSizes.WellFormed ∧
    mosaicsOnly.settleAgainst? gridAndFixedSizes = some ⟨.rggb8, ⟨40, 30⟩, ⟨30, 1⟩⟩ ∧
    ∀ a ∈ mosaicsOnly.toList, ∀ b ∈ gridAndFixedSizes.toList, (a.largestCommon? b).isSome →
      ∀ g, a.accepts g → b.accepts g →
        (g.compareExtent ⟨.rggb8, ⟨40, 30⟩, ⟨30, 1⟩⟩).isLE := by
  have hrequest : mosaicsOnly.WellFormed := by decide
  have hoffer : gridAndFixedSizes.WellFormed := by decide
  have hsettled : mosaicsOnly.settleAgainst? gridAndFixedSizes =
      some ⟨.rggb8, ⟨40, 30⟩, ⟨30, 1⟩⟩ := by decide
  obtain ⟨-, _, _, _, -, -, hfree, -⟩ := (settleAgainst_spec hrequest hoffer).2 _ hsettled
  exact ⟨hrequest, hoffer, hsettled, (hfree (by decide)).1⟩

end

end Alternatives

end CameraStream
