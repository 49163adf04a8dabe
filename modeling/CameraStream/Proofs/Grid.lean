import CameraStream.Constraint.Extent
import CameraStream.Proofs.Constraint
import Mathlib.Data.Nat.GCD.Basic

/-!
# Extents as sets of lengths

The dimensions of a frame are constrained by numbers and grids of numbers. The reading of a grid is
`OnGrid`: a value is on the grid from `lo` when it is `lo` plus a multiple of the stride. The
bounds of an extent are read by `Extent.accepts_range_iff`, the grid it keeps by
`Extent.accepts_gridUpTo_iff`, and intersection is related to both:

* a length of `x.inter y` satisfies `x` and `y` (`Extent.accepts_of_inter`);
* the largest length of `x.inter y` satisfies every side that is not inverted
  (`Extent.accepts_left_of_largest?`, `Extent.accepts_right_of_largest?`).
-/

namespace CameraStream

/-! ### Grids -/

/-- `v` is reached from `lo` by whole strides. -/
def OnGrid (lo stride v : Nat) : Prop := lo ≤ v ∧ stride ∣ v - lo

/-- A grid that starts on another one and has a multiple of its stride stays on it. -/
theorem OnGrid.trans {lo stride first step v : Nat} (hfirst : OnGrid lo stride first)
    (hdvd : stride ∣ step) (hv : OnGrid first step v) : OnGrid lo stride v := by
  refine ⟨Nat.le_trans hfirst.1 hv.1, ?_⟩
  have hsplit : v - lo = (v - first) + (first - lo) := by
    have := hfirst.1
    have := hv.1
    omega
  rw [hsplit]
  exact Nat.dvd_add (Nat.dvd_trans hdvd hv.2) hfirst.2

/-- From a common value on, the values of both grids are the common multiples of the strides ahead. -/
theorem OnGrid.lcm {lo stride lo' stride' first v : Nat} (hfirst : OnGrid lo stride first)
    (hfirst' : OnGrid lo' stride' first) (hv : OnGrid lo stride v) (hv' : OnGrid lo' stride' v)
    (hle : first ≤ v) : OnGrid first (stride.lcm stride') v := by
  refine ⟨hle, Nat.lcm_dvd ?_ ?_⟩
  · rw [show v - first = (v - lo) - (first - lo) by have := hfirst.1; omega]
    exact Nat.dvd_sub hv.2 hfirst.2
  · rw [show v - first = (v - lo') - (first - lo') by have := hfirst'.1; omega]
    exact Nat.dvd_sub hv'.2 hfirst'.2

theorem onStep_iff (step lo v : Nat) : onStep step lo v = true ↔ max step 1 ∣ v - lo := by
  unfold onStep
  rw [Bool.or_eq_true, decide_eq_true_eq, beq_iff_eq]
  by_cases h : step ≤ 1
  · simp [h]
  · rw [Nat.max_eq_left (by omega), Nat.dvd_iff_mod_eq_zero]
    simp [h]

namespace Extent

/-- Rounding up lands on the grid, at or above where it starts. -/
theorem onGrid_roundUp {lo stride bottom : Nat} (hs : 0 < stride) (h : lo ≤ bottom) :
    bottom ≤ roundUp lo stride bottom ∧ OnGrid lo stride (roundUp lo stride bottom) := by
  have hle : bottom ≤ roundUp lo stride bottom := Nat.le_add_right _ _
  refine ⟨hle, by omega, ?_⟩
  have hsub : roundUp lo stride bottom - lo =
      (bottom - lo) + (stride - (bottom - lo) % stride) % stride := by
    unfold roundUp
    omega
  rw [hsub]
  generalize bottom - lo = m
  have hlt : m % stride < stride := Nat.mod_lt _ hs
  apply Nat.dvd_of_mod_eq_zero
  by_cases hz : m % stride = 0
  · simp [hz]
  · rw [Nat.mod_eq_of_lt (a := stride - m % stride) (by omega), Nat.add_mod,
      Nat.mod_eq_of_lt (a := stride - m % stride) (by omega),
      show m % stride + (stride - m % stride) = stride by omega, Nat.mod_self]

/-- Rounding up passes over no value of the grid. -/
theorem onGrid_from_roundUp {lo stride bottom v : Nat} (hs : 0 < stride) (h : lo ≤ bottom)
    (hv : OnGrid lo stride v) (hle : bottom ≤ v) : OnGrid (roundUp lo stride bottom) stride v := by
  obtain ⟨hbottom, hlo, hdvd⟩ := onGrid_roundUp hs h
  have hgap : roundUp lo stride bottom < bottom + stride :=
    Nat.add_lt_add_left (Nat.mod_lt _ hs) _
  have hstart : roundUp lo stride bottom ≤ v := by
    by_contra hlt
    -- Two values of one grid that are less than a stride apart are the same value.
    have hdiff : stride ∣ roundUp lo stride bottom - v := by
      rw [show roundUp lo stride bottom - v =
        (roundUp lo stride bottom - lo) - (v - lo) by have := hv.1; omega]
      exact Nat.dvd_sub hdvd hv.2
    have := Nat.le_of_dvd (by omega) hdiff
    omega
  refine ⟨hstart, ?_⟩
  rw [show v - roundUp lo stride bottom =
    (v - lo) - (roundUp lo stride bottom - lo) by have := hv.1; omega]
  exact Nat.dvd_sub hv.2 hdvd

/-- The walk finds a value some strides ahead that is on the other grid. -/
theorem findOnGrid_sound {step lo hi stride count v w : Nat}
    (h : findOnGrid step lo hi stride count v = some w) :
    OnGrid v stride w ∧ w ≤ hi ∧ step ∣ w - lo := by
  induction count generalizing v with
  | zero => cases h
  | succ count ih =>
    unfold findOnGrid at h
    split at h
    · cases h
    · next hle =>
      split at h
      · next hmod =>
        cases h
        exact ⟨⟨Nat.le_refl _, by simp⟩, by omega, Nat.dvd_of_mod_eq_zero hmod⟩
      · obtain ⟨hgrid, htop, hother⟩ := ih h
        have hstep : OnGrid v stride (v + stride) := ⟨by omega, by simp⟩
        exact ⟨hstep.trans (Nat.dvd_refl _) hgrid, htop, hother⟩

/-- The walk stops at the latest where it meets a value of the other grid. -/
theorem findOnGrid_complete {step lo hi stride count v k : Nat} (hk : k < count)
    (htop : v + k * stride ≤ hi) (hother : step ∣ v + k * stride - lo) :
    ∃ w, findOnGrid step lo hi stride count v = some w ∧ w ≤ v + k * stride := by
  induction count generalizing v k with
  | zero => omega
  | succ count ih =>
    unfold findOnGrid
    rw [if_neg (by omega)]
    split
    · exact ⟨v, rfl, by omega⟩
    · next hmod =>
      cases k with
      | zero =>
        rw [Nat.zero_mul, Nat.add_zero] at hother
        exact absurd (Nat.mod_eq_zero_of_dvd hother) hmod
      | succ k =>
        have hshift : v + (k + 1) * stride = v + stride + k * stride := by
          rw [Nat.add_mul]
          omega
        rw [hshift] at htop hother ⊢
        exact ih (by omega) htop hother

theorem walkToCommon_sound {lo stride lo' stride' bottom top first : Nat} (hs : 0 < stride)
    (hlo : lo ≤ bottom) (hlo' : lo' ≤ bottom)
    (h : walkToCommon lo stride lo' stride' bottom top = some first) :
    bottom ≤ first ∧ first ≤ top ∧ OnGrid lo stride first ∧ OnGrid lo' stride' first := by
  obtain ⟨hwalk, htop, hother⟩ := findOnGrid_sound h
  obtain ⟨hbottom, hstart⟩ := onGrid_roundUp hs hlo
  have hge : bottom ≤ first := Nat.le_trans hbottom hwalk.1
  exact ⟨hge, htop, hstart.trans (Nat.dvd_refl _) hwalk, Nat.le_trans hlo' hge, hother⟩

/-- Residues repeat after the least common multiple of the strides, so a walk of that length meets
every common value there is, or an earlier one. -/
theorem walkToCommon_complete {lo stride lo' stride' bottom top v : Nat} (hs : 0 < stride)
    (hs' : 0 < stride') (hlo : lo ≤ bottom) (hlo' : lo' ≤ bottom) (hbottom : bottom ≤ v)
    (htop : v ≤ top) (hv : OnGrid lo stride v) (hv' : OnGrid lo' stride' v) :
    ∃ first, walkToCommon lo stride lo' stride' bottom top = some first ∧ first ≤ v := by
  obtain ⟨hstart, k, hk⟩ := onGrid_from_roundUp hs hlo hv hbottom
  have hge : bottom ≤ roundUp lo stride bottom := (onGrid_roundUp hs hlo).1
  unfold walkToCommon
  generalize roundUp lo stride bottom = start at hstart hk hge
  have hperiod : stride * (stride.lcm stride' / stride) = stride.lcm stride' :=
    Nat.mul_div_cancel' (Nat.dvd_lcm_left _ _)
  have hn : 0 < stride.lcm stride' / stride :=
    Nat.div_pos (Nat.le_of_dvd (Nat.lcm_pos hs hs') (Nat.dvd_lcm_left _ _)) hs
  generalize stride.lcm stride' / stride = n at hperiod hn
  -- `v` is `k` strides ahead, and `k % n` strides ahead is a common value as well.
  have hback : v = start + k % n * stride + stride.lcm stride' * (k / n) := by
    have hkn : stride * k = stride * (k % n) + stride * (n * (k / n)) := by
      rw [← Nat.mul_add, Nat.mod_add_div]
    rw [← hperiod, Nat.mul_assoc, Nat.mul_comm (k % n)]
    omega
  have hother : stride' ∣ start + k % n * stride - lo' := by
    have hmul : stride' ∣ stride.lcm stride' * (k / n) :=
      Nat.dvd_trans (Nat.dvd_lcm_right _ _) (Nat.dvd_mul_right _ _)
    rw [show start + k % n * stride - lo' =
      (v - lo') - stride.lcm stride' * (k / n) by omega]
    exact Nat.dvd_sub hv'.2 hmul
  obtain ⟨w, hw, hle⟩ := findOnGrid_complete (Nat.mod_lt k hn) (by omega : _ ≤ top) hother
  exact ⟨w, hw, by omega⟩

theorem firstCommon_sound {lo stride lo' stride' bottom top first : Nat} (hs : 0 < stride)
    (hs' : 0 < stride') (hlo : lo ≤ bottom) (hlo' : lo' ≤ bottom)
    (h : firstCommon lo stride lo' stride' bottom top = some first) :
    bottom ≤ first ∧ first ≤ top ∧ OnGrid lo stride first ∧ OnGrid lo' stride' first := by
  unfold firstCommon at h
  split at h
  · obtain ⟨hbottom, htop, hgrid', hgrid⟩ := walkToCommon_sound hs' hlo' hlo h
    exact ⟨hbottom, htop, hgrid, hgrid'⟩
  · exact walkToCommon_sound hs hlo hlo' h

theorem firstCommon_complete {lo stride lo' stride' bottom top v : Nat} (hs : 0 < stride)
    (hs' : 0 < stride') (hlo : lo ≤ bottom) (hlo' : lo' ≤ bottom) (hbottom : bottom ≤ v)
    (htop : v ≤ top) (hv : OnGrid lo stride v) (hv' : OnGrid lo' stride' v) :
    ∃ first, firstCommon lo stride lo' stride' bottom top = some first ∧ first ≤ v := by
  unfold firstCommon
  split
  · exact walkToCommon_complete hs' hs hlo' hlo hbottom htop hv' hv
  · exact walkToCommon_complete hs hs' hlo hlo' hbottom htop hv hv'

/-! ### What extents mean -/

theorem inRange_iff_le (lo hi v : Nat) :
    Constraint.inRange lo hi v = true ↔ lo ≤ v ∧ v ≤ hi := by
  rw [Constraint.inRange, Bool.and_eq_true, Nat.isGE_compare, Nat.isLE_compare]

theorem accepts_range_iff (lo hi step v : Nat) :
    (Extent.mk (.range lo hi) step).accepts v = true ↔ OnGrid lo (max step 1) v ∧ v ≤ hi := by
  show (Constraint.inRange lo hi v && onStep step lo v) = true ↔ _
  rw [Bool.and_eq_true, inRange_iff_le, onStep_iff]
  unfold OnGrid
  tauto

/-- The last value of a grid up to a bound. -/
theorem onGrid_last {first step top v : Nat} (h : first ≤ top) :
    OnGrid first step v ∧ v ≤ top ↔ OnGrid first step v ∧ v ≤ top - (top - first) % step := by
  constructor
  · rintro ⟨⟨hle, k, hk⟩, htop⟩
    refine ⟨⟨hle, k, hk⟩, ?_⟩
    have hdiv : step * k ≤ step * ((top - first) / step) := by
      rcases Nat.eq_zero_or_pos step with rfl | hs
      · simp
      · apply Nat.mul_le_mul_left
        rw [Nat.le_div_iff_mul_le hs, Nat.mul_comm, ← hk]
        omega
    have := Nat.div_add_mod (top - first) step
    omega
  · rintro ⟨hgrid, hlast⟩
    exact ⟨hgrid, by omega⟩

/-- The grid up to a bound consists of the values on it up to that bound. -/
theorem accepts_gridUpTo_iff {first top step v : Nat} (hs : 0 < step) (h : first ≤ top) :
    (gridUpTo first top step).accepts v = true ↔ OnGrid first step v ∧ v ≤ top := by
  rw [onGrid_last h]
  unfold gridUpTo
  simp only
  split
  · next heq =>
    rw [← heq]
    show (first == v && true) = true ↔ _
    rw [Bool.and_true, beq_iff_eq]
    constructor
    · rintro rfl
      exact ⟨⟨Nat.le_refl _, by simp⟩, Nat.le_refl _⟩
    · rintro ⟨hgrid, hle⟩
      exact Nat.le_antisymm hgrid.1 hle
  · rw [accepts_range_iff]
    have hmax : max (if 1 < step then step else 0) 1 = step := by
      split <;> omega
    rw [hmax]

/-- **The meet of two grids is exact**: it holds of the values on both, and where there is no meet
there is no such value. -/
theorem any_accepts_interGrid (lo hi step lo' hi' step' v : Nat) :
    (interGrid lo hi step lo' hi' step').any (·.accepts v) =
      ((Extent.mk (.range lo hi) step).accepts v &&
        (Extent.mk (.range lo' hi') step').accepts v) := by
  have hs : 0 < max step 1 := by omega
  have hs' : 0 < max step' 1 := by omega
  rw [Bool.eq_iff_iff, Bool.and_eq_true, accepts_range_iff, accepts_range_iff]
  unfold interGrid
  simp only
  split
  · next hlt =>
    simp only [Option.any_none, Bool.false_eq_true, false_iff]
    rintro ⟨⟨hv, hhi⟩, hv', hhi'⟩
    have := hv.1
    have := hv'.1
    omega
  · cases hfirst : firstCommon lo (max step 1) lo' (max step' 1) (max lo lo') (min hi hi') with
    | none =>
      simp only [Option.map_none, Option.any_none, Bool.false_eq_true, false_iff]
      rintro ⟨⟨hv, hhi⟩, hv', hhi'⟩
      obtain ⟨first, hsome, -⟩ := firstCommon_complete hs hs' (Nat.le_max_left lo lo')
        (Nat.le_max_right lo lo') (Nat.max_le.mpr ⟨hv.1, hv'.1⟩) (Nat.le_min.mpr ⟨hhi, hhi'⟩) hv hv'
      rw [hsome] at hfirst
      cases hfirst
    | some first =>
      obtain ⟨-, htop, hgrid, hgrid'⟩ :=
        firstCommon_sound hs hs' (Nat.le_max_left lo lo') (Nat.le_max_right lo lo') hfirst
      simp only [Option.map_some, Option.any_some]
      rw [accepts_gridUpTo_iff (Nat.lcm_pos hs hs') htop]
      constructor
      · rintro ⟨hv, hle⟩
        exact ⟨⟨hgrid.trans (Nat.dvd_lcm_left _ _) hv, by omega⟩,
          hgrid'.trans (Nat.dvd_lcm_right _ _) hv, by omega⟩
      · rintro ⟨⟨hv, hhi⟩, hv', hhi'⟩
        obtain ⟨first', hsome, hle⟩ := firstCommon_complete hs hs' (Nat.le_max_left lo lo')
          (Nat.le_max_right lo lo') (Nat.max_le.mpr ⟨hv.1, hv'.1⟩) (Nat.le_min.mpr ⟨hhi, hhi'⟩)
          hv hv'
        rw [hfirst] at hsome
        cases hsome
        exact ⟨hgrid.lcm hgrid' hv hv' hle, by omega⟩

/-! ### Both constraints at once -/

/-- The extent is not an inverted range. -/
def Forward (x : Extent) : Prop := x.values.Forward

instance (x : Extent) : Decidable x.Forward := inferInstanceAs (Decidable x.values.Forward)

/-- What is kept of a meet of values when the steps of both extents are respected too. -/
def sift (x y : Extent) : Constraint Nat → Option Extent
  | .exactly v => if x.accepts v && y.accepts v then some (exactly v) else none
  | .oneOf values =>
    (Constraint.ofCandidates? (values.filter fun v => x.accepts v && y.accepts v)).map (⟨·, 0⟩)
  | other => some ⟨other, 0⟩

/-- Two grids meet, a grid is kept whole where the other side is free, and all else is sifted. -/
theorem inter_eq_cases (x y : Extent) :
    (x.values = .any ∧ x.inter y = some y) ∨ (y.values = .any ∧ x.inter y = some x) ∨
    (∃ lo hi step lo' hi' step', x = ⟨.range lo hi, step⟩ ∧ y = ⟨.range lo' hi', step'⟩ ∧
      x.inter y = interGrid lo hi step lo' hi' step') ∨
    (x.inter y = (x.values.inter y.values).bind (sift x y) ∧
      ∀ lo hi, x.values.inter y.values ≠ some (.range lo hi)) := by
  obtain ⟨c, step⟩ := x
  obtain ⟨d, step'⟩ := y
  cases c with
  | range lo hi =>
    cases d with
    | range lo' hi' =>
      exact Or.inr (Or.inr (Or.inl ⟨lo, hi, step, lo', hi', step', rfl, rfl, rfl⟩))
    | any => exact Or.inr (Or.inl ⟨rfl, rfl⟩)
    | exactly _ | oneOf _ =>
      refine Or.inr (Or.inr (Or.inr ⟨rfl, ?_⟩))
      intro lo hi h
      simpa using Constraint.ranges_of_inter h
  | any =>
    cases d with
    | range lo hi => exact Or.inl ⟨rfl, rfl⟩
    | exactly _ | oneOf _ | any =>
      refine Or.inr (Or.inr (Or.inr ⟨rfl, ?_⟩))
      intro lo hi h
      simpa using Constraint.ranges_of_inter h
  | exactly _ | oneOf _ =>
    refine Or.inr (Or.inr (Or.inr ⟨?_, ?_⟩))
    · cases d <;> rfl
    · intro lo hi h
      simpa using Constraint.ranges_of_inter h

theorem accepts_zero (c : Constraint Nat) (v : Nat) : (Extent.mk c 0).accepts v = c.accepts v := by
  cases c <;> simp [accepts, onStep]

@[simp] theorem accepts_exactly_iff (n v : Nat) : (exactly n).accepts v = true ↔ n = v := by
  rw [exactly, accepts_zero]
  exact beq_iff_eq

theorem accepts_values {x : Extent} {v : Nat} (h : x.accepts v) : x.values.accepts v := by
  unfold accepts at h
  rw [Bool.and_eq_true] at h
  exact h.1

theorem accepts_of_any {x : Extent} (h : x.values = .any) (v : Nat) : x.accepts v = true := by
  unfold accepts
  rw [h]
  rfl

/-- Sifting leaves the values that satisfy both extents. -/
theorem any_accepts_sift {x y : Extent} {both : Constraint Nat}
    (hrange : ∀ lo hi, both ≠ .range lo hi)
    (hany : both = .any → x.values = .any ∧ y.values = .any) (v : Nat) :
    (sift x y both).any (·.accepts v) = (both.accepts v && (x.accepts v && y.accepts v)) := by
  cases both with
  | range lo hi => exact absurd rfl (hrange lo hi)
  | any =>
    -- Both sides are free, so there is no step that could be missed.
    obtain ⟨hx, hy⟩ := hany rfl
    rw [accepts_of_any hx, accepts_of_any hy]
    rfl
  | exactly w =>
    show (if x.accepts w && y.accepts w then some (exactly w) else none).any _ = _
    rw [Bool.eq_iff_iff]
    by_cases hw : w = v
    · subst hw
      cases h : x.accepts w && y.accepts w <;> simp [Constraint.accepts]
    · cases h : x.accepts w && y.accepts w <;> simp [Constraint.accepts, hw]
  | oneOf values =>
    rw [sift, Option.any_map]
    simp only [accepts_zero]
    exact Constraint.any_accepts_filter values (fun w => x.accepts w && y.accepts w) v

/-- **Intersection is exact**: its result holds of the lengths both extents hold of, and where
there is no result there is no such length. -/
theorem any_accepts_inter (x y : Extent) (v : Nat) :
    (x.inter y).any (·.accepts v) = (x.accepts v && y.accepts v) := by
  rcases inter_eq_cases x y with ⟨hx, h⟩ | ⟨hy, h⟩ | ⟨lo, hi, step, lo', hi', step', rfl, rfl, h⟩ |
    ⟨h, hrange⟩
  · rw [h, accepts_of_any hx]
    simp
  · rw [h, accepts_of_any hy]
    simp
  · rw [h]
    exact any_accepts_interGrid lo hi step lo' hi' step' v
  · have hvalues := Constraint.any_accepts_inter OrderedOn.of_lawful
      (Constraint.within_true x.values) (Constraint.within_true y.values) (v := v) trivial
    -- What satisfies both extents satisfies both constraints on values.
    have hsub : (x.accepts v && y.accepts v) = true →
        (x.values.accepts v && y.values.accepts v) = true := by
      simp only [Bool.and_eq_true]
      rintro ⟨hx, hy⟩
      exact ⟨accepts_values hx, accepts_values hy⟩
    rw [h]
    cases hboth : x.values.inter y.values with
    | none =>
      rw [hboth, Option.any_none] at hvalues
      rw [← hvalues] at hsub
      simpa using hsub
    | some both =>
      rw [hboth, Option.any_some] at hvalues
      rw [Option.bind_some, any_accepts_sift (fun lo hi hr => hrange lo hi (hr ▸ hboth))
        (fun ha => Constraint.any_of_inter (ha ▸ hboth)), hvalues]
      cases hxy : x.accepts v && y.accepts v with
      | false => simp
      | true => simp [hsub hxy]

theorem accepts_of_inter {x y z : Extent} (h : x.inter y = some z) (v : Nat) :
    z.accepts v = (x.accepts v && y.accepts v) := by
  have := any_accepts_inter x y v
  rwa [h, Option.any_some] at this

theorem exactly_inter (n : Nat) (y : Extent) :
    (exactly n).inter y = if y.accepts n then some (exactly n) else none := by
  have hmeet : (exactly n).inter y =
      ((Constraint.exactly n).inter y.values).bind (sift (exactly n) y) := by
    obtain ⟨d, step⟩ := y
    cases d <;> rfl
  rw [hmeet, Constraint.exactly_inter]
  by_cases hvalues : y.values.accepts n
  · rw [if_pos hvalues, Option.bind_some, sift, (accepts_exactly_iff n n).mpr rfl, Bool.true_and]
  · rw [if_neg hvalues, if_neg fun h => hvalues (accepts_values h)]
    rfl

/-! ### Largest lengths -/

theorem forward_gridUpTo {first top step : Nat} (h : first ≤ top) :
    (gridUpTo first top step).Forward := by
  unfold gridUpTo
  simp only
  split
  · trivial
  · show (compare first (top - (top - first) % step)).isLE = true
    rw [Nat.isLE_compare]
    have := Nat.mod_le (top - first) step
    omega

theorem forward_interGrid {lo hi step lo' hi' step' : Nat} {z : Extent}
    (h : interGrid lo hi step lo' hi' step' = some z) : z.Forward := by
  unfold interGrid at h
  simp only at h
  split at h
  · cases h
  · obtain ⟨first, hfirst, rfl⟩ := Option.map_eq_some_iff.mp h
    obtain ⟨-, htop, -⟩ := firstCommon_sound (by omega) (by omega) (Nat.le_max_left lo lo')
      (Nat.le_max_right lo lo') hfirst
    exact forward_gridUpTo htop

/-- An intersection is not inverted, unless it is one of the two sides left as it was. -/
theorem forward_inter {x y z : Extent} (h : x.inter y = some z) :
    (x.values = .any ∧ z = y) ∨ (y.values = .any ∧ z = x) ∨ z.Forward := by
  rcases inter_eq_cases x y with ⟨hx, he⟩ | ⟨hy, he⟩ |
    ⟨lo, hi, step, lo', hi', step', rfl, rfl, he⟩ | ⟨he, hrange⟩
  · rw [he] at h
    exact Or.inl ⟨hx, (Option.some.inj h).symm⟩
  · rw [he] at h
    exact Or.inr (Or.inl ⟨hy, (Option.some.inj h).symm⟩)
  · rw [he] at h
    exact Or.inr (Or.inr (forward_interGrid h))
  · right
    right
    rw [he] at h
    obtain ⟨both, hboth, hsift⟩ := Option.bind_eq_some_iff.mp h
    cases both with
    | range lo hi => exact absurd hboth (hrange lo hi)
    | any =>
      cases hsift
      trivial
    | exactly w =>
      unfold sift at hsift
      simp only at hsift
      split at hsift <;> cases hsift
      trivial
    | oneOf values =>
      obtain ⟨c, hc, rfl⟩ := Option.map_eq_some_iff.mp hsift
      exact Constraint.forward_ofCandidates? hc

theorem accepts_largest? {x : Extent} (hf : x.Forward) {v : Nat} (h : x.largest? = some v) :
    x.accepts v := by
  obtain ⟨c, step⟩ := x
  cases c with
  | any => cases h
  | range lo hi =>
    have hle : lo ≤ hi := by
      have hf' : (compare lo hi).isLE = true := hf
      rwa [Nat.isLE_compare] at hf'
    have hv : (if 1 < step then hi - (hi - lo) % step else hi) = v := Option.some.inj h
    rw [accepts_range_iff, ← hv]
    split
    · next hstep =>
      have := Nat.mod_le (hi - lo) step
      refine ⟨⟨by omega, ?_⟩, by omega⟩
      rw [Nat.max_eq_left (by omega), show hi - (hi - lo) % step - lo =
        (hi - lo) - (hi - lo) % step by omega]
      exact Nat.dvd_sub_mod _
    · next hstep =>
      rw [Nat.max_eq_right (by omega)]
      exact ⟨⟨hle, Nat.one_dvd _⟩, Nat.le_refl _⟩
  | exactly w =>
    cases h
    simp [accepts, Constraint.accepts]
  | oneOf values =>
    have hc := Constraint.accepts_largest? (c := .oneOf values) OrderedOn.of_lawful
      (Constraint.within_true _) trivial h
    simp [accepts, hc]

/-- **The largest common length satisfies the first side** when that is not inverted, or when the
second one is constrained. -/
theorem accepts_left_of_largest? {x y z : Extent} (hx : x.Forward ∨ y.values ≠ .any)
    (h : x.inter y = some z) {v : Nat} (hv : z.largest? = some v) : x.accepts v := by
  have hboth := accepts_of_inter h v
  rcases forward_inter h with ⟨hany, -⟩ | ⟨hany, rfl⟩ | hf
  · exact accepts_of_any hany v
  · rcases hx with hx | hx
    · exact accepts_largest? hx hv
    · exact absurd hany hx
  · rw [accepts_largest? hf hv, eq_comm, Bool.and_eq_true] at hboth
    exact hboth.1

theorem accepts_right_of_largest? {x y z : Extent} (hy : y.Forward) (h : x.inter y = some z)
    {v : Nat} (hv : z.largest? = some v) : y.accepts v := by
  have hboth := accepts_of_inter h v
  rcases forward_inter h with ⟨-, rfl⟩ | ⟨hany, -⟩ | hf
  · exact accepts_largest? hy hv
  · exact accepts_of_any hany v
  · rw [accepts_largest? hf hv, eq_comm, Bool.and_eq_true] at hboth
    exact hboth.2

end Extent
end CameraStream
