import CameraStream.Proofs.Order
import Mathlib.Algebra.Order.Field.Rat

/-!
# The order of frame rates

Proper rates are ordered by value, and those of one value by denominator. A rate with a zero
denominator has no value. If there is something in its numerator it is above all proper rates;
`0/0` is below all of them, and yet all of these compare equal to each other. So the order goes in
a circle where both kinds and a proper rate come together (`FrameRate.isLE_trans_iff`), and it is
not an order that tells rates apart unless there is at most one that is not proper
(**`FrameRate.orderedOn_iff`**).
-/

namespace CameraStream.FrameRate

variable {a b : FrameRate}

/-- Frames per time unit, for a proper rate. -/
def value (r : FrameRate) : Rat := r.num / r.den

/-- A rate that is above all proper ones. -/
def Unbounded (r : FrameRate) : Prop := r.num ≠ 0 ∧ r.den = 0

/-- The rate `0/0`, which is below all proper ones. -/
def Void (r : FrameRate) : Prop := r.num = 0 ∧ r.den = 0

/-! ### Proper rates -/

theorem value_lt_iff (ha : a.Proper) (hb : b.Proper) :
    a.value < b.value ↔ a.num * b.den < b.num * a.den := by
  have ha' : (0 : Rat) < a.den := by exact_mod_cast Nat.pos_of_ne_zero ha
  have hb' : (0 : Rat) < b.den := by exact_mod_cast Nat.pos_of_ne_zero hb
  rw [value, value, div_lt_div_iff₀ ha' hb']
  exact_mod_cast Iff.rfl

theorem value_eq_iff (ha : a.Proper) (hb : b.Proper) :
    a.value = b.value ↔ a.num * b.den = b.num * a.den := by
  have ha' : (a.den : Rat) ≠ 0 := by exact_mod_cast ha
  have hb' : (b.den : Rat) ≠ 0 := by exact_mod_cast hb
  rw [value, value, div_eq_div_iff ha' hb']
  exact_mod_cast Iff.rfl

theorem compare_eq_lt_iff (a b : FrameRate) :
    compare a b = .lt ↔
      a.num * b.den < b.num * a.den ∨ a.num * b.den = b.num * a.den ∧ a.den < b.den := by
  rw [compare_eq_then, Ordering.then_eq_lt, Nat.compare_eq_lt, Nat.compare_eq_eq,
    Nat.compare_eq_lt]

/-- Proper rates go by value first. -/
theorem compare_eq_lt_iff_value (ha : a.Proper) (hb : b.Proper) :
    compare a b = .lt ↔ a.value < b.value ∨ a.value = b.value ∧ a.den < b.den := by
  rw [compare_eq_lt_iff, value_lt_iff ha hb, value_eq_iff ha hb]

/-! ### Zero denominators -/

theorem isLE_iff_of_den_eq_zero (ha : a.den = 0) (b : FrameRate) :
    (compare a b).isLE ↔ a.num = 0 ∨ b.den = 0 := by
  rw [isLE_iff, ha]
  simp

theorem isLE_iff_of_proper (ha : a.Proper) (hb : b.den = 0) : (compare a b).isLE ↔ b.num ≠ 0 := by
  have hpos : 0 < a.den := Nat.pos_of_ne_zero ha
  rw [isLE_iff, hb]
  simp only [Nat.mul_zero, Nat.le_zero, Nat.pos_iff_ne_zero, ne_eq, Nat.mul_eq_zero]
  constructor
  · rintro (h | ⟨-, h⟩)
    · exact fun hnum => h (Or.inl hnum)
    · exact absurd h ha
  · intro hnum
    left
    rintro (h | h)
    · exact hnum h
    · exact ha h

/-- Rates that compare equal are equal, or both have a zero denominator. -/
theorem compare_eq_eq_iff (a b : FrameRate) :
    compare a b = .eq ↔ a = b ∨ a.den = 0 ∧ b.den = 0 := by
  constructor
  · intro h
    by_cases ha : a.Proper
    · exact Or.inl (eq_of_compare ha h)
    · have hden : a.den = 0 := not_not.mp ha
      have hsame : a.den = b.den := ((compare_eq_eq_iff_cross a b).mp h).2
      exact Or.inr ⟨hden, hsame ▸ hden⟩
  · intro h
    rw [compare_eq_eq_iff_cross]
    rcases h with rfl | ⟨ha, hb⟩
    · exact ⟨rfl, rfl⟩
    · rw [ha, hb]
      exact ⟨rfl, rfl⟩

/-- The order leads from one rate to another over any proper one. -/
theorem isLE_trans_over {c : FrameRate} (hb : b.Proper) (hab : (compare a b).isLE)
    (hbc : (compare b c).isLE) : (compare a c).isLE := by
  by_cases ha : a.Proper
  · by_cases hc : c.Proper
    · exact isLE_trans ha hb hc hab hbc
    · have hc' : c.den = 0 := not_not.mp hc
      rw [isLE_iff_of_proper hb hc'] at hbc
      rwa [isLE_iff_of_proper ha hc']
  · have ha' : a.den = 0 := not_not.mp ha
    rw [isLE_iff_of_den_eq_zero ha'] at hab ⊢
    exact Or.inl (hab.resolve_right hb)

/-- Three rates, in this order, of which the last is below the first. -/
def Circular (a b c : FrameRate) : Prop :=
  a.Unbounded ∧ b.Void ∧ c.Proper ∨ a.Proper ∧ b.Unbounded ∧ c.Void

/-- The order leads from one rate to another over any third one, except in a circle. -/
theorem isLE_trans_iff (a b c : FrameRate) :
    ((compare a b).isLE → (compare b c).isLE → (compare a c).isLE) ↔ ¬ Circular a b c := by
  by_cases hb : b.Proper
  · refine iff_of_true (isLE_trans_over hb) ?_
    rintro (⟨-, hvoid, -⟩ | ⟨-, hunbounded, -⟩)
    · exact hb hvoid.2
    · exact hb hunbounded.2
  · have hb' : b.den = 0 := not_not.mp hb
    have hcircular : Circular a b c ↔ (a.num ≠ 0 ∧ a.den = 0) ∧ b.num = 0 ∧ c.den ≠ 0 ∨
        a.den ≠ 0 ∧ b.num ≠ 0 ∧ c.num = 0 ∧ c.den = 0 := by
      simp [Circular, Unbounded, Void, Proper, hb']
    rw [hcircular, isLE_iff_of_den_eq_zero hb']
    by_cases ha : a.den = 0
    · rw [isLE_iff_of_den_eq_zero ha, isLE_iff_of_den_eq_zero ha]
      grind
    · rw [isLE_iff_of_proper ha hb']
      by_cases hc : c.den = 0
      · rw [isLE_iff_of_proper ha hc]
        grind
      · grind

/-- Rates are in order where at most one has a zero denominator. -/
theorem orderedOn_iff (P : FrameRate → Prop) :
    OrderedOn P ↔ ∀ a b, P a → P b → a.den = 0 → b.den = 0 → a = b := by
  constructor
  · intro hP a b ha hb hden hden'
    exact hP.eq_of_compare ha hb ((compare_eq_eq_iff a b).mpr (Or.inr ⟨hden, hden'⟩))
  · intro hP
    refine ⟨fun _ _ => compare_swap _ _, ?_, ?_⟩
    · intro a b c ha hb hc
      rw [isLE_trans_iff]
      rintro (⟨⟨hnum, hden⟩, ⟨hnum', hden'⟩, -⟩ | ⟨-, ⟨hnum, hden⟩, hnum', hden'⟩)
      · exact hnum (hP a b ha hb hden hden' ▸ hnum')
      · exact hnum (hP b c hb hc hden hden' ▸ hnum')
    · intro a b ha hb heq
      rcases (compare_eq_eq_iff a b).mp heq with hab | ⟨hden, hden'⟩
      · exact hab
      · exact hP a b ha hb hden hden'

/-- **What the order of rates keeps.** To compare the other way round gives the reverse. Rates that
compare equal are equal, unless both denominators are zero, and the order is transitive except in a
circle, which needs a rate that is unbounded, one that is void and a proper one. Proper rates go by
value. So the order is a total order that tells rates apart exactly on those sets of rates in which
at most one has a zero denominator. -/
theorem order_spec (a b c : FrameRate) (P : FrameRate → Prop) :
    compare b a = (compare a b).swap ∧
    (compare a b = .eq ↔ a = b ∨ a.den = 0 ∧ b.den = 0) ∧
    (((compare a b).isLE → (compare b c).isLE → (compare a c).isLE) ↔ ¬ Circular a b c) ∧
    (a.Proper → b.Proper →
      (compare a b = .lt ↔ a.value < b.value ∨ a.value = b.value ∧ a.den < b.den)) ∧
    (OrderedOn P ↔ ∀ a b, P a → P b → a.den = 0 → b.den = 0 → a = b) :=
  ⟨compare_swap a b, compare_eq_eq_iff a b, isLE_trans_iff a b c, compare_eq_lt_iff_value,
    orderedOn_iff P⟩

/-- Two rates over zero compare equal, and `1/0`, `0/0`, `1/1` are in a circle. -/
theorem order_of_degenerate :
    compare (FrameRate.mk 1 0) ⟨2, 0⟩ = .eq ∧ FrameRate.mk 1 0 ≠ ⟨2, 0⟩ ∧
    (compare (FrameRate.mk 1 0) ⟨0, 0⟩).isLE ∧ (compare (FrameRate.mk 0 0) ⟨1, 1⟩).isLE ∧
    ¬ (compare (FrameRate.mk 1 0) ⟨1, 1⟩).isLE ∧
    ¬ OrderedOn (fun _ : FrameRate => True) ∧
    Proper ⟨30000, 1001⟩ ∧ Proper ⟨30, 1⟩ ∧
    (compare (FrameRate.mk 30000 1001) ⟨30, 1⟩ = .lt ↔
      value ⟨30000, 1001⟩ < value ⟨30, 1⟩ ∨
        value ⟨30000, 1001⟩ = value ⟨30, 1⟩ ∧ 1001 < 1) := by
  obtain ⟨-, heq, -, -, hordered⟩ := order_spec ⟨1, 0⟩ ⟨2, 0⟩ ⟨1, 1⟩ fun _ => True
  obtain ⟨-, -, htrans, -⟩ := order_spec ⟨1, 0⟩ ⟨0, 0⟩ ⟨1, 1⟩ fun _ => True
  obtain ⟨-, -, -, hvalue, -⟩ := order_spec ⟨30000, 1001⟩ ⟨30, 1⟩ ⟨1, 1⟩ fun _ => True
  have hcircular : Circular ⟨1, 0⟩ ⟨0, 0⟩ ⟨1, 1⟩ :=
    Or.inl ⟨⟨by decide, rfl⟩, ⟨rfl, rfl⟩, by decide⟩
  have hbroken := mt htrans.mp (not_not.mpr hcircular)
  refine ⟨heq.mpr (Or.inr ⟨rfl, rfl⟩), by decide, by decide, by decide, ?_, ?_, by decide,
    by decide, hvalue (by decide) (by decide)⟩
  · intro hle
    exact hbroken fun _ _ => hle
  · rw [hordered]
    intro hone
    exact absurd (hone ⟨1, 0⟩ ⟨2, 0⟩ trivial trivial rfl rfl) (by decide)

end CameraStream.FrameRate
