import CameraStream.Format.Rate
import Mathlib.Tactic.Ring

/-!
# Orders on a part of a type

Constraints compare values by `compare`, and what they promise rests on the laws of a total order.
Frame rates only keep them while no denominator is zero: `0/0` compares like every rate at once. So
the laws are stated on a set of values, `OrderedOn P`, and come in two instances:

* every type whose `compare` is lawful throughout, on all of its values (`OrderedOn.of_lawful`);
* `FrameRate`, on the **proper** rates (`FrameRate.orderedOn_proper`).

The last section reads `larger` and `smaller` off these laws.
-/

namespace CameraStream

/-- `compare` is a total order on the values with property `P`, and only equal ones compare
equal. -/
structure OrderedOn {α : Type} [Ord α] (P : α → Prop) : Prop where
  swap : ∀ {a b}, P a → P b → compare b a = (compare a b).swap
  trans : ∀ {a b c}, P a → P b → P c →
    (compare a b).isLE → (compare b c).isLE → (compare a c).isLE
  eq_of_compare : ∀ {a b}, P a → P b → compare a b = .eq → a = b

namespace OrderedOn

variable {α : Type} [Ord α] {P : α → Prop}

theorem of_lawful [Std.TransOrd α] [Std.LawfulEqOrd α] : OrderedOn (fun _ : α => True) where
  swap _ _ := Std.OrientedOrd.eq_swap
  trans _ _ _ := Std.TransOrd.isLE_trans
  eq_of_compare _ _ := Std.LawfulEqOrd.eq_of_compare

variable (hP : OrderedOn P) {a b c : α}
include hP

theorem compare_self (ha : P a) : compare a a = .eq := by
  have h := hP.swap ha ha
  -- Only `eq` is its own reverse.
  cases hc : compare a a <;> simp [hc] at h ⊢

theorem isGE_iff (ha : P a) (hb : P b) : (compare a b).isGE ↔ (compare b a).isLE := by
  rw [hP.swap ha hb, Ordering.isLE_swap]

theorem isLE_of_isGT (ha : P a) (hb : P b) (h : (compare a b).isGT) : (compare b a).isLE := by
  rw [hP.swap ha hb, Ordering.isLE_swap]
  cases hc : compare a b <;> simp [hc] at h ⊢

theorem eq_of_isLE_of_isLE (ha : P a) (hb : P b) (h : (compare a b).isLE)
    (h' : (compare b a).isLE) : a = b := by
  rw [hP.swap ha hb, Ordering.isLE_swap] at h'
  apply hP.eq_of_compare ha hb
  cases hc : compare a b <;> simp [hc] at h h' ⊢

end OrderedOn

theorem isLE_of_not_isGT {o : Ordering} (h : ¬ o.isGT) : o.isLE := by
  cases o <;> simp at h ⊢

/-! ## Frame rates -/

namespace FrameRate

/-- A rate is **proper** when its denominator is not zero. -/
def Proper (r : FrameRate) : Prop := r.den ≠ 0

instance (r : FrameRate) : Decidable r.Proper := inferInstanceAs (Decidable (r.den ≠ 0))

theorem compare_eq_then (a b : FrameRate) :
    compare a b = (compare (a.num * b.den) (b.num * a.den)).then (compare a.den b.den) := rfl

theorem isLE_iff (a b : FrameRate) :
    (compare a b).isLE ↔
      a.num * b.den < b.num * a.den ∨ a.num * b.den = b.num * a.den ∧ a.den ≤ b.den := by
  rw [compare_eq_then, Ordering.isLE_then_iff_or, Nat.compare_eq_lt, Nat.compare_eq_eq,
    Nat.isLE_compare]

theorem compare_eq_eq_iff_cross (a b : FrameRate) :
    compare a b = .eq ↔ a.num * b.den = b.num * a.den ∧ a.den = b.den := by
  rw [compare_eq_then, Ordering.then_eq_eq, Nat.compare_eq_eq, Nat.compare_eq_eq]

theorem compare_swap (a b : FrameRate) : compare b a = (compare a b).swap := by
  rw [compare_eq_then b a, compare_eq_then a b, Ordering.swap_then, Nat.compare_swap,
    Nat.compare_swap]

theorem eq_of_compare {a b : FrameRate} (ha : a.Proper) (h : compare a b = .eq) : a = b := by
  obtain ⟨hcross, hden⟩ := (compare_eq_eq_iff_cross a b).mp h
  rw [← hden] at hcross
  have hnum : a.num = b.num := Nat.eq_of_mul_eq_mul_right (Nat.pos_of_ne_zero ha) hcross
  cases a
  cases b
  simp only at hnum hden
  rw [hnum, hden]

/-- Cross products chain over a rate in the middle that is proper. -/
theorem cross_le {a b c : FrameRate} (hb : b.Proper) (hab : a.num * b.den ≤ b.num * a.den)
    (hbc : b.num * c.den ≤ c.num * b.den) : a.num * c.den ≤ c.num * a.den := by
  -- Both sides are scaled by the denominator in the middle, which may then be cancelled.
  have hpos : 0 < b.den := Nat.pos_of_ne_zero hb
  apply Nat.le_of_mul_le_mul_right _ hpos
  calc a.num * c.den * b.den
      = a.num * b.den * c.den := by ring
    _ ≤ b.num * a.den * c.den := Nat.mul_le_mul_right _ hab
    _ = b.num * c.den * a.den := by ring
    _ ≤ c.num * b.den * a.den := Nat.mul_le_mul_right _ hbc
    _ = c.num * a.den * b.den := by ring

theorem isLE_trans {a b c : FrameRate} (ha : a.Proper) (hb : b.Proper) (hc : c.Proper)
    (hab : (compare a b).isLE) (hbc : (compare b c).isLE) : (compare a c).isLE := by
  rw [isLE_iff] at *
  have hle : a.num * c.den ≤ c.num * a.den := cross_le hb (by omega) (by omega)
  by_cases heq : a.num * c.den = c.num * a.den
  · -- Equal ends leave no room in between, so the denominators decide at both steps.
    have hba : b.num * a.den ≤ a.num * b.den := cross_le hc (by omega) (by omega)
    have hcb : c.num * b.den ≤ b.num * c.den := cross_le ha (by omega) (by omega)
    right
    exact ⟨heq, by omega⟩
  · left
    omega

/-- **Proper rates are totally ordered.** -/
theorem orderedOn_proper : OrderedOn Proper where
  swap _ _ := compare_swap _ _
  trans := isLE_trans
  eq_of_compare ha _ := eq_of_compare ha

end FrameRate

/-! ## The larger and the smaller of two values -/

section
variable {α : Type} [Ord α] {P : α → Prop} {a b : α}

theorem larger_cases (a b : α) : larger a b = a ∨ larger a b = b := by
  unfold larger
  split <;> simp

theorem smaller_cases (a b : α) : smaller a b = a ∨ smaller a b = b := by
  unfold smaller
  split <;> simp

variable (hP : OrderedOn P) (ha : P a) (hb : P b)
include hP ha hb

theorem larger_isLE_iff {v : α} (hv : P v) :
    (compare (larger a b) v).isLE ↔ (compare a v).isLE ∧ (compare b v).isLE := by
  unfold larger
  split
  · next h =>
    have hba : (compare b a).isLE := hP.isLE_of_isGT ha hb h
    exact ⟨fun hav => ⟨hav, hP.trans hb ha hv hba hav⟩, And.left⟩
  · next h =>
    have hab : (compare a b).isLE := isLE_of_not_isGT h
    exact ⟨fun hbv => ⟨hP.trans ha hb hv hab hbv, hbv⟩, And.right⟩

theorem isLE_smaller_iff {v : α} (hv : P v) :
    (compare v (smaller a b)).isLE ↔ (compare v a).isLE ∧ (compare v b).isLE := by
  unfold smaller
  split
  · next h =>
    have hba : (compare b a).isLE := hP.isLE_of_isGT ha hb h
    exact ⟨fun hvb => ⟨hP.trans hv hb ha hvb hba, hvb⟩, And.right⟩
  · next h =>
    have hab : (compare a b).isLE := isLE_of_not_isGT h
    exact ⟨fun hva => ⟨hva, hP.trans hv ha hb hva hab⟩, And.left⟩

end

end CameraStream
