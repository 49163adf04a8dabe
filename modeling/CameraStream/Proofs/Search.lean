import CameraStream.Format.Encoding
import Mathlib.Data.List.Basic

/-!
# Searching a list

Negotiation searches lists with `List.findSome?`: stages in order of registration, outputs by
preference, strategies from the best to the worst. A search says two things about its result, that
it comes from an element of the list and that no element before it gives one. The second is stated
here with `List.idxOf` (`exists_first_of_findSome?`), which does not care for repetitions, so
`Encoding.distinct` drops out of every search (`Encoding.findSome?_distinct`). Nor does it change
which of two elements comes first that others are left out of the list (`idxOf_filter_lt_iff`).
-/

namespace CameraStream

section
variable {α γ : Type} {l : List α} {f g : α → Option γ}

theorem findSome?_congr (h : ∀ a ∈ l, f a = g a) : l.findSome? f = l.findSome? g := by
  induction l with
  | nil => rfl
  | cons a rest ih =>
    rw [List.findSome?_cons, List.findSome?_cons, h a List.mem_cons_self,
      ih fun b hb => h b (List.mem_cons_of_mem _ hb)]

theorem findSome?_filter (p : α → Bool) (l : List α) (f : α → Option γ) :
    (l.filter p).findSome? f = l.findSome? fun a => if p a then f a else none := by
  induction l with
  | nil => rfl
  | cons a rest ih =>
    rw [List.findSome?_cons, ← ih]
    by_cases ha : p a
    · rw [List.filter_cons_of_pos ha, List.findSome?_cons, if_pos ha]
    · rw [List.filter_cons_of_neg ha, if_neg ha]

/-- A search succeeds on the element that comes first among those it could succeed on. -/
theorem exists_first_of_findSome? [DecidableEq α] {b : γ} (h : l.findSome? f = some b) :
    ∃ a ∈ l, f a = some b ∧ ∀ x ∈ l, (f x).isSome → x = a ∨ l.idxOf a < l.idxOf x := by
  induction l with
  | nil => cases h
  | cons y rest ih =>
    rw [List.findSome?_cons] at h
    cases hy : f y with
    | some b' =>
      rw [hy] at h
      refine ⟨y, List.mem_cons_self, hy.trans h, ?_⟩
      intro x _ _
      by_cases hxy : y = x
      · exact Or.inl hxy.symm
      · right
        rw [List.idxOf_cons_self, List.idxOf_cons_ne _ hxy]
        exact Nat.succ_pos _
    | none =>
      rw [hy] at h
      obtain ⟨a, ha, hfa, hfirst⟩ := ih h
      refine ⟨a, List.mem_cons_of_mem _ ha, hfa, ?_⟩
      intro x hx hsome
      -- The head gives nothing, so it is neither the result nor a rival of it.
      have hne : ∀ z, (f z).isSome → y ≠ z := by
        rintro z hz rfl
        rw [hy] at hz
        cases hz
      have hx' : x ∈ rest := by
        rcases List.mem_cons.mp hx with heq | hx'
        · exact absurd heq.symm (hne x hsome)
        · exact hx'
      rw [List.idxOf_cons_ne _ (hne a (by rw [hfa]; rfl)), List.idxOf_cons_ne _ (hne x hsome)]
      rcases hfirst x hx' hsome with heq | hlt
      · exact Or.inl heq
      · exact Or.inr (Nat.succ_lt_succ hlt)

/-- One element comes before another one in a list, seen from the head of the list. -/
theorem idxOf_cons_lt_iff [DecidableEq α] (x : α) (l : List α) (a b : α) :
    (x :: l).idxOf a < (x :: l).idxOf b ↔ x ≠ b ∧ (x = a ∨ l.idxOf a < l.idxOf b) := by
  by_cases hb : x = b
  · rw [← hb, List.idxOf_cons_self]
    exact ⟨fun h => absurd h (Nat.not_lt_zero _), fun h => absurd rfl h.1⟩
  · rw [List.idxOf_cons_ne _ hb]
    by_cases ha : x = a
    · rw [← ha, List.idxOf_cons_self]
      exact ⟨fun _ => ⟨hb, Or.inl rfl⟩, fun _ => Nat.succ_pos _⟩
    · rw [List.idxOf_cons_ne _ ha, Nat.succ_lt_succ_iff]
      exact ⟨fun h => ⟨hb, Or.inr h⟩, fun h => h.2.resolve_left ha⟩

/-- Elements that stay in a list stay in their order. -/
theorem idxOf_filter_lt_iff [DecidableEq α] {p : α → Bool} (l : List α) {a b : α} (ha : p a)
    (hb : p b) : (l.filter p).idxOf a < (l.filter p).idxOf b ↔ l.idxOf a < l.idxOf b := by
  induction l with
  | nil => rfl
  | cons x rest ih =>
    rw [idxOf_cons_lt_iff]
    by_cases hx : p x
    · rw [List.filter_cons_of_pos hx, idxOf_cons_lt_iff, ih]
    · -- What is left out is neither of the two.
      have hxa : x ≠ a := fun h => hx (h ▸ ha)
      have hxb : x ≠ b := fun h => hx (h ▸ hb)
      rw [List.filter_cons_of_neg hx, ih]
      exact ⟨fun h => ⟨hxb, Or.inr h⟩, fun h => h.2.resolve_left hxa⟩

end

/-! ### Encodings one by one -/

namespace Encoding

theorem distinct_cons (e : Encoding) (es : List Encoding) :
    distinct (e :: es) = e :: (distinct es).filter (· != e) := rfl

@[simp] theorem mem_distinct (e : Encoding) (es : List Encoding) : e ∈ distinct es ↔ e ∈ es := by
  induction es with
  | nil => rfl
  | cons x rest ih =>
    rw [distinct_cons, List.mem_cons, List.mem_cons, List.mem_filter, ih]
    by_cases h : e = x <;> simp [h]

/-- A search does not miss the repetitions that are left out. -/
theorem findSome?_distinct {α : Type} (es : List Encoding) (f : Encoding → Option α) :
    (distinct es).findSome? f = es.findSome? f := by
  induction es with
  | nil => rfl
  | cons x rest ih =>
    rw [distinct_cons, List.findSome?_cons, List.findSome?_cons]
    cases hx : f x with
    | some _ => rfl
    | none =>
      show ((distinct rest).filter (· != x)).findSome? f = rest.findSome? f
      rw [findSome?_filter, ← ih]
      apply findSome?_congr
      intro y _
      by_cases hy : y = x
      · simp [hy, hx]
      · simp [hy]

theorem idxOf_distinct_lt_iff (es : List Encoding) (a b : Encoding) :
    (distinct es).idxOf a < (distinct es).idxOf b ↔ es.idxOf a < es.idxOf b := by
  induction es with
  | nil => rfl
  | cons x rest ih =>
    rw [distinct_cons, idxOf_cons_lt_iff, idxOf_cons_lt_iff, ← ih]
    refine and_congr_right fun hb => or_congr_right' fun ha => ?_
    exact idxOf_filter_lt_iff _ (bne_iff_ne.mpr (Ne.symm ha)) (bne_iff_ne.mpr (Ne.symm hb))

end Encoding
end CameraStream
