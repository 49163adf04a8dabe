import CameraStream.Negotiation.Ranking
import CameraStream.Proofs.Search
import Mathlib.Data.List.Induction

/-!
# The encoding ranked best

`Ranking.preferred?` goes through a list once and keeps the best encoding so far. It arrives at the
encoding of lowest rank, and of several of that rank at the one listed first (`Ranking.Best`,
`Ranking.preferred?_eq_some_iff`). A list has only one such encoding (`Ranking.Best.unique`), and
has one if it has any encoding with a rank (`Ranking.exists_best`).

Which encoding is best depends on those that have a rank and on their order. The reserved encoding
has none, so it makes no difference whether it is in the list, nor do repetitions
(`Ranking.best_filter_isValid_iff`, `Ranking.best_distinct_iff`).
-/

namespace CameraStream.Ranking

variable {k : Ranking} {es es' : List Encoding} {e x : Encoding}

theorem mem_sort (k : Ranking) (es : List Encoding) (e : Encoding) :
    e ∈ k.sort es ↔ e ∈ es ∧ e.isValid := by
  rw [sort, List.mem_mergeSort, List.mem_filter]

theorem rank?_reserved (k : Ranking) (h : ¬ e.isValid) : k.rank? e = none := by
  obtain rfl : e = ⟨0⟩ := by
    cases e
    exact congrArg Encoding.mk (by simpa [Encoding.isValid] using h)
  rfl

/-! ### What is best -/

/-- An encoding has the lowest rank in a list, and comes first among those of its rank. -/
structure Best (k : Ranking) (es : List Encoding) (e : Encoding) : Prop where
  mem : e ∈ es
  ranked : (k.rank? e).isSome
  first : ∀ {x n m}, x ∈ es → k.rank? e = some n → k.rank? x = some m →
    x = e ∨ n < m ∨ n = m ∧ es.idxOf e < es.idxOf x

theorem Best.unique {e' : Encoding} (h : k.Best es e) (h' : k.Best es e') : e = e' := by
  obtain ⟨n, hn⟩ := Option.isSome_iff_exists.mp h.ranked
  obtain ⟨m, hm⟩ := Option.isSome_iff_exists.mp h'.ranked
  rcases h.first h'.mem hn hm with heq | hlt
  · exact heq.symm
  · rcases h'.first h.mem hm hn with heq | hlt'
    · exact heq
    · -- Each would come before the other.
      omega

/-- The best encoding of a list is the best of another one that ranks the same encodings in the
same order. -/
theorem Best.of_ranked (hmem : ∀ x, (k.rank? x).isSome → (x ∈ es ↔ x ∈ es'))
    (hidx : ∀ x y, (k.rank? x).isSome → (k.rank? y).isSome →
      (es.idxOf x < es.idxOf y ↔ es'.idxOf x < es'.idxOf y)) (h : k.Best es e) : k.Best es' e where
  mem := (hmem e h.ranked).mp h.mem
  ranked := h.ranked
  first := by
    intro x n m hx hn hm
    have hranked : (k.rank? x).isSome := Option.isSome_of_mem hm
    rw [← hidx e x h.ranked hranked]
    exact h.first ((hmem x hranked).mpr hx) hn hm

theorem best_iff_of_ranked (hmem : ∀ x, (k.rank? x).isSome → (x ∈ es ↔ x ∈ es'))
    (hidx : ∀ x y, (k.rank? x).isSome → (k.rank? y).isSome →
      (es.idxOf x < es.idxOf y ↔ es'.idxOf x < es'.idxOf y)) : k.Best es e ↔ k.Best es' e :=
  ⟨.of_ranked hmem hidx,
    .of_ranked (fun x hx => (hmem x hx).symm) fun x y hx hy => (hidx x y hx hy).symm⟩

theorem best_distinct_iff : k.Best (Encoding.distinct es) e ↔ k.Best es e :=
  best_iff_of_ranked (fun x _ => Encoding.mem_distinct x es)
    fun x y _ _ => Encoding.idxOf_distinct_lt_iff es x y

theorem best_filter_isValid_iff : k.Best (es.filter (·.isValid)) e ↔ k.Best es e := by
  have hvalid : ∀ x, (k.rank? x).isSome → x.isValid := by
    intro x hx
    by_contra hinvalid
    rw [rank?_reserved k hinvalid] at hx
    cases hx
  refine best_iff_of_ranked (fun x hx => ?_) fun x y hx hy => ?_
  · rw [List.mem_filter]
    exact and_iff_left (hvalid x hx)
  · exact idxOf_filter_lt_iff es (hvalid x hx) (hvalid y hy)

/-! ### One pass over a list -/

/-- The best encoding is still the best when one follows that is ranked no better. -/
theorem Best.append {n : Nat} (h : k.Best es e) (hn : k.rank? e = some n)
    (hx : ∀ m, k.rank? x = some m → n ≤ m) : k.Best (es ++ [x]) e where
  mem := List.mem_append_left _ h.mem
  ranked := h.ranked
  first := by
    intro y n' m hy hn' hm
    cases hn.symm.trans hn'
    rw [List.idxOf_append_of_mem h.mem]
    by_cases hmem : y ∈ es
    · rw [List.idxOf_append_of_mem hmem]
      exact h.first hmem hn hm
    · obtain rfl : y = x := List.mem_singleton.mp ((List.mem_append.mp hy).resolve_left hmem)
      have hlt : es.idxOf e < es.length := List.idxOf_lt_length_iff.mpr h.mem
      have hle : n ≤ m := hx m hm
      rw [List.idxOf_append_of_notMem hmem]
      omega

/-- An encoding is the best when it follows others that are all ranked worse. -/
theorem best_append_self {n : Nat} (hn : k.rank? x = some n)
    (hx : ∀ y ∈ es, ∀ m, k.rank? y = some m → n < m) : k.Best (es ++ [x]) x where
  mem := List.mem_append_right _ (List.mem_singleton_self x)
  ranked := Option.isSome_of_mem hn
  first := by
    intro y n' m hy hn' hm
    cases hn.symm.trans hn'
    rcases List.mem_append.mp hy with hy | hy
    · exact Or.inr (Or.inl (hx y hy m hm))
    · exact Or.inl (List.mem_singleton.mp hy)

/-- An encoding that is ranked better than the best so far is ranked better than all so far. -/
theorem Best.overtaken {n m : Nat} (h : k.Best es e) (hn : k.rank? e = some n)
    (hm : k.rank? x = some m) (hlt : m < n) : k.Best (es ++ [x]) x := by
  apply best_append_self hm
  intro y hy l hl
  rcases h.first hy hn hl with rfl | hle
  · cases hn.symm.trans hl
    exact hlt
  · omega

/-- What is kept after a list: its best encoding with the rank, or nothing where no encoding has a
rank. -/
inductive Leading (k : Ranking) (es : List Encoding) : Option (Nat × Encoding) → Prop
  | unranked : (∀ x ∈ es, k.rank? x = none) → Leading k es none
  | best {n e} : k.rank? e = some n → k.Best es e → Leading k es (some (n, e))

/-- An encoding without a rank leaves everything as it is. -/
theorem Leading.skip {best : Option (Nat × Encoding)} (h : k.Leading es best)
    (hx : k.rank? x = none) : k.Leading (es ++ [x]) best := by
  cases h with
  | unranked hnone =>
    apply Leading.unranked
    intro y hy
    rcases List.mem_append.mp hy with hy | hy
    · exact hnone y hy
    · rwa [List.mem_singleton.mp hy]
  | best hn hbest =>
    apply Leading.best hn
    apply hbest.append hn
    intro m hm
    cases hx.symm.trans hm

theorem Leading.better {best : Option (Nat × Encoding)} (h : k.Leading es best) (x : Encoding) :
    k.Leading (es ++ [x]) (k.better best x) := by
  unfold Ranking.better
  cases hx : k.rank? x with
  | none => exact h.skip hx
  | some m =>
    cases h with
    | unranked hnone =>
      apply Leading.best hx
      apply best_append_self hx
      intro y hy l hl
      cases (hnone y hy).symm.trans hl
    | @best n e hn hbest =>
      show k.Leading (es ++ [x]) (if m < n then some (m, x) else some (n, e))
      split
      · next hlt => exact .best hx (hbest.overtaken hn hx hlt)
      · next hnot =>
        apply Leading.best hn
        apply hbest.append hn
        intro m' hm'
        cases hx.symm.trans hm'
        exact Nat.le_of_not_lt hnot

theorem leading_foldl (k : Ranking) (es : List Encoding) :
    k.Leading es (es.foldl k.better none) := by
  induction es using List.reverseRecOn with
  | nil => exact .unranked (List.forall_mem_nil _)
  | append_singleton es x ih =>
    rw [List.foldl_append]
    exact ih.better x

/-- What is kept is nothing but the best encoding. -/
theorem Leading.eq_some_iff {kept : Option (Nat × Encoding)} (h : k.Leading es kept) :
    kept.map (·.2) = some e ↔ k.Best es e := by
  cases h with
  | unranked hnone =>
    constructor
    · intro hkept
      cases hkept
    · intro hbest
      have hranked := hbest.ranked
      rw [hnone e hbest.mem] at hranked
      cases hranked
  | best _ hbest =>
    constructor
    · intro hkept
      cases hkept
      exact hbest
    · intro hbest'
      exact congrArg some (hbest.unique hbest')

/-- **The encoding preferred is the best one.** -/
theorem preferred?_eq_some_iff : k.preferred? es = some e ↔ k.Best es e := by
  rw [← best_filter_isValid_iff]
  exact (leading_foldl k _).eq_some_iff

/-- Any encoding with a rank means that there is a best one. -/
theorem exists_best (hmem : x ∈ es) (hranked : (k.rank? x).isSome) : ∃ e, k.Best es e := by
  have hlead := leading_foldl k es
  generalize es.foldl k.better none = kept at hlead
  cases hlead with
  | unranked hnone =>
    rw [hnone x hmem] at hranked
    cases hranked
  | best _ hbest => exact ⟨_, hbest⟩

end CameraStream.Ranking
