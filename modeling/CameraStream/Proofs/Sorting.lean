import CameraStream.Proofs.Ranking

/-!
# Encodings sorted by rank

`Ranking.preferred?` looks for the best encoding of a list, `Ranking.sort` puts all of them in
order. What is in order is said by `Ranking.SortedFrom`: the valid encodings of the list are there,
by rank, those without a rank at the end, and those of one rank as they were given. The head of such
a list is the best encoding, if it has a rank (`Ranking.SortedFrom.head?_eq_some_iff`). So the two
ways of ranking agree (**`Ranking.sort_agrees`**).

To sort, a missing rank may as well be counted as a number above all places in the order
(`Ranking.rankLE_eq_decide`).
-/

namespace CameraStream.Ranking

variable {k : Ranking} {es sorted : List Encoding} {d e : Encoding}

/-! ### The order of ranks -/

theorem rankLE_trans (a b c : Option Nat) (hab : rankLE a b) (hbc : rankLE b c) : rankLE a c := by
  cases a <;> cases b <;> cases c <;> simp [rankLE] at *
  omega

theorem rankLE_total (a b : Option Nat) : rankLE a b || rankLE b a := by
  cases a <;> cases b <;> simp [rankLE]
  omega

theorem rank?_trans (k : Ranking) (a b c : Encoding) (hab : rankLE (k.rank? a) (k.rank? b))
    (hbc : rankLE (k.rank? b) (k.rank? c)) : rankLE (k.rank? a) (k.rank? c) :=
  rankLE_trans _ _ _ hab hbc

theorem rank?_total (k : Ranking) (a b : Encoding) :
    rankLE (k.rank? a) (k.rank? b) || rankLE (k.rank? b) (k.rank? a) :=
  rankLE_total _ _

/-- A rank is a place in the order of families. -/
theorem lt_length_of_rank? {n : Nat} (h : k.rank? e = some n) : n < k.order.length := by
  obtain ⟨f, -, hf⟩ := Option.bind_eq_some_iff.mp h
  obtain ⟨hlt, -⟩ := List.idxOf?_eq_some_iff.mp hf
  exact hlt

/-- Ranks compare like numbers if a missing one is a number above all places. -/
theorem rankLE_eq_decide (k : Ranking) (extra : Nat) (d e : Encoding) :
    rankLE (k.rank? d) (k.rank? e) =
      decide ((k.rank? d).getD (k.order.length + extra) ≤
        (k.rank? e).getD (k.order.length + extra)) := by
  have hplace : ∀ x n, k.rank? x = some n → n < k.order.length := fun x n => lt_length_of_rank?
  cases hd : k.rank? d with
  | none =>
    cases he : k.rank? e with
    | none => simp [rankLE]
    | some m =>
      have := hplace e m he
      simp [rankLE]
      omega
  | some n =>
    cases he : k.rank? e with
    | none =>
      have := hplace d n hd
      simp [rankLE]
      omega
    | some m => rfl

/-! ### Sorted lists -/

/-- A list of the valid encodings of another one, sorted by rank. -/
structure SortedFrom (k : Ranking) (es sorted : List Encoding) : Prop where
  perm : sorted.Perm (es.filter (·.isValid))
  ascending : sorted.Pairwise fun d e => ∀ n m, k.rank? d = some n → k.rank? e = some m → n ≤ m
  unrankedLast : sorted.Pairwise fun d e => k.rank? d = none → k.rank? e = none
  /-- The encodings of each rank, and those without one, are in the order given. -/
  stable : ∀ rank, sorted.filter (k.rank? · == rank) =
    (es.filter (·.isValid)).filter (k.rank? · == rank)

/-- What is sorted stays in order where everything compares equal. -/
theorem filter_sort (k : Ranking) (es : List Encoding) (rank : Option Nat) :
    (k.sort es).filter (k.rank? · == rank) =
      (es.filter (·.isValid)).filter (k.rank? · == rank) := by
  have hequal : ((es.filter (·.isValid)).filter (k.rank? · == rank)).Pairwise
      fun d e => rankLE (k.rank? d) (k.rank? e) := by
    rw [List.pairwise_filter]
    apply List.pairwise_of_forall
    intro d e hd he
    rw [beq_iff_eq] at hd he
    rw [hd, he]
    simpa using rankLE_total rank rank
  have hsublist : ((es.filter (·.isValid)).filter (k.rank? · == rank)).Sublist (k.sort es) :=
    List.sublist_mergeSort k.rank?_trans k.rank?_total hequal List.filter_sublist
  have hkept := hsublist.filter (k.rank? · == rank)
  rw [List.filter_filter] at hkept
  simp only [Bool.and_self] at hkept
  have hperm := (List.mergeSort_perm (es.filter (·.isValid))
    fun d e => rankLE (k.rank? d) (k.rank? e)).filter (k.rank? · == rank)
  exact (hkept.eq_of_length hperm.length_eq.symm).symm

theorem sortedFrom_sort (k : Ranking) (es : List Encoding) : k.SortedFrom es (k.sort es) := by
  have hsorted : (k.sort es).Pairwise fun d e => rankLE (k.rank? d) (k.rank? e) :=
    List.pairwise_mergeSort k.rank?_trans k.rank?_total _
  refine ⟨List.mergeSort_perm _ _, hsorted.imp ?_, hsorted.imp ?_, filter_sort k es⟩
  · intro d e hle n m hn hm
    rw [hn, hm] at hle
    simpa [rankLE] using hle
  · intro d e hle hd
    rw [hd] at hle
    cases he : k.rank? e with
    | none => rfl
    | some m =>
      rw [he] at hle
      cases hle

namespace SortedFrom

variable (h : k.SortedFrom es sorted)
include h

theorem mem_of_ranked (he : e ∈ es) (hranked : (k.rank? e).isSome) : e ∈ sorted := by
  rw [h.perm.mem_iff, List.mem_filter]
  refine ⟨he, ?_⟩
  by_contra hinvalid
  rw [rank?_reserved k hinvalid] at hranked
  cases hranked

/-- A head with a rank is the best encoding. -/
theorem best_of_head (hhead : sorted.head? = some e) (hranked : (k.rank? e).isSome) :
    k.Best es e := by
  obtain ⟨rest, hrest⟩ := List.head?_eq_some_iff.mp hhead
  have hfirst := h.ascending
  rw [hrest, List.pairwise_cons] at hfirst
  rw [← best_filter_isValid_iff]
  refine ⟨?_, hranked, ?_⟩
  · rw [← h.perm.mem_iff]
    exact List.mem_of_mem_head? hhead
  · intro x n m hx hn hm
    rw [← h.perm.mem_iff, hrest] at hx
    rcases List.mem_cons.mp hx with heq | hx
    · exact Or.inl heq
    by_cases heq : x = e
    · exact Or.inl heq
    right
    rcases Nat.lt_or_eq_of_le (hfirst.1 x hx n m hn hm) with hlt | rfl
    · exact Or.inl hlt
    · -- Among the encodings of its rank the head comes first, before and after sorting.
      right
      refine ⟨rfl, ?_⟩
      have hbefore : (sorted.filter (k.rank? · == some n)).idxOf e <
          (sorted.filter (k.rank? · == some n)).idxOf x := by
        rw [hrest, List.filter_cons_of_pos (by rw [hn]; exact beq_self_eq_true _),
          idxOf_cons_lt_iff]
        exact ⟨Ne.symm heq, Or.inl rfl⟩
      rw [h.stable] at hbefore
      exact (idxOf_filter_lt_iff (p := (k.rank? · == some n)) _ (beq_iff_eq.mpr hn)
        (beq_iff_eq.mpr hm)).mp hbefore

/-- If there is any encoding with a rank, the head has one. -/
theorem exists_head (he : e ∈ es) (hranked : (k.rank? e).isSome) :
    ∃ d, sorted.head? = some d ∧ (k.rank? d).isSome := by
  have hmem : e ∈ sorted := h.mem_of_ranked he hranked
  have hlast := h.unrankedLast
  cases sorted with
  | nil => cases hmem
  | cons d rest =>
    refine ⟨d, rfl, ?_⟩
    rw [List.pairwise_cons] at hlast
    rcases List.mem_cons.mp hmem with rfl | hrest
    · exact hranked
    · rw [Option.isSome_iff_ne_none] at hranked ⊢
      intro hd
      exact hranked (hlast.1 e hrest hd)

theorem head?_eq_some_iff :
    sorted.head? = some e ∧ (k.rank? e).isSome ↔ k.Best es e := by
  constructor
  · rintro ⟨hhead, hranked⟩
    exact h.best_of_head hhead hranked
  · intro hbest
    obtain ⟨d, hhead, hranked⟩ := h.exists_head hbest.mem hbest.ranked
    obtain rfl : d = e := (h.best_of_head hhead hranked).unique hbest
    exact ⟨hhead, hranked⟩

end SortedFrom

/-- **The two ways of ranking agree.** Sorting gives the valid encodings by rank, those without a
rank at the end and those of one rank as they were given, also if a missing rank is counted as any
number above the places in the order. The encoding preferred is the head of the sorted list, if that
has a rank, and there is none otherwise. -/
theorem sort_agrees (k : Ranking) (es : List Encoding) :
    k.SortedFrom es (k.sort es) ∧
    (∀ extra, k.sort es = (es.filter (·.isValid)).mergeSort fun d e =>
      decide ((k.rank? d).getD (k.order.length + extra) ≤
        (k.rank? e).getD (k.order.length + extra))) ∧
    k.preferred? es = (k.sort es).head?.filter fun e => (k.rank? e).isSome := by
  have hsorted := sortedFrom_sort k es
  refine ⟨hsorted, ?_, ?_⟩
  · intro extra
    simp only [sort, rankLE_eq_decide k extra]
  · apply Option.ext
    intro e
    rw [preferred?_eq_some_iff, Option.filter_eq_some_iff, hsorted.head?_eq_some_iff]

example : (Ranking.mk [.rgb, .bayer8, .rgb]).sort [.mjpeg, .bgr24, ⟨0⟩, .rggb8, .rgb24] =
    [.bgr24, .rgb24, .rggb8, .mjpeg] := by
  cbv

end CameraStream.Ranking
