import CameraStream.Constraint.Basic
import CameraStream.Proofs.Order

/-!
# Constraints as sets of values

`Constraint.inter` computes on descriptions. Here it is related to what descriptions mean, that is
to `accepts`:

* **Exactness** (`any_accepts_inter`): what `inter` returns, be it a constraint or nothing, holds
  of exactly the values that both constraints hold of.
* **Largest values** (`accepts_largest?`): `largest?` returns a value the constraint holds of,
  unless the constraint is an **inverted** range, from a larger bound to a smaller one. Inverted
  ranges survive an intersection only with `any` (`forward_inter`), so the value settled on after
  an intersection still satisfies each side that is not inverted itself.

Where ranges are concerned, all of this is relative to an order on the values mentioned
(`OrderedOn`).
-/

namespace CameraStream.Constraint

variable {α : Type}

/-- The values a constraint is written with. -/
def mentioned : Constraint α → List α
  | exactly v => [v]
  | range lo hi => [lo, hi]
  | oneOf values => values
  | any => []

/-- Every value the constraint is written with has a property. -/
def Within (P : α → Prop) (c : Constraint α) : Prop := ∀ v ∈ c.mentioned, P v

/-- The constraint is not an inverted range. -/
def Forward [Ord α] : Constraint α → Prop
  | range lo hi => (compare lo hi).isLE
  | _ => True

instance (P : α → Prop) [DecidablePred P] (c : Constraint α) : Decidable (c.Within P) :=
  inferInstanceAs (Decidable (∀ v ∈ c.mentioned, P v))

instance [Ord α] : (c : Constraint α) → Decidable c.Forward
  | range lo hi => inferInstanceAs (Decidable ((compare lo hi).isLE = true))
  | exactly _ | oneOf _ | any => inferInstanceAs (Decidable True)

theorem within_true (c : Constraint α) : c.Within (fun _ => True) := fun _ _ => trivial

/-! ### Lists of candidates -/

theorem any_accepts_ofCandidates? [Ord α] [BEq α] [LawfulBEq α] (values : List α) (v : α) :
    (ofCandidates? values).any (·.accepts v) = values.contains v := by
  match values with
  | [] => rfl
  | [w] =>
    show (w == v) = [w].contains v
    rw [Bool.eq_iff_iff]
    simp only [beq_iff_eq, List.contains_iff_mem, List.mem_singleton]
    exact eq_comm
  | w :: w' :: rest => simp [ofCandidates?, accepts]

theorem any_accepts_filter [Ord α] [BEq α] [LawfulBEq α] (values : List α) (p : α → Bool)
    (v : α) :
    (ofCandidates? (values.filter p)).any (·.accepts v) = (values.contains v && p v) := by
  rw [any_accepts_ofCandidates?, Bool.eq_iff_iff]
  simp

theorem mentioned_ofCandidates? {values : List α} {c : Constraint α}
    (h : ofCandidates? values = some c) : c.mentioned = values := by
  match values, h with
  | [_], h => cases h; rfl
  | _ :: _ :: _, h => cases h; rfl

theorem forward_ofCandidates? [Ord α] {values : List α} {c : Constraint α}
    (h : ofCandidates? values = some c) : c.Forward := by
  match values, h with
  | [_], h => cases h; trivial
  | _ :: _ :: _, h => cases h; trivial

theorem ofCandidates?_ne_range (values : List α) (lo hi : α) :
    ofCandidates? values ≠ some (range lo hi) := by
  match values with
  | [] | [_] | _ :: _ :: _ => simp [ofCandidates?]

theorem ofCandidates?_ne_any (values : List α) : ofCandidates? values ≠ some any := by
  match values with
  | [] | [_] | _ :: _ :: _ => simp [ofCandidates?]

/-! ### Meeting one value -/

/-- A value meets a constraint in that value, if at all. -/
theorem exactly_inter [Ord α] [BEq α] [LawfulBEq α] (v : α) (d : Constraint α) :
    (exactly v).inter d = if d.accepts v then some (exactly v) else none := by
  cases d <;> simp [inter, accepts]

theorem inter_exactly [Ord α] [BEq α] [LawfulBEq α] (c : Constraint α) (v : α) :
    c.inter (exactly v) = if c.accepts v then some (exactly v) else none := by
  cases c with
  | any | range _ _ | oneOf _ => simp [inter, accepts]
  | exactly w =>
    by_cases hw : w = v
    · subst hw
      simp [inter, accepts]
    · have hw' : ¬ v = w := fun h => hw h.symm
      simp [inter, accepts, hw, hw']

/-! ### Exactness of the intersection -/

section
variable [Ord α] {P : α → Prop}

theorem inRange_iff (hP : OrderedOn P) {lo hi v : α} (hlo : P lo) (hv : P v) :
    inRange lo hi v = true ↔ (compare lo v).isLE ∧ (compare v hi).isLE := by
  rw [inRange, Bool.and_eq_true, hP.isGE_iff hv hlo]

variable [BEq α] [LawfulBEq α]

theorem any_accepts_interRange (hP : OrderedOn P) {lo hi lo' hi' v : α} (hlo : P lo)
    (hhi : P hi) (hlo' : P lo') (hhi' : P hi') (hv : P v) :
    (interRange lo hi lo' hi').any (·.accepts v) = (inRange lo hi v && inRange lo' hi' v) := by
  have hbottom : P (larger lo lo') := by rcases larger_cases lo lo' with h | h <;> rwa [h]
  have htop : P (smaller hi hi') := by rcases smaller_cases hi hi' with h | h <;> rwa [h]
  -- Both sides say that `v` lies between the larger of the lower and the smaller of the upper bounds.
  have hboth : (inRange lo hi v && inRange lo' hi' v) = true ↔
      (compare (larger lo lo') v).isLE ∧ (compare v (smaller hi hi')).isLE := by
    rw [Bool.and_eq_true, inRange_iff hP hlo hv, inRange_iff hP hlo' hv,
      larger_isLE_iff hP hlo hlo' hv, isLE_smaller_iff hP hhi hhi' hv]
    tauto
  rw [Bool.eq_iff_iff, hboth]
  unfold interRange
  simp only
  split
  · -- The bounds have crossed, and a value between them would put them in order again.
    next hgt =>
    simp only [Option.any_none, Bool.false_eq_true, false_iff, not_and]
    intro hb ht
    have hle := hP.trans hbottom hv htop hb ht
    generalize compare (larger lo lo') (smaller hi hi') = o at hgt hle
    cases o <;> simp at hgt hle
  · split
    · next heq =>
      rw [beq_iff_eq] at heq
      simp only [Option.any_some, accepts, beq_iff_eq]
      rw [← heq]
      constructor
      · rintro rfl
        simp [hP.compare_self hbottom]
      · rintro ⟨hb, ht⟩
        exact hP.eq_of_isLE_of_isLE hbottom hv hb ht
    · simp only [Option.any_some, accepts]
      rw [inRange_iff hP hbottom hv]

/-- **Intersection is exact**: its result holds of the values both sides hold of, and where there
is no result there is no such value. -/
theorem any_accepts_inter (hP : OrderedOn P) {c d : Constraint α} (hc : c.Within P)
    (hd : d.Within P) {v : α} (hv : P v) :
    (c.inter d).any (·.accepts v) = (c.accepts v && d.accepts v) := by
  -- One value meets any constraint in the same way, on whichever side it stands.
  have hexactly : ∀ (w : α) (b : Constraint α),
      (if b.accepts w then some (exactly w) else none).any (·.accepts v) =
        (w == v && b.accepts v) := by
    intro w b
    by_cases hw : w = v
    · subst hw
      cases h : b.accepts w <;> simp [accepts]
    · cases h : b.accepts w <;> simp [accepts, hw]
  cases c with
  | any => simp [inter, accepts]
  | exactly w =>
    rw [exactly_inter]
    exact hexactly w d
  | range lo hi =>
    cases d with
    | any => simp [inter, accepts]
    | exactly w =>
      rw [inter_exactly, Bool.and_comm]
      exact hexactly w (range lo hi)
    | range lo' hi' =>
      exact any_accepts_interRange hP (hc lo (by simp [mentioned])) (hc hi (by simp [mentioned]))
        (hd lo' (by simp [mentioned])) (hd hi' (by simp [mentioned])) hv
    | oneOf values =>
      rw [Bool.and_comm]
      exact any_accepts_filter values (inRange lo hi) v
  | oneOf values =>
    cases d with
    | any => simp [inter, accepts]
    | exactly w =>
      rw [inter_exactly, Bool.and_comm]
      exact hexactly w (oneOf values)
    | range lo hi => exact any_accepts_filter values (inRange lo hi) v
    | oneOf others => exact any_accepts_filter values others.contains v

theorem accepts_of_inter (hP : OrderedOn P) {c d e : Constraint α} (hc : c.Within P)
    (hd : d.Within P) (h : c.inter d = some e) {v : α} (hv : P v) :
    e.accepts v = (c.accepts v && d.accepts v) := by
  have := any_accepts_inter hP hc hd hv
  rwa [h, Option.any_some] at this

end

/-! ### What an intersection is made of -/

section
variable [Ord α] [BEq α]

/-- The four ways to get an intersection: one side is free and leaves the other, two ranges
overlap, or values named one by one are sorted out. -/
theorem inter_cases {c d e : Constraint α} (h : c.inter d = some e) :
    (c = any ∧ e = d) ∨ (d = any ∧ e = c) ∨
    (∃ lo hi lo' hi', c = range lo hi ∧ d = range lo' hi' ∧ interRange lo hi lo' hi' = some e) ∨
    (∃ values, ofCandidates? values = some e ∧
      (values ⊆ c.mentioned ∨ values ⊆ d.mentioned)) := by
  have hexactly : ∀ (w : α) (b : Constraint α),
      (if b.accepts w then some (exactly w) else none) = some e →
        ofCandidates? [w] = some e := by
    intro w b hif
    split at hif
    · exact hif
    · cases hif
  cases c with
  | any => exact Or.inl ⟨rfl, (Option.some.inj h).symm⟩
  | exactly w =>
    cases d with
    | any => exact Or.inr (Or.inl ⟨rfl, (Option.some.inj h).symm⟩)
    | exactly _ | range _ _ | oneOf _ =>
      exact Or.inr (Or.inr (Or.inr ⟨[w], hexactly w _ h, Or.inl (List.Subset.refl _)⟩))
  | range lo hi =>
    cases d with
    | any => exact Or.inr (Or.inl ⟨rfl, (Option.some.inj h).symm⟩)
    | exactly w =>
      exact Or.inr (Or.inr (Or.inr ⟨[w], hexactly w _ h, Or.inr (List.Subset.refl _)⟩))
    | range lo' hi' => exact Or.inr (Or.inr (Or.inl ⟨lo, hi, lo', hi', rfl, rfl, h⟩))
    | oneOf values =>
      exact Or.inr (Or.inr (Or.inr ⟨_, h, Or.inr (List.filter_sublist.subset)⟩))
  | oneOf values =>
    cases d with
    | any => exact Or.inr (Or.inl ⟨rfl, (Option.some.inj h).symm⟩)
    | exactly w =>
      exact Or.inr (Or.inr (Or.inr ⟨[w], hexactly w _ h, Or.inr (List.Subset.refl _)⟩))
    | range lo hi | oneOf others =>
      exact Or.inr (Or.inr (Or.inr ⟨_, h, Or.inl (List.filter_sublist.subset)⟩))

theorem ranges_of_inter {c d : Constraint α} {lo hi : α} (h : c.inter d = some (range lo hi)) :
    (c = any ∧ ∃ l u, d = range l u) ∨ (d = any ∧ ∃ l u, c = range l u) ∨
      ∃ l u l' u', c = range l u ∧ d = range l' u' := by
  rcases inter_cases h with ⟨hc, rfl⟩ | ⟨hd, rfl⟩ | ⟨l, u, l', u', hc, hd, -⟩ | ⟨values, hv, -⟩
  · exact Or.inl ⟨hc, lo, hi, rfl⟩
  · exact Or.inr (Or.inl ⟨hd, lo, hi, rfl⟩)
  · exact Or.inr (Or.inr ⟨l, u, l', u', hc, hd⟩)
  · exact absurd hv (ofCandidates?_ne_range values lo hi)

/-- Nothing is constrained in an intersection only if nothing was. -/
theorem any_of_inter {c d : Constraint α} (h : c.inter d = some any) : c = any ∧ d = any := by
  rcases inter_cases h with ⟨hc, hd⟩ | ⟨hd, hc⟩ | ⟨lo, hi, lo', hi', -, -, hr⟩ | ⟨values, hv, -⟩
  · exact ⟨hc, hd.symm⟩
  · exact ⟨hc.symm, hd⟩
  · unfold interRange at hr
    simp only at hr
    split at hr
    · cases hr
    · split at hr <;> cases hr
  · exact absurd hv (ofCandidates?_ne_any values)

theorem interRange_cases {lo hi lo' hi' : α} {e : Constraint α}
    (h : interRange lo hi lo' hi' = some e) :
    e = exactly (larger lo lo') ∨
      e = range (larger lo lo') (smaller hi hi') ∧
        (compare (larger lo lo') (smaller hi hi')).isLE := by
  unfold interRange at h
  simp only at h
  split at h
  · cases h
  · next hgt =>
    split at h <;> cases h
    · exact Or.inl rfl
    · exact Or.inr ⟨rfl, isLE_of_not_isGT hgt⟩

/-- An intersection is not inverted, unless it is one of the two sides left as it was. -/
theorem forward_inter {c d e : Constraint α} (h : c.inter d = some e) :
    (c = any ∧ e = d) ∨ (d = any ∧ e = c) ∨ e.Forward := by
  rcases inter_cases h with hc | hd | ⟨lo, hi, lo', hi', -, -, hr⟩ | ⟨values, hv, -⟩
  · exact Or.inl hc
  · exact Or.inr (Or.inl hd)
  · rcases interRange_cases hr with rfl | ⟨rfl, hle⟩
    · exact Or.inr (Or.inr trivial)
    · exact Or.inr (Or.inr hle)
  · exact Or.inr (Or.inr (forward_ofCandidates? hv))

/-- Intersections invent no values. -/
theorem mentioned_of_inter {c d e : Constraint α} (h : c.inter d = some e) {v : α}
    (hv : v ∈ e.mentioned) : v ∈ c.mentioned ∨ v ∈ d.mentioned := by
  rcases inter_cases h with ⟨-, rfl⟩ | ⟨-, rfl⟩ | ⟨lo, hi, lo', hi', rfl, rfl, hr⟩ |
    ⟨values, he, hsub⟩
  · exact Or.inr hv
  · exact Or.inl hv
  · have hmem : v = larger lo lo' ∨ v = smaller hi hi' := by
      rcases interRange_cases hr with rfl | ⟨rfl, -⟩
      · left
        simpa [mentioned] using hv
      · simpa [mentioned] using hv
    rcases hmem with rfl | rfl
    · rcases larger_cases lo lo' with heq | heq <;> simp [mentioned, heq]
    · rcases smaller_cases hi hi' with heq | heq <;> simp [mentioned, heq]
  · rw [mentioned_ofCandidates? he] at hv
    rcases hsub with hsub | hsub
    · exact Or.inl (hsub hv)
    · exact Or.inr (hsub hv)

theorem within_inter {P : α → Prop} {c d e : Constraint α} (hc : c.Within P) (hd : d.Within P)
    (h : c.inter d = some e) : e.Within P := by
  intro v hv
  rcases mentioned_of_inter h hv with hv' | hv'
  · exact hc v hv'
  · exact hd v hv'

end

/-! ### Largest values -/

section
variable [Ord α]

theorem foldl_larger_mem (values : List α) (v : α) :
    values.foldl larger v = v ∨ values.foldl larger v ∈ values := by
  induction values generalizing v with
  | nil => exact Or.inl rfl
  | cons w rest ih =>
    rw [List.foldl_cons, List.mem_cons]
    -- The fold goes on from `larger v w`, which is `v` or the head.
    rcases ih (larger v w) with h | h
    · rw [h]
      rcases larger_cases v w with h' | h' <;> simp [h']
    · exact Or.inr (Or.inr h)

theorem mem_of_largestOf? {values : List α} {v : α} (h : largestOf? values = some v) :
    v ∈ values := by
  cases values with
  | nil => cases h
  | cons w rest =>
    cases h
    rcases foldl_larger_mem rest w with h' | h'
    · rw [h']
      exact List.mem_cons_self
    · exact List.mem_cons_of_mem _ h'

theorem mentioned_largest? {c : Constraint α} {v : α} (h : c.largest? = some v) :
    v ∈ c.mentioned := by
  cases c with
  | any => cases h
  | exactly w | range lo w =>
    cases h
    simp [mentioned]
  | oneOf values => exact mem_of_largestOf? h

variable [BEq α] [LawfulBEq α] {P : α → Prop}

theorem accepts_largest? (hP : OrderedOn P) {c : Constraint α} (hc : c.Within P)
    (hf : c.Forward) {v : α} (h : c.largest? = some v) : c.accepts v := by
  have hv : P v := hc v (mentioned_largest? h)
  cases c with
  | any => rfl
  | exactly w =>
    cases h
    exact beq_self_eq_true _
  | range lo hi =>
    cases h
    show inRange lo _ _ = true
    rw [inRange_iff hP (hc lo (by simp [mentioned])) hv]
    exact ⟨hf, by simp [hP.compare_self hv]⟩
  | oneOf values =>
    show values.contains v = true
    rw [List.contains_iff_mem]
    exact mem_of_largestOf? h

variable {c d e : Constraint α} {v : α}

/-- **The largest common value satisfies the first side**, whatever the second one is. -/
theorem accepts_left_of_largest? (hP : OrderedOn P) (hc : c.Within P) (hd : d.Within P)
    (hf : c.Forward) (h : c.inter d = some e) (hv : e.largest? = some v) : c.accepts v := by
  have he := within_inter hc hd h
  have hPv := he v (mentioned_largest? hv)
  have hboth := accepts_of_inter hP hc hd h hPv
  rcases forward_inter h with ⟨rfl, -⟩ | ⟨-, rfl⟩ | hfe
  · rfl
  · exact accepts_largest? hP hc hf hv
  · rw [accepts_largest? hP he hfe hv, eq_comm, Bool.and_eq_true] at hboth
    exact hboth.1

theorem accepts_right_of_largest? (hP : OrderedOn P) (hc : c.Within P) (hd : d.Within P)
    (hf : d.Forward) (h : c.inter d = some e) (hv : e.largest? = some v) : d.accepts v := by
  have he := within_inter hc hd h
  have hPv := he v (mentioned_largest? hv)
  have hboth := accepts_of_inter hP hc hd h hPv
  rcases forward_inter h with ⟨-, rfl⟩ | ⟨rfl, -⟩ | hfe
  · exact accepts_largest? hP hd hf hv
  · rfl
  · rw [accepts_largest? hP he hfe hv, eq_comm, Bool.and_eq_true] at hboth
    exact hboth.2

end

end CameraStream.Constraint
