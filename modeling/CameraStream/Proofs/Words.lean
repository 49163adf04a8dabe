import CameraStream.Proofs.Arithmetic
import CameraStream.Proofs.Grid
import Mathlib.Order.Bounds.Basic

/-!
# Grids in machine words

Bounds and steps of a dimension are unsigned words of 32 bits, and the meet of two grids is computed
in words of 64. `Extent.interGrid?` is that computation, operation by operation: it has no result as
soon as a sum or product does not fit, a difference would be negative, a divisor is zero, or a word
is narrowed that does not fit into 32 bits. None of this ever happens, whatever the bounds and steps
are, and what comes out is the exact meet (**`Extent.interGrid?_spec`**).

The search for the first common value walks the first of the two grids, `Extent.firstCommon` the
coarser one. Both arrive at the least common value (`Extent.walkToCommon_comm`).
-/

namespace CameraStream

namespace Word

/-- The last number that is not zero of the remainders of two numbers. The loop ends on a zero
before it would divide by it. -/
def euclid (a b : Nat) : Nat :=
  if b = 0 then a else euclid b (a % b)
termination_by b
decreasing_by exact Nat.mod_lt a (by omega)

theorem euclid_eq_gcd (a b : Nat) : euclid a b = a.gcd b := by
  induction a, b using euclid.induct with
  | case1 a => rw [euclid, if_pos rfl, Nat.gcd_zero_right]
  | case2 a b hb ih => rw [euclid, if_neg hb, ih, Nat.gcd_comm a b, Nat.gcd_rec b a, Nat.gcd_comm]

end Word

namespace Extent

open Word

/-! ### The computation -/

def lcm? (stride stride' : Nat) : Option Nat := do
  mul? (← div? stride (euclid stride stride')) stride'

def roundUp? (lo stride bottom : Nat) : Option Nat := do
  let ahead ← mod? (← sub? bottom lo) stride
  add? bottom (← mod? (← sub? stride ahead) stride)

/-- The first of `count` values from number `k` on that is at most `hi` and on the grid of `step`
from `lo`. Values are computed from `start` one by one, as they are needed. -/
def findOnGrid? (step lo hi stride start : Nat) : (count k : Nat) → Option (Option Nat)
  | 0, _ => some none
  | count + 1, k => do
    let v ← add? start (← mul? k stride)
    if hi < v then some none
    else if (← mod? (← sub? v lo) step) = 0 then some (some v)
    else findOnGrid? step lo hi stride start count (k + 1)

def walkToCommon? (lo stride lo' stride' period bottom top : Nat) : Option (Option Nat) := do
  let start ← roundUp? lo stride bottom
  findOnGrid? stride' lo' top stride start (← div? period stride) 0

def gridUpTo? (first top period : Nat) : Option Extent := do
  let last ← sub? top (← mod? (← sub? top first) period)
  let first ← fit? 32 first
  let last ← fit? 32 last
  if first = last then some (exactly first)
  else
    let step ← fit? 32 period
    some ⟨.range first last, if 1 < step then step else 0⟩

/-- The meet of two grids as it is computed in words. -/
def interGrid? (lo hi step lo' hi' step' : UInt32) : Option (Option Extent) := do
  let stride := max step.toNat 1
  let stride' := max step'.toNat 1
  let bottom := max lo.toNat lo'.toNat
  let top := min hi.toNat hi'.toNat
  if top < bottom then some none
  else
    let period ← lcm? stride stride'
    match ← walkToCommon? lo.toNat stride lo'.toNat stride' period bottom top with
    | none => some none
    | some first => some (← gridUpTo? first top period)

/-! ### Nothing is out of bounds -/

theorem findOnGrid?_eq {step lo hi stride start : Nat} (hstep : 0 < step) (hlo : lo ≤ start)
    (count k : Nat) (hfit : ∀ j < k + count, start + j * stride < 2 ^ 64) :
    findOnGrid? step lo hi stride start count k =
      some (findOnGrid step lo hi stride count (start + k * stride)) := by
  induction count generalizing k with
  | zero => rfl
  | succ count ih =>
    have hsum : start + k * stride < 2 ^ 64 := hfit k (by omega)
    have hnext : start + (k + 1) * stride = start + k * stride + stride := by
      rw [Nat.succ_mul, Nat.add_assoc]
    rw [findOnGrid?, findOnGrid, mul?_eq (by omega)]
    simp only [Option.bind_eq_bind, Option.bind_some, add?_eq hsum]
    split
    · rfl
    · rw [sub?_eq (by omega)]
      simp only [Option.bind_some, mod?_eq hstep]
      split
      · rfl
      · rw [ih (k + 1) fun j hj => hfit j (by omega), hnext]

section

variable {stride stride' : Nat} (hs : 0 < stride) (hs' : 0 < stride') (hfit : stride < 2 ^ 32)
  (hfit' : stride' < 2 ^ 32)

include hs hs' hfit hfit' in
theorem lcm_le : stride.lcm stride' ≤ (2 ^ 32 - 1) * (2 ^ 32 - 1) := by
  calc
    stride.lcm stride' ≤ stride * stride' :=
      Nat.le_of_dvd (Nat.mul_pos hs hs') (Nat.lcm_dvd_mul stride stride')
    _ ≤ (2 ^ 32 - 1) * (2 ^ 32 - 1) := Nat.mul_le_mul (by omega) (by omega)

include hs hs' hfit hfit' in
theorem lcm?_eq : lcm? stride stride' = some (stride.lcm stride') := by
  have hgcd : 0 < stride.gcd stride' := Nat.gcd_pos_of_pos_left _ hs
  have hproduct : stride / stride.gcd stride' * stride' = stride.lcm stride' :=
    Nat.div_mul_right_comm (Nat.gcd_dvd_left stride stride') stride'
  have hle := lcm_le hs hs' hfit hfit'
  rw [lcm?, euclid_eq_gcd, div?_eq hgcd]
  show mul? (stride / stride.gcd stride') stride' = _
  rw [mul?_eq (by omega), hproduct]

include hs hfit in
theorem roundUp?_eq {lo bottom : Nat} (hle : lo ≤ bottom) (hbottom : bottom < 2 ^ 32) :
    roundUp? lo stride bottom = some (roundUp lo stride bottom) := by
  have hahead : (bottom - lo) % stride < stride := Nat.mod_lt _ hs
  have hbehind : (stride - (bottom - lo) % stride) % stride < stride := Nat.mod_lt _ hs
  simp only [roundUp?, sub?_eq hle, mod?_eq hs, sub?_eq (Nat.le_of_lt hahead), Option.bind_eq_bind,
    Option.bind_some]
  exact add?_eq (by omega)

variable {lo lo' bottom top : Nat} (hlo : lo ≤ bottom) (hlo' : lo' ≤ bottom)

include hs hs' hfit hfit' hlo hlo' in
theorem walkToCommon?_eq (hbottom : bottom < 2 ^ 32) :
    walkToCommon? lo stride lo' stride' (stride.lcm stride') bottom top =
      some (walkToCommon lo stride lo' stride' bottom top) := by
  have hstart : lo' ≤ roundUp lo stride bottom := Nat.le_trans hlo' (onGrid_roundUp hs hlo).1
  have hbehind : (stride - (bottom - lo) % stride) % stride < stride := Nat.mod_lt _ hs
  have hle := lcm_le hs hs' hfit hfit'
  -- Even the last candidate is less than a period above the start.
  have hwalk : ∀ j < 0 + stride.lcm stride' / stride,
      roundUp lo stride bottom + j * stride < 2 ^ 64 := by
    intro j hj
    have hperiod : (j + 1) * stride ≤ stride.lcm stride' :=
      Nat.le_trans (Nat.mul_le_mul_right _ (by omega)) (Nat.div_mul_le_self _ _)
    rw [Nat.succ_mul] at hperiod
    unfold roundUp
    omega
  simp only [walkToCommon?, roundUp?_eq hs hfit hlo hbottom, div?_eq hs, Option.bind_eq_bind,
    Option.bind_some]
  rw [findOnGrid?_eq hs' hstart _ 0 hwalk, Nat.zero_mul, Nat.add_zero]
  rfl

end

theorem dvd_last_sub (first top period : Nat) :
    period ∣ top - (top - first) % period - first := by
  have hrest : (top - first) % period ≤ top - first := Nat.mod_le _ _
  rw [show top - (top - first) % period - first = top - first - (top - first) % period by omega]
  exact Nat.dvd_sub_mod _

/-- The grid of what was found fits: its step leads from one word to another. -/
theorem gridUpTo?_eq {first top period : Nat} (h : first ≤ top) (htop : top < 2 ^ 32)
    (hperiod : 0 < period) : gridUpTo? first top period = some (gridUpTo first top period) := by
  have hrest : (top - first) % period ≤ top - first := Nat.mod_le _ _
  have hlast : fit? 32 (top - (top - first) % period) = some (top - (top - first) % period) :=
    fit?_eq (by omega)
  simp only [gridUpTo?, gridUpTo, sub?_eq h, mod?_eq hperiod, Option.bind_eq_bind, Option.bind_some,
    sub?_eq (Nat.le_trans hrest (Nat.sub_le _ _)), fit?_eq (Nat.lt_of_le_of_lt h htop), hlast]
  split
  · rfl
  · next hne =>
    have hle := Nat.le_of_dvd (by omega) (dvd_last_sub first top period)
    rw [fit?_eq (by omega)]
    rfl

/-! ### What is found -/

/-- The least of a set of numbers, or nothing if the set is empty. -/
inductive LeastOf (S : Set Nat) : Option Nat → Prop
  | none : (∀ v, v ∉ S) → LeastOf S none
  | some {v} : IsLeast S v → LeastOf S (some v)

theorem LeastOf.unique {S : Set Nat} {found found' : Option Nat} (h : LeastOf S found)
    (h' : LeastOf S found') : found = found' := by
  cases h with
  | none hempty =>
    cases h' with
    | none _ => rfl
    | some hleast => exact absurd hleast.1 (hempty _)
  | some hleast =>
    cases h' with
    | none hempty => exact absurd hleast.1 (hempty _)
    | some hleast' => rw [hleast.unique hleast']

/-- The values between two bounds that are on both of two grids. -/
def commonValues (lo stride lo' stride' bottom top : Nat) : Set Nat :=
  {v | bottom ≤ v ∧ v ≤ top ∧ OnGrid lo stride v ∧ OnGrid lo' stride' v}

section

variable {lo stride lo' stride' bottom top : Nat} (hs : 0 < stride) (hs' : 0 < stride')
  (hlo : lo ≤ bottom) (hlo' : lo' ≤ bottom)
include hs hs' hlo hlo'

variable (top) in
theorem leastOf_walkToCommon :
    LeastOf (commonValues lo stride lo' stride' bottom top)
      (walkToCommon lo stride lo' stride' bottom top) := by
  have hcomplete : ∀ v ∈ commonValues lo stride lo' stride' bottom top,
      ∃ w, walkToCommon lo stride lo' stride' bottom top = some w ∧ w ≤ v := by
    rintro v ⟨hbottom, htop, hv, hv'⟩
    exact walkToCommon_complete hs hs' hlo hlo' hbottom htop hv hv'
  cases hfound : walkToCommon lo stride lo' stride' bottom top with
  | none =>
    apply LeastOf.none
    intro v hv
    obtain ⟨w, hw, -⟩ := hcomplete v hv
    cases hfound.symm.trans hw
  | some first =>
    apply LeastOf.some
    refine ⟨walkToCommon_sound hs hlo hlo' hfound, ?_⟩
    intro v hv
    obtain ⟨w, hw, hle⟩ := hcomplete v hv
    cases hfound.symm.trans hw
    exact hle

theorem walkToCommon_comm :
    walkToCommon lo stride lo' stride' bottom top = walkToCommon lo' stride' lo stride bottom top := by
  have hsame : commonValues lo' stride' lo stride bottom top =
      commonValues lo stride lo' stride' bottom top := by
    ext v
    simp only [commonValues, Set.mem_ofPred_eq, and_comm]
  have hother := leastOf_walkToCommon top hs' hs hlo' hlo
  rw [hsame] at hother
  exact (leastOf_walkToCommon top hs hs' hlo hlo').unique hother

/-- It does not matter which grid is walked. -/
theorem firstCommon_eq_walkToCommon :
    firstCommon lo stride lo' stride' bottom top = walkToCommon lo stride lo' stride' bottom top := by
  unfold firstCommon
  split
  · exact (walkToCommon_comm hs hs' hlo hlo').symm
  · rfl

end

/-- A description of a set of numbers that are whole periods apart: that there is none, the only
one, or the least, the largest and a step, which is zero for a period of one. All of it fits into
words of 32 bits. -/
inductive MeetOf (S : Set Nat) (period : Nat) : Option Extent → Prop
  | none : (∀ v, v ∉ S) → MeetOf S period none
  | exactly {v} : IsLeast S v → IsGreatest S v → v < 2 ^ 32 → MeetOf S period (some (exactly v))
  | range {first last step} : IsLeast S first → IsGreatest S last → first < last → last < 2 ^ 32 →
      period < 2 ^ 32 → step = (if 1 < period then period else 0) → max step 1 ∣ last - first →
      MeetOf S period (some ⟨.range first last, step⟩)

section

variable {lo stride lo' stride' bottom top first : Nat}

/-- The largest common value is whole periods above the least. -/
theorem isGreatest_last
    (hfirst : first ∈ commonValues lo stride lo' stride' bottom top) :
    IsGreatest (commonValues lo stride lo' stride' bottom top)
      (top - (top - first) % stride.lcm stride') := by
  obtain ⟨hbottom, htop, hgrid, hgrid'⟩ := hfirst
  have hrest : (top - first) % stride.lcm stride' ≤ top - first := Nat.mod_le _ _
  have hlast : OnGrid first (stride.lcm stride') (top - (top - first) % stride.lcm stride') :=
    ⟨by omega, dvd_last_sub _ _ _⟩
  refine ⟨⟨Nat.le_trans hbottom hlast.1, Nat.sub_le _ _, hgrid.trans (Nat.dvd_lcm_left _ _) hlast,
    hgrid'.trans (Nat.dvd_lcm_right _ _) hlast⟩, ?_⟩
  rintro v ⟨-, hv, hvgrid, hvgrid'⟩
  by_cases hle : first ≤ v
  · exact ((onGrid_last htop).mp ⟨hgrid.lcm hgrid' hvgrid hvgrid' hle, hv⟩).2
  · exact Nat.le_trans (Nat.le_of_not_le hle) hlast.1

theorem meetOf_gridUpTo (hs : 0 < stride) (hs' : 0 < stride') (htop : top < 2 ^ 32)
    (hfirst : IsLeast (commonValues lo stride lo' stride' bottom top) first) :
    MeetOf (commonValues lo stride lo' stride' bottom top) (stride.lcm stride')
      (some (gridUpTo first top (stride.lcm stride'))) := by
  have hperiod : 0 < stride.lcm stride' := Nat.lcm_pos hs hs'
  have hlast := isGreatest_last hfirst.1
  have hle : first ≤ top - (top - first) % stride.lcm stride' := hfirst.2 hlast.1
  have hdvd := dvd_last_sub first top (stride.lcm stride')
  unfold gridUpTo
  simp only
  split
  · next heq =>
    rw [← heq] at hlast
    exact .exactly hfirst hlast (Nat.lt_of_le_of_lt hfirst.1.2.1 htop)
  · next hne =>
    have hlt := Nat.lt_of_le_of_ne hle hne
    have hfits := Nat.le_of_dvd (by omega) hdvd
    refine .range hfirst hlast hlt (by omega) (by omega) rfl ?_
    rwa [show max (if 1 < stride.lcm stride' then stride.lcm stride' else 0) 1 =
      stride.lcm stride' by split <;> omega]

end

/-- What the meet of two grids consists of. -/
theorem meetOf_interGrid (lo step lo' hi' step' : Nat) {hi : Nat} (hhi : hi < 2 ^ 32) :
    MeetOf (commonValues lo (max step 1) lo' (max step' 1) (max lo lo') (min hi hi'))
      ((max step 1).lcm (max step' 1)) (interGrid lo hi step lo' hi' step') := by
  have hs : 0 < max step 1 := by omega
  have hs' : 0 < max step' 1 := by omega
  unfold interGrid
  simp only
  split
  · apply MeetOf.none
    rintro v ⟨hbottom, htop, -⟩
    omega
  · have hleast := leastOf_walkToCommon (min hi hi') hs hs' (Nat.le_max_left lo lo')
      (Nat.le_max_right lo lo')
    rw [firstCommon_eq_walkToCommon hs hs' (Nat.le_max_left lo lo') (Nat.le_max_right lo lo')]
    generalize walkToCommon _ _ _ _ _ _ = found at hleast
    cases hleast with
    | none hempty => exact .none hempty
    | some hfirst =>
      exact meetOf_gridUpTo hs hs' (Nat.lt_of_le_of_lt (Nat.min_le_left _ _) hhi) hfirst

/-! ### Words of 32 bits -/

section

variable (lo hi step lo' hi' step' : UInt32)

theorem stride_pos : 0 < max step.toNat 1 := Nat.lt_of_lt_of_le Nat.zero_lt_one (Nat.le_max_right _ _)

theorem stride_lt : max step.toNat 1 < 2 ^ 32 := Nat.max_lt.mpr ⟨step.toNat_lt, by decide⟩

theorem lcm?_eq_of_words :
    lcm? (max step.toNat 1) (max step'.toNat 1) =
      some ((max step.toNat 1).lcm (max step'.toNat 1)) :=
  lcm?_eq (stride_pos step) (stride_pos step') (stride_lt step) (stride_lt step')

theorem walkToCommon?_eq_of_words (top : Nat) :
    walkToCommon? lo.toNat (max step.toNat 1) lo'.toNat (max step'.toNat 1)
        ((max step.toNat 1).lcm (max step'.toNat 1)) (max lo.toNat lo'.toNat) top =
      some (walkToCommon lo.toNat (max step.toNat 1) lo'.toNat (max step'.toNat 1)
        (max lo.toNat lo'.toNat) top) :=
  walkToCommon?_eq (stride_pos step) (stride_pos step') (stride_lt step) (stride_lt step')
    (Nat.le_max_left _ _) (Nat.le_max_right _ _) (Nat.max_lt.mpr ⟨lo.toNat_lt, lo'.toNat_lt⟩)

theorem interGrid?_eq :
    interGrid? lo hi step lo' hi' step' =
      some (interGrid lo.toNat hi.toNat step.toNat lo'.toNat hi'.toNat step'.toNat) := by
  have hs := stride_pos step
  have hs' := stride_pos step'
  have htop : min hi.toNat hi'.toNat < 2 ^ 32 :=
    Nat.lt_of_le_of_lt (Nat.min_le_left _ _) hi.toNat_lt
  unfold interGrid? interGrid
  simp only [lcm?_eq_of_words, Option.bind_eq_bind, Option.bind_some]
  split
  · rfl
  · rw [walkToCommon?_eq_of_words, firstCommon_eq_walkToCommon hs hs' (Nat.le_max_left _ _)
      (Nat.le_max_right _ _)]
    have hleast := leastOf_walkToCommon (min hi.toNat hi'.toNat) hs hs'
      (Nat.le_max_left lo.toNat lo'.toNat) (Nat.le_max_right lo.toNat lo'.toNat)
    generalize walkToCommon _ _ _ _ _ _ = found at hleast
    cases hleast with
    | none _ => rfl
    | some hfirst =>
      simp only [Option.bind_some, gridUpTo?_eq hfirst.1.2.1 htop (Nat.lcm_pos hs hs'),
        Option.map_some]

/-- **The meet of two grids can be computed in words**, whatever their bounds and steps are. No
operation is out of bounds and no word is narrowed that does not fit. The result is the meet of the
grids, from the least to the largest common value, which are whole steps apart. The search finds the
least common value, among as many candidates as there are in a period of both steps, unless there is
none. -/
theorem interGrid?_spec :
    interGrid? lo hi step lo' hi' step' =
      some (interGrid lo.toNat hi.toNat step.toNat lo'.toNat hi'.toNat step'.toNat) ∧
    let stride := max step.toNat 1
    let stride' := max step'.toNat 1
    let bottom := max lo.toNat lo'.toNat
    let top := min hi.toNat hi'.toNat
    let S := commonValues lo.toNat stride lo'.toNat stride' bottom top
    MeetOf S (stride.lcm stride')
      (interGrid lo.toNat hi.toNat step.toNat lo'.toNat hi'.toNat step'.toNat) ∧
    ∃ period found, lcm? stride stride' = some period ∧
      walkToCommon? lo.toNat stride lo'.toNat stride' period bottom top = some found ∧
      LeastOf S found := by
  refine ⟨interGrid?_eq lo hi step lo' hi' step', ?_⟩
  intro stride stride' bottom top S
  refine ⟨meetOf_interGrid _ _ _ _ _ hi.toNat_lt, _, _, lcm?_eq_of_words step step',
    walkToCommon?_eq_of_words lo step lo' step' top, ?_⟩
  exact leastOf_walkToCommon top (stride_pos step) (stride_pos step') (Nat.le_max_left _ _)
    (Nat.le_max_right _ _)

end

/-- Two grids of the largest steps there are, whose period does not fit into 32 bits. -/
example : interGrid? 0 4294967295 4294967295 0 4294967295 4294967294 = some (some (exactly 0)) := by
  cbv

end Extent
end CameraStream
