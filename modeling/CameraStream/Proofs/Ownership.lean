import CameraStream.Pool
import Mathlib.Data.List.Perm.Basic

/-!
# Who has the slots

A `Stock` is all there is: every pool, every buffer in somebody's hands, and every buffer that was
thrown away without being given back. Pools are numbered as they are made, so that a number stands for
a pool however many handles there are to it. A `Dealing` is one thing done with a stock: a pool is
made, a buffer is loaned, made of other memory, written to, given to some pool, or forgotten. A buffer
cannot be copied, hence each is dealt with by its place among those in hand.

In every stock that dealings lead to, the slots of a pool are where they should be (`Settled`): the
indices that are free, in hand and forgotten are together a rearrangement of all indices of the pool.
**`settled_run`** says what this comes to: no slot is ever lost, loaned twice or mixed up, a loan fails
only for want of slots, and a pool takes back what it has lent and nothing else.
-/

namespace CameraStream.Pool

/-- A buffer that was made, and the pool that lent it, if one did. -/
structure Holding where
  buffer : Buffer
  lender : Option Nat := none
deriving DecidableEq, Repr

/-- All pools, by number, and all buffers that were made and not given back. -/
structure Stock where
  pools : List Pool := []
  held : List Holding := []
  /-- Thrown away. -/
  forgotten : List Holding := []
deriving DecidableEq, Repr

/-- What is done with pools and buffers. Buffers are named by their place among those held. -/
inductive Dealing where
  | create (capacity slotSize : Nat)
  | acquire (pool : Nat) (info : FrameInfo)
  /-- A buffer is made that belongs to no pool. -/
  | standalone (f : Frame)
  /-- The payload of a buffer, or what is known about it, is replaced or overwritten. -/
  | edit (place : Nat) (change : Frame → Frame)
  | release (place pool : Nat)
  | forget (place : Nat)

namespace Dealing

def step : Dealing → Stock → Stock
  | create capacity slotSize, s =>
    { s with pools := s.pools ++ [Pool.create s.pools.length capacity slotSize] }
  | acquire n info, s =>
    match s.pools[n]?.bind (·.acquire? info) with
    | none => s
    | some (b, p) => { s with pools := s.pools.set n p, held := ⟨b, some n⟩ :: s.held }
  | standalone f, s => { s with held := ⟨{ toFrame := f }, none⟩ :: s.held }
  | edit i change, s =>
    match s.held[i]? with
    | none => s
    | some h =>
      { s with held :=
          s.held.set i { h with buffer := h.buffer.withFrame (change h.buffer.toFrame) } }
  | release i n, s =>
    match s.held[i]?, s.pools[n]? with
    | some h, some p =>
      match p.release h.buffer with
      | .ok p => { s with pools := s.pools.set n p, held := s.held.eraseIdx i }
      | .error back => { s with held := s.held.set i { h with buffer := back } }
    | _, _ => s
  | forget i, s =>
    match s.held[i]? with
    | none => s
    | some h => { s with held := s.held.eraseIdx i, forgotten := h :: s.forgotten }

/-- The capacity and the slot size of a pool that is made. -/
def made : Dealing → Option (Nat × Nat)
  | create capacity slotSize => some (capacity, slotSize)
  | _ => none

end Dealing

/-- Dealings one after the other. -/
def Stock.run (s : Stock) (ds : List Dealing) : Stock := ds.foldl (fun s d => d.step s) s

/-! ### Slots that are out -/

/-- The index of the slot that a buffer has of a pool. -/
def Holding.indexIn (n : Nat) (h : Holding) : Option Nat :=
  h.buffer.slot.bind fun slot => if slot.pool = n then some slot.index else none

/-- The indices that buffers have of a pool. -/
def outOf (n : Nat) (hs : List Holding) : List Nat := hs.filterMap (Holding.indexIn n)

theorem indexIn_eq_some_iff {n : Nat} {h : Holding} {j : Nat} :
    h.indexIn n = some j ↔ h.buffer.slot = some ⟨n, j⟩ := by
  unfold Holding.indexIn
  rcases h.buffer.slot with _ | ⟨pool, index⟩
  · simp
  · simp only [Option.bind_some, Option.some.injEq, Slot.mk.injEq]
    split
    · next hpool => simp [hpool]
    · next hpool => simp [hpool]

theorem mem_outOf {n j : Nat} {hs : List Holding} :
    j ∈ outOf n hs ↔ ∃ h ∈ hs, h.buffer.slot = some ⟨n, j⟩ := by
  simp only [outOf, List.mem_filterMap, indexIn_eq_some_iff]

theorem outOf_cons (n : Nat) (h : Holding) (hs : List Holding) :
    outOf n (h :: hs) = (h.indexIn n).toList ++ outOf n hs := by
  unfold outOf
  rw [List.filterMap_cons]
  rcases h.indexIn n with _ | j
  · rfl
  · rfl

/-- One buffer apart from the others. -/
theorem perm_outOf_eraseIdx {hs : List Holding} {i : Nat} {h : Holding} (hi : hs[i]? = some h)
    (n : Nat) : (outOf n hs).Perm ((h.indexIn n).toList ++ outOf n (hs.eraseIdx i)) := by
  obtain ⟨hlt, rfl⟩ := List.getElem?_eq_some_iff.mp hi
  rw [← outOf_cons]
  exact ((List.getElem_cons_eraseIdx_perm hlt).filterMap _).symm

theorem map_set_of_eq {α β : Type} {xs : List α} {i : Nat} {x y : α} (hi : xs[i]? = some x)
    {f : α → β} (hf : f y = f x) : (xs.set i y).map f = xs.map f := by
  obtain ⟨hlt, rfl⟩ := List.getElem?_eq_some_iff.mp hi
  have hlt' : i < (xs.map f).length := by simpa using hlt
  have hget : f xs[i] = (xs.map f)[i] := by simp
  rw [List.map_set, hf, hget, List.set_getElem_self]

/-- A buffer takes the place of one with the same slot. -/
theorem outOf_set {hs : List Holding} {i : Nat} {h h' : Holding} (hi : hs[i]? = some h)
    (hslot : h'.buffer.slot = h.buffer.slot) (n : Nat) : outOf n (hs.set i h') = outOf n hs := by
  have hindex : h'.indexIn n = h.indexIn n := by simp only [Holding.indexIn, hslot]
  have hmap := congrArg (List.filterMap fun index => index) (map_set_of_eq hi hindex)
  rw [List.filterMap_map, List.filterMap_map] at hmap
  exact hmap

/-- The indices of a pool that are out, in hand or forgotten. -/
def Stock.out (s : Stock) (n : Nat) : List Nat := outOf n s.held ++ outOf n s.forgotten

/-! ### What dealings keep -/

/-- Every slot of a pool is free or out, and in one place only. -/
structure InPlace (n : Nat) (p : Pool) (out : List Nat) : Prop where
  id : p.id = n
  slots : (p.free.map (·.1) ++ out).Perm (List.range p.capacity)
  sizes : ∀ x ∈ p.free, x.2.length = p.slotSize

/-- The slot of a buffer tells which of some pools has lent it. -/
structure Holding.Sound (h : Holding) (pools : Nat) : Prop where
  lender : h.buffer.slot.map (·.pool) = h.lender
  known : ∀ n, h.lender = some n → n < pools

/-- Everything is where it should be. -/
structure Settled (s : Stock) : Prop where
  pools : ∀ n p, s.pools[n]? = some p → InPlace n p (s.out n)
  held : ∀ h ∈ s.held, h.Sound s.pools.length
  forgotten : ∀ h ∈ s.forgotten, h.Sound s.pools.length

theorem InPlace.perm {n : Nat} {p : Pool} {out out' : List Nat} (h : InPlace n p out)
    (hout : out'.Perm out) : InPlace n p out' where
  id := h.id
  slots := (hout.append_left _).trans h.slots
  sizes := h.sizes

/-- A slot is loaned. -/
theorem InPlace.lend {n : Nat} {p : Pool} {out : List Nat} (h : InPlace n p out) {j : Nat}
    {data : List UInt8} {rest : List (Nat × List UInt8)} (hfree : p.free = (j, data) :: rest) :
    InPlace n { p with free := rest } (j :: out) where
  id := h.id
  slots := by
    have hslots := h.slots
    rw [hfree] at hslots
    exact List.perm_middle.trans hslots
  sizes x hx := h.sizes x (hfree ▸ List.mem_cons_of_mem _ hx)

/-- A slot comes back. -/
theorem InPlace.takeBack {n : Nat} {p : Pool} {out : List Nat} {j : Nat} (h : InPlace n p (j :: out))
    (data : List UInt8) : InPlace n { p with free := (j, p.fit data) :: p.free } out where
  id := h.id
  slots := List.perm_middle.symm.trans h.slots
  sizes x hx := by
    rcases List.mem_cons.mp hx with rfl | hx
    · exact p.length_fit data
    · exact h.sizes x hx

theorem Holding.Sound.mono {h : Holding} {pools pools' : Nat} (hs : h.Sound pools)
    (hle : pools ≤ pools') : h.Sound pools' where
  lender := hs.lender
  known n hn := Nat.lt_of_lt_of_le (hs.known n hn) hle

/-- A buffer has no slot of a pool that is yet to be made. -/
theorem Holding.Sound.indexIn_eq_none {h : Holding} {pools : Nat} (hs : h.Sound pools) :
    h.indexIn pools = none := by
  rcases hindex : h.indexIn pools with _ | j
  · rfl
  · have hslot := indexIn_eq_some_iff.mp hindex
    have hlender := hs.lender
    rw [hslot] at hlender
    exact absurd (hs.known pools hlender.symm) (Nat.lt_irrefl pools)

namespace Settled

variable {s : Stock}

theorem create (hs : Settled s) (capacity slotSize : Nat) :
    Settled ((Dealing.create capacity slotSize).step s) := by
  have hle : s.pools.length ≤ (s.pools ++ [Pool.create s.pools.length capacity slotSize]).length := by
    simp
  refine ⟨fun n p hp => ?_, fun h hh => (hs.held h hh).mono hle,
    fun h hh => (hs.forgotten h hh).mono hle⟩
  simp only [Dealing.step] at hp
  rcases Nat.lt_trichotomy n s.pools.length with hlt | rfl | hgt
  · rw [List.getElem?_append_left hlt] at hp
    exact hs.pools n p hp
  · rw [List.getElem?_concat_length] at hp
    cases hp
    have hout : s.out s.pools.length = [] := by
      refine List.append_eq_nil_iff.mpr ⟨?_, ?_⟩
      · exact List.filterMap_eq_nil_iff.mpr fun h hh => (hs.held h hh).indexIn_eq_none
      · exact List.filterMap_eq_nil_iff.mpr fun h hh => (hs.forgotten h hh).indexIn_eq_none
    show InPlace _ _ (s.out s.pools.length)
    rw [hout]
    refine ⟨rfl, ?_, fun x hx => ?_⟩
    · simp [Pool.create, Function.comp_def]
    · obtain ⟨j, -, rfl⟩ := List.mem_map.mp hx
      exact List.length_replicate
  · rw [List.getElem?_eq_none (by simp; omega)] at hp
    cases hp

/-- Buffers change hands, and no pool changes. -/
theorem rearrange (hs : Settled s) {held forgotten : List Holding}
    (hout : ∀ n, (outOf n held ++ outOf n forgotten).Perm (s.out n))
    (hheld : ∀ h ∈ held, h.Sound s.pools.length)
    (hforgotten : ∀ h ∈ forgotten, h.Sound s.pools.length) :
    Settled { s with held, forgotten } where
  pools n p hp := (hs.pools n p hp).perm (hout n)
  held := hheld
  forgotten := hforgotten

/-- One pool changes, and of its slots alone there are others out. -/
theorem exchange (hs : Settled s) {n : Nat} {p : Pool} {held : List Holding}
    (hp : InPlace n p (outOf n held ++ outOf n s.forgotten))
    (hout : ∀ m, m ≠ n → (outOf m held).Perm (outOf m s.held))
    (hheld : ∀ h ∈ held, h.Sound s.pools.length) :
    Settled { s with pools := s.pools.set n p, held } where
  pools m q hq := by
    rw [List.getElem?_set] at hq
    split at hq
    · next hmn =>
      subst hmn
      split at hq
      · cases hq
        exact hp
      · cases hq
    · next hmn => exact (hs.pools m q hq).perm ((hout m (Ne.symm hmn)).append_right _)
  held h hh := by
    rw [List.length_set]
    exact hheld h hh
  forgotten h hh := by
    rw [List.length_set]
    exact hs.forgotten h hh

theorem acquire (hs : Settled s) (n : Nat) (info : FrameInfo) :
    Settled ((Dealing.acquire n info).step s) := by
  simp only [Dealing.step]
  rcases hp : s.pools[n]? with _ | p
  · exact hs
  rcases hfree : p.free with _ | ⟨⟨j, data⟩, rest⟩
  · simpa [acquire?, hfree] using hs
  have hplace := hs.pools n p hp
  obtain rfl := hplace.id
  simp only [Option.bind_some, acquire?, hfree]
  refine hs.exchange ?_ (fun m hm => ?_) (List.forall_mem_cons.mpr ⟨⟨rfl, ?_⟩, hs.held⟩)
  · -- The slot on top is out from now on.
    have hlend := hplace.lend hfree
    simpa [outOf_cons, Holding.indexIn, Stock.out] using hlend
  · simp [outOf_cons, Holding.indexIn, Ne.symm hm]
  · rintro _ ⟨⟩
    exact (List.getElem?_eq_some_iff.mp hp).1

theorem standalone (hs : Settled s) (f : Frame) : Settled ((Dealing.standalone f).step s) := by
  apply hs.rearrange
  · intro n
    simp [outOf_cons, Holding.indexIn, Stock.out]
  · exact List.forall_mem_cons.mpr ⟨⟨rfl, nofun⟩, hs.held⟩
  · exact hs.forgotten

theorem edit (hs : Settled s) (i : Nat) (change : Frame → Frame) :
    Settled ((Dealing.edit i change).step s) := by
  simp only [Dealing.step]
  rcases hi : s.held[i]? with _ | h
  · exact hs
  have hmem := List.mem_of_getElem? hi
  apply hs.rearrange
  · intro n
    rw [outOf_set hi (by rfl)]
    exact .refl _
  · intro k hk
    rcases List.mem_or_eq_of_mem_set hk with hk | rfl
    · exact hs.held k hk
    · exact ⟨(hs.held h hmem).lender, (hs.held h hmem).known⟩
  · exact hs.forgotten

theorem release (hs : Settled s) (i n : Nat) : Settled ((Dealing.release i n).step s) := by
  simp only [Dealing.step]
  rcases hi : s.held[i]? with _ | h
  · exact hs
  rcases hp : s.pools[n]? with _ | p
  · exact hs
  have hplace := hs.pools n p hp
  obtain rfl := hplace.id
  rcases p.release_cases h.buffer with ⟨slot, hslot, hpool, -, hrelease⟩ | ⟨-, hrelease⟩
  · simp only [hrelease]
    have hindex : h.indexIn p.id = some slot.index :=
      indexIn_eq_some_iff.mpr (by rw [hslot, ← hpool])
    refine hs.exchange (InPlace.takeBack (hplace.perm ?_) _) (fun m hm => ?_) fun k hk => ?_
    · -- The index that comes back was one of those that were out.
      have hout := perm_outOf_eraseIdx hi p.id
      rw [hindex] at hout
      exact (hout.append_right _).symm
    · have hout := perm_outOf_eraseIdx hi m
      have hother : h.indexIn m = none := by
        simp [Holding.indexIn, hslot, hpool, Ne.symm hm]
      rw [hother] at hout
      exact hout.symm
    · exact hs.held k (List.mem_of_mem_eraseIdx hk)
  · simp only [hrelease]
    obtain ⟨hlt, hget⟩ := List.getElem?_eq_some_iff.mp hi
    rw [← hget, List.set_getElem_self]
    exact hs

theorem forget (hs : Settled s) (i : Nat) : Settled ((Dealing.forget i).step s) := by
  simp only [Dealing.step]
  rcases hi : s.held[i]? with _ | h
  · exact hs
  apply hs.rearrange
  · intro n
    have hout := perm_outOf_eraseIdx hi n
    rw [outOf_cons, ← List.append_assoc]
    exact (List.perm_append_comm.append_right _).trans (hout.symm.append_right _)
  · intro k hk
    exact hs.held k (List.mem_of_mem_eraseIdx hk)
  · exact List.forall_mem_cons.mpr ⟨hs.held h (List.mem_of_getElem? hi), hs.forgotten⟩

theorem step (hs : Settled s) (d : Dealing) : Settled (d.step s) := by
  cases d with
  | create capacity slotSize => exact hs.create capacity slotSize
  | acquire n info => exact hs.acquire n info
  | standalone f => exact hs.standalone f
  | edit i change => exact hs.edit i change
  | release i n => exact hs.release i n
  | forget i => exact hs.forget i

theorem run (hs : Settled s) (ds : List Dealing) : Settled (s.run ds) := by
  induction ds generalizing s with
  | nil => exact hs
  | cons d ds ih => exact ih (hs.step d)

end Settled

/-! ### What it comes to -/

/-- No slot of a pool is lost or doubled. -/
structure Intact (s : Stock) (n : Nat) (p : Pool) : Prop where
  distinct : (p.free.map (·.1)).Nodup
  below : ∀ x ∈ p.free, x.1 < p.capacity
  /-- What is in somebody's hands is not free. -/
  apart : ∀ h ∈ s.held, ∀ j, h.buffer.slot = some ⟨n, j⟩ → j ∉ p.free.map (·.1)
  total : p.free.length + s.held.countP (·.lender == some n) +
    s.forgotten.countP (·.lender == some n) = p.capacity
  sizes : ∀ x ∈ p.free, x.2.length = p.slotSize

/-- A pool lends while it has slots, and none that is out already. -/
def LendsFree (s : Stock) (n : Nat) (p : Pool) : Prop :=
  ∀ info, (p.acquire? info = none ↔ p.available = 0) ∧
    ∀ b q, p.acquire? info = some (b, q) → ∃ j < p.capacity, b.slot = some ⟨n, j⟩ ∧
      ∀ h ∈ s.held ++ s.forgotten, h.buffer.slot ≠ some ⟨n, j⟩

/-- A pool takes back what it has lent. Anything else is handed back as it was, and nothing
changes. -/
def TakesBackLoans (s : Stock) (n : Nat) (p : Pool) : Prop :=
  ∀ i h, s.held[i]? = some h →
    (h.lender = some n → ∃ q, p.release h.buffer = .ok q) ∧
    (h.lender ≠ some n → p.release h.buffer = .error h.buffer ∧ (Dealing.release i n).step s = s)

theorem Holding.Sound.isSome_indexIn {h : Holding} {pools : Nat} (hs : h.Sound pools) (n : Nat) :
    (h.indexIn n).isSome = (h.lender == some n) := by
  rw [← hs.lender]
  unfold Holding.indexIn
  rcases h.buffer.slot with _ | slot
  · rfl
  · by_cases hpool : slot.pool = n <;> simp [hpool]

theorem length_outOf {hs : List Holding} {pools : Nat} (hsound : ∀ h ∈ hs, h.Sound pools) (n : Nat) :
    (outOf n hs).length = hs.countP (·.lender == some n) := by
  unfold outOf
  rw [List.length_filterMap_eq_countP]
  apply List.countP_congr
  intro h hh
  rw [(hsound h hh).isSome_indexIn]

namespace Settled

variable {s : Stock} {n : Nat} {p : Pool}

theorem nodup (hs : Settled s) (hp : s.pools[n]? = some p) :
    (p.free.map (·.1) ++ s.out n).Nodup :=
  (hs.pools n p hp).slots.nodup_iff.mpr List.nodup_range

theorem intact (hs : Settled s) (hp : s.pools[n]? = some p) : Intact s n p where
  distinct := (List.nodup_append.mp (hs.nodup hp)).1
  below x hx := by
    have hmem : x.1 ∈ p.free.map (·.1) ++ s.out n :=
      List.mem_append_left _ (List.mem_map_of_mem hx)
    exact List.mem_range.mp ((hs.pools n p hp).slots.mem_iff.mp hmem)
  apart h hh j hslot hfree := by
    have hout : j ∈ s.out n := List.mem_append_left _ (mem_outOf.mpr ⟨h, hh, hslot⟩)
    exact (List.nodup_append.mp (hs.nodup hp)).2.2 j hfree j hout rfl
  total := by
    have hlength := (hs.pools n p hp).slots.length_eq
    rw [List.length_append, List.length_map, List.length_range, Stock.out, List.length_append,
      length_outOf hs.held, length_outOf hs.forgotten] at hlength
    omega
  sizes := (hs.pools n p hp).sizes

theorem lendsFree (hs : Settled s) (hp : s.pools[n]? = some p) : LendsFree s n p := by
  intro info
  have hplace := hs.pools n p hp
  rcases hfree : p.free with _ | ⟨⟨j, data⟩, rest⟩
  · simp [acquire?, available, hfree]
  · refine ⟨by simp [acquire?, available, hfree], fun b q hb => ?_⟩
    simp only [acquire?, hfree] at hb
    cases hb
    refine ⟨j, (hs.intact hp).below (j, data) (by simp [hfree]), by rw [hplace.id], fun h hh hslot => ?_⟩
    -- What is free is not out.
    have hout : j ∈ s.out n := by
      unfold Stock.out
      rw [List.mem_append, mem_outOf, mem_outOf]
      exact (List.mem_append.mp hh).imp (fun hh => ⟨h, hh, hslot⟩) fun hh => ⟨h, hh, hslot⟩
    have hnodup := hs.nodup hp
    rw [hfree] at hnodup
    exact (List.nodup_append.mp hnodup).2.2 j (by simp) j hout rfl

theorem takesBackLoans (hs : Settled s) (hp : s.pools[n]? = some p) : TakesBackLoans s n p := by
  intro i h hi
  have hmem := List.mem_of_getElem? hi
  have hlender := (hs.held h hmem).lender
  obtain rfl := (hs.pools n p hp).id
  rcases p.release_cases h.buffer with ⟨slot, hslot, hpool, -, hrelease⟩ | ⟨hfree, hrelease⟩
  · refine ⟨fun _ => ⟨_, hrelease⟩, fun hother => ?_⟩
    rw [hslot] at hlender
    exact absurd (hlender.symm.trans (congrArg some hpool)) hother
  · constructor
    · -- The slot of a loan is never free already.
      intro hlent
      rw [hlent] at hlender
      obtain ⟨slot, hslot, hpool⟩ := Option.map_eq_some_iff.mp hlender
      have hout : h.buffer.slot = some ⟨p.id, slot.index⟩ := by rw [hslot, ← hpool]
      exact absurd (hfree slot hslot hpool) ((hs.intact hp).apart h hmem slot.index hout)
    · intro _
      refine ⟨hrelease, ?_⟩
      obtain ⟨hlt, hget⟩ := List.getElem?_eq_some_iff.mp hi
      simp only [Dealing.step, hi, hp, hrelease]
      rw [← hget, List.set_getElem_self]

end Settled

/-! ### Pools stay as they were made -/

/-- Capacity and size of a slot. -/
def shape (p : Pool) : Nat × Nat := (p.capacity, p.slotSize)

theorem shape_of_acquire? {p q : Pool} {b : Buffer} {info : FrameInfo}
    (h : p.acquire? info = some (b, q)) : q.shape = p.shape := by
  unfold acquire? at h
  split at h
  · cases h
  · cases h
    rfl

theorem shape_of_release {p q : Pool} {b : Buffer} (h : p.release b = .ok q) :
    q.shape = p.shape := by
  rcases p.release_cases b with ⟨slot, -, -, -, hrelease⟩ | ⟨-, hrelease⟩
  · rw [hrelease] at h
    cases h
    rfl
  · rw [hrelease] at h
    cases h

theorem shapes_step (d : Dealing) (s : Stock) :
    (d.step s).pools.map shape = s.pools.map shape ++ d.made.toList := by
  cases d with
  | create capacity slotSize =>
    simp only [Dealing.step, Dealing.made, List.map_append]
    rfl
  | acquire n info =>
    simp only [Dealing.step, Dealing.made]
    rcases hp : s.pools[n]? with _ | p
    · simp
    · rcases hb : p.acquire? info with _ | ⟨b, q⟩
      · simp [hb]
      · simp [hb, map_set_of_eq hp (shape_of_acquire? hb)]
  | release i n =>
    simp only [Dealing.step, Dealing.made]
    rcases s.held[i]? with _ | h
    · simp
    · rcases hp : s.pools[n]? with _ | p
      · simp
      · rcases hq : p.release h.buffer with back | q
        · simp [hq]
        · simp [hq, map_set_of_eq hp (shape_of_release hq)]
  | standalone f => simp [Dealing.step, Dealing.made]
  | edit i change =>
    simp only [Dealing.step, Dealing.made]
    split <;> simp
  | forget i =>
    simp only [Dealing.step, Dealing.made]
    split <;> simp

theorem shapes_run (ds : List Dealing) (s : Stock) :
    (s.run ds).pools.map shape = s.pools.map shape ++ ds.filterMap Dealing.made := by
  induction ds generalizing s with
  | nil => exact (List.append_nil _).symm
  | cons d ds ih =>
    show ((d.step s).run ds).pools.map shape = _
    rw [ih, shapes_step, List.append_assoc, List.filterMap_cons]
    rcases d.made with _ | made
    · rfl
    · rfl

/-! ### Every run -/

/-- **No slot is ever lost, doubled or mixed up**, whatever is done with pools and buffers: the pools
are those that were made, each lends what is free, and each takes back what it has lent. -/
theorem settled_run (ds : List Dealing) :
    let s := Stock.run {} ds
    s.pools.map shape = ds.filterMap Dealing.made ∧
      ∀ n p, s.pools[n]? = some p →
        p.id = n ∧ Intact s n p ∧ LendsFree s n p ∧ TakesBackLoans s n p := by
  intro s
  have hs : Settled s := by
    apply Settled.run
    exact ⟨nofun, nofun, nofun⟩
  refine ⟨shapes_run ds {}, fun n p hp => ?_⟩
  exact ⟨(hs.pools n p hp).id, hs.intact hp, hs.lendsFree hp, hs.takesBackLoans hp⟩

end CameraStream.Pool
