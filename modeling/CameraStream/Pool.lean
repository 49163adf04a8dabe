import CameraStream.Buffer

/-!
# Buffer pools

A `Pool` is a fixed number of slots of one size. A loan takes a free slot, the one given back last
first, and its bytes are still what they were. A buffer is taken back only by the pool it was
loaned from, and its payload is cut or filled with zeros to the size of a slot.
-/

namespace CameraStream

/-- Reusable frame memory. The free slots are a stack, the next one to loan on top. -/
structure Pool where
  id : Nat
  capacity : Nat
  slotSize : Nat
  free : List (Nat × List UInt8)
deriving DecidableEq, Repr

namespace Pool

/-- A pool with every slot free and zeroed, slot zero on top. -/
def create (id capacity slotSize : Nat) : Pool where
  id
  capacity
  slotSize
  free := (List.range capacity).map fun index => (index, List.replicate slotSize 0)

def available (p : Pool) : Nat := p.free.length

/-- Loans the slot on top, if one is free. -/
def acquire? (p : Pool) (info : FrameInfo) : Option (Buffer × Pool) :=
  match p.free with
  | [] => none
  | (index, data) :: rest => some (⟨⟨data, info⟩, some ⟨p.id, index⟩⟩, { p with free := rest })

def owns (p : Pool) (b : Buffer) : Bool := b.slot.any (·.pool == p.id)

/-- The bytes cut, or filled with zeros, to the size of a slot. -/
def fit (p : Pool) (data : List UInt8) : List UInt8 :=
  (data ++ List.replicate p.slotSize 0).take p.slotSize

theorem length_fit (p : Pool) (data : List UInt8) : (p.fit data).length = p.slotSize := by
  simp [fit]

/-- Takes a loaned buffer back. A buffer of another pool, or of none, is handed back, and so is one
whose slot is free already. -/
def release (p : Pool) (b : Buffer) : Except Buffer Pool :=
  match b.slot with
  | none => .error b
  | some slot =>
    if slot.pool = p.id ∧ ¬ p.free.any (·.1 == slot.index) then
      .ok { p with free := (slot.index, p.fit b.data) :: p.free }
    else .error b

/-- A buffer is taken back, into a slot of the pool that was not free, or handed back. -/
theorem release_cases (p : Pool) (b : Buffer) :
    (∃ slot, b.slot = some slot ∧ slot.pool = p.id ∧ slot.index ∉ p.free.map (·.1) ∧
      p.release b = .ok { p with free := (slot.index, p.fit b.data) :: p.free }) ∨
    ((∀ slot, b.slot = some slot → slot.pool = p.id → slot.index ∈ p.free.map (·.1)) ∧
      p.release b = .error b) := by
  rcases hslot : b.slot with _ | slot
  · exact .inr ⟨nofun, by simp only [release, hslot]⟩
  · have hfree : p.free.any (·.1 == slot.index) = true ↔ slot.index ∈ p.free.map (·.1) := by
      simp [List.any_eq_true]
    simp only [release, hslot, hfree]
    split
    · next howned => exact .inl ⟨slot, rfl, howned.1, howned.2, rfl⟩
    · next howned =>
      refine .inr ⟨?_, rfl⟩
      rintro _ ⟨⟩ hpool
      exact Classical.not_not.mp fun hindex => howned ⟨hpool, hindex⟩

end Pool
end CameraStream
