import CameraStream.Buffer
import CameraStream.Status

/-!
# The buffer queue

Producers push buffers at one end and the worker takes them at the other, first in, first out. The
queue also holds the status of the pipeline, since the status alone decides both ends: buffers are
accepted while it is active, and handed out only while it is playing.
-/

namespace CameraStream

/-- Buffers waiting for the worker, the oldest first, under the status of the pipeline. -/
structure Queue where
  status : Status := .undefined
  buffers : List Buffer := []
  pushed : Nat := 0
  popped : Nat := 0
  rejected : Nat := 0
deriving DecidableEq, Repr

namespace Queue

/-- What the worker finds when it asks for a buffer. -/
inductive Popped where
  | buffer (b : Buffer)
  | empty
  | closed
deriving DecidableEq, Repr

def depth (q : Queue) : Nat := q.buffers.length

/-- Another status; the buffers stay. -/
def setStatus (q : Queue) (s : Status) : Queue := { q with status := s }

/-- Adds a buffer at the end while the status is active, and otherwise hands it back. -/
def push (q : Queue) (b : Buffer) : Option Buffer × Queue :=
  if q.status.isActive then
    (none, { q with buffers := q.buffers ++ [b], pushed := q.pushed + 1 })
  else (some b, { q with rejected := q.rejected + 1 })

/-- Takes the oldest buffer while the status is playing. -/
def pop (q : Queue) : Popped × Queue :=
  if q.status = .playing then
    match q.buffers with
    | [] => (.empty, q)
    | b :: rest => (.buffer b, { q with buffers := rest, popped := q.popped + 1 })
  else (.closed, q)

/-- Takes every buffer, the oldest first. -/
def drain (q : Queue) : List Buffer × Queue := (q.buffers, { q with buffers := [] })

theorem push_of_active {q : Queue} (h : q.status.isActive = true) (b : Buffer) :
    q.push b = (none, { q with buffers := q.buffers ++ [b], pushed := q.pushed + 1 }) :=
  if_pos h

theorem push_of_inactive {q : Queue} (h : q.status.isActive = false) (b : Buffer) :
    q.push b = (some b, { q with rejected := q.rejected + 1 }) :=
  if_neg (ne_true_of_eq_false h)

theorem pop_cases (q : Queue) :
    (∃ b rest, q.status = .playing ∧ q.buffers = b :: rest ∧
      q.pop = (.buffer b, { q with buffers := rest, popped := q.popped + 1 })) ∨
    (q.status = .playing ∧ q.buffers = [] ∧ q.pop = (.empty, q)) ∨
    (q.status ≠ .playing ∧ q.pop = (.closed, q)) := by
  unfold pop
  split
  · next hplaying =>
    rcases hbuffers : q.buffers with _ | ⟨b, rest⟩
    · exact .inr (.inl ⟨hplaying, rfl, rfl⟩)
    · exact .inl ⟨b, rest, hplaying, rfl, rfl⟩
  · next hother => exact .inr (.inr ⟨hother, rfl⟩)

end Queue
end CameraStream
