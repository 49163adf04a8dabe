import CameraStream.Queue

/-!
# The law of the queue

A queue is used by several sides that know nothing of each other: control sets its status and drains
it, producers push, the worker pops. A `Use` is one of these things done to it, and a `Record` is what
the one who did it has seen of it. Whatever the uses and their order, the records alone say what the
queue holds and what its counters show (`Kept`): what was removed, followed by what still waits, is
what was accepted, in order.

**`kept_run`** is the law for every run, together with the answers that a push and a pop get at any
point of it.
-/

namespace CameraStream.Queue

/-- What is done to a queue. To wait for a buffer is to pop until one is found or the time is over;
a pop that finds nothing changes nothing. -/
inductive Use where
  | setStatus (s : Status)
  | push (b : Buffer)
  | pop
  | drain
deriving DecidableEq, Repr

/-- What is seen by the one who uses a queue. -/
inductive Record where
  | entered (s : Status)
  /-- A buffer was pushed, and perhaps one was handed back. -/
  | pushed (b : Buffer) (back : Option Buffer)
  | popped (found : Popped)
  | drained (bs : List Buffer)
deriving DecidableEq, Repr

def Use.apply : Use → Queue → Record × Queue
  | setStatus s, q => (.entered s, q.setStatus s)
  | push b, q => (.pushed b (q.push b).1, (q.push b).2)
  | pop, q => (.popped q.pop.1, q.pop.2)
  | drain, q => (.drained q.drain.1, q.drain.2)

/-- A queue and what was seen of its use. -/
structure Log where
  queue : Queue := {}
  records : List Record := []

namespace Log

def use (x : Log) (u : Use) : Log where
  queue := (u.apply x.queue).2
  records := x.records ++ [(u.apply x.queue).1]

/-- Uses one after the other. -/
def run (x : Log) (us : List Use) : Log := us.foldl use x

end Log

/-! ### Reading records -/

namespace Record

@[simp] def entries : Record → List Status
  | entered s => [s]
  | _ => []

/-- A buffer that was pushed, and not handed back. -/
@[simp] def accepted : Record → List Buffer
  | pushed b none => [b]
  | _ => []

@[simp] def refused : Record → List Buffer
  | pushed b (some _) => [b]
  | _ => []

@[simp] def taken : Record → List Buffer
  | popped (.buffer b) => [b]
  | _ => []

@[simp] def cleared : Record → List Buffer
  | drained bs => bs
  | _ => []

/-- Buffers that left the queue, in a pop or in a drain. -/
@[simp] def removed (r : Record) : List Buffer := r.taken ++ r.cleared

end Record

theorem length_removed (rs : List Record) :
    (rs.flatMap Record.removed).length =
      (rs.flatMap Record.taken).length + (rs.flatMap Record.cleared).length := by
  induction rs with
  | nil => rfl
  | cons r rs ih =>
    simp only [List.flatMap_cons, List.length_append, ih, Record.removed]
    omega

theorem pop_eq_buffer_iff (q : Queue) (b : Buffer) :
    q.pop.1 = .buffer b ↔ q.status = .playing ∧ q.buffers.head? = some b := by
  rcases q.pop_cases with ⟨b', rest, hplaying, hbuffers, hpop⟩ | ⟨hplaying, hbuffers, hpop⟩ |
    ⟨hother, hpop⟩
  · simp [hpop, hplaying, hbuffers]
  · simp [hpop, hbuffers]
  · simp [hpop, hother]

/-! ### One use -/

/-- A queue is what the records of its use say. -/
structure Kept (q : Queue) (rs : List Record) : Prop where
  /-- The status is the one entered last. -/
  status : q.status = (rs.flatMap Record.entries).getLast?.getD .undefined
  order : rs.flatMap Record.removed ++ q.buffers = rs.flatMap Record.accepted
  pushed : q.pushed = (rs.flatMap Record.accepted).length
  popped : q.popped = (rs.flatMap Record.taken).length
  rejected : q.rejected = (rs.flatMap Record.refused).length

namespace Kept

variable {q : Queue} {rs : List Record}

theorem setStatus (h : Kept q rs) (s : Status) : Kept (q.setStatus s) (rs ++ [.entered s]) where
  status := by simp [Queue.setStatus]
  order := by simpa [Queue.setStatus] using h.order
  pushed := by simpa [Queue.setStatus] using h.pushed
  popped := by simpa [Queue.setStatus] using h.popped
  rejected := by simpa [Queue.setStatus] using h.rejected

theorem push (h : Kept q rs) (b : Buffer) :
    Kept (q.push b).2 (rs ++ [.pushed b (q.push b).1]) := by
  rcases hactive : q.status.isActive with _ | _
  · rw [push_of_inactive hactive]
    constructor
    · simpa using h.status
    · simpa using h.order
    · simpa using h.pushed
    · simpa using h.popped
    · simp [h.rejected]
  · rw [push_of_active hactive]
    constructor
    · simpa using h.status
    · -- The new buffer is the last accepted and the last to wait.
      simpa using congrArg (· ++ [b]) h.order
    · simp [h.pushed]
    · simpa using h.popped
    · simpa using h.rejected

theorem pop (h : Kept q rs) : Kept q.pop.2 (rs ++ [.popped q.pop.1]) := by
  rcases q.pop_cases with ⟨b, rest, -, hbuffers, hpop⟩ | ⟨-, -, hpop⟩ | ⟨-, hpop⟩
  · rw [hpop]
    constructor
    · simpa using h.status
    · -- The oldest buffer that waits is the next to be removed.
      simpa [hbuffers] using h.order
    · simpa using h.pushed
    · simp [h.popped]
    · simpa using h.rejected
  all_goals
    rw [hpop]
    constructor
    · simpa using h.status
    · simpa using h.order
    · simpa using h.pushed
    · simpa using h.popped
    · simpa using h.rejected

theorem drain (h : Kept q rs) : Kept q.drain.2 (rs ++ [.drained q.drain.1]) where
  status := by simpa [Queue.drain] using h.status
  order := by simpa [Queue.drain] using h.order
  pushed := by simpa [Queue.drain] using h.pushed
  popped := by simpa [Queue.drain] using h.popped
  rejected := by simpa [Queue.drain] using h.rejected

theorem use {x : Log} (h : Kept x.queue x.records) (u : Use) :
    Kept (x.use u).queue (x.use u).records := by
  cases u with
  | setStatus s => exact h.setStatus s
  | push b => exact h.push b
  | pop => exact h.pop
  | drain => exact h.drain

theorem run {x : Log} (h : Kept x.queue x.records) (us : List Use) :
    Kept (x.run us).queue (x.run us).records := by
  induction us generalizing x with
  | nil => exact h
  | cons u us ih => exact ih (h.use u)

/-- What waits is what was accepted and neither taken nor cleared. -/
theorem depth (h : Kept q rs) :
    (q.depth : Int) = q.pushed - q.popped - (rs.flatMap Record.cleared).length := by
  have hlength := congrArg List.length h.order
  rw [List.length_append, length_removed, ← h.pushed, ← h.popped] at hlength
  show (q.buffers.length : Int) = _
  omega

end Kept

/-! ### Every run -/

/-- **The law of the queue.** After every run the queue is what the records say, and this is what the
next push and the next pop are answered. -/
theorem kept_run (us : List Use) :
    let x := Log.run {} us
    Kept x.queue x.records ∧
      (x.queue.depth : Int) =
        x.queue.pushed - x.queue.popped - (x.records.flatMap Record.cleared).length ∧
      (∀ b, ((x.queue.push b).1 = none ↔ x.queue.status = .playing ∨ x.queue.status = .paused) ∧
        ∀ back, (x.queue.push b).1 = some back →
          back = b ∧ (x.queue.push b).2.buffers = x.queue.buffers) ∧
      ∀ b, x.queue.pop.1 = .buffer b ↔
        x.queue.status = .playing ∧ x.queue.buffers.head? = some b := by
  intro x
  have hkept : Kept x.queue x.records := by
    apply Kept.run
    exact ⟨rfl, rfl, rfl, rfl, rfl⟩
  refine ⟨hkept, hkept.depth, fun b => ?_, pop_eq_buffer_iff x.queue⟩
  rcases hactive : x.queue.status.isActive with _ | _
  · rw [push_of_inactive hactive, ← Status.isActive_iff, hactive]
    simp
  · rw [push_of_active hactive, ← Status.isActive_iff, hactive]
    simp

end CameraStream.Queue
