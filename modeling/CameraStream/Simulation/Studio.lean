import CameraStream.Pool
import CameraStream.Simulation.Event

/-!
# The studio

The world of a rehearsal: everything scripted parts remember between two commands. Parts have
numbers, so that several of a kind keep apart; the log, the pools and the buffers that sinks have
kept are shared.
-/

namespace CameraStream.Simulation

/-- What a scripted source remembers. -/
structure CameraState where
  format : Option VideoFormat := none
  dropIncomplete : Bool := false
deriving DecidableEq, Repr

structure Studio where
  /-- Events not looked at yet, the newest first. -/
  log : List Event := []
  /-- The next number to give to a part. -/
  nextNumber : Nat := 0
  cameras : List (Nat × CameraState) := []
  /-- The formats that scripted stages were given. -/
  bindings : List (Nat × VideoFormat × VideoFormat) := []
  pools : List Pool := []
  /-- The pool that a source agreed to last. -/
  adopted : Option Nat := none
  /-- Buffers that sinks have kept, the oldest first. -/
  kept : List Buffer := []
  attached : Bool := false
  /-- Whether the property filter holds its buffer back until the sink has stopped. -/
  holding : Bool := false
deriving DecidableEq, Repr

namespace Studio

def note (s : Studio) (e : Event) : Studio := { s with log := e :: s.log }

/-- The events not looked at yet, the oldest first. -/
def events (s : Studio) : List Event := s.log.reverse

/-- A number that no part has. -/
def number (s : Studio) : Nat × Studio := (s.nextNumber, { s with nextNumber := s.nextNumber + 1 })

/-! ### Sources -/

def camera (s : Studio) (n : Nat) : CameraState := (s.cameras.lookup n).getD {}

def setCamera (s : Studio) (n : Nat) (c : CameraState) : Studio :=
  { s with cameras := (n, c) :: s.cameras.filter (·.1 != n) }

/-! ### Stages -/

def binding (s : Studio) (n : Nat) : Option (VideoFormat × VideoFormat) := s.bindings.lookup n

def setBinding (s : Studio) (n : Nat) (b : VideoFormat × VideoFormat) : Studio :=
  { s with bindings := (n, b) :: s.bindings.filter (·.1 != n) }

/-! ### Pools -/

def addPool (s : Studio) (capacity slotSize : Nat) : Nat × Studio :=
  let (n, s) := s.number
  (n, { s with pools := .create n capacity slotSize :: s.pools })

def pool? (s : Studio) (n : Nat) : Option Pool := s.pools.find? (·.id == n)

/-- Puts a pool in place of the one of its number. -/
def setPool (s : Studio) (p : Pool) : Studio :=
  { s with pools := s.pools.map fun q => if q.id = p.id then p else q }

def adoptedPool (s : Studio) : Option Pool := s.adopted.bind s.pool?

/-- Takes a buffer back into the adopted pool, if it belongs there. -/
def takeBack (s : Studio) (b : Buffer) : Return × Studio :=
  match s.adoptedPool with
  | none => (.dropped, s)
  | some p =>
    if p.owns b then
      match p.release b with
      | .ok p => (.released, s.setPool p)
      | .error _ => (.refused, s)
    else (.dropped, s)

/-- Loans buffers from the adopted pool, up to the first that it cannot lend, and writes payloads
over their first bytes. -/
def loan (s : Studio) : List Buffer → List Buffer × Studio
  | [] => ([], s)
  | b :: rest =>
    match s.adoptedPool.bind (·.acquire? b.info) with
    | none => ([], s)
    | some (loaned, p) =>
      let (others, s) := loan (s.setPool p) rest
      (loaned.withFrame (loaned.overwrite b.data) :: others, s)

end Studio
end CameraStream.Simulation
