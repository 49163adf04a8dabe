import CameraStream.Simulation.Parts

/-!
# Rehearsals

Pipelines of scripted parts, run step by step. After every step the worker is given time: it works
until nothing is left to do, or until the property filter holds its buffer back.
-/

namespace CameraStream.Simulation

abbrev Rehearsal := Pipeline Studio

namespace Rehearsal

/-- The worker's work on one buffer, as far as it gets. -/
def workOnce (p : Rehearsal) : Rehearsal :=
  if p.world.holding then p
  else
    let p := p.fetch.applyFilter
    if p.world.holding then p else p.finish

/-- The worker's work on at most `n` buffers. -/
def work : Nat → Rehearsal → Rehearsal
  | 0, p => p
  | n + 1, p => work n p.workOnce

/-- The pipeline when the worker has nothing left to do. -/
def settle (p : Rehearsal) : Rehearsal := work (p.queue.depth + 1) p

/-- Changes the studio. -/
def inStudio (p : Rehearsal) (f : Studio → Studio) : Rehearsal := p.withWorld (f p.world)

/-- The events since the last look, and the pipeline with none left. -/
def takeEvents (p : Rehearsal) : List Event × Rehearsal :=
  (p.world.events, p.inStudio fun s => { s with log := [] })

/-! ### Steps -/

def setCamera (c : CameraScript) : Step Studio := fun p =>
  let (n, s) := p.world.number
  Pipeline.setSource (c.toSource n) (p.withWorld s)

/-- Makes the sink of a script. -/
def makeDisplay (d : DisplayScript) (p : Rehearsal) : Sink Studio × Rehearsal :=
  let (sink, s) := d.make p.world
  (sink, p.withWorld s)

def setDisplay (d : DisplayScript) : Step Studio := fun p =>
  let (sink, p) := makeDisplay d p
  Pipeline.setSink sink p

/-- Delivers a buffer as a source does that was attached before. One that is rejected is lost. -/
def deliverByHandle (p : Rehearsal) (b : Buffer) : Delivery × Rehearsal :=
  if p.world.attached then
    match p.deliver b with
    | (none, p) => (.accepted, p)
    | (some _, p) => (.rejected, p)
  else (.unattached, p)

/-- Delivers buffers one after the other. -/
def deliverAll (p : Rehearsal) : List Buffer → List Delivery × Rehearsal
  | [] => ([], p)
  | b :: rest =>
    let (d, p) := p.deliverByHandle b
    let (ds, p) := deliverAll p rest
    (d :: ds, p)

/-- Delivers buffers loaned from the adopted pool, with payloads written over them; tells how many
there were, if there is a pool. -/
def deliverLoans (p : Rehearsal) (bs : List Buffer) : Option Nat × Rehearsal :=
  if p.world.adopted.isNone then (none, p)
  else
    let (loans, s) := p.world.loan bs
    (some loans.length, loans.foldl Pipeline.pushImage (p.withWorld s))

/-- Returns all buffers that sinks have kept; tells how many. -/
def returnKept (p : Rehearsal) : Nat × Rehearsal :=
  let kept := p.world.kept
  (kept.length, (p.inStudio fun s => { s with kept := [] }).requeueAll kept)

/-- Status that a source sees which is attached, if one ever was. -/
def handleStatus (p : Rehearsal) : Option Status :=
  if p.world.attached then some p.status else none

end Rehearsal
end CameraStream.Simulation
