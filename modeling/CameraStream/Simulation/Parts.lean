import CameraStream.Simulation.Studio

/-!
# Scripted parts

Sources, sinks, property filters and stages that follow a script: what they refuse, what they
deliver, what they do to a buffer. Each writes down what it is asked in the log of the studio.
-/

namespace CameraStream.Simulation

/-! ### Sources -/

/-- When a scripted source agrees to a format. -/
inductive FormatConsent where
  | always | never
  | asReported
deriving DecidableEq, Repr

/-- The format a scripted source says it is configured for. -/
inductive FormatReport where
  | honest
  | silent
  | fixed (f : VideoFormat)
deriving DecidableEq, Repr

structure CameraScript where
  catalog : Catalog := {}
  consent : FormatConsent := .asReported
  report : FormatReport := .honest
  refusePlay : Bool := false
  refuseStop : Bool := false
  refusePool : Bool := false
  /-- What it delivers when it starts. -/
  onPlay : List Buffer := []
  /-- What it delivers when it stops. -/
  onStop : List Buffer := []
deriving DecidableEq, Repr

namespace CameraScript

def agrees (c : CameraScript) : Status → Bool
  | .playing => !c.refusePlay
  | .stopped => !c.refuseStop
  | _ => true

def accepts (c : CameraScript) (f : VideoFormat) : Bool :=
  match c.consent with
  | .always => true
  | .never => false
  | .asReported => c.catalog.supports f

/-- The source of a number that follows a script. -/
def toSource (c : CameraScript) (n : Nat) : Source Studio where
  catalog _ := c.catalog
  attach status s := { s with attached := true }.note (.sourceAttach status)
  setFormat f s :=
    let agreed := c.accepts f
    let s := s.note (.sourceFormat f agreed)
    (agreed, if agreed then s.setCamera n { s.camera n with format := some f } else s)
  format? s :=
    match c.report with
    | .honest => (s.camera n).format
    | .silent => none
    | .fixed f => some f
  adoptPool id s :=
    match s.pool? id with
    | none => (false, s)
    | some p =>
      let agreed := !c.refusePool
      let s := s.note (.sourcePool p.capacity p.slotSize agreed)
      (agreed, if agreed then { s with adopted := some id } else s)
  setStatus status s :=
    (c.agrees status, if status = .playing then c.onPlay else c.onStop,
      s.note (.sourceStatus status))
  delivered b accepted s := s.note (.sourcePush b.info.sequence (.ofAccepted accepted))
  requeue b s :=
    let (r, s) := s.takeBack b
    s.note (.sourceRequeue b.info.sequence r)
  setDropIncomplete drop s := s.setCamera n { s.camera n with dropIncomplete := drop }
  dropsIncomplete s := (s.camera n).dropIncomplete

end CameraScript

/-! ### Sinks -/

structure DisplayScript where
  /-- Capacity and slot size of its pool. -/
  pool : Option (Nat × Nat) := none
  /-- The frames whose buffers it keeps. -/
  keep : List Nat := []
  refuseFormat : Bool := false
  refusePlay : Bool := false
  refuseStop : Bool := false
deriving DecidableEq, Repr

namespace DisplayScript

def agrees (d : DisplayScript) : Status → Bool
  | .playing => !d.refusePlay
  | .stopped => !d.refuseStop
  | _ => true

/-- The sink that follows a script and owns a pool. When it has stopped, a filter that holds a
buffer lets it go. -/
def toSink (d : DisplayScript) (pool : Option Nat) : Sink Studio where
  pool? _ := pool
  setFormat f s := (!d.refuseFormat, s.note (.sinkFormat f !d.refuseFormat))
  setStatus status s :=
    let s := s.note (.sinkStatus status)
    (d.agrees status, if status = .stopped then { s with holding := false } else s)
  push b s :=
    let s := s.note (.sinkPush b)
    if d.keep.contains b.info.sequence then (none, { s with kept := s.kept ++ [b] })
    else (some b.toFrame, s)

/-- Makes the sink of a script, with its pool. -/
def make (d : DisplayScript) (s : Studio) : Sink Studio × Studio :=
  match d.pool with
  | none => (d.toSink none, s)
  | some (capacity, slotSize) =>
    let (id, s) := s.addPool capacity slotSize
    (d.toSink (some id), s)

end DisplayScript

/-! ### Property filters -/

structure FilterScript where
  refuseFormat : Bool := false
  refusePlay : Bool := false
  refuseStop : Bool := false
  /-- What it adds to every byte. -/
  add : UInt8 := 0
  /-- The encoding it puts on a buffer. -/
  relabel : Option Encoding := none
  /-- The frame it holds back until the sink has stopped. -/
  hold : Option Nat := none
deriving DecidableEq, Repr

namespace FilterScript

def agrees (f : FilterScript) (status : Status) : Bool :=
  f.hold.isSome ||
    match status with
    | .playing => !f.refusePlay
    | .stopped => !f.refuseStop
    | _ => true

/-- What the filter does to a frame. -/
def change (f : FilterScript) (x : Frame) : Frame :=
  let x := x.withData (x.data.map (· + f.add))
  match f.relabel with
  | none => x
  | some e => x.relabel (x.format.withEncoding e)

/-- The property filter that follows a script. -/
def toFilter (f : FilterScript) : PropertyFilter Studio where
  setFormat input output s :=
    (!f.refuseFormat, s.note (.filterFormat input output !f.refuseFormat))
  setStatus status s :=
    (f.agrees status, if f.hold.isSome then s else s.note (.filterStatus status))
  apply x s :=
    let s := s.note (.filterApply x.info.sequence)
    (f.change x, if f.hold = some x.info.sequence then { s with holding := true } else s)

end FilterScript

/-! ### Stages -/

/-- How a scripted stage behaves. -/
inductive Manner where
  | plain
  /-- Refuses its formats, but remembers them. -/
  | refuseFormat
  /-- Says it is bound to nothing. -/
  | unbound
  /-- Says it takes another encoding than it was given. -/
  | misbind
  | refusePlay
  | refuseStop
  /-- Leaves the label of a buffer as it is. -/
  | unlabelled
  /-- Fails on every buffer. -/
  | failing
deriving DecidableEq, Repr

namespace Manner

def agrees : Manner → Status → Bool
  | refusePlay, .playing => false
  | refuseStop, .stopped => false
  | _, _ => true

/-- The encoding that no device has. -/
def bogus : Encoding := .ofChars 'X' 'X' 'X' 'X'

/-- The stage of a number that behaves in some manner. -/
def toStage (m : Manner) (d : StageDescriptor) (n : Nat) : StageDevice Studio where
  descriptor := d
  bind input output s := (m != .refuseFormat, s.setBinding n (input, output))
  formats s :=
    match m with
    | .unbound => none
    | .misbind => (s.binding n).map fun b => (b.1.withEncoding bogus, b.2)
    | _ => s.binding n
  setStatus status s := (m.agrees status, s.note (.stageStatus d.name status))
  transform x s :=
    match m with
    | .failing => (some (.stageFailed d.name), x, s)
    | .unlabelled => (none, x, s)
    | _ => (none, ((s.binding n).map fun b => x.relabel b.2).getD x, s)

/-- What it takes to make a stage that behaves in some manner. -/
def blueprint (m : Manner) (d : StageDescriptor) : Blueprint Studio :=
  .device fun s =>
    let (n, s) := s.number
    (m.toStage d n, s)

end Manner
end CameraStream.Simulation
