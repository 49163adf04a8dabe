import CameraStream.Pipeline.Configure
import CameraStream.Pipeline.Lifecycle

/-!
# Sessions

A `Session` is one opened device and its pipeline. Besides streaming it knows of the loss of the
device: the first report stops the pipeline and then calls every listener, once. From then on
operations fail for the lost device. A closed session has let go of its listeners and lost its
source.
-/

namespace CameraStream

structure Device where
  /-- Model, for people. -/
  name : String := ""
  serial : String := ""
deriving DecidableEq, Repr

namespace Device

def text (d : Device) : String := d.name ++ " (" ++ d.serial ++ ")"

instance : ToString Device := ⟨text⟩

def inspect (d : Device) : String :=
  "DeviceInfo \x7b name: " ++ Text.quoted d.name ++ ", serial: " ++ Text.quoted d.serial ++ " \x7d"

end Device

/-- What is to happen in the world when a device is lost. -/
abbrev LossListener (ω : Type) := Device → ω → ω

/-- An opened device and its pipeline. -/
structure Session (ω : Type) where
  device : Device
  pipeline : Pipeline ω
  opened : Bool := true
  lost : Bool := false
  listeners : List (LossListener ω) := []

namespace Session

variable {ω : Type}

/-- Opens a device that streams from a source; fails if the source reports nothing. -/
def openWith (device : Device) (source : Source ω) (pipeline : Pipeline ω) :
    Except StreamError (Session ω) × Pipeline ω :=
  match pipeline.setSource source with
  | (none, pipeline) => (.ok { device, pipeline }, pipeline)
  | (some err, pipeline) => (.error err, pipeline)

def isOpen (s : Session ω) : Bool := s.opened && !s.lost

/-- What the device can produce, which is nothing unless the session is open. -/
def available (s : Session ω) : Catalog := if s.isOpen then s.pipeline.available else {}

/-- Why the session is of no use, if so. -/
def trouble (s : Session ω) : Option StreamError :=
  if s.lost then some (.deviceLost s.device.serial)
  else if s.opened then none
  else some .noSource

def onPipeline (s : Session ω) (step : Step ω) : Option StreamError × Session ω :=
  let (err, pipeline) := step s.pipeline
  (err, { s with pipeline })

/-- Works on the pipeline of a session that is of use. -/
def guarded (s : Session ω) (step : Step ω) : Option StreamError × Session ω :=
  match s.trouble with
  | some err => (some err, s)
  | none => s.onPipeline step

/-- Requests the format of the next stream. -/
def requestFormat (s : Session ω) (f : VideoFormat) : Option StreamError × Session ω :=
  s.guarded (Pipeline.requestFormat f)

/-- Streams into a sink. -/
def startStream (s : Session ω) (sink : Sink ω) : Option StreamError × Session ω :=
  s.guarded (Step.inOrder [Pipeline.setSink sink, Pipeline.setStatus .playing])

def stopStream (s : Session ω) : Option StreamError × Session ω :=
  s.guarded (Pipeline.setStatus .stopped)

/-- Has a listener called if the device is lost. -/
def listen (s : Session ω) (l : LossListener ω) : Option StreamError × Session ω :=
  match s.trouble with
  | some err => (some err, s)
  | none => (none, { s with listeners := s.listeners ++ [l] })

/-- Calls listeners in the order they were registered. -/
def callAll (device : Device) (listeners : List (LossListener ω)) (p : Pipeline ω) : Pipeline ω :=
  p.withWorld (listeners.foldl (fun w l => l device w) p.world)

/-- Reports the loss of the device. Only the first report while the session is open stops the
pipeline and calls the listeners. -/
def reportLoss (s : Session ω) : Session ω :=
  if s.lost || !s.opened then { s with lost := true }
  else
    let pipeline :=
      if s.pipeline.status.isActive then (s.pipeline.setStatus .stopped).2 else s.pipeline
    { s with lost := true, listeners := [], pipeline := callAll s.device s.listeners pipeline }

/-- Closes the session: the pipeline is destroyed and the listeners are let go. -/
def close (s : Session ω) : Session ω :=
  if s.opened then { s with opened := false, pipeline := s.pipeline.destroy, listeners := [] }
  else s

/-- The end of the session. -/
def drop (s : Session ω) : Pipeline ω := s.close.pipeline.close

def inspect (s : Session ω) : String :=
  "CaptureSession \x7b device: " ++ s.device.inspect ++ ", open: " ++ toString s.isOpen ++ " \x7d"

/-! ### Reporting from outside

Whoever watches the device holds no session but may still report to one, as long as it is there. -/

/-- Reports the loss to a session, if there is one; tells whether there was. -/
def notify : Option (Session ω) → Bool × Option (Session ω)
  | some s => (true, some s.reportLoss)
  | none => (false, none)

def inspectNotifier (s : Option (Session ω)) : String :=
  "DeviceLostNotifier \x7b alive: " ++ toString s.isSome ++ " \x7d"

end Session
end CameraStream
