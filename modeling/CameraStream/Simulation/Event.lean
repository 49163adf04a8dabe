import CameraStream.Session

/-!
# Events of a rehearsal

What scripted parts write down about the commands and buffers they receive. `Event.text` is the
line an event takes in a log.
-/

namespace CameraStream.Simulation

/-- What became of a buffer that a source delivered. -/
inductive Delivery where
  | accepted | rejected
  /-- No pipeline was known to deliver to. -/
  | unattached
deriving DecidableEq, Repr

namespace Delivery

def ofAccepted (accepted : Bool) : Delivery := if accepted then .accepted else .rejected

def text : Delivery → String
  | accepted => "accepted"
  | rejected => "rejected"
  | unattached => "no handle"

end Delivery

inductive Return where
  | released
  /-- Its pool had the slot already. -/
  | refused
  /-- It belonged to no pool of the source. -/
  | dropped
deriving DecidableEq, Repr

def Return.text : Return → String
  | .released => "released"
  | .refused => "refused"
  | .dropped => "dropped"

/-- Something a scripted part took part in. -/
inductive Event where
  | sourceAttach (s : Status)
  | sourceFormat (f : VideoFormat) (agreed : Bool)
  | sourcePool (capacity slotSize : Nat) (agreed : Bool)
  | sourceStatus (s : Status)
  | sourcePush (sequence : Nat) (d : Delivery)
  | sourceRequeue (sequence : Nat) (r : Return)
  | sinkFormat (f : VideoFormat) (agreed : Bool)
  | sinkStatus (s : Status)
  | sinkPush (b : Buffer)
  | filterFormat (input output : VideoFormat) (agreed : Bool)
  | filterStatus (s : Status)
  | filterApply (sequence : Nat)
  | stageStatus (stage : String) (s : Status)
  | deviceLost (listener : Nat) (d : Device)
deriving DecidableEq, Repr

/-- The line of an event. -/
def Event.text : Event → String
  | .sourceAttach s => s!"source:attach {s}"
  | .sourceFormat f agreed => s!"source:format {f} {agreed}"
  | .sourcePool capacity slotSize agreed => s!"source:pool {capacity}x{slotSize} {agreed}"
  | .sourceStatus s => s!"source:{s}"
  | .sourcePush sequence d => s!"source:push {sequence} {d.text}"
  | .sourceRequeue sequence r => s!"source:requeue {sequence} {r.text}"
  | .sinkFormat f agreed => s!"sink:format {f} {agreed}"
  | .sinkStatus s => s!"sink:{s}"
  | .sinkPush b => "sink:push " ++ toString b.info.sequence ++ " " ++ b.format.text ++ " "
      ++ Text.hexBytes b.data
  | .filterFormat input output agreed => s!"filter:format {input} | {output} {agreed}"
  | .filterStatus s => s!"filter:{s}"
  | .filterApply sequence => s!"filter:apply {sequence}"
  | .stageStatus stage s => s!"stage:{stage}:{s}"
  | .deviceLost listener d => s!"lost {listener}: {d}"

end CameraStream.Simulation
