/-!
# Pipeline status

A pipeline starts out `undefined`, is `stopped` once a source is attached, and streams while it is
`playing`. While `paused` its components stay active but nothing is taken from the queue. It is in
`error` after its chain of stages could not be built, until it is configured anew or started again.
-/

namespace CameraStream

/-- What a pipeline is doing. -/
inductive Status where
  | undefined | stopped | paused | playing | error
deriving DecidableEq, Repr

namespace Status

/-- The status of a pipeline that nothing is attached to. -/
instance : Inhabited Status := ⟨undefined⟩

def all : List Status := [undefined, stopped, paused, playing, error]

/-- Whether the components are active: playing or paused. -/
def isActive : Status → Bool
  | playing | paused => true
  | _ => false

theorem isActive_iff {s : Status} : s.isActive = true ↔ s = playing ∨ s = paused := by
  cases s <;> simp [isActive]

def text : Status → String
  | undefined => "UNDEFINED"
  | stopped => "STOPPED"
  | paused => "PAUSED"
  | playing => "PLAYING"
  | error => "ERROR"

instance : ToString Status := ⟨text⟩

def inspect : Status → String
  | undefined => "Undefined"
  | stopped => "Stopped"
  | paused => "Paused"
  | playing => "Playing"
  | error => "Error"

def ofText? (name : String) : Option Status := all.find? fun s => s.text == name

end Status
end CameraStream
