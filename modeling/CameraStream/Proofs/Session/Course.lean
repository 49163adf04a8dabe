import CameraStream.Session
import CameraStream.Proofs.Pipeline.Contact

/-!
# Requests to a session, cut into acts

A `Request` is what somebody asks of a session. The pipeline goes on moving while it is answered, so
a request too is cut up. Its `Course` is made of deeds of the pipeline, of `Act`s that change the
session itself, and of looks. Between any two of them there is room for moves. Requests are answered
one at a time, in the order in which they are made.

Without moves in between, a course does what the operation does (`run_course`). And whatever comes in
between, a listener that is seen to be called does to the world what it is there for: sessions perform
their calls as pipelines perform theirs (`performed_run`).
-/

namespace CameraStream.Session

open Pipeline (Call Cast Deed Move Performed Script)

variable {ω : Type}

/-! ### Events -/

/-- What is seen of a session. -/
inductive Event (ω : Type) where
  | registered (l : LossListener ω)
  /-- The loss of the device was reported, for the first time or again. -/
  | reported
  | closed
  /-- The listeners were let go. -/
  | dismissed
  /-- A listener was called, and the status of the pipeline was this. -/
  | called (l : LossListener ω) (s : Status)

/-- A session and what was seen of it so far. -/
structure Moment (ω : Type) where
  session : Session ω
  history : List (Event ω) := []

namespace Moment

def onPipeline (x : Moment ω) (p : Pipeline ω) : Moment ω :=
  { x with session := { x.session with pipeline := p } }

def move (x : Moment ω) (m : Move ω) : Moment ω := x.onPipeline (m.step x.session.pipeline)

/-- Moves one after the other. -/
def moves (x : Moment ω) (ms : List (Move ω)) : Moment ω := ms.foldl move x

def deed (x : Moment ω) (d : Deed ω) : Moment ω := x.onPipeline (d.step x.session.pipeline).2

end Moment

/-! ### Acts -/

/-- What a session does at once, besides the deeds of its pipeline. -/
inductive Act (ω : Type) where
  | markLost
  | shut
  | enlist (l : LossListener ω)
  /-- Lets go of all listeners. -/
  | dismiss
  /-- Calls a listener. -/
  | tell (l : LossListener ω)

namespace Act

def perform : Act ω → Session ω → Session ω
  | markLost, s => { s with lost := true }
  | shut, s => { s with opened := false }
  | enlist l, s => { s with listeners := s.listeners ++ [l] }
  | dismiss, s => { s with listeners := [] }
  | tell l, s => { s with pipeline := s.pipeline.withWorld (l s.device s.pipeline.world) }

/-- What is seen of an act. -/
def seen : Act ω → Session ω → Event ω
  | markLost, _ => .reported
  | shut, _ => .closed
  | enlist l, _ => .registered l
  | dismiss, _ => .dismissed
  | tell l, s => .called l s.pipeline.status

end Act

def Moment.act (x : Moment ω) (a : Act ω) : Moment ω where
  session := a.perform x.session
  history := x.history ++ [a.seen x.session]

/-! ### Courses -/

/-- What is left to do of a request: nothing but to give its result, a deed of the pipeline, an act
of the session, or a look. -/
inductive Course (ω : Type) where
  | done (err : Option StreamError)
  | deed (d : Deed ω) (rest : Option StreamError → Course ω)
  | act (a : Act ω) (rest : Course ω)
  | look (next : Session ω → Course ω)

namespace Course

/-- Has the pipeline do what a script says. -/
def drive : Script ω → (Option StreamError → Course ω) → Course ω
  | .done err, k => k err
  | .act d rest, k => deed d fun err => drive (rest err) k
  | .look next, k => look fun s => drive (next s.pipeline) k

/-- Goes on if the session is of use. -/
def guarded (k : Course ω) : Course ω := look fun s =>
  match s.trouble with
  | some err => done (some err)
  | none => k

def startStream (sink : Sink ω) : Course ω := guarded <|
  drive (Call.setSink sink).script fun
    | none => drive (Call.setStatus .playing).script done
    | some err => done (some err)

/-- Calls listeners one after the other. -/
def tellAll : List (LossListener ω) → Course ω
  | [] => done none
  | l :: rest => act (.tell l) (tellAll rest)

/-- The listeners are taken before any of them is called. -/
def fire : Course ω := look fun s => act .dismiss (tellAll s.listeners)

def reportLoss : Course ω := look fun s =>
  if s.lost || !s.opened then act .markLost (done none)
  else act .markLost <| look fun s =>
    if s.pipeline.status.isActive then drive (Call.setStatus .stopped).script fun _ => fire
    else fire

def close : Course ω := look fun s =>
  if s.opened then act .shut (drive Call.destroy.script fun _ => act .dismiss (done none))
  else done none

end Course

/-! ### Requests -/

/-- An operation of a session, or of somebody who watches the device. -/
inductive Request (ω : Type) where
  | requestFormat (f : VideoFormat)
  | startStream (sink : Sink ω)
  | stopStream
  | listen (l : LossListener ω)
  | reportLoss
  /-- Reports the loss from outside. -/
  | notify
  | close

namespace Request

/-- What a request does if nothing comes between. -/
def perform : Request ω → Session ω → Option StreamError × Session ω
  | requestFormat f, s => s.requestFormat f
  | startStream sink, s => s.startStream sink
  | stopStream, s => s.stopStream
  | listen l, s => s.listen l
  | reportLoss, s => (none, s.reportLoss)
  | notify, s => (none, (Session.notify (some s)).2.getD s)
  | close, s => (none, s.close)

def course : Request ω → Course ω
  | requestFormat f => .guarded (.drive (Call.requestFormat f).script .done)
  | startStream sink => .startStream sink
  | stopStream => .guarded (.drive (Call.setStatus .stopped).script .done)
  | listen l => .guarded (.act (.enlist l) (.done none))
  | reportLoss | notify => .reportLoss
  | close => .close

end Request

/-! ### Courses without moves in between -/

namespace Course

def run : Course ω → Session ω → Option StreamError × Session ω
  | done err, s => (err, s)
  | deed d rest, s =>
    (rest (d.step s.pipeline).1).run { s with pipeline := (d.step s.pipeline).2 }
  | act a rest, s => rest.run (a.perform s)
  | look next, s => (next s).run s

theorem run_act (a : Act ω) (rest : Course ω) (s : Session ω) :
    (act a rest).run s = rest.run (a.perform s) := rfl

theorem run_look (next : Session ω → Course ω) (s : Session ω) :
    (look next).run s = (next s).run s := rfl

theorem run_drive (script : Script ω) (k : Option StreamError → Course ω) (s : Session ω) :
    (drive script k).run s =
      (k (script.run s.pipeline).1).run { s with pipeline := (script.run s.pipeline).2 } := by
  induction script generalizing s with
  | done err => rfl
  | act d rest ih => exact ih _ _
  | look next ih => exact ih _ s

theorem run_call (c : Call ω) (k : Option StreamError → Course ω) (s : Session ω) :
    (drive c.script k).run s =
      (k (c.perform s.pipeline).1).run { s with pipeline := (c.perform s.pipeline).2 } := by
  rw [run_drive, Pipeline.run_script]

theorem run_guarded {k : Course ω} {step : Step ω} (h : ∀ s, k.run s = s.onPipeline step)
    (s : Session ω) : (guarded k).run s = s.guarded step := by
  simp only [guarded, run_look, Session.guarded]
  rcases s.trouble with _ | err
  · exact h s
  · rfl

theorem run_tellAll (ls : List (LossListener ω)) (s : Session ω) :
    (tellAll ls).run s = (none, { s with pipeline := callAll s.device ls s.pipeline }) := by
  induction ls generalizing s with
  | nil => rfl
  | cons l rest ih => exact ih _

theorem run_fire (s : Session ω) :
    (fire : Course ω).run s =
      (none, { s with listeners := [], pipeline := callAll s.device s.listeners s.pipeline }) :=
  run_tellAll s.listeners _

theorem run_reportLoss (s : Session ω) :
    (reportLoss : Course ω).run s = (none, s.reportLoss) := by
  simp only [reportLoss, run_look, Session.reportLoss]
  split
  · rfl
  · rcases hactive : s.pipeline.status.isActive with _ | _
    · simp only [run_act, run_look, Act.perform, hactive]
      exact run_fire _
    · simp only [run_act, run_look, Act.perform, hactive, if_true, run_call]
      exact run_fire _

theorem run_close (s : Session ω) : (close : Course ω).run s = (none, s.close) := by
  simp only [close, run_look, Session.close]
  split
  · exact run_call .destroy _ _
  · rfl

theorem run_startStream (sink : Sink ω) (s : Session ω) :
    (startStream sink).run s = s.startStream sink := by
  refine run_guarded (fun s => ?_) s
  rw [run_call]
  simp only [onPipeline, Step.inOrder, Call.perform]
  rcases Pipeline.setSink sink s.pipeline with ⟨_ | err, p⟩
  · simp only [run_call, Call.perform]
    rcases Pipeline.setStatus .playing p with ⟨_ | err, q⟩
    · rfl
    · rfl
  · rfl

end Course

/-- **A course does what the operation does**, if nothing comes between. -/
theorem run_course (r : Request ω) : r.course.run = r.perform := by
  funext s
  cases r with
  | requestFormat f => exact Course.run_guarded (Course.run_call (.requestFormat f) .done) s
  | startStream sink => exact Course.run_startStream sink s
  | stopStream => exact Course.run_guarded (Course.run_call (.setStatus .stopped) .done) s
  | listen l =>
    simp only [Request.course, Course.guarded, Course.run_look, Request.perform, Session.listen]
    rcases s.trouble with _ | err
    · rfl
    · rfl
  | reportLoss => exact Course.run_reportLoss s
  | notify => exact Course.run_reportLoss s
  | close => exact Course.run_close s

/-! ### Scenes -/

/-- A moment and what is left to do of the request that is being answered. -/
structure Scene (ω : Type) extends Moment ω where
  todo : Course ω

/-- What happens next. -/
inductive Choice (ω : Type) where
  /-- Somebody makes a request, which is lost on a session that is answering another. -/
  | request (r : Request ω)
  | proceed
  | move (m : Move ω)

namespace Scene

def next (s : Scene ω) : Choice ω → Scene ω
  | .request r =>
    match s.todo with
    | .done _ => { s with todo := r.course }
    | .deed _ _ | .act _ _ | .look _ => s
  | .proceed =>
    match s.todo with
    | .done _ => s
    | .deed d rest => ⟨s.toMoment.deed d, rest (d.step s.session.pipeline).1⟩
    | .act a rest => ⟨s.toMoment.act a, rest⟩
    | .look f => { s with todo := f s.session }
  | .move m => { s with toMoment := s.toMoment.move m }

/-- A session of which nothing was asked yet. -/
def opening (s : Session ω) : Scene ω where
  session := s
  todo := .done none

def run (s : Scene ω) (schedule : List (Choice ω)) : Scene ω := schedule.foldl next s

end Scene

/-! ### What is performed -/

/-- What happens between a session, the parts of its pipeline and those who listen. Of the pipeline
nothing is seen here. -/
inductive Contact (device : Device) : Cast ω → List (Event ω) → Cast ω → Prop
  | behind {c d : Cast ω} {seen : List Pipeline.Event} (contact : Pipeline.Contact c seen d) :
      Contact device c [] d
  | called (c : Cast ω) (l : LossListener ω) (s : Status) :
      Contact device c [.called l s] { c with world := l device c.world }
  /-- The session changes, and the world does not. -/
  | noted (c : Cast ω) (ev : Event ω) (uncalled : ∀ l s, ev ≠ .called l s) : Contact device c [ev] c

theorem performed_behind (device : Device) {c d : Cast ω} {turns : List (ω → ω)}
    {seen : List Pipeline.Event} (h : Performed Pipeline.Contact c turns seen d) :
    Performed (Contact device) c turns [] d := by
  induction h with
  | nothing c => exact .nothing c
  | contact made _ ih => exact .contact (.behind made) ih
  | turn change _ ih => exact .turn change ih

theorem performed_act (a : Act ω) (s : Session ω) :
    Performed (Contact s.device) s.pipeline.cast [] [a.seen s] (a.perform s).pipeline.cast := by
  cases a with
  | tell l => exact .one (.called s.pipeline.cast l s.pipeline.status)
  | markLost | shut | enlist _ | dismiss => exact .one (.noted s.pipeline.cast _ nofun)

/-- The changes of the world that come with a choice. -/
def Choice.turns : Choice ω → List (ω → ω)
  | request _ | proceed => []
  | move m => m.turns

theorem device_next (s : Scene ω) (c : Choice ω) :
    (s.next c).session.device = s.session.device := by
  obtain ⟨x, todo⟩ := s
  cases c with
  | move m => rfl
  | request r =>
    cases todo with
    | done _ | deed _ _ | act _ _ | look _ => rfl
  | proceed =>
    cases todo with
    | act a rest =>
      cases a with
      | markLost | shut | enlist _ | dismiss | tell _ => rfl
    | done _ | deed _ _ | look _ => rfl

theorem performed_next (s : Scene ω) (c : Choice ω) :
    ∃ seen, (s.next c).history = s.history ++ seen ∧
      Performed (Contact s.session.device) s.session.pipeline.cast c.turns seen
        (s.next c).session.pipeline.cast := by
  obtain ⟨x, todo⟩ := s
  cases c with
  | move m =>
    exact ⟨[], (List.append_nil _).symm,
      performed_behind _ (Pipeline.performed_move m x.session.pipeline)⟩
  | request r =>
    cases todo with
    | done _ | deed _ _ | act _ _ | look _ => exact ⟨[], (List.append_nil _).symm, .nothing _⟩
  | proceed =>
    cases todo with
    | deed d rest =>
      exact ⟨[], (List.append_nil _).symm,
        performed_behind _ (Pipeline.performed_deed d x.session.pipeline)⟩
    | act a rest => exact ⟨[a.seen x.session], rfl, performed_act a x.session⟩
    | done _ | look _ => exact ⟨[], (List.append_nil _).symm, .nothing _⟩

/-- **Whatever a session is seen to do is performed.** -/
theorem performed_run (s : Scene ω) (schedule : List (Choice ω)) :
    ∃ seen, (s.run schedule).history = s.history ++ seen ∧
      Performed (Contact s.session.device) s.session.pipeline.cast (schedule.flatMap Choice.turns) seen
        (s.run schedule).session.pipeline.cast := by
  induction schedule generalizing s with
  | nil => exact ⟨[], (List.append_nil _).symm, .nothing _⟩
  | cons c rest ih =>
    obtain ⟨first, hfirst, hnext⟩ := performed_next s c
    obtain ⟨others, hothers, hrest⟩ := ih (s.next c)
    rw [device_next] at hrest
    refine ⟨first ++ others, ?_, hnext.trans hrest⟩
    calc (s.run (c :: rest)).history
        = (s.next c).history ++ others := hothers
      _ = s.history ++ (first ++ others) := by rw [hfirst, List.append_assoc]

end CameraStream.Session
