import CameraStream.Proofs.Pipeline.Representation
import CameraStream.Proofs.Session.Course

/-!
# The loss of a device

Whoever registers with an open session is called once if the device is lost, when the pipeline has
come to rest, and is never called if the session is closed first. A session whose device was lost
while it was open is of no use any more, and its pipeline is never active again (**`protocol_run`**).
This holds for every sequence of requests, while worker and producers go on. A call that is seen is
one that was made: it has done to the world what the listener does.

A session is `Fresh`, and stays so until the loss is reported or it is closed. Then it is `Struck`,
and `Telling` once it has let go of its listeners; or `Closing`, and then `Closed`. An outline of
every request (`safe_course`) leads from one of these to another.
-/

namespace CameraStream.Session

open Pipeline (Call Deed Move Performed Script)

variable {ω : Type}

/-! ### What histories tell -/

/-- The listeners that were registered, in order. -/
def registrations (h : List (Event ω)) : List (LossListener ω) :=
  h.filterMap fun
    | .registered l => some l
    | _ => none

/-- The listeners that were called, in order. -/
def calls (h : List (Event ω)) : List (LossListener ω) :=
  h.filterMap fun
    | .called l _ => some l
    | _ => none

inductive Ending where
  | loss | closing
deriving DecidableEq, Repr

/-- What came first, a report of the loss or the end of the session. -/
def ending (h : List (Event ω)) : Option Ending :=
  h.findSome? fun
    | .reported => some .loss
    | .closed => some .closing
    | _ => none

/-- What holds of a session at all times. -/
structure Protocol (x : Moment ω) : Prop where
  /-- Every registration leads to one call at most, in order. -/
  once : calls x.history <+: registrations x.history
  never : ending x.history ≠ some .loss → calls x.history = []
  quiet : ∀ l s, .called l s ∈ x.history → s.isActive = false
  inactive : .dismissed ∈ x.history → x.session.pipeline.status.isActive = false

/-- A request to use the device. -/
def Request.isUse : Request ω → Bool
  | requestFormat _ | startStream _ | stopStream | listen _ => true
  | reportLoss | notify | close => false

/-- What holds between requests once an open session has lost its device. -/
structure AfterLoss (x : Moment ω) : Prop where
  /-- Every registration has led to a call. -/
  called : calls x.history = registrations x.history
  dismissed : .dismissed ∈ x.history
  inactive : x.session.pipeline.status.isActive = false
  useless : ∀ r : Request ω, r.isUse →
    r.perform x.session = (some (.deviceLost x.session.device.serial), x.session)

/-! ### Where a session stands -/

/-- How the history has ended, if it has; the listeners called so far; and those still to be called,
if any are. -/
structure Stands (e : Option Ending) (told waiting : List (LossListener ω)) (h : List (Event ω)) :
    Prop where
  ends : ending h = e
  called : calls h = told
  registered : registrations h = told ++ waiting
  quiet : ∀ l s, .called l s ∈ h → s.isActive = false

/-- The session is open, and the device is there. -/
structure Fresh (x : Moment ω) : Prop where
  opened : x.session.opened = true
  lost : x.session.lost = false
  stands : Stands none [] x.session.listeners x.history
  undismissed : .dismissed ∉ x.history

/-- The loss was reported, and nobody was called yet. -/
structure Struck (ls : List (LossListener ω)) (x : Moment ω) : Prop where
  lost : x.session.lost = true
  listeners : x.session.listeners = ls
  stands : Stands (some .loss) [] ls x.history
  undismissed : .dismissed ∉ x.history

/-- The listeners are called. When none is left, all is done. -/
structure Telling (ls : List (LossListener ω)) (x : Moment ω) : Prop where
  lost : x.session.lost = true
  stands : ∃ told, Stands (some .loss) told ls x.history
  dismissed : .dismissed ∈ x.history
  inactive : x.session.pipeline.status.isActive = false

/-- The session is being closed. -/
structure Closing (x : Moment ω) : Prop where
  opened : x.session.opened = false
  stands : ∃ waiting, Stands (some .closing) [] waiting x.history
  undismissed : .dismissed ∉ x.history

structure Closed (x : Moment ω) : Prop where
  opened : x.session.opened = false
  stands : ∃ waiting, Stands (some .closing) [] waiting x.history
  inactive : x.session.pipeline.status.isActive = false

/-- Between requests. -/
def Rest (x : Moment ω) : Prop := Fresh x ∨ Telling [] x ∨ Closed x

/-! ### What is seen of acts -/

section Stands

variable {e : Option Ending} {told waiting : List (LossListener ω)} {h : List (Event ω)}

theorem ending_append (h : List (Event ω)) (ev : Event ω) :
    ending (h ++ [ev]) = (ending h).or (ending [ev]) :=
  List.findSome?_append

theorem registrations_append (h : List (Event ω)) (ev : Event ω) :
    registrations (h ++ [ev]) = registrations h ++ registrations [ev] :=
  List.filterMap_append

theorem calls_append (h : List (Event ω)) (ev : Event ω) :
    calls (h ++ [ev]) = calls h ++ calls [ev] :=
  List.filterMap_append

/-- An event that is no call. -/
theorem Stands.see (hs : Stands e told waiting h) (ev : Event ω) (hcall : calls [ev] = [])
    {waiting' : List (LossListener ω)} (hwaiting : waiting ++ registrations [ev] = waiting') :
    Stands (e.or (ending [ev])) told waiting' (h ++ [ev]) where
  ends := by rw [ending_append, hs.ends]
  called := by rw [calls_append, hs.called, hcall, List.append_nil]
  registered := by rw [registrations_append, hs.registered, List.append_assoc, hwaiting]
  quiet l s hl := by
    rcases List.mem_append.mp hl with hl | hl
    · exact hs.quiet l s hl
    · rw [List.mem_singleton] at hl
      subst hl
      cases hcall

/-- A call, of the one whose turn it is. -/
theorem Stands.call {l : LossListener ω} (hs : Stands e told (l :: waiting) h) {s : Status}
    (hquiet : s.isActive = false) : Stands e (told ++ [l]) waiting (h ++ [.called l s]) where
  ends := by
    rw [ending_append, hs.ends]
    exact Option.or_none
  called := by
    rw [calls_append, hs.called]
    rfl
  registered := by
    rw [registrations_append, hs.registered, List.append_assoc told [l]]
    exact List.append_nil _
  quiet l' s' hl := by
    rcases List.mem_append.mp hl with hl | hl
    · exact hs.quiet l' s' hl
    · rw [List.mem_singleton] at hl
      cases hl
      exact hquiet

theorem Stands.protocol {x : Moment ω} (hs : Stands e told waiting x.history)
    (hnever : e ≠ some .loss → told = [])
    (hinactive : .dismissed ∈ x.history → x.session.pipeline.status.isActive = false) :
    Protocol x where
  once := by
    rw [hs.called, hs.registered]
    exact List.prefix_append told waiting
  never h := hs.called.trans (hnever (hs.ends ▸ h))
  quiet := hs.quiet
  inactive := hinactive

end Stands

/-! ### Assertions and moves -/

/-- An assertion from which the protocol follows, and that no move can spoil. -/
structure Steady (A : Moment ω → Prop) : Prop where
  move : ∀ x m, A x → A (x.move m)
  protocol : ∀ x, A x → Protocol x

/-- An assertion about the session alone. -/
def Aloof (A : Moment ω → Prop) : Prop := ∀ x p, A x → A (x.onPipeline p)

theorem Steady.moves {A : Moment ω → Prop} (hA : Steady A) {x : Moment ω} (hx : A x)
    (ms : List (Move ω)) : A (x.moves ms) := by
  induction ms generalizing x with
  | nil => exact hx
  | cons m ms ih => exact ih (hA.move x m hx)

theorem inactive_move {x : Moment ω} (h : x.session.pipeline.status.isActive = false) (m : Move ω) :
    (x.move m).session.pipeline.status.isActive = false := by
  have hstatus : (x.move m).session.pipeline.status = x.session.pipeline.status :=
    (Pipeline.beside_step m x.session.pipeline).status
  rw [hstatus, h]

theorem aloof_fresh : Aloof (ω := ω) Fresh :=
  fun _ _ h => ⟨h.opened, h.lost, h.stands, h.undismissed⟩

theorem aloof_struck (ls : List (LossListener ω)) : Aloof (Struck ls) :=
  fun _ _ h => ⟨h.lost, h.listeners, h.stands, h.undismissed⟩

theorem aloof_closing : Aloof (ω := ω) Closing :=
  fun _ _ h => ⟨h.opened, h.stands, h.undismissed⟩

theorem steady_fresh : Steady (ω := ω) Fresh where
  move x _ h := aloof_fresh x _ h
  protocol _ h := h.stands.protocol (fun _ => rfl) fun hd => absurd hd h.undismissed

theorem steady_struck (ls : List (LossListener ω)) : Steady (Struck ls) where
  move x _ h := aloof_struck ls x _ h
  protocol _ h := h.stands.protocol (fun _ => rfl) fun hd => absurd hd h.undismissed

theorem steady_telling (ls : List (LossListener ω)) : Steady (Telling ls) where
  move _ m h := ⟨h.lost, h.stands, h.dismissed, inactive_move h.inactive m⟩
  protocol _ h := by
    obtain ⟨told, hs⟩ := h.stands
    exact hs.protocol (absurd rfl) fun _ => h.inactive

theorem steady_closing : Steady (ω := ω) Closing where
  move x _ h := aloof_closing x _ h
  protocol _ h := by
    obtain ⟨waiting, hs⟩ := h.stands
    exact hs.protocol (fun _ => rfl) fun hd => absurd hd h.undismissed

theorem steady_closed : Steady (ω := ω) Closed where
  move _ m h := ⟨h.opened, h.stands, inactive_move h.inactive m⟩
  protocol _ h := by
    obtain ⟨waiting, hs⟩ := h.stands
    exact hs.protocol (fun _ => rfl) fun _ => h.inactive

theorem steady_rest : Steady (ω := ω) Rest where
  move x m := by
    rintro (h | h | h)
    · exact .inl (steady_fresh.move x m h)
    · exact .inr (.inl ((steady_telling []).move x m h))
    · exact .inr (.inr (steady_closed.move x m h))
  protocol x := by
    rintro (h | h | h)
    · exact steady_fresh.protocol x h
    · exact (steady_telling []).protocol x h
    · exact steady_closed.protocol x h

/-- An assertion about a pipeline at rest besides. -/
theorem Steady.resting {A : Moment ω → Prop} (hA : Steady A) :
    Steady fun x => A x ∧ x.session.pipeline.status.isActive = false where
  move x m h := ⟨hA.move x m h.1, inactive_move h.2 m⟩
  protocol x h := hA.protocol x h.1

/-! ### Acts -/

section Acts

variable {x : Moment ω} {ls : List (LossListener ω)}

theorem undismissed_act {a : Act ω} (h : .dismissed ∉ x.history)
    (ha : a.seen x.session ≠ .dismissed) : .dismissed ∉ (x.act a).history := by
  intro hmem
  rcases List.mem_append.mp hmem with hmem | hmem
  · exact h hmem
  · exact ha (List.mem_singleton.mp hmem).symm

theorem Fresh.enlist (h : Fresh x) (l : LossListener ω) : Fresh (x.act (.enlist l)) :=
  ⟨h.opened, h.lost, h.stands.see (.registered l) rfl rfl, undismissed_act h.undismissed nofun⟩

theorem Fresh.markLost (h : Fresh x) : Struck x.session.listeners (x.act .markLost) :=
  ⟨rfl, rfl, h.stands.see .reported rfl (List.append_nil _), undismissed_act h.undismissed nofun⟩

theorem Fresh.shut (h : Fresh x) : Closing (x.act .shut) :=
  ⟨rfl, ⟨_, h.stands.see .closed rfl (List.append_nil _)⟩, undismissed_act h.undismissed nofun⟩

theorem Struck.dismiss (h : Struck ls x) (hinactive : x.session.pipeline.status.isActive = false) :
    Telling ls (x.act .dismiss) :=
  ⟨h.lost, ⟨[], h.stands.see .dismissed rfl (List.append_nil _)⟩,
    List.mem_append_right _ List.mem_cons_self, hinactive⟩

theorem Telling.tell {l : LossListener ω} (h : Telling (l :: ls) x) :
    Telling ls (x.act (.tell l)) := by
  obtain ⟨told, hs⟩ := h.stands
  exact ⟨h.lost, ⟨_, hs.call h.inactive⟩, List.mem_append_left _ h.dismissed, h.inactive⟩

/-- Whatever is done to a lost session besides calling listeners changes nothing. -/
theorem Telling.act (h : Telling ls x) {a : Act ω} (hlost : (a.perform x.session).lost = true)
    (hpipeline : (a.perform x.session).pipeline = x.session.pipeline)
    (hcall : calls [a.seen x.session] = []) (hnew : registrations [a.seen x.session] = []) :
    Telling ls (x.act a) := by
  obtain ⟨told, hs⟩ := h.stands
  refine ⟨hlost, ⟨told, hs.see _ hcall ?_⟩, List.mem_append_left _ h.dismissed, ?_⟩
  · rw [hnew, List.append_nil]
  · show (a.perform x.session).pipeline.status.isActive = false
    rw [hpipeline, h.inactive]

theorem Closing.dismiss (h : Closing x) (hinactive : x.session.pipeline.status.isActive = false) :
    Closed (x.act .dismiss) := by
  obtain ⟨waiting, hs⟩ := h.stands
  exact ⟨h.opened, ⟨waiting, hs.see .dismissed rfl (List.append_nil _)⟩, hinactive⟩

theorem Closed.markLost (h : Closed x) : Closed (x.act .markLost) := by
  obtain ⟨waiting, hs⟩ := h.stands
  exact ⟨h.opened, ⟨waiting, hs.see .reported rfl (List.append_nil _)⟩, h.inactive⟩

end Acts

/-! ### Outlines -/

namespace Course

/-- From a moment on a course keeps to the protocol, whatever moves come between, and leads to
rest. -/
def Safe : Course ω → Moment ω → Prop
  | done _, x => ∀ ms, Rest (x.moves ms)
  | deed d rest, x => ∀ ms, Protocol (x.moves ms) ∧
      (rest (d.step (x.moves ms).session.pipeline).1).Safe ((x.moves ms).deed d)
  | act a rest, x => ∀ ms, Protocol (x.moves ms) ∧ rest.Safe ((x.moves ms).act a)
  | look next, x => ∀ ms, Protocol (x.moves ms) ∧ (next (x.moves ms).session).Safe (x.moves ms)

variable {x : Moment ω} {A : Moment ω → Prop}

theorem Safe.move {c : Course ω} (h : c.Safe x) (m : Move ω) : c.Safe (x.move m) := by
  cases c with
  | done err => exact fun ms => h (m :: ms)
  | deed d rest => exact fun ms => h (m :: ms)
  | act a rest => exact fun ms => h (m :: ms)
  | look next => exact fun ms => h (m :: ms)

theorem Safe.protocol {c : Course ω} (h : c.Safe x) : Protocol x := by
  cases c with
  | done err => exact steady_rest.protocol x (h [])
  | deed d rest => exact (h []).1
  | act a rest => exact (h []).1
  | look next => exact (h []).1

theorem safe_done {err : Option StreamError} (hx : Rest x) : (done err).Safe x :=
  fun ms => steady_rest.moves hx ms

theorem safe_deed {d : Deed ω} {rest : Option StreamError → Course ω} (hA : Steady A) (hx : A x)
    (h : ∀ y, A y → (rest (d.step y.session.pipeline).1).Safe (y.deed d)) : (deed d rest).Safe x :=
  fun ms => ⟨hA.protocol _ (hA.moves hx ms), h _ (hA.moves hx ms)⟩

theorem safe_act {a : Act ω} {rest : Course ω} (hA : Steady A) (hx : A x)
    (h : ∀ y, A y → rest.Safe (y.act a)) : (act a rest).Safe x :=
  fun ms => ⟨hA.protocol _ (hA.moves hx ms), h _ (hA.moves hx ms)⟩

theorem safe_look {next : Session ω → Course ω} (hA : Steady A) (hx : A x)
    (h : ∀ y, A y → (next y.session).Safe y) : (look next).Safe x :=
  fun ms => ⟨hA.protocol _ (hA.moves hx ms), h _ (hA.moves hx ms)⟩

end Course

/-! ### The pipeline is driven -/

/-- What a script is to lead to. -/
def leading (Q : Pipeline ω → Prop) : Pipeline.Spec ω where
  ahead _ _ := True
  after _ x := Q x.pipeline

theorem safe_leading_true (script : Script ω) (y : Pipeline.Moment ω) :
    script.Safe (leading fun _ => True) y := by
  induction script generalizing y with
  | done err => exact fun _ => trivial
  | act d rest ih => exact fun ms => ⟨trivial, ih _ _⟩
  | look next ih => exact fun ms => ih _ _

theorem pipeline_moves {x : Moment ω} {y : Pipeline.Moment ω} (h : y.pipeline = x.session.pipeline)
    (ms : List (Move ω)) : (y.moves ms).pipeline = (x.moves ms).session.pipeline := by
  induction ms generalizing x y with
  | nil => exact h
  | cons m ms ih => exact ih (x := x.move m) (y := y.move m) (congrArg m.step h)

/-- While the pipeline is driven, nothing about the session itself changes. -/
theorem safe_drive {A : Moment ω → Prop} (hA : Steady A) (haloof : Aloof A) {Q : Pipeline ω → Prop}
    {script : Script ω} {k : Option StreamError → Course ω} {x : Moment ω} {y : Pipeline.Moment ω}
    (hscript : script.Safe (leading Q) y) (hy : y.pipeline = x.session.pipeline) (hx : A x)
    (hk : ∀ err z, A z → Q z.session.pipeline → (k err).Safe z) :
    (Course.drive script k).Safe x := by
  -- The moment that the script is judged by has the pipeline of the session at every step.
  induction script generalizing x y with
  | done err => exact hk err x hx (hy ▸ hscript [])
  | act d rest ih =>
    intro ms
    have hmoves := pipeline_moves hy ms
    refine ⟨hA.protocol _ (hA.moves hx ms), ?_⟩
    have hrest := (hscript ms).2
    rw [hmoves] at hrest
    exact ih _ hrest (congrArg (fun p => (d.step p).2) hmoves) (haloof _ _ (hA.moves hx ms))
  | look next ih =>
    intro ms
    have hmoves := pipeline_moves hy ms
    refine ⟨hA.protocol _ (hA.moves hx ms), ?_⟩
    have hnext := hscript ms
    rw [hmoves] at hnext
    exact ih _ hnext hmoves (hA.moves hx ms)

/-! Stopping and destroying lead to rest. -/

theorem stable_status (t : Status) :
    Pipeline.Stable fun y : Pipeline.Moment ω => y.pipeline.status = t :=
  fun y m hy => (Pipeline.beside_step m y.pipeline).status.trans hy

theorem stable_true : Pipeline.Stable fun _ : Pipeline.Moment ω => True := fun _ _ _ => trivial

/-- A stop is entered first, and what is done then does not change the status. -/
theorem safe_halt {Q : Pipeline ω → Prop} {k : Script ω} {y : Pipeline.Moment ω}
    (hk : ∀ z : Pipeline.Moment ω, z.pipeline.status = .stopped → k.Safe (leading Q) z) :
    (Script.halt k).Safe (leading Q) y := by
  refine Script.safe_act stable_true trivial fun z _ => ⟨trivial, ?_⟩
  refine Script.safe_all [] (B := fun _ z => z.pipeline.status = .stopped)
    (fun _ => stable_status .stopped) rfl (fun d hd _ u hu => ⟨trivial, ?_⟩) hk
  have hstatus : (d.step u.pipeline).2.status = u.pipeline.status := by
    simp only [List.mem_cons, List.not_mem_nil, or_false] at hd
    rcases hd with rfl | rfl | rfl | rfl | rfl | rfl
    · exact (Pipeline.beside_tell .stopped .source u.pipeline).status
    · simp only [Deed.step, Pipeline.commandChain]
      split
      · rfl
      · rfl
    · exact (Pipeline.beside_tell .stopped .sink u.pipeline).status
    · exact (Pipeline.beside_tell .stopped .filter u.pipeline).status
    · obtain ⟨q, hq, heq⟩ := Pipeline.joinWorker_beside u.pipeline
      exact (congrArg Pipeline.status heq).trans hq.status
    · exact (Pipeline.returnWaiting_beside u.pipeline).status
  exact hstatus.trans hu

theorem safe_stop {y : Pipeline.Moment ω} (hy : y.pipeline.status.isActive = true) :
    (Call.setStatus (ω := ω) .stopped).script.Safe (leading (·.status.isActive = false)) y := by
  have hstable : Pipeline.Stable fun y : Pipeline.Moment ω => y.pipeline.status.isActive = true :=
    fun y m hy => (congrArg Status.isActive (Pipeline.beside_step m y.pipeline).status).trans hy
  refine Script.safe_look hstable hy fun z hz => ?_
  split
  · next hstopped =>
    rw [hstopped] at hz
    cases hz
  · refine Script.safe_look hstable hz fun u hu => ?_
    rw [if_pos hu]
    refine safe_halt fun v hv => Script.safe_done (stable_status .stopped) hv fun w hw => ?_
    exact congrArg Status.isActive hw

theorem safe_destroy (y : Pipeline.Moment ω) :
    (Call.destroy (ω := ω)).script.Safe (leading (·.status.isActive = false)) y := by
  have hletGo (z : Pipeline.Moment ω) :
      (Script.act .letGo Script.done).Safe (leading (·.status.isActive = false)) z :=
    Script.safe_act stable_true trivial fun u _ => ⟨trivial,
      Script.safe_done (stable_status .undefined) rfl fun v hv => congrArg Status.isActive hv⟩
  refine Script.safe_look stable_true trivial fun z _ => ?_
  split
  · exact safe_halt fun u _ => hletGo u
  · exact hletGo z

/-! ### The course of every request -/

section Courses

variable {x : Moment ω}

theorem trouble_of_telling {ls : List (LossListener ω)} (h : Telling ls x) :
    x.session.trouble = some (.deviceLost x.session.device.serial) := by
  rw [trouble, h.lost, if_pos rfl]

/-- Only a fresh session is of use. -/
theorem safe_guarded {k : Course ω} (hx : Rest x) (hk : ∀ y, Fresh y → k.Safe y) :
    (Course.guarded k).Safe x := by
  refine Course.safe_look steady_rest hx fun y hy => ?_
  rcases htrouble : y.session.trouble with _ | err
  · rcases hy with hfresh | htelling | hclosed
    · exact hk y hfresh
    · rw [trouble_of_telling htelling] at htrouble
      cases htrouble
    · rw [trouble, hclosed.opened] at htrouble
      split at htrouble
      · cases htrouble
      · cases htrouble
  · exact Course.safe_done hy

/-- Nothing that an open session does with its pipeline matters here. -/
theorem safe_use {script : Script ω} {k : Option StreamError → Course ω} (hx : Fresh x)
    (hk : ∀ err y, Fresh y → (k err).Safe y) : (Course.drive script k).Safe x :=
  safe_drive steady_fresh aloof_fresh (safe_leading_true script ⟨x.session.pipeline, []⟩) rfl hx
    fun err y hy _ => hk err y hy

theorem safe_tellAll {ls : List (LossListener ω)} (hx : Telling ls x) :
    (Course.tellAll ls).Safe x := by
  induction ls generalizing x with
  | nil => exact Course.safe_done (.inr (.inl hx))
  | cons l rest ih => exact Course.safe_act (steady_telling _) hx fun y hy => ih hy.tell

theorem safe_fire {ls : List (LossListener ω)}
    (hx : Struck ls x ∧ x.session.pipeline.status.isActive = false) : Course.fire.Safe x := by
  have hsteady := (steady_struck ls).resting
  refine Course.safe_look hsteady hx fun y hy => ?_
  refine Course.safe_act hsteady hy fun z hz => ?_
  rw [hy.1.listeners]
  exact safe_tellAll (hz.1.dismiss hz.2)

/-- The first report strikes the session; later ones, and those of a closed session, do nothing. -/
theorem safe_reportLoss (hx : Rest x) : Course.reportLoss.Safe x := by
  refine Course.safe_look steady_rest hx fun y hy => ?_
  rcases hy with hfresh | htelling | hclosed
  -- Who is struck stays so while the pipeline stops; only then is anybody called.
  · have hfirst : (y.session.lost || !y.session.opened) = false := by
      rw [hfresh.lost, hfresh.opened]
      rfl
    rw [hfirst, if_neg Bool.false_ne_true]
    refine Course.safe_act steady_fresh hfresh fun z hz => ?_
    refine Course.safe_look (steady_struck _) hz.markLost fun u hu => ?_
    rcases hactive : u.session.pipeline.status.isActive with _ | _
    · rw [if_neg Bool.false_ne_true]
      exact safe_fire ⟨hu, hactive⟩
    · rw [if_pos rfl]
      exact safe_drive (steady_struck _) (aloof_struck _)
        (safe_stop (y := ⟨u.session.pipeline, []⟩) hactive) rfl hu
        fun _ v hv hinactive => safe_fire ⟨hv, hinactive⟩
  · rw [htelling.lost, Bool.true_or, if_pos rfl]
    exact Course.safe_act (steady_telling []) htelling fun z hz =>
      Course.safe_done (.inr (.inl (hz.act rfl rfl rfl rfl)))
  · rw [hclosed.opened, Bool.not_false, Bool.or_true, if_pos rfl]
    exact Course.safe_act steady_closed hclosed fun z hz =>
      Course.safe_done (.inr (.inr hz.markLost))

/-- A pipeline that is inactive stays so when it is destroyed. -/
theorem safe_destroy_of_telling {k : Course ω} (hx : Telling [] x)
    (hk : ∀ y, Telling [] y → k.Safe y) :
    (Course.drive (Call.destroy (ω := ω)).script fun _ => k).Safe x := by
  refine Course.safe_look (steady_telling []) hx fun y hy => ?_
  show (Course.drive (if y.session.pipeline.status.isActive then _ else _) _).Safe y
  rw [hy.inactive, if_neg Bool.false_ne_true]
  exact Course.safe_deed (steady_telling []) hy fun z hz =>
    hk _ ⟨hz.lost, hz.stands, hz.dismissed, rfl⟩

theorem safe_close (hx : Rest x) : Course.close.Safe x := by
  refine Course.safe_look steady_rest hx fun y hy => ?_
  rcases hopened : y.session.opened with _ | _
  · rw [if_neg Bool.false_ne_true]
    exact Course.safe_done hy
  rw [if_pos rfl]
  rcases hy with hfresh | htelling | hclosed
  · refine Course.safe_act steady_fresh hfresh fun z hz => ?_
    refine safe_drive steady_closing aloof_closing (safe_destroy ⟨z.session.pipeline, []⟩) rfl
      hz.shut fun _ u hu hinactive => ?_
    exact Course.safe_act steady_closing.resting ⟨hu, hinactive⟩ fun v hv =>
      Course.safe_done (.inr (.inr (hv.1.dismiss hv.2)))
  · refine Course.safe_act (steady_telling []) htelling fun z hz => ?_
    have hshut : Telling [] (z.act .shut) := hz.act hz.lost rfl rfl rfl
    refine safe_destroy_of_telling hshut fun u hu => ?_
    exact Course.safe_act (steady_telling []) hu fun v hv =>
      Course.safe_done (.inr (.inl (hv.act hv.lost rfl rfl rfl)))
  · rw [hclosed.opened] at hopened
    cases hopened

/-- **Every request leads from rest to rest, and keeps to the protocol.** -/
theorem safe_course (r : Request ω) (hx : Rest x) : r.course.Safe x := by
  have hdone (err : Option StreamError) (y : Moment ω) (hy : Fresh y) : (Course.done err).Safe y :=
    Course.safe_done (.inl hy)
  cases r with
  | requestFormat f => exact safe_guarded hx fun y hy => safe_use hy hdone
  | startStream sink =>
    refine safe_guarded hx fun y hy => safe_use hy fun err z hz => ?_
    cases err with
    | none => exact safe_use hz hdone
    | some err => exact hdone (some err) z hz
  | stopStream => exact safe_guarded hx fun y hy => safe_use hy hdone
  | listen l =>
    refine safe_guarded hx fun y hy => ?_
    exact Course.safe_act steady_fresh hy fun z hz => hdone none _ (hz.enlist l)
  | reportLoss => exact safe_reportLoss hx
  | notify => exact safe_reportLoss hx
  | close => exact safe_close hx

end Courses

/-! ### Every schedule -/

theorem safe_next {s : Scene ω} (hs : s.todo.Safe s.toMoment) (c : Choice ω) :
    (s.next c).todo.Safe (s.next c).toMoment := by
  obtain ⟨x, todo⟩ := s
  cases c with
  | request r =>
    cases todo with
    | done err => exact safe_course r (hs [])
    | deed d rest => exact hs
    | act a rest => exact hs
    | look f => exact hs
  | proceed =>
    cases todo with
    | done err => exact hs
    | deed d rest => exact (hs []).2
    | act a rest => exact (hs []).2
    | look f => exact (hs []).2
  | move m => exact hs.move m

theorem safe_run {s : Scene ω} (hs : s.todo.Safe s.toMoment) (schedule : List (Choice ω)) :
    (s.run schedule).todo.Safe (s.run schedule).toMoment := by
  induction schedule generalizing s with
  | nil => exact hs
  | cons c rest ih => exact ih (safe_next hs c)

theorem fresh_opening {device : Device} {source : Source ω} {p : Pipeline ω} {s : Session ω}
    (h : (openWith device source p).1 = .ok s) : Fresh (Scene.opening s).toMoment := by
  unfold openWith at h
  split at h
  · cases h
    exact ⟨rfl, rfl, ⟨rfl, rfl, rfl, nofun⟩, nofun⟩
  · cases h

/-- A session that is at rest after a loss. -/
theorem Rest.afterLoss {x : Moment ω} (h : Rest x) (hloss : ending x.history = some .loss) :
    AfterLoss x := by
  rcases h with hfresh | htelling | hclosed
  · rw [hfresh.stands.ends] at hloss
    cases hloss
  · obtain ⟨told, hs⟩ := htelling.stands
    refine ⟨?_, htelling.dismissed, htelling.inactive, fun r hr => ?_⟩
    · rw [hs.called, hs.registered, List.append_nil]
    · have htrouble := trouble_of_telling htelling
      cases r with
      | requestFormat _ | startStream _ | stopStream | listen _ =>
        simp only [Request.perform, requestFormat, startStream, stopStream, listen, guarded,
          htrouble]
      | reportLoss | notify | close => cases hr
  · obtain ⟨waiting, hs⟩ := hclosed.stands
    rw [hs.ends] at hloss
    cases hloss

/-- **Sessions keep to the protocol** at all times after they were opened, whatever is asked of them,
and between requests there is what has to be after the loss of an open one's device. The calls are
performed: each does to the world what the listener is there for. -/
theorem protocol_run {device : Device} {source : Source ω} {p : Pipeline ω} {s : Session ω}
    (hopened : (openWith device source p).1 = .ok s) (schedule : List (Choice ω)) :
    Protocol ((Scene.opening s).run schedule).toMoment ∧
      (∀ err, ((Scene.opening s).run schedule).todo = .done err →
        ending ((Scene.opening s).run schedule).history = some .loss →
          AfterLoss ((Scene.opening s).run schedule).toMoment) ∧
      Performed (Contact s.device) s.pipeline.cast (schedule.flatMap Choice.turns)
        ((Scene.opening s).run schedule).history
        ((Scene.opening s).run schedule).session.pipeline.cast := by
  have hopening : (Scene.opening s).todo.Safe (Scene.opening s).toMoment :=
    Course.safe_done (.inl (fresh_opening hopened))
  have hsafe := safe_run hopening schedule
  refine ⟨hsafe.protocol, fun err hdone hloss => ?_, ?_⟩
  · rw [hdone] at hsafe
    exact Rest.afterLoss (hsafe []) hloss
  · obtain ⟨seen, hhistory, hperformed⟩ := performed_run (Scene.opening s) schedule
    have hseen : ((Scene.opening s).run schedule).history = seen := hhistory
    rw [hseen]
    exact hperformed

/-! ### A device that is lost while it streams -/

/-- Writes down which device was lost. -/
def bystander : LossListener (List Device) := fun device w => w ++ [device]

def mosaicSession : Session (List Device) where
  device := { name := "DFK 33UX264", serial := "41910044" }
  pipeline := (Pipeline.setSource (Pipeline.obligingSource Pipeline.mosaicCatalog)
    (Pipeline.create (Registry.empty.register .whiteBalance .whiteBalancer) {} [])).2

/-- Somebody listens, the device streams, its loss is reported twice, and the session is closed. -/
def uponLoss : List (Choice (List Device)) :=
  [(.listen bystander, 2), (.startStream Pipeline.obligingSink, 21), (.reportLoss, 15),
    (.notify, 2), (.close, 5)].flatMap fun (r, steps) => .request r :: List.replicate steps .proceed

/-- The loss was written down once. -/
theorem protocol_uponLoss :
    ((Scene.opening mosaicSession).run uponLoss).todo = .done none ∧
      calls ((Scene.opening mosaicSession).run uponLoss).history = [bystander] ∧
      ((Scene.opening mosaicSession).run uponLoss).session.pipeline.world = [mosaicSession.device] ∧
      Protocol ((Scene.opening mosaicSession).run uponLoss).toMoment ∧
      AfterLoss ((Scene.opening mosaicSession).run uponLoss).toMoment ∧
      Performed (Contact mosaicSession.device) mosaicSession.pipeline.cast []
        ((Scene.opening mosaicSession).run uponLoss).history
        ((Scene.opening mosaicSession).run uponLoss).session.pipeline.cast := by
  have hopened : (openWith mosaicSession.device
      (Pipeline.obligingSource Pipeline.mosaicCatalog)
      (Pipeline.create (Registry.empty.register .whiteBalance .whiteBalancer) {} [])).1 =
        .ok mosaicSession := rfl
  have hdone : ((Scene.opening mosaicSession).run uponLoss).todo = .done none := rfl
  obtain ⟨hprotocol, hlost, hperformed⟩ := protocol_run hopened uponLoss
  exact ⟨hdone, rfl, rfl, hprotocol, hlost none hdone rfl, hperformed⟩

end CameraStream.Session
