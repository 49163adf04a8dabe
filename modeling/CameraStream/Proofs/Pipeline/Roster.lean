import CameraStream.Proofs.Pipeline.Move
import Mathlib.Logic.Function.Basic

/-!
# The roster of all who are told to play

A `Roster` keeps a line on every source, sink and property filter that ever was attached to a
pipeline and on every stage that ever was in its chain: the last command it received, with its
answer. It is written from events alone (`rosterOf`), and knows nothing of the pipeline.

`Roster.Quiet` says that nobody was told to play last, `Roster.OthersQuiet` says it of all but the
newest of each kind.
-/

namespace CameraStream.Pipeline

variable {ω : Type}

/-- The last command that somebody received and whether they agreed, if there was one. -/
abbrev Heard := Option (Status × Bool)

namespace Heard

/-- The last command was to play, and was agreed to. -/
def playing : Heard := some (.playing, true)

/-- The last command was not to play. -/
def Quiet (h : Heard) : Prop := ∀ agreed, h ≠ some (.playing, agreed)

theorem quiet_none : Quiet none := fun _ h => nomatch h

theorem quiet_stopped (agreed : Bool) : Quiet (some (.stopped, agreed)) := fun _ h => nomatch h

end Heard

/-- All who were ever attached, the newest first, and the stages of all chains, likewise. -/
structure Roster where
  parts : Part → List Heard
  chains : List (List Heard) := []
  /-- The format that the newest sink was told to expect, if it was told one. -/
  announced : Option VideoFormat := none

namespace Roster

/-- There is a property filter from the beginning. -/
def opening : Roster where
  parts
  | .filter => [none]
  | .source | .sink => []

/-- The newest one receives a command. -/
def hear (told : Heard) : List Heard → List Heard
  | [] => []
  | _ :: rest => told :: rest

/-- The stages of a chain receive a command, as many of them as answered. -/
def hearAll (s : Status) : List Bool → List Heard → List Heard
  | agreed :: answers, _ :: rest => some (s, agreed) :: hearAll s answers rest
  | _, heard => heard

def see (r : Roster) : Event → Roster
  | .attached part =>
    { r with
      parts := Function.update r.parts part (none :: r.parts part)
      announced := if part = .sink then none else r.announced }
  | .told part s agreed =>
    { r with parts := Function.update r.parts part (hear (some (s, agreed)) (r.parts part)) }
  | .assembled plan =>
    { r with chains := List.replicate plan.stages.length none :: r.chains }
  | .toldStages s answers =>
    match r.chains with
    | [] => r
    | newest :: older => { r with chains := hearAll s answers newest :: older }
  | .announced f _ => { r with announced := some f }
  | .pushed _ _ _ | .fetched _ | .shown _ | .kept _ | .requeued _ | .returned _ => r

def seeAll (r : Roster) (h : List Event) : Roster := h.foldl see r

theorem seeAll_append (r : Roster) (h h' : List Event) :
    r.seeAll (h ++ h') = (r.seeAll h).seeAll h' := List.foldl_append

/-- Nobody was told to play last. -/
structure Quiet (r : Roster) : Prop where
  parts : ∀ part, ∀ h ∈ r.parts part, h.Quiet
  chains : ∀ c ∈ r.chains, ∀ h ∈ c, h.Quiet

/-- Nobody was told to play last, the newest ones left aside. -/
structure OthersQuiet (r : Roster) : Prop where
  parts : ∀ part, ∀ h ∈ (r.parts part).tail, h.Quiet
  chains : ∀ c ∈ r.chains.tail, ∀ h ∈ c, h.Quiet

theorem Quiet.othersQuiet {r : Roster} (h : r.Quiet) : r.OthersQuiet where
  parts part g hg := h.parts part g (List.mem_of_mem_tail hg)
  chains c hc := h.chains c (List.mem_of_mem_tail hc)

/-! ### A command is heard -/

theorem tail_hear (told : Heard) (l : List Heard) : (hear told l).tail = l.tail := by
  cases l with
  | nil => rfl
  | cons h rest => rfl

theorem hear_ne_nil {told : Heard} {l : List Heard} (h : l ≠ []) : hear told l ≠ [] := by
  cases l with
  | nil => exact absurd rfl h
  | cons g rest => exact List.cons_ne_nil _ _

theorem head?_hear {told : Heard} {l : List Heard} (h : l ≠ []) :
    (hear told l).head? = some told := by
  cases l with
  | nil => exact absurd rfl h
  | cons g rest => rfl

theorem quiet_hear {told : Heard} (htold : told.Quiet) {l : List Heard}
    (hl : ∀ h ∈ l.tail, h.Quiet) : ∀ h ∈ hear told l, h.Quiet := by
  cases l with
  | nil => exact nofun
  | cons g rest => exact List.forall_mem_cons.mpr ⟨htold, hl⟩

theorem length_hearAll (s : Status) (answers : List Bool) (l : List Heard) :
    (hearAll s answers l).length = l.length := by
  induction answers generalizing l with
  | nil => rfl
  | cons agreed answers ih =>
    cases l with
    | nil => rfl
    | cons h rest => exact congrArg (· + 1) (ih rest)

theorem hearAll_playing (l : List Heard) :
    hearAll .playing (List.replicate l.length true) l = List.replicate l.length .playing := by
  induction l with
  | nil => rfl
  | cons h rest ih => exact congrArg (Heard.playing :: ·) ih

theorem quiet_hearAll_stopped {answers : List Bool} {l : List Heard}
    (h : answers.length = l.length) : ∀ g ∈ hearAll .stopped answers l, g.Quiet := by
  induction answers generalizing l with
  | nil =>
    obtain rfl := List.length_eq_zero_iff.mp h.symm
    exact nofun
  | cons agreed answers ih =>
    cases l with
    | nil => cases h
    | cons g rest =>
      exact List.forall_mem_cons.mpr ⟨Heard.quiet_stopped agreed, ih (Nat.succ.inj h)⟩

section Told

variable (r : Roster) (part : Part) (s : Status) (agreed : Bool)

theorem parts_told_self :
    (r.see (.told part s agreed)).parts part = hear (some (s, agreed)) (r.parts part) :=
  Function.update_self ..

theorem parts_told_of_ne {other : Part} (h : other ≠ part) :
    (r.see (.told part s agreed)).parts other = r.parts other :=
  Function.update_of_ne h ..

theorem tail_parts_told (other : Part) :
    ((r.see (.told part s agreed)).parts other).tail = (r.parts other).tail := by
  by_cases h : other = part
  · rw [h, parts_told_self, tail_hear]
  · rw [r.parts_told_of_ne part s agreed h]

variable {r}

theorem OthersQuiet.told (h : r.OthersQuiet) : (r.see (.told part s agreed)).OthersQuiet where
  parts other g hg := by
    rw [tail_parts_told] at hg
    exact h.parts other g hg
  chains := h.chains

theorem see_toldStages (answers : List Bool) {newest : List Heard} {older : List (List Heard)}
    (h : r.chains = newest :: older) :
    r.see (.toldStages s answers) = { r with chains := hearAll s answers newest :: older } := by
  simp only [see, h]

theorem OthersQuiet.toldStages (h : r.OthersQuiet) (answers : List Bool) :
    (r.see (.toldStages s answers)).OthersQuiet := by
  rcases hchains : r.chains with _ | ⟨newest, older⟩
  · simpa only [see, hchains] using h
  · rw [see_toldStages s answers hchains]
    have holder := h.chains
    rw [hchains] at holder
    exact ⟨h.parts, holder⟩

end Told

/-! ### Somebody is attached -/

theorem parts_attached_self (r : Roster) (part : Part) :
    (r.see (.attached part)).parts part = none :: r.parts part :=
  Function.update_self ..

theorem parts_attached_of_ne (r : Roster) {part other : Part} (h : other ≠ part) :
    (r.see (.attached part)).parts other = r.parts other :=
  Function.update_of_ne h ..

theorem Quiet.attached {r : Roster} (h : r.Quiet) (part : Part) :
    (r.see (.attached part)).Quiet where
  parts other := by
    by_cases hne : other = part
    · rw [hne, parts_attached_self]
      exact List.forall_mem_cons.mpr ⟨Heard.quiet_none, h.parts part⟩
    · rw [r.parts_attached_of_ne hne]
      exact h.parts other
  chains := h.chains

end Roster

/-- The roster after some events. -/
def rosterOf (h : List Event) : Roster := Roster.opening.seeAll h

def Moment.roster (x : Moment ω) : Roster := rosterOf x.history

/-! ### Traffic -/

/-- An event of a buffer; nobody is attached or told anything. -/
def Event.isTraffic : Event → Bool
  | .pushed _ _ _ | .fetched _ | .shown _ | .kept _ | .requeued _ | .returned _ => true
  | .attached _ | .assembled _ | .announced _ _ | .told _ _ _ | .toldStages _ _ => false

theorem Roster.see_of_isTraffic (r : Roster) {e : Event} (h : e.isTraffic) : r.see e = r := by
  cases e with
  | pushed _ _ _ | fetched _ | shown _ | kept _ | requeued _ | returned _ => rfl
  | attached _ | assembled _ | announced _ _ | told _ _ _ | toldStages _ _ => cases h

theorem Roster.seeAll_of_isTraffic (r : Roster) {h : List Event} (hh : ∀ e ∈ h, e.isTraffic) :
    r.seeAll h = r := by
  induction h generalizing r with
  | nil => rfl
  | cons e rest ih =>
    rw [List.forall_mem_cons] at hh
    calc r.seeAll (e :: rest)
        = (r.see e).seeAll rest := rfl
      _ = r.see e := ih _ hh.2
      _ = r := r.see_of_isTraffic hh.1

/-! ### Announcements -/

/-- An event that says what format a sink expects, or that a new sink expects none yet. -/
def Event.isAnnouncement : Event → Bool
  | .announced _ _ | .attached .sink => true
  | _ => false

theorem Roster.announced_seeAll (r : Roster) {h : List Event}
    (hh : ∀ e ∈ h, e.isAnnouncement = false) : (r.seeAll h).announced = r.announced := by
  induction h generalizing r with
  | nil => rfl
  | cons e rest ih =>
    rw [List.forall_mem_cons] at hh
    have hsee : (r.see e).announced = r.announced := by
      cases e with
      | attached part =>
        cases part with
        | source | filter => rfl
        | sink => cases hh.1
      | announced f agreed => cases hh.1
      | toldStages s answers =>
        simp only [Roster.see]
        split
        · rfl
        · rfl
      | assembled _ | told _ _ _ | pushed _ _ _ | fetched _ | shown _ | kept _ | requeued _
      | returned _ => rfl
    calc (r.seeAll (e :: rest)).announced
        = ((r.see e).seeAll rest).announced := rfl
      _ = (r.see e).announced := ih _ hh.2
      _ = r.announced := hsee

theorem Event.isAnnouncement_of_isTraffic {e : Event} (h : e.isTraffic) :
    e.isAnnouncement = false := by
  cases e with
  | pushed _ _ _ | fetched _ | shown _ | kept _ | requeued _ | returned _ => rfl
  | attached _ | assembled _ | announced _ _ | told _ _ _ | toldStages _ _ => cases h

/-! ### Moves -/

/-- The roster is not written by moves. -/
theorem isTraffic_of_mem_seen (m : Move ω) (p : Pipeline ω) : ∀ e ∈ m.seen p, e.isTraffic := by
  have hdoes := does m p
  generalize m.step p = q, m.seen p = seen at hdoes ⊢
  cases hdoes with
  | fetched _ _ _ | handedBack _ _ _ | requeued _ _ | accepted _ _ _ | refused _ _ _ _ =>
    exact List.forall_mem_singleton.mpr rfl
  | kept _ _ => exact List.forall_mem_cons.mpr ⟨rfl, List.forall_mem_singleton.mpr rfl⟩
  | nothing _ | foundNone _ | skipped _ _ | filtered _ _ | stopped _ _ | failed _ _ _ _
  | processed _ _ _ _ | shownNobody _ _ _ | givenNobody _ _ _ | turned _ _ =>
    exact List.forall_mem_nil _

theorem roster_move (x : Moment ω) (m : Move ω) : (x.move m).roster = x.roster := by
  show rosterOf (x.history ++ m.seen x.pipeline) = rosterOf x.history
  unfold rosterOf
  rw [Roster.seeAll_append, Roster.seeAll_of_isTraffic _ (isTraffic_of_mem_seen m x.pipeline)]

theorem roster_moves (x : Moment ω) (ms : List (Move ω)) : (x.moves ms).roster = x.roster := by
  induction ms generalizing x with
  | nil => rfl
  | cons m ms ih => exact (ih (x.move m)).trans (roster_move x m)

end CameraStream.Pipeline
