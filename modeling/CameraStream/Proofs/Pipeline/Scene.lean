import CameraStream.Proofs.Pipeline.Script

/-!
# Scenes and schedules

A `Scene` is a pipeline in the middle of things: what it is and what was seen of it, and what is left
to do of the call that runs. A schedule is a list of `Choice`s: somebody calls, control proceeds by
one deed or look, or the pipeline moves. One call runs at a time, the others wait. Every way in which
control, worker and producers can take turns is a schedule, and `Scene.run` plays it.

What holds in every scene is proved by two rules.

* **Outlines** (`Scene.safe_run`): a `Spec` says what holds ahead of a deed, and what holds when a
  call is over. Scripts are gone through deed by deed, with assertions in between that no move can
  spoil (`Stable`).
* **Induction** (`Scene.induction`): what a move and a deed keep, given what an outline says, holds
  after every schedule.
-/

namespace CameraStream.Pipeline

variable {ω : Type}

/-- A moment and what is left to do of the call that runs. -/
structure Scene (ω : Type) extends Moment ω where
  todo : Script ω

/-- What happens next. -/
inductive Choice (ω : Type) where
  /-- Somebody calls. A call waits while another one runs. -/
  | call (c : Call ω)
  /-- Control does its next deed, or takes its next look. -/
  | proceed
  | move (m : Move ω)

namespace Scene

/-- What is seen of a choice. -/
def seen (s : Scene ω) : Choice ω → List Event
  | .call _ => []
  | .proceed =>
    match s.todo with
    | .act d _ => d.seen s.pipeline
    | .look _ | .done _ => []
  | .move m => m.seen s.pipeline

def next (s : Scene ω) : Choice ω → Scene ω
  | .call c =>
    match s.todo with
    | .done _ => { s with todo := c.script }
    | .act _ _ | .look _ => s
  | .proceed =>
    match s.todo with
    | .done _ => s
    | .act d rest => { toMoment := s.toMoment.deed d, todo := rest (d.step s.pipeline).1 }
    | .look f => { s with todo := f s.pipeline }
  | .move m => { s with toMoment := s.toMoment.move m }

/-- A pipeline that nothing is attached to and nothing was asked of. -/
def opening (registry : Registry (Blueprint ω)) (config : PipelineConfig) (world : ω) : Scene ω where
  pipeline := create registry config world
  todo := .done none

def run (s : Scene ω) (schedule : List (Choice ω)) : Scene ω := schedule.foldl next s

/-- Every event is seen when it happens. -/
theorem history_next (s : Scene ω) (c : Choice ω) : (s.next c).history = s.history ++ s.seen c := by
  obtain ⟨x, todo⟩ := s
  cases c with
  | move m => rfl
  | call c =>
    cases todo with
    | done _ | act _ _ | look _ => exact (List.append_nil _).symm
  | proceed =>
    cases todo with
    | act d rest => rfl
    | done _ | look _ => exact (List.append_nil _).symm

end Scene

/-! ### Assertions and moves -/

/-- No move spoils an assertion. -/
def Stable (A : Moment ω → Prop) : Prop := ∀ x m, A x → A (x.move m)

theorem Stable.moves {A : Moment ω → Prop} (h : Stable A) {x : Moment ω} (hx : A x)
    (ms : List (Move ω)) : A (x.moves ms) := by
  induction ms generalizing x with
  | nil => exact hx
  | cons m ms ih => exact ih (h x m hx)

/-! ### Outlines -/

/-- What is to hold of a pipeline ahead of each deed, and after each call with its result. -/
structure Spec (ω : Type) where
  ahead : Deed ω → Moment ω → Prop
  after : Option StreamError → Moment ω → Prop

namespace Script

/-- From a moment on, a script keeps to a specification, whatever moves come between. -/
def Safe (S : Spec ω) : Script ω → Moment ω → Prop
  | done err, x => ∀ ms, S.after err (x.moves ms)
  | act d rest, x => ∀ ms, S.ahead d (x.moves ms) ∧
      (rest (d.step (x.moves ms).pipeline).1).Safe S ((x.moves ms).deed d)
  | look next, x => ∀ ms, (next (x.moves ms).pipeline).Safe S (x.moves ms)

variable {S : Spec ω} {A : Moment ω → Prop} {x : Moment ω}

theorem Safe.move {s : Script ω} (h : s.Safe S x) (m : Move ω) : s.Safe S (x.move m) := by
  cases s with
  | done err => exact fun ms => h (m :: ms)
  | act d rest => exact fun ms => h (m :: ms)
  | look next => exact fun ms => h (m :: ms)

/-! A step of an outline: from a stable assertion that holds to the next one. -/

theorem safe_done {err : Option StreamError} (hA : Stable A) (hx : A x)
    (h : ∀ y, A y → S.after err y) : (done err).Safe S x :=
  fun ms => h _ (hA.moves hx ms)

theorem safe_act {d : Deed ω} {rest : Option StreamError → Script ω} (hA : Stable A) (hx : A x)
    (h : ∀ y, A y → S.ahead d y ∧ (rest (d.step y.pipeline).1).Safe S (y.deed d)) :
    (act d rest).Safe S x :=
  fun ms => h _ (hA.moves hx ms)

theorem safe_look {next : Pipeline ω → Script ω} (hA : Stable A) (hx : A x)
    (h : ∀ y, A y → (next y.pipeline).Safe S y) : (look next).Safe S x :=
  fun ms => h _ (hA.moves hx ms)

/-! Deeds in a row, where what is asserted may depend on the deeds done so far, the last one
first. -/

variable {B : List (Deed ω) → Moment ω → Prop}

theorem safe_all {ds : List (Deed ω)} (before : List (Deed ω)) {k : Script ω}
    (hB : ∀ done, Stable (B done)) (hx : B before x)
    (hstep : ∀ d ∈ ds, ∀ done y, B done y → S.ahead d y ∧ B (d :: done) (y.deed d))
    (hk : ∀ y, B (ds.reverse ++ before) y → k.Safe S y) : (all ds k).Safe S x := by
  -- Induction on what is left to do; what is done grows at its head.
  induction ds generalizing x before with
  | nil => exact hk x hx
  | cons d ds ih =>
    refine safe_act (hB before) hx fun y hy => ?_
    obtain ⟨hahead, hdone⟩ := hstep d List.mem_cons_self before y hy
    refine ⟨hahead, ih _ hdone (fun d' hd' => hstep d' (List.mem_cons_of_mem _ hd')) fun z hz => ?_⟩
    rw [List.reverse_cons, List.append_assoc] at hk
    exact hk z hz

/-- Where what is asserted depends on the deeds that are left. -/
theorem safe_inOrder_of_left {ds : List (Deed ω)} {k : Option StreamError → Script ω}
    {E : StreamError → Moment ω → Prop} (hB : ∀ left, Stable (B left)) (hx : B ds x)
    (hstep : ∀ d left y, B (d :: left) y → S.ahead d y ∧
      ((d.step y.pipeline).1 = none → B left (y.deed d)) ∧
      ∀ err, (d.step y.pipeline).1 = some err → E err (y.deed d))
    (hk : ∀ y, B [] y → (k none).Safe S y)
    (hE : ∀ err y, E err y → (k (some err)).Safe S y) : (inOrder ds k).Safe S x := by
  induction ds generalizing x with
  | nil => exact hk x hx
  | cons d ds ih =>
    refine safe_act (hB (d :: ds)) hx fun y hy => ?_
    obtain ⟨hahead, hdone, hfailed⟩ := hstep d ds y hy
    refine ⟨hahead, ?_⟩
    rcases hresult : (d.step y.pipeline).1 with _ | err
    · exact ih (hdone hresult)
    · exact hE err _ (hfailed err hresult)

theorem safe_inOrder {ds : List (Deed ω)} (before : List (Deed ω))
    {k : Option StreamError → Script ω} {E : StreamError → Moment ω → Prop}
    (hB : ∀ done, Stable (B done)) (hx : B before x)
    (hstep : ∀ d ∈ ds, ∀ done y, B done y → S.ahead d y ∧
      ((d.step y.pipeline).1 = none → B (d :: done) (y.deed d)) ∧
      ∀ err, (d.step y.pipeline).1 = some err → E err (y.deed d))
    (hk : ∀ y, B (ds.reverse ++ before) y → (k none).Safe S y)
    (hE : ∀ err y, E err y → (k (some err)).Safe S y) : (inOrder ds k).Safe S x := by
  -- What is left and what is done make up the whole row.
  refine safe_inOrder_of_left (B := fun left y =>
    ∃ made, left ⊆ ds ∧ left.reverse ++ made = ds.reverse ++ before ∧ B made y)
    ?_ ⟨before, List.Subset.refl ds, rfl, hx⟩ ?_ ?_ hE
  · exact fun left y m ⟨made, hleft, hrow, hy⟩ => ⟨made, hleft, hrow, hB made y m hy⟩
  · rintro d left y ⟨made, hleft, hrow, hy⟩
    obtain ⟨hahead, hdone, hfailed⟩ := hstep d (hleft List.mem_cons_self) made y hy
    refine ⟨hahead, fun hok => ⟨d :: made, ?_, ?_, hdone hok⟩, hfailed⟩
    · exact List.subset_of_cons_subset hleft
    · rw [← hrow, List.reverse_cons, List.append_assoc]
      rfl
  · rintro y ⟨made, -, hrow, hy⟩
    exact hk y (hrow ▸ hy)

end Script

/-! ### Every scene -/

namespace Scene

variable {S : Spec ω}

theorem safe_next {s : Scene ω} (hs : s.todo.Safe S s.toMoment) (c : Choice ω)
    (hc : ∀ c', c = .call c' → ∀ err x, (Script.done err).Safe S x → c'.script.Safe S x) :
    (s.next c).todo.Safe S (s.next c).toMoment := by
  obtain ⟨x, todo⟩ := s
  cases c with
  | call c' =>
    cases todo with
    | done err => exact hc c' rfl err x hs
    | act d rest => exact hs
    | look f => exact hs
  | proceed =>
    cases todo with
    | done err => exact hs
    | act d rest => exact (hs []).2
    | look f => exact hs []
  | move m => exact hs.move m

/-- **A specification that every call keeps holds in every scene.** -/
theorem safe_run {s : Scene ω} (hs : s.todo.Safe S s.toMoment) (schedule : List (Choice ω))
    (hcalls : ∀ c, .call c ∈ schedule →
      ∀ err x, (Script.done err).Safe S x → c.script.Safe S x) :
    (s.run schedule).todo.Safe S (s.run schedule).toMoment := by
  induction schedule generalizing s with
  | nil => exact hs
  | cons c rest ih =>
    refine ih (safe_next hs c ?_) ?_
    · rintro c' rfl
      exact hcalls c' List.mem_cons_self
    · exact fun c' hc' => hcalls c' (List.mem_cons_of_mem _ hc')

/-- **What every move and every deed keeps holds in every scene.** -/
theorem induction {s : Scene ω} {I : Moment ω → Prop} (hs : s.todo.Safe S s.toMoment)
    (hI : I s.toMoment)
    (hmove : ∀ x m, I x → I (x.move m))
    (hdeed : ∀ x d, S.ahead d x → I x → I (x.deed d))
    (schedule : List (Choice ω))
    (hcalls : ∀ c, .call c ∈ schedule →
      ∀ err x, (Script.done err).Safe S x → c.script.Safe S x) :
    I (s.run schedule).toMoment := by
  induction schedule generalizing s with
  | nil => exact hI
  | cons c rest ih =>
    refine ih (safe_next hs c ?_) ?_ ?_
    · rintro c' rfl
      exact hcalls c' List.mem_cons_self
    · obtain ⟨x, todo⟩ := s
      cases c with
      | call c' =>
        cases todo with
        | done err => exact hI
        | act d rest => exact hI
        | look f => exact hI
      | proceed =>
        cases todo with
        | done err => exact hI
        | act d rest => exact hdeed x d (hs []).1 hI
        | look f => exact hI
      | move m => exact hmove x m hI
    · exact fun c' hc' => hcalls c' (List.mem_cons_of_mem _ hc')

end Scene
end CameraStream.Pipeline
