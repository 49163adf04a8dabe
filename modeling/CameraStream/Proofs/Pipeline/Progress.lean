import CameraStream.Proofs.Pipeline.Scene

/-!
# Calls come to an end

No script loops, and none waits for anybody: whatever the parts answer and whatever moves come
between, every call is over once control has proceeded twenty-six times (**`exists_done_of_proceeds`**).

What a call does has nothing to do with what was seen before it. So its course may be studied in a
scene that begins with it (`Scene.run_after`).
-/

namespace CameraStream.Pipeline

variable {ω : Type}

/-! ### How much there is to do -/

namespace Script

/-- No more than so many deeds and looks are left, whatever comes of them. -/
def Within : Nat → Script ω → Prop
  | _, done _ => True
  | 0, act _ _ | 0, look _ => False
  | n + 1, act _ rest => ∀ result, (rest result).Within n
  | n + 1, look next => ∀ p, (next p).Within n

variable {n m : Nat} {k : Option StreamError → Script ω}

theorem Within.mono {s : Script ω} (h : s.Within n) (hnm : n ≤ m) : s.Within m := by
  induction s generalizing n m with
  | done err => cases m <;> trivial
  | act d rest ih =>
    cases n with
    | zero => cases h
    | succ n =>
      obtain ⟨m, rfl⟩ := Nat.exists_eq_add_of_lt hnm
      exact fun result => ih result (h result) (by omega)
  | look next ih =>
    cases n with
    | zero => cases h
    | succ n =>
      obtain ⟨m, rfl⟩ := Nat.exists_eq_add_of_lt hnm
      exact fun p => ih p (h p) (by omega)

theorem within_done (err : Option StreamError) : (done err : Script ω).Within n := by
  cases n <;> trivial

theorem within_look {next : Pipeline ω → Script ω} (h : ∀ p, (next p).Within n) :
    (look next).Within (n + 1) := h

theorem within_all {ds : List (Deed ω)} {k : Script ω} (hk : k.Within n)
    (hm : n + ds.length ≤ m) : (all ds k).Within m := by
  have hlength : (all ds k).Within (n + ds.length) := by
    clear hm
    induction ds with
    | nil => exact hk
    | cons d ds ih => exact fun _ => ih
  exact hlength.mono hm

theorem within_inOrder {ds : List (Deed ω)} (hk : ∀ result, (k result).Within n)
    (hm : n + ds.length ≤ m) : (inOrder ds k).Within m := by
  have hlength : (inOrder ds k).Within (n + ds.length) := by
    clear hm
    induction ds with
    | nil => exact hk none
    | cons d ds ih =>
      intro result
      cases result with
      | none => exact ih
      | some err => exact (hk (some err)).mono (Nat.le_add_right n ds.length)
  exact hlength.mono hm

/-! The scripts of the calls. -/

theorem within_halt {k : Script ω} (hk : k.Within n) : (halt k).Within (n + 7) :=
  within_all hk (Nat.le_refl _)

theorem within_rollBack (result : Option StreamError) : (rollBack result : Script ω).Within 7 := by
  cases result with
  | none => exact within_done none
  | some err => exact within_halt (n := 0) (within_done (some err))

theorem within_playBy {ds : List (Deed ω)} (hm : 7 + ds.length ≤ m) : (playBy ds).Within (m + 1) :=
  fun _ => within_inOrder within_rollBack hm

theorem within_realize (plan : Plan) (hk : ∀ result, (k result).Within n) :
    (realize plan k).Within (n + 6) := by
  refine within_inOrder (n := n + 4) (fun result => ?_) (Nat.le_refl _)
  cases result with
  | some err => exact (hk (some err)).mono (Nat.le_add_right n 4)
  | none => exact within_look fun p => within_inOrder hk (Nat.le_refl _)

theorem within_negotiateAndRealize (hk : ∀ result, (k result).Within n) :
    (negotiateAndRealize k).Within (n + 8) := by
  refine within_look fun p result => ?_
  split
  · exact (hk _).mono (Nat.le_add_right n 6)
  · exact within_realize _ hk

/-- After a failure the status remains to be entered. -/
theorem within_build (hk : (k none).Within (n + 1)) (hE : ∀ err, (k (some err)).Within n) :
    (build k).Within (n + 11) := by
  refine within_look fun p => ?_
  split
  · exact (hE _).mono (Nat.le_add_right n 10)
  · split
    · exact (hE _).mono (Nat.le_add_right n 10)
    · split
      · exact (hE _).mono (Nat.le_add_right n 10)
      · intro _
        refine within_negotiateAndRealize (n := n + 1) fun result => ?_
        cases result with
        | none => exact hk
        | some err => exact fun _ => hE err

theorem within_play : (play : Script ω).Within 25 := by
  refine within_look fun p => ?_
  split
  · exact within_playBy (Nat.le_of_ble_eq_true rfl)
  · exact within_build (n := 13) (within_playBy (Nat.le_refl _)) fun err => within_done (some err)

theorem within_stop : (stop : Script ω).Within 8 := by
  refine within_look fun p => ?_
  split
  · exact within_halt (within_done none)
  · split
    · exact within_done _
    · split
      · exact fun result => within_done result
      · exact within_done _

theorem within_setStatus (target : Status) : (setStatus target : Script ω).Within 26 := by
  refine within_look fun p => ?_
  split
  · exact within_done none
  · cases target with
    | playing => exact within_play
    | paused =>
      simp only
      split
      · exact within_all (n := 0) (within_done none) (Nat.le_of_ble_eq_true rfl)
      · exact within_done _
    | stopped => exact within_stop.mono (by decide)
    | undefined | error => exact within_done _

theorem within_destroy : (destroy : Script ω).Within 9 := by
  have hlet : (act .letGo done : Script ω).Within 1 := fun result => within_done result
  refine within_look fun p => ?_
  split
  · exact within_halt hlet
  · exact hlet.mono (by decide)

end Script

/-- **Every call is made of at most twenty-six deeds and looks.** -/
theorem Call.within_script (c : Call ω) : c.script.Within 26 := by
  cases c with
  | setSource _ | setSink _ | setFilter _ | request _ | requestFormat _ | setDropIncomplete _
  | requeue _ => exact fun result => Script.within_done result
  | build =>
    exact (Script.within_build (n := 0) (Script.within_done none)
      fun err => Script.within_done (some err)).mono (by decide)
  | setStatus target => exact Script.within_setStatus target
  | destroy => exact Script.within_destroy.mono (by decide)

/-! ### Schedules -/

def Choice.isProceed : Choice ω → Bool
  | .proceed => true
  | .call _ | .move _ => false

namespace Scene

theorem exists_done_of_within {s : Scene ω} {n : Nat} (hs : s.todo.Within n)
    {schedule : List (Choice ω)} (hcalls : ∀ c, .call c ∉ schedule)
    (hn : n ≤ schedule.countP Choice.isProceed) : ∃ err, (s.run schedule).todo = .done err := by
  induction schedule generalizing s n with
  | nil =>
    obtain rfl := Nat.le_zero.mp hn
    obtain ⟨x, todo⟩ := s
    cases todo with
    | done err => exact ⟨err, rfl⟩
    | act _ _ | look _ => cases hs
  | cons choice rest ih =>
    have hrest : ∀ c, .call c ∉ rest := fun c hc => hcalls c (List.mem_cons_of_mem _ hc)
    cases choice with
    | call c => exact absurd List.mem_cons_self (hcalls c)
    | move m => exact ih (s := s.next (.move m)) hs hrest hn
    | proceed =>
      -- Whatever control does there is less left to do, unless the call is over already.
      have hcount : n - 1 ≤ rest.countP Choice.isProceed := by
        rw [List.countP_cons_of_pos rfl] at hn
        omega
      refine ih (s := s.next .proceed) ?_ hrest hcount
      obtain ⟨x, todo⟩ := s
      cases todo with
      | done err => exact Script.within_done err
      | act d rest =>
        cases n with
        | zero => cases hs
        | succ n => exact hs _
      | look next =>
        cases n with
        | zero => cases hs
        | succ n => exact hs _

/-- A scene with other events before it. -/
def after (h : List Event) (s : Scene ω) : Scene ω := { s with history := h ++ s.history }

theorem next_after (h : List Event) (s : Scene ω) (c : Choice ω) :
    (s.after h).next c = (s.next c).after h := by
  obtain ⟨⟨p, history⟩, todo⟩ := s
  cases c with
  | move m => exact congrArg (Scene.mk ⟨_, ·⟩ _) (List.append_assoc ..)
  | call c =>
    cases todo with
    | done _ | act _ _ | look _ => rfl
  | proceed =>
    cases todo with
    | done _ | look _ => rfl
    | act d rest => exact congrArg (Scene.mk ⟨_, ·⟩ _) (List.append_assoc ..)

/-- **What happens does not depend on what was seen before.** -/
theorem run_after (h : List Event) (s : Scene ω) (schedule : List (Choice ω)) :
    (s.after h).run schedule = (s.run schedule).after h := by
  induction schedule generalizing s with
  | nil => rfl
  | cons c rest ih =>
    calc (s.after h).run (c :: rest)
        = ((s.after h).next c).run rest := rfl
      _ = ((s.next c).after h).run rest := by rw [next_after]
      _ = (s.run (c :: rest)).after h := ih (s.next c)

end Scene

/-- **A call is over once control has proceeded often enough.** -/
theorem exists_done_of_proceeds {s : Scene ω} (c : Call ω) (hs : s.todo = c.script)
    {schedule : List (Choice ω)} (hcalls : ∀ c', .call c' ∉ schedule)
    (hn : 26 ≤ schedule.countP Choice.isProceed) : ∃ err, (s.run schedule).todo = .done err :=
  Scene.exists_done_of_within (hs ▸ c.within_script) hcalls hn

end CameraStream.Pipeline
