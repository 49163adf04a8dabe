import CameraStream.Chain
import Mathlib.Data.List.Forall2

/-!
# Chains at work

A stage changes while it works and when it is told a status, but what it is and what it is bound to
stays: `Stage.Continues`. So it is with chains. Nothing that happens to a chain after it was built
changes what it was built for (`continues_run`, `continues_setStatus`).
-/

namespace CameraStream

variable {ω : Type}

/-! ### Stages -/

/-- A stage at a later time: what it has learned and its status may have changed. -/
inductive Stage.Continues : Stage ω → Stage ω → Prop
  | converter {c c' : Converter} (descriptor : c'.descriptor = c.descriptor)
      (kernel : c'.kernel = c.kernel) (formats : c'.formats = c.formats) :
      Continues (.converter c) (.converter c')
  | whiteBalancer {b b' : WhiteBalancer} (format : b'.format = b.format) :
      Continues (.whiteBalancer b) (.whiteBalancer b')
  | frameCounter (c : FrameCounter) : Continues (.frameCounter c) (.frameCounter c)
  | device (d : StageDevice ω) : Continues (.device d) (.device d)

namespace Stage

theorem Continues.refl (s : Stage ω) : s.Continues s := by
  cases s with
  | converter c => exact .converter rfl rfl rfl
  | whiteBalancer b => exact .whiteBalancer rfl
  | frameCounter c => exact .frameCounter c
  | device d => exact .device d

theorem Continues.trans {s t u : Stage ω} (h : s.Continues t) (h' : t.Continues u) :
    s.Continues u := by
  cases h with
  | converter hd hk hf =>
    cases h' with
    | converter hd' hk' hf' => exact .converter (hd'.trans hd) (hk'.trans hk) (hf'.trans hf)
  | whiteBalancer hf =>
    cases h' with
    | whiteBalancer hf' => exact .whiteBalancer (hf'.trans hf)
  | frameCounter c =>
    cases h'
    exact .frameCounter c
  | device d =>
    cases h'
    exact .device d

theorem Continues.name {s t : Stage ω} (h : s.Continues t) : t.name = s.name := by
  cases h with
  | converter descriptor _ _ => exact congrArg StageDescriptor.name descriptor
  | whiteBalancer _ | frameCounter _ | device _ => rfl

theorem format_of_transform_ok {b b' : WhiteBalancer} {f f' : Frame}
    (h : b.transform f = .ok (f', b')) : b'.format = b.format := by
  unfold WhiteBalancer.transform at h
  split at h
  · cases h
  · rename_i format hformat
    rcases hcheck : checkFormat StageDescriptor.whiteBalance.name format f with err | _
    · rw [hcheck] at h
      cases h
    · rw [hcheck] at h
      rcases hmosaic : format.encoding.mosaic with _ | m
      · simp only [hmosaic] at h
        cases h
        rfl
      · simp only [hmosaic] at h
        cases h
        rfl

theorem continues_transform (s : Stage ω) (f : Frame) (e : Surroundings ω) :
    s.Continues (s.transform f e).stage := by
  cases s with
  | converter c =>
    simp only [transform]
    split
    · exact .refl _
    · exact .refl _
  | whiteBalancer b =>
    simp only [transform]
    split
    · next f' b' h => exact .whiteBalancer (format_of_transform_ok h)
    · exact .refl _
  | frameCounter c =>
    simp only [transform]
    split
    · exact .refl _
    · exact .refl _
  | device d => exact .device d

theorem continues_setStatus (s : Stage ω) (t : Status) (w : ω) :
    s.Continues (s.setStatus t w).2.1 := by
  cases s with
  | converter c =>
    simp only [setStatus, Converter.setStatus]
    split
    · exact .refl _
    · exact .converter rfl rfl rfl
  | whiteBalancer b => exact .whiteBalancer rfl
  | frameCounter c => exact .frameCounter c
  | device d => exact .device d

end Stage

/-! ### Building -/

theorem Registry.mem_of_entry? {β : Type} {r : Registry β} {name : String} {x : RegistryEntry β}
    (h : r.entry? name = some x) : x ∈ r.entries ∧ x.name = name := by
  have hname := List.find?_some h
  exact ⟨List.mem_of_find?_eq_some h, eq_of_beq hname⟩

namespace Chain

/-- The first of the stages that were made agreed to its formats, and the others were made in the
world it left. -/
theorem makeStages_ok {r : Registry (Blueprint ω)} {planned : PlannedStage}
    {rest : List PlannedStage} {w w' : ω} {ss : List (Stage ω)}
    (h : makeStages r (planned :: rest) w = (.ok ss, w')) :
    ∃ blueprint stage others v, r.blueprint? planned.name = some blueprint ∧
      (blueprint.make w).1.bind planned.input planned.output (blueprint.make w).2 =
        (true, stage, v) ∧
      ss = stage :: others ∧ makeStages r rest v = (.ok others, w') := by
  simp only [makeStages] at h
  split at h
  · cases h
  · next blueprint hblueprint =>
    rcases hbind : (blueprint.make w).1.bind planned.input planned.output (blueprint.make w).2 with
      ⟨agreed, stage, v⟩
    rw [hbind] at h
    cases agreed with
    | false => cases h
    | true =>
      rcases hrest : makeStages r rest v with ⟨err | others, w''⟩
      · simp only [if_true, hrest] at h
        cases h
      · simp only [if_true, hrest] at h
        cases h
        exact ⟨blueprint, stage, others, v, hblueprint, hbind, rfl, hrest⟩

/-- What is so of everything that a registered stage makes, once it has agreed to the formats that are
planned under its name, is so of all stages of a chain. -/
theorem forall₂_makeStages {r : Registry (Blueprint ω)} {P : PlannedStage → Stage ω → Prop}
    (hP : ∀ {planned x stage w w' v}, x ∈ r.entries → x.name = planned.name →
      (x.blueprint.make w).1.bind planned.input planned.output w' = (true, stage, v) →
        P planned stage)
    {ps : List PlannedStage} {w w' : ω} {ss : List (Stage ω)}
    (h : makeStages r ps w = (.ok ss, w')) : List.Forall₂ P ps ss := by
  induction ps generalizing w ss with
  | nil =>
    cases h
    exact .nil
  | cons planned rest ih =>
    obtain ⟨_, stage, others, v, hblueprint, hbind, rfl, hrest⟩ := makeStages_ok h
    obtain ⟨x, hx, rfl⟩ := Option.map_eq_some_iff.mp hblueprint
    obtain ⟨hmem, hname⟩ := Registry.mem_of_entry? hx
    exact .cons (hP hmem hname hbind) (ih hrest)

theorem length_makeStages {r : Registry (Blueprint ω)} {ps : List PlannedStage} {w w' : ω}
    {ss : List (Stage ω)} (h : makeStages r ps w = (.ok ss, w')) : ss.length = ps.length :=
  (forall₂_makeStages (P := fun _ _ => True) (fun _ _ _ => trivial) h).length_eq.symm

/-- A chain that was built has the stages and the formats of its plan, and is stopped. -/
theorem build_ok {plan : Plan} {r : Registry (Blueprint ω)} {w w' : ω} {c : Chain ω}
    (h : build plan r w = (.ok c, w')) :
    makeStages r plan.stages w = (.ok c.stages, w') ∧ c.sourceFormat = plan.sourceFormat ∧
      c.sinkFormat = plan.sinkFormat ∧ c.status = .stopped := by
  unfold build at h
  rcases hmade : makeStages r plan.stages w with ⟨err | ss, w''⟩
  · rw [hmade] at h
    cases h
  · rw [hmade] at h
    cases h
    exact ⟨rfl, rfl, rfl, rfl⟩

end Chain

/-! ### Chains -/

/-- A chain at a later time. -/
structure Chain.Continues (c c' : Chain ω) : Prop where
  sourceFormat : c'.sourceFormat = c.sourceFormat
  sinkFormat : c'.sinkFormat = c.sinkFormat
  stages : List.Forall₂ Stage.Continues c.stages c'.stages

namespace Chain

theorem continues_stages_refl (ss : List (Stage ω)) : List.Forall₂ Stage.Continues ss ss :=
  List.forall₂_same.mpr fun s _ => .refl s

/-- What is so of stages at one time, and of every stage that continues one of which it is so, is so at
a later time. -/
theorem forall₂_continues {α : Type} {P : α → Stage ω → Prop} {as : List α}
    {ss ss' : List (Stage ω)} (h : List.Forall₂ P as ss)
    (hss : List.Forall₂ Stage.Continues ss ss') (hP : ∀ {a s t}, P a s → s.Continues t → P a t) :
    List.Forall₂ P as ss' := by
  induction h generalizing ss' with
  | nil =>
    cases hss
    exact .nil
  | cons hs _ ih =>
    cases hss with
    | cons ht hrest => exact .cons (hP hs ht) (ih hrest)

theorem Continues.refl (c : Chain ω) : c.Continues c := ⟨rfl, rfl, continues_stages_refl _⟩

theorem Continues.trans {c c' c'' : Chain ω} (h : c.Continues c') (h' : c'.Continues c'') :
    c.Continues c'' where
  sourceFormat := h'.sourceFormat.trans h.sourceFormat
  sinkFormat := h'.sinkFormat.trans h.sinkFormat
  stages := forall₂_continues h.stages h'.stages Stage.Continues.trans

theorem Continues.stageNames {c c' : Chain ω} (h : c.Continues c') : c'.stageNames = c.stageNames := by
  have hstages := h.stages
  unfold Chain.stageNames
  generalize c.stages = ss, c'.stages = ss' at hstages
  induction hstages with
  | nil => rfl
  | cons hs _ ih => rw [List.map_cons, List.map_cons, hs.name, ih]

theorem continues_run (ss : List (Stage ω)) (f : Frame) (e : Surroundings ω) :
    List.Forall₂ Stage.Continues ss (run ss f e).stages := by
  induction ss generalizing f e with
  | nil => exact .nil
  | cons s rest ih =>
    simp only [run]
    split
    · exact .cons (s.continues_transform f e) (continues_stages_refl rest)
    · exact .cons (s.continues_transform f e) (ih _ _)

theorem continues_commandUntilRefusal (t : Status) (ss : List (Stage ω)) (w : ω) :
    List.Forall₂ Stage.Continues ss (commandUntilRefusal t ss w).2.1 := by
  induction ss generalizing w with
  | nil => exact .nil
  | cons s rest ih =>
    simp only [commandUntilRefusal]
    split
    · exact .cons (s.continues_setStatus t w) (ih _)
    · exact .cons (s.continues_setStatus t w) (continues_stages_refl rest)

theorem continues_commandAll (t : Status) (ss : List (Stage ω)) (w : ω) :
    List.Forall₂ Stage.Continues ss (commandAll t ss w).1 := by
  induction ss generalizing w with
  | nil => exact .nil
  | cons s rest ih => exact .cons (s.continues_setStatus t w) (ih _)

theorem continues_setStatus (c : Chain ω) (t : Status) (w : ω) :
    c.Continues (c.setStatus t w).2.1 := by
  unfold setStatus
  split
  · have h := continues_commandUntilRefusal t c.stages w
    generalize commandUntilRefusal t c.stages w = told at h ⊢
    rcases told with ⟨_ | name, ss, w'⟩
    · exact ⟨rfl, rfl, h⟩
    · exact ⟨rfl, rfl, h⟩
  · exact ⟨rfl, rfl, continues_commandAll t c.stages w⟩

/-- Telling a chain to stop stops it. -/
theorem status_setStatus_of_inactive (c : Chain ω) {t : Status} (ht : t.isActive = false) (w : ω) :
    (c.setStatus t w).2.1.status = t := by
  unfold setStatus
  rw [ht]
  rfl

/-- A chain that agrees to an active status has it, and all of its stages agreed. -/
theorem setStatus_of_agreed (c : Chain ω) {t : Status} (ht : t.isActive = true) {w : ω}
    (h : (c.setStatus t w).1 = none) :
    (c.setStatus t w).2.1.status = t ∧ (commandUntilRefusal t c.stages w).1 = none := by
  unfold setStatus at h ⊢
  simp only [ht, if_true] at h ⊢
  generalize commandUntilRefusal t c.stages w = told at h ⊢
  rcases told with ⟨_ | name, ss, w'⟩
  · exact ⟨rfl, rfl⟩
  · cases h

/-- A chain that does not agree names the stage that refused. -/
theorem setStatus_of_refused (c : Chain ω) {t : Status} (ht : t.isActive = true) {w : ω}
    {err : StreamError} (h : (c.setStatus t w).1 = some err) :
    ∃ name, err = .stageFailed name ∧ (commandUntilRefusal t c.stages w).1 = some name := by
  unfold setStatus at h
  simp only [ht, if_true] at h
  generalize commandUntilRefusal t c.stages w = told at h ⊢
  rcases told with ⟨_ | name, ss, w'⟩
  · cases h
  · exact ⟨name, (Option.some.inj h).symm, rfl⟩

end Chain
end CameraStream
