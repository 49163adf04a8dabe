import CameraStream.Proofs.Pixels.Reading
import CameraStream.Proofs.Realization
import CameraStream.Proofs.Validation

/-!
# Frames on their way through a plan

A stage of the library does one of two things with a frame. If the frame is in the format that the
stage is bound to, the stage succeeds and changes the payload and the format, to the one that the
next stage is bound to, but nothing else that is known of the frame (`Stage.transform_of_format`).
If it is not, the stage refuses it and changes nothing (`Stage.transform_of_ne`). So by induction a
frame in the source's format gets through all of a continuous chain, and any other frame is refused
by the first stage. Kernels have no part in this: none of them fails, whatever the length of the
payload, and none misses a sample (`Stage.Sound`).

Where a registry has stages of the library only, the chain of every plan is of this kind, however
many frames it has seen. To process a frame is all or nothing (**`process_of_negotiate`**).
-/

namespace CameraStream

variable {ω : Type}

/-! ### One stage -/

namespace Stage

theorem checkFormat_of_eq {stage : String} {expected : VideoFormat} {f : Frame}
    (h : f.format = expected) : checkFormat stage expected f = .ok () := if_pos h

/-- A stage of the library makes a frame of the one format out of one of the other, and leaves the
rest that is known of it. -/
theorem transform_of_format {s : Stage ω} {input output : VideoFormat} (h : s.BoundTo input output)
    {f : Frame} (hformat : f.format = input) (e : Surroundings ω) :
    (s.transform f e).error = none ∧
      (s.transform f e).frame.info = { f.info with format := output } := by
  cases h with
  | converter hformats =>
    simp only [transform, Converter.transform, hformats, checkFormat_of_eq hformat]
    exact ⟨rfl, rfl⟩
  | whiteBalancer hbound =>
    subst hformat
    rcases hmosaic : f.format.encoding.mosaic with _ | m
    · simp only [transform, WhiteBalancer.transform, hbound, checkFormat_of_eq rfl, hmosaic]
      exact ⟨rfl, rfl⟩
    · simp only [transform, WhiteBalancer.transform, hbound, checkFormat_of_eq rfl, hmosaic]
      exact ⟨rfl, rfl⟩
  | frameCounter hbound =>
    subst hformat
    simp only [transform, FrameCounter.observe, hbound, checkFormat_of_eq rfl]
    exact ⟨rfl, rfl⟩

/-- A stage of the library that is bound agrees to every status. -/
theorem exists_setStatus {s : Stage ω} {input output : VideoFormat} (h : s.BoundTo input output)
    (t : Status) (w : ω) : ∃ s', s.setStatus t w = (true, s', w) := by
  cases h with
  | converter hformats =>
    simp only [setStatus, Converter.setStatus, hformats, reduceCtorEq, and_false, if_false]
    exact ⟨_, rfl⟩
  | whiteBalancer _ => exact ⟨_, rfl⟩
  | frameCounter _ => exact ⟨_, rfl⟩

end Stage

/-! ### Stages in a row -/

namespace Realizes

variable {planned : List PlannedStage} {ss : List (Stage ω)}

/-- A frame in the format at the beginning gets through, and comes out in the format at the end. -/
theorem run_of_format (h : Realizes planned ss) {input output : VideoFormat}
    (hcontinuous : Continuous input planned output) {f : Frame} (hformat : f.format = input)
    (e : Surroundings ω) :
    (Chain.run ss f e).error = none ∧
      (Chain.run ss f e).frame.info = { f.info with format := output } := by
  induction h generalizing input f e with
  | nil =>
    cases hcontinuous
    subst hformat
    exact ⟨rfl, rfl⟩
  | cons hs _ ih =>
    cases hcontinuous with
    | cons hrest =>
      obtain ⟨hok, hinfo⟩ := Stage.transform_of_format hs hformat e
      -- What the stage left behind is in the format that the others take.
      obtain ⟨hok', hinfo'⟩ := ih hrest (congrArg FrameInfo.format hinfo) _
      simp only [Chain.run, hok]
      refine ⟨hok', ?_⟩
      rw [hinfo', hinfo]

/-- Any other frame is refused by the first stage, and everything stays as it was. -/
theorem run_of_ne {planned : PlannedStage} {rest : List PlannedStage}
    (h : Realizes (planned :: rest) ss) {f : Frame} (hne : f.format ≠ planned.input)
    (e : Surroundings ω) :
    ∃ first, (ss.map (·.name)).head? = some first ∧
      Chain.run ss f e = ⟨some (.formatMismatch first planned.input f.format), f, ss, e⟩ := by
  cases h with
  | @cons _ s _ others hs _ =>
    refine ⟨s.name, rfl, ?_⟩
    simp only [Chain.run, Stage.transform_of_ne hs hne]

theorem exists_commandUntilRefusal (h : Realizes planned ss) (t : Status) (w : ω) :
    ∃ ss', Chain.commandUntilRefusal t ss w = (none, ss', w) := by
  induction h with
  | nil => exact ⟨[], rfl⟩
  | cons hs _ ih =>
    obtain ⟨s', hagreed⟩ := Stage.exists_setStatus hs t w
    obtain ⟨others, hothers⟩ := ih
    refine ⟨s' :: others, ?_⟩
    simp only [Chain.commandUntilRefusal, hagreed, hothers, if_true]

end Realizes

/-! ### Stages of the library -/

namespace Blueprint

/-- The library has conversions by its kernels, and two interpretations. -/
theorem builtins_cases {d : StageDescriptor} {b : Blueprint ω} (h : (d, b) ∈ builtins) :
    (∃ role k k?, d.kind = .conversion role ∧ b = .converter d k ∧ (k, k?) ∈ Kernel.checked) ∨
      (d = .whiteBalance ∧ b = .whiteBalancer) ∨ (d = .frameStatistics ∧ b = .frameCounter) := by
  simp only [builtins, List.mem_cons, Prod.mk.injEq, List.not_mem_nil, or_false] at h
  rcases h with ⟨rfl, rfl⟩ | ⟨rfl, rfl⟩ | ⟨rfl, rfl⟩ | ⟨rfl, rfl⟩ | ⟨rfl, rfl⟩ | h | h
  · exact Or.inl ⟨_, _, _, rfl, rfl, List.mem_cons_self⟩
  · exact Or.inl ⟨_, _, Pixels.demosaic?, rfl, rfl, by simp [Kernel.checked]⟩
  · exact Or.inl ⟨_, _, fun i o d => some (Pixels.convertColor i o d), rfl, rfl, by
      simp [Kernel.checked]⟩
  · exact Or.inl ⟨_, _, fun _ _ d => some d, rfl, rfl, by simp [Kernel.checked]⟩
  · exact Or.inl ⟨_, _, Pixels.combined?, rfl, rfl, by simp [Kernel.checked]⟩
  · exact Or.inr (Or.inl h)
  · exact Or.inr (Or.inr h)

end Blueprint

namespace Stage

/-- The stage takes no liberties: where its kernel looks for samples it finds them, and the width
that it divides by is not zero. -/
def Sound : Stage ω → Prop
  | .converter c => ∃ k?, (c.kernel, k?) ∈ Kernel.checked ∧
      ∀ input output data, k? input output data = some (c.kernel input output data)
  | .whiteBalancer b => ∀ f, b.format = some f → f.size.width ≠ 0
  | .frameCounter _ => True
  | .device _ => False

/-- A stage at work where one was planned. -/
structure Serves (s : Stage ω) (planned : PlannedStage) : Prop where
  name : s.name = planned.name
  bound : s.BoundTo planned.input planned.output
  sound : s.Sound

theorem Sound.continues {s t : Stage ω} (h : s.Sound) (ht : s.Continues t) : t.Sound := by
  cases ht with
  | converter _ hkernel _ =>
    simp only [Sound, hkernel]
    exact h
  | whiteBalancer hformat =>
    simp only [Sound, hformat]
    exact h
  | frameCounter _ | device _ => exact h

theorem Serves.continues {s t : Stage ω} {planned : PlannedStage} (h : s.Serves planned)
    (ht : s.Continues t) : t.Serves planned :=
  ⟨ht.name.trans h.name, h.bound.continues ht, h.sound.continues ht⟩

/-- What is made by a blueprint of the library serves the purpose, once it has agreed to the
formats. -/
theorem serves_of_bind {d : StageDescriptor} {b : Blueprint ω} (h : (d, b) ∈ Blueprint.builtins)
    {planned : PlannedStage} (hname : d.name = planned.name) {w w' v : ω} {s : Stage ω}
    (hbind : (b.make w).1.bind planned.input planned.output w' = (true, s, v)) :
    s.Serves planned := by
  have hcases := Blueprint.builtins_cases h
  have hlibrary : b.IsLibrary := by
    rcases hcases with ⟨_, _, _, -, rfl, -⟩ | ⟨-, rfl⟩ | ⟨-, rfl⟩ <;> trivial
  have hbound := boundTo_of_bind hlibrary hbind
  rcases hcases with ⟨_, k, k?, -, rfl, hk⟩ | ⟨rfl, rfl⟩ | ⟨rfl, rfl⟩
  · simp only [Blueprint.make, bind, Converter.bind] at hbind
    split at hbind <;> cases hbind
    exact ⟨hname, hbound, k?, hk, Kernel.checked_eq hk⟩
  · simp only [Blueprint.make, bind, WhiteBalancer.bind] at hbind
    split at hbind <;> cases hbind
    next hagreed =>
      refine ⟨hname, hbound, ?_⟩
      rintro f ⟨⟩
      exact hagreed.2.2.1
  · simp only [Blueprint.make, bind, FrameCounter.bind] at hbind
    split at hbind <;> cases hbind
    exact ⟨hname, hbound, trivial⟩

end Stage

/-- Every registered stage is one of the library's own. -/
def Registry.IsBuiltin (r : Registry (Blueprint ω)) : Prop :=
  ∀ x ∈ r.entries, (x.descriptor, x.blueprint) ∈ Blueprint.builtins

theorem Registry.IsBuiltin.honest {r : Registry (Blueprint ω)} (hr : r.IsBuiltin) : r.Honest := by
  rintro ⟨d, b⟩ hx
  have hmem : (d, b) ∈ Blueprint.builtins := hr _ hx
  rcases Blueprint.builtins_cases hmem with ⟨_, k, _, hkind, rfl, -⟩ | ⟨rfl, rfl⟩ | ⟨rfl, rfl⟩
  · exact .conversion hkind k
  · exact .whiteBalance
  · exact .frameStatistics

/-! ### Chains at work -/

namespace Chain

/-- Stages of the library, one for every planned one. -/
def Serve (planned : List PlannedStage) (ss : List (Stage ω)) : Prop :=
  List.Forall₂ (fun p s => s.Serves p) planned ss

namespace Serve

variable {planned : List PlannedStage} {ss : List (Stage ω)}

theorem of_makeStages {r : Registry (Blueprint ω)} (hr : r.IsBuiltin) {w w' : ω}
    (h : makeStages r planned w = (.ok ss, w')) : Serve planned ss := by
  refine forall₂_makeStages ?_ h
  intro p x s _ _ _ hx hname hbind
  exact Stage.serves_of_bind (hr x hx) hname hbind

theorem realizes (h : Serve planned ss) : Realizes planned ss := h.imp fun _ _ hs => hs.bound

theorem continues (h : Serve planned ss) {ss' : List (Stage ω)}
    (hss : List.Forall₂ Stage.Continues ss ss') : Serve planned ss' :=
  forall₂_continues h hss Stage.Serves.continues

theorem names (h : Serve planned ss) : ss.map (·.name) = planned.map (·.name) := by
  induction h with
  | nil => rfl
  | cons hs _ ih => rw [List.map_cons, List.map_cons, hs.name, ih]

theorem sound (h : Serve planned ss) : ∀ s ∈ ss, s.Sound := by
  induction h with
  | nil => exact List.forall_mem_nil _
  | cons hs _ ih => exact List.forall_mem_cons.mpr ⟨hs.sound, ih⟩

end Serve

/-- The chain after more frames went through it. -/
def afterFrames : Chain ω → Surroundings ω → List Frame → Chain ω
  | c, _, [] => c
  | c, e, f :: rest =>
    let done := c.process f e
    afterFrames { c with stages := done.stages } done.surroundings rest

/-- A playing chain, with a stage of the library for every planned one. -/
structure Performs (c : Chain ω) (planned : List PlannedStage) : Prop where
  serve : Serve planned c.stages
  status : c.status = .playing

namespace Performs

variable {c : Chain ω} {planned : List PlannedStage}

theorem process_eq (h : c.Performs planned) (f : Frame) (e : Surroundings ω) :
    c.process f e = run c.stages f e := by
  rw [process, h.status]
  rfl

/-- What a chain does with one frame does not spoil it for the next one. -/
theorem processed (h : c.Performs planned) (f : Frame) (e : Surroundings ω) :
    Performs { c with stages := (c.process f e).stages } planned := by
  refine ⟨?_, h.status⟩
  rw [h.process_eq]
  exact h.serve.continues (continues_run c.stages f e)

theorem afterFrames (h : c.Performs planned) (e : Surroundings ω) (fs : List Frame) :
    (c.afterFrames e fs).Performs planned := by
  induction fs generalizing c e with
  | nil => exact h
  | cons f rest ih => exact ih (h.processed f e) _

/-- Of a frame that is not in the format at the beginning nothing is changed, nor of anything else.
-/
theorem process_of_ne (h : c.Performs planned) {source sink : VideoFormat}
    (hcontinuous : Continuous source planned sink) (hplanned : planned ≠ []) {f : Frame}
    (hne : f.format ≠ source) (e : Surroundings ω) :
    ∃ first, (planned.map (·.name)).head? = some first ∧
      c.process f e = ⟨some (.formatMismatch first source f.format), f, c.stages, e⟩ := by
  rw [h.process_eq, ← h.serve.names]
  -- If there is a first stage, it takes the format at the beginning.
  cases hcontinuous with
  | nil _ => exact absurd rfl hplanned
  | cons _ => exact h.serve.realizes.run_of_ne hne e

end Performs

/-- Stages of the library that are bound can be played. -/
theorem Serve.exists_setStatus {c : Chain ω} {planned : List PlannedStage}
    (h : Serve planned c.stages) (w : ω) :
    ∃ c', c.setStatus .playing w = (none, c', w) ∧ c'.Performs planned := by
  obtain ⟨ss, hagreed⟩ := h.realizes.exists_commandUntilRefusal .playing w
  have hcontinues := continues_commandUntilRefusal .playing c.stages w
  rw [hagreed] at hcontinues
  refine ⟨{ c with stages := ss, status := .playing }, ?_, h.continues hcontinues, rfl⟩
  simp only [setStatus, hagreed]
  rfl

end Chain

/-! ### Plans -/

namespace Negotiation

open Chain (Result)

/-- **To process a frame is all or nothing.** If a registry has stages of the library only, and
frames are not empty, the chain of a plan with stages can be built and played. From then on, a frame
of any length and in the source's format gets through and is in the sink's format then, the same
frame otherwise, in the same memory. Any other frame is refused under the name of the first stage,
and nothing has changed, neither of the frame nor of the chain, nor what was counted. -/
theorem process_of_negotiate {r : Registry (Blueprint ω)} (hr : r.IsBuiltin) {p : Policy}
    {available : Catalog} {requested : Alternatives} {plan : Plan}
    (h : negotiate r p available requested = .ok plan) (hwidth : plan.sourceFormat.size.width ≠ 0)
    (hheight : plan.sourceFormat.size.height ≠ 0) (hstages : plan.stages ≠ []) (w : ω) :
    ∃ c c', Chain.build plan r w = (.ok c, w) ∧ c.setStatus .playing w = (none, c', w) ∧
      ∀ (e₀ : Surroundings ω) (earlier : List Frame),
        let now := c'.afterFrames e₀ earlier
        (∀ s ∈ now.stages, s.Sound) ∧
        ∀ (b : Buffer) (e : Surroundings ω),
          let done := now.process b.toFrame e
          let b' := b.withFrame done.frame
          (b.format = plan.sourceFormat →
            done.error = none ∧ b'.info = { b.info with format := plan.sinkFormat } ∧
              b'.slot = b.slot) ∧
          (b.format ≠ plan.sourceFormat →
            ∃ first, plan.stageNames.head? = some first ∧
              done.error = some (.formatMismatch first plan.sourceFormat b.format) ∧
              b' = b ∧ done.stages = now.stages ∧ done.surroundings = e) := by
  have hprovides := provides_of_negotiate hr.honest h hwidth hheight
  have hcontinuous := continuous_of_negotiate h
  obtain ⟨ss, hmade⟩ := Chain.exists_makeStages hprovides w
  let c : Chain ω := ⟨ss, plan.sourceFormat, plan.sinkFormat, .stopped⟩
  have hserve : Chain.Serve plan.stages c.stages := .of_makeStages hr hmade
  obtain ⟨c', hplaying, hperforms⟩ := hserve.exists_setStatus w
  refine ⟨c, c', ?_, hplaying, ?_⟩
  · simp only [Chain.build, hmade]
    rfl
  · intro e₀ earlier now
    have hnow : now.Performs plan.stages := hperforms.afterFrames e₀ earlier
    refine ⟨hnow.serve.sound, ?_⟩
    intro b e done b'
    refine ⟨?_, ?_⟩
    · intro hformat
      obtain ⟨hok, hinfo⟩ := hnow.serve.realizes.run_of_format hcontinuous hformat e
      rw [← hnow.process_eq] at hok hinfo
      exact ⟨hok, hinfo, rfl⟩
    · intro hne
      obtain ⟨first, hfirst, hrefused⟩ := hnow.process_of_ne hcontinuous hstages hne e
      exact ⟨first, hfirst, congrArg Result.error hrefused,
        congrArg (fun left => b.withFrame left.frame) hrefused, congrArg Result.stages hrefused,
        congrArg Result.surroundings hrefused⟩

/-- Demosaicing, behind both interpretations. -/
def watchingStages : List (StageDescriptor × Blueprint Unit) :=
  [(.debayer, .converter .debayer Pixels.demosaic), (.whiteBalance, .whiteBalancer),
    (.frameStatistics, .frameCounter)]

/-- The plan by which the device serves colour, with white balance and statistics in front. -/
def watchedPlan : Plan :=
  let raw := debayerPlan.sourceFormat
  { debayerPlan with stages := ⟨"white-balance", .interpretation, raw, raw⟩ ::
      ⟨"frame-statistics", .interpretation, raw, raw⟩ :: debayerPlan.stages }

/-- A frame that was damaged on its way, and is almost empty. -/
def torn (f : VideoFormat) : Buffer where
  data := [1, 2, 3]
  info := { format := f, sequence := 7, timestamp := 33333, damaged := true }
  slot := some ⟨1, 0⟩

theorem process_watchedPlan :
    (Registry.empty.registerAll watchingStages).IsBuiltin ∧
      negotiate (Registry.empty.registerAll watchingStages) {} mosaicDevice (.ofFormat fullColor) =
        .ok watchedPlan ∧
      ∃ c c', Chain.build watchedPlan (Registry.empty.registerAll watchingStages) () = (.ok c, ()) ∧
        c.setStatus .playing () = (none, c', ()) ∧
        ∀ e : Surroundings Unit,
          (c'.process (torn watchedPlan.sourceFormat).toFrame e).error = none ∧
          (c'.process (torn watchedPlan.sourceFormat).toFrame e).frame.info =
            (torn watchedPlan.sinkFormat).info ∧
          (c'.process (torn fullColor).toFrame e).error =
            some (.formatMismatch "white-balance" watchedPlan.sourceFormat fullColor) ∧
          (c'.process (torn fullColor).toFrame e).surroundings = e := by
  have hbuiltin : (Registry.empty.registerAll watchingStages).IsBuiltin := by
    apply Registry.forall_mem_registerAll
    · intro x hx
      cases hx
    · intro x hx
      simp only [watchingStages, List.mem_cons, List.not_mem_nil, or_false] at hx
      rcases hx with rfl | rfl | rfl <;> simp [Blueprint.builtins]
  have hplan : negotiate (Registry.empty.registerAll watchingStages) {} mosaicDevice
      (.ofFormat fullColor) = .ok watchedPlan := by
    unfold negotiate decide?
    rw [convert?_mosaicDevice]
    rfl
  obtain ⟨c, c', hbuild, hplaying, hprocess⟩ :=
    process_of_negotiate hbuiltin hplan (by decide) (by decide) (by decide) ()
  refine ⟨hbuiltin, hplan, c, c', hbuild, hplaying, ?_⟩
  intro e
  have hbuffers := (hprocess e []).2
  obtain ⟨hok, hinfo, -⟩ := (hbuffers (torn watchedPlan.sourceFormat) e).1 rfl
  obtain ⟨first, hfirst, hrefused, -, -, hsame⟩ := (hbuffers (torn fullColor) e).2 (by decide)
  cases hfirst
  exact ⟨hok, hinfo, hrefused, hsame⟩

end Negotiation
end CameraStream
