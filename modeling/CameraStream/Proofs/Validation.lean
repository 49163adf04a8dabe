import CameraStream.Proofs.Library
import Mathlib.Data.List.Defs

/-!
# What the check of a chain reports

Source, stages and sink meet at *edges*: at each, what the upstream member produces arrives at the
downstream one, which is bound to consume some format (`Edge`, `Chain.edges`). A chain passes its
check exactly if the two agree at every edge, and otherwise the check reports the first edge where
they do not (`Edge.FirstBroken`), under the name of the downstream member.

Which of the two formats is called the expected one is another matter. A stage that is given a frame
expects the format it is bound to (`Stage.transform_of_ne`), and so does the sink at the last
edge. At an edge into a stage the check has them the other way round.
**`Chain.validate_firstBroken`** says all of this: the report is what the edge calls for if the broken
edge is the last one, and else has the two formats in each other's place.
-/

namespace CameraStream

variable {ω : Type}

/-! ### What stages say of frames -/

namespace Stage

theorem checkFormat_of_ne {stage : String} {expected : VideoFormat} {f : Frame}
    (h : f.format ≠ expected) :
    checkFormat stage expected f = .error (.formatMismatch stage expected f.format) := if_neg h

/-- A stage of the library expects the format it is bound to. It says which one it got instead, and
leaves everything as it was. -/
theorem transform_of_ne {s : Stage ω} {input output : VideoFormat} (h : s.BoundTo input output)
    {f : Frame} (hne : f.format ≠ input) (e : Surroundings ω) :
    s.transform f e = ⟨some (.formatMismatch s.name input f.format), f, s, e⟩ := by
  cases h with
  | converter hformats =>
    simp only [transform, Converter.transform, hformats, checkFormat_of_ne hne]
    rfl
  | whiteBalancer hformat =>
    simp only [transform, WhiteBalancer.transform, hformat, checkFormat_of_ne hne]
    rfl
  | frameCounter hformat =>
    simp only [transform, FrameCounter.observe, hformat, checkFormat_of_ne hne]
    rfl

end Stage

/-! ### Edges -/

/-- Where two neighbours meet. -/
structure Edge where
  downstream : String
  /-- What the upstream neighbour makes. -/
  produced : VideoFormat
  /-- What the downstream neighbour is bound to take. -/
  consumed : VideoFormat
deriving DecidableEq

namespace Edge

def Agrees (x : Edge) : Prop := x.produced = x.consumed

instance (x : Edge) : Decidable x.Agrees := inferInstanceAs (Decidable (x.produced = x.consumed))

/-- What there is to report of an edge: the downstream neighbour expects what it is bound to, and
gets what the upstream one makes. -/
def mismatch (x : Edge) : StreamError := .formatMismatch x.downstream x.consumed x.produced

/-- The edge with its formats in each other's place. -/
def swapped (x : Edge) : Edge := { x with produced := x.consumed, consumed := x.produced }

/-- An edge where neighbours disagree, after edges where they agree and before the given ones. -/
def FirstBroken (edges : List Edge) (x : Edge) (after : List Edge) : Prop :=
  ∃ before, edges = before ++ x :: after ∧ (∀ y ∈ before, y.Agrees) ∧ ¬ x.Agrees

theorem mismatch_swapped_ne {x : Edge} (h : ¬ x.Agrees) : x.swapped.mismatch ≠ x.mismatch := by
  intro heq
  injection heq with _ hformat _
  exact h hformat

theorem firstBroken_cons_iff {y x : Edge} {edges after : List Edge} :
    FirstBroken (y :: edges) x after ↔
      (¬ y.Agrees ∧ x = y ∧ after = edges) ∨ (y.Agrees ∧ FirstBroken edges x after) := by
  constructor
  · rintro ⟨_ | ⟨z, before⟩, heq, hbefore, hx⟩
    · obtain ⟨rfl, rfl⟩ := List.cons.inj heq
      exact Or.inl ⟨hx, rfl, rfl⟩
    · obtain ⟨rfl, rfl⟩ := List.cons.inj heq
      obtain ⟨hy, hbefore⟩ := List.forall_mem_cons.mp hbefore
      exact Or.inr ⟨hy, before, rfl, hbefore, hx⟩
  · rintro (⟨hy, rfl, rfl⟩ | ⟨hy, before, rfl, hbefore, hx⟩)
    · exact ⟨[], rfl, List.forall_mem_nil _, hy⟩
    · exact ⟨y :: before, rfl, List.forall_mem_cons.mpr ⟨hy, hbefore⟩, hx⟩

/-- If neighbours disagree anywhere, there is a first edge where they do. -/
theorem exists_firstBroken {edges : List Edge} (h : ¬ ∀ x ∈ edges, x.Agrees) :
    ∃ x after, FirstBroken edges x after := by
  induction edges with
  | nil => exact absurd (List.forall_mem_nil _) h
  | cons y rest ih =>
    by_cases hy : y.Agrees
    · rw [List.forall_mem_cons, not_and] at h
      obtain ⟨x, after, hbroken⟩ := ih (h hy)
      exact ⟨x, after, firstBroken_cons_iff.mpr (Or.inr ⟨hy, hbroken⟩)⟩
    · exact ⟨y, rest, firstBroken_cons_iff.mpr (Or.inl ⟨hy, rfl, rfl⟩)⟩

end Edge

namespace Chain

/-- The edges from a source through stages to a sink: names, what is produced, and what is consumed,
side by side. -/
def edges (w : ω) (ss : List (Stage ω)) (source sink : VideoFormat) : List Edge :=
  let bound := ss.filterMap (·.formats w)
  List.zipWith3 Edge.mk (ss.map (·.name) ++ ["sink"]) (source :: bound.map (·.2))
    (bound.map (·.1) ++ [sink])

theorem edges_nil (w : ω) (source sink : VideoFormat) :
    edges w [] source sink = [⟨"sink", source, sink⟩] := rfl

theorem edges_cons {w : ω} {s : Stage ω} {rest : List (Stage ω)}
    {source input output sink : VideoFormat} (h : s.formats w = some (input, output)) :
    edges w (s :: rest) source sink = ⟨s.name, source, input⟩ :: edges w rest output sink := by
  simp [edges, h, List.zipWith3]

theorem edges_ne_nil {w : ω} {ss : List (Stage ω)} (hbound : ∀ s ∈ ss, (s.formats w).isSome)
    (source sink : VideoFormat) : edges w ss source sink ≠ [] := by
  cases ss with
  | nil => exact List.cons_ne_nil _ _
  | cons s rest =>
    obtain ⟨⟨input, output⟩, hs⟩ := Option.isSome_iff_exists.mp (hbound s List.mem_cons_self)
    rw [edges_cons hs]
    exact List.cons_ne_nil _ _

/-! ### The walk along the edges -/

/-- What the check says of the first broken edge, given the edges after it. -/
def reported (x : Edge) (after : List Edge) : StreamError :=
  if after = [] then x.mismatch else x.swapped.mismatch

theorem walk_eq_ok_iff {w : ω} {ss : List (Stage ω)} (hbound : ∀ s ∈ ss, (s.formats w).isSome)
    (source sink : VideoFormat) :
    walk w sink source ss = .ok () ↔ ∀ x ∈ edges w ss source sink, x.Agrees := by
  induction ss generalizing source with
  | nil =>
    rw [edges_nil, List.forall_mem_singleton, walk]
    by_cases h : source = sink <;> simp [Edge.Agrees, h]
  | cons s rest ih =>
    rw [List.forall_mem_cons] at hbound
    obtain ⟨⟨input, output⟩, hs⟩ := Option.isSome_iff_exists.mp hbound.1
    rw [edges_cons hs, List.forall_mem_cons, ← ih hbound.2]
    simp only [walk, hs]
    by_cases h : input = source
    · simp [Edge.Agrees, h]
    · simp [Edge.Agrees, h, Ne.symm h]

theorem walk_of_firstBroken {w : ω} {ss : List (Stage ω)}
    (hbound : ∀ s ∈ ss, (s.formats w).isSome) {source sink : VideoFormat} {x : Edge}
    {after : List Edge} (h : Edge.FirstBroken (edges w ss source sink) x after) :
    walk w sink source ss = .error (reported x after) := by
  induction ss generalizing source with
  | nil =>
    -- There is no edge but the one at the sink.
    rw [edges_nil, Edge.firstBroken_cons_iff] at h
    rcases h with ⟨hx, rfl, rfl⟩ | ⟨-, before, hnil, -⟩
    · exact if_neg hx
    · exact absurd hnil (List.append_ne_nil_of_right_ne_nil _ (List.cons_ne_nil _ _)).symm
  | cons s rest ih =>
    rw [List.forall_mem_cons] at hbound
    obtain ⟨⟨input, output⟩, hs⟩ := Option.isSome_iff_exists.mp hbound.1
    rw [edges_cons hs, Edge.firstBroken_cons_iff] at h
    simp only [walk, hs]
    rcases h with ⟨hx, rfl, rfl⟩ | ⟨hagrees, h⟩
    · rw [if_neg (Ne.symm hx), reported, if_neg (edges_ne_nil hbound.2 _ _)]
      rfl
    · rw [if_pos (Eq.symm hagrees)]
      exact ih hbound.2 h

theorem walk_eq_error_iff {w : ω} {ss : List (Stage ω)} (hbound : ∀ s ∈ ss, (s.formats w).isSome)
    (source sink : VideoFormat) (err : StreamError) :
    walk w sink source ss = .error err ↔
      ∃ x after, Edge.FirstBroken (edges w ss source sink) x after ∧ err = reported x after := by
  constructor
  · intro herr
    have hdisagree : ¬ ∀ x ∈ edges w ss source sink, x.Agrees := by
      rw [← walk_eq_ok_iff hbound, herr]
      exact nofun
    obtain ⟨x, after, hbroken⟩ := Edge.exists_firstBroken hdisagree
    rw [walk_of_firstBroken hbound hbroken] at herr
    exact ⟨x, after, hbroken, (Except.error.inj herr).symm⟩
  · rintro ⟨x, after, hbroken, rfl⟩
    exact walk_of_firstBroken hbound hbroken

/-- **A chain passes its check exactly if neighbours agree at every edge, and else the check reports
the first edge where they do not.** The report names the downstream neighbour. It has the formats in
the places that they are meant for exactly if the broken edge is the last one, that of the sink; at an
edge into a stage they are in each other's place. -/
theorem validate_firstBroken (c : Chain ω) (w : ω) (source sink : VideoFormat)
    (hbound : ∀ s ∈ c.stages, (s.formats w).isSome) :
    (c.validate w source sink = .ok () ↔ ∀ x ∈ edges w c.stages source sink, x.Agrees) ∧
    (∀ err, c.validate w source sink = .error err ↔ ∃ x after,
      Edge.FirstBroken (edges w c.stages source sink) x after ∧
        err = reported x after) ∧
    ∀ x after, Edge.FirstBroken (edges w c.stages source sink) x after →
      (c.validate w source sink = .error x.mismatch ↔ after = []) := by
  refine ⟨walk_eq_ok_iff hbound source sink, walk_eq_error_iff hbound source sink, ?_⟩
  intro x after hbroken
  have hreport : c.validate w source sink = .error (reported x after) :=
    walk_of_firstBroken hbound hbroken
  rw [hreport, Except.error.injEq, reported]
  obtain ⟨-, -, -, hx⟩ := hbroken
  split
  · next hlast => exact iff_of_true rfl hlast
  · next hlast => exact iff_of_false (Edge.mismatch_swapped_ne hx) hlast

/-! A chain that balances one mosaic and takes colour from another: the edge between its stages is
broken, and the check says of it what the stage behind would say of frames that are right. -/

def greenFirst : VideoFormat := ⟨.gbrg8, ⟨4, 4⟩, .fps 30⟩

def redFirst : VideoFormat := ⟨.rggb8, ⟨4, 4⟩, .fps 30⟩

def colored : VideoFormat := ⟨.rgb24, ⟨4, 4⟩, .fps 30⟩

def balancing : Stage Unit := .whiteBalancer { format := some greenFirst }

def coloring : Stage Unit :=
  .converter { descriptor := .debayer, kernel := Pixels.demosaic, formats := some (redFirst, colored) }

def crossed : Chain Unit := ⟨[balancing, coloring], greenFirst, colored, .stopped⟩

theorem validate_crossed :
    (∀ s ∈ crossed.stages, (s.formats ()).isSome) ∧
    Edge.FirstBroken (edges () crossed.stages greenFirst colored) ⟨"debayer", greenFirst, redFirst⟩
      [⟨"sink", colored, colored⟩] ∧
    crossed.validate () greenFirst colored =
      .error (.formatMismatch "debayer" greenFirst redFirst) ∧
    crossed.validate () greenFirst colored ≠
      .error (Edge.mk "debayer" greenFirst redFirst).mismatch ∧
    ∀ (f : Frame) (e : Surroundings Unit), f.format = greenFirst →
      (coloring.transform f e).error = some (Edge.mk "debayer" greenFirst redFirst).mismatch := by
  have hbound : ∀ s ∈ crossed.stages, (s.formats ()).isSome := by
    simp [crossed, balancing, coloring, Stage.formats]
  have hbroken : Edge.FirstBroken (edges () crossed.stages greenFirst colored)
      ⟨"debayer", greenFirst, redFirst⟩ [⟨"sink", colored, colored⟩] := by
    refine ⟨[⟨"white-balance", greenFirst, greenFirst⟩], rfl, ?_, by decide⟩
    exact List.forall_mem_singleton.mpr rfl
  obtain ⟨-, herror, hlast⟩ := validate_firstBroken crossed () greenFirst colored hbound
  refine ⟨hbound, hbroken, (herror _).mpr ⟨_, _, hbroken, rfl⟩, ?_, ?_⟩
  · intro h
    exact absurd ((hlast _ _ hbroken).mp h) (List.cons_ne_nil _ _)
  · rintro f e hformat
    have hne : f.format ≠ redFirst := by
      rw [hformat]
      decide
    have hcoloring : coloring.BoundTo redFirst colored := .converter rfl
    rw [Stage.transform_of_ne hcoloring hne, hformat]
    rfl

end Chain
end CameraStream
