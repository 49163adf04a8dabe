import CameraStream.Proofs.Negotiation.Decision

/-!
# What either side gets

A plan for a request settles on size and rate once, between one alternative of the request and one
of the source (`exists_agreement`). What either side gets is read off these two.

* **The consumer's side** (`accepts_sinkFormat`): the request accepts what the sink receives.
* **The device's side** (`supports_sourceFormat_iff_aligned`): what the source is asked for can be
  produced, or has a largest size that was reported; so it can always be produced exactly if the
  largest sizes can.

The two are not symmetric. The request's dimensions may be inverted ranges, because every
alternative of a source constrains both and leaves a range in order; its rates may not, because a
source may leave the rate free.
-/

namespace CameraStream.Negotiation

variable {β : Type} {r : Registry β} {p : Policy} {available : Catalog} {requested : Alternatives}
  {plan : Plan}

/-! ### The alternatives behind a plan -/

/-- Both ends of a plan come from one alternative of the request and one of the source. -/
structure AgreesOn (a b : FormatConstraint) (plan : Plan) : Prop where
  sink : a.encoding.accepts plan.sinkFormat.encoding
  source : b.encoding = .exactly plan.sourceFormat.encoding
  kept : plan.sinkFormat = plan.sourceFormat.withEncoding plan.sinkFormat.encoding
  settled : ∃ e, FormatConstraint.inter { a with encoding := .any } b = some e ∧
    e.largest? = some plan.sourceFormat

/-- A format of both sides stays one when the request's encoding is dropped. -/
theorem inter_any_encoding {a b e : FormatConstraint} {x : Encoding} (hb : b.encoding = .exactly x)
    (h : a.inter b = some e) : FormatConstraint.inter { a with encoding := .any } b = some e := by
  rw [FormatConstraint.inter_eq_some_iff] at h ⊢
  obtain ⟨he, hrest⟩ := h
  refine ⟨?_, hrest⟩
  rw [hb, Constraint.inter_exactly] at he
  split at he
  · rw [hb]
    exact he
  · cases he

/-- **Every plan for a request rests on one alternative of either side.** -/
theorem exists_agreement (hne : requested.isEmpty = false)
    (h : Decided r p available requested plan) :
    ∃ a ∈ requested.toList, ∃ b ∈ available.constraints.toList, AgreesOn a b plan := by
  cases h with
  | mostCapable hempty _ _ =>
    rw [hne] at hempty
    cases hempty
  | direct _ hf =>
    -- Both ends are the common format, so its encoding is the source's and the request's.
    obtain ⟨a, ha, b, hb, e, hab, he⟩ := Alternatives.exists_of_settleAgainst? hf
    obtain ⟨x, hx, -⟩ := Catalog.encoding_of_mem_constraints hb
    obtain ⟨rfl, hacc⟩ := FormatConstraint.encoding_of_inter_exactly hx hab he
    exact ⟨a, ha, b, hb, hacc, hx, rfl, e, inter_any_encoding hx hab, he⟩
  | @bridged roles source route sink f _ _ _ _ hf =>
    obtain ⟨a, ha, hsink, b, hb, hsource, e, hab, he⟩ := exists_of_settleAcross? hf
    obtain ⟨x, hx, -⟩ := Catalog.encoding_of_mem_constraints hb
    have henc := encoding_of_settleAcross? hf
    -- The source names its encodings one by one, so naming this one once more changes nothing.
    have hxs : b.encoding = .exactly source := by
      rw [hx] at hsource ⊢
      exact congrArg _ (beq_iff_eq.mp hsource)
    rw [← hxs] at hab
    exact ⟨a, ha, b, hb, hsink, hxs.trans (congrArg _ henc.symm), rfl, e, hab, he⟩

/-! ### The consumer's side -/

theorem AgreesOn.accepts_sink {a b : FormatConstraint} (h : AgreesOn a b plan)
    (ha : a.rate.Within FrameRate.Proper) (hb : b.rate.Within FrameRate.Proper)
    (hrate : a.rate.Forward) (hdims : b.width.values ≠ .any ∧ b.height.values ≠ .any) :
    a.accepts plan.sinkFormat := by
  obtain ⟨e, hab, he⟩ := h.settled
  rw [h.kept, FormatConstraint.accepts_withEncoding_iff]
  exact ⟨h.sink, FormatConstraint.sizeAndRate_left (c := { a with encoding := .any }) ha hb hab he
    hrate hdims.1 hdims.2⟩

theorem accepts_of_decided (hne : requested.isEmpty = false) (hproper : requested.RatesProper)
    (hforward : requested.RatesForward) (havailable : available.RatesProper)
    (h : Decided r p available requested plan) : requested.accepts plan.sinkFormat := by
  obtain ⟨a, ha, b, hb, hagree⟩ := exists_agreement hne h
  refine (Alternatives.accepts_iff _ _).mpr ⟨a, ha, ?_⟩
  exact hagree.accepts_sink (hproper a ha) (Catalog.proper_of_mem_constraints hb havailable)
    (hforward a ha) (Catalog.constrained_of_mem_constraints hb)

/-- **The request accepts what the sink receives**, and a request for one format gets exactly that
format. -/
theorem accepts_sinkFormat (r : Registry β) (p : Policy) (available : Catalog)
    (requested : Alternatives) (plan : Plan) (hne : requested.isEmpty = false)
    (hproper : requested.RatesProper) (hforward : requested.RatesForward)
    (havailable : available.RatesProper) (h : negotiate r p available requested = .ok plan) :
    requested.accepts plan.sinkFormat ∧
      ∀ f, requested = .ofFormat f → plan.sinkFormat = f := by
  obtain ⟨base, hbase, rfl⟩ := exists_decided_of_negotiate h
  have hacc : requested.accepts base.sinkFormat :=
    accepts_of_decided hne hproper hforward havailable hbase
  refine ⟨hacc, ?_⟩
  rintro f rfl
  exact (Alternatives.accepts_ofFormat_iff f _).mp hacc

theorem accepts_sinkFormat_of_debayer :
    (Alternatives.ofFormat fullColor).RatesProper ∧ mosaicDevice.RatesProper ∧
    negotiate debayerOnly {} mosaicDevice (.ofFormat fullColor) = .ok debayerPlan ∧
    (Alternatives.ofFormat fullColor).accepts debayerPlan.sinkFormat := by
  have hwanted : (Alternatives.ofFormat fullColor).RatesProper := by decide
  have hdevice : mosaicDevice.RatesProper := by decide
  have hplan : negotiate debayerOnly {} mosaicDevice (.ofFormat fullColor) = .ok debayerPlan := by
    unfold negotiate decide?
    rw [convert?_mosaicDevice]
    rfl
  have hsink := accepts_sinkFormat debayerOnly {} mosaicDevice (.ofFormat fullColor) debayerPlan rfl
    hwanted (by decide) hdevice hplan
  exact ⟨hwanted, hdevice, hplan, hsink.1⟩

/-! ### The device's side -/

theorem AgreesOn.supports_or_reportsLargest {a b : FormatConstraint} (h : AgreesOn a b plan)
    (ha : a.rate.Within FrameRate.Proper) (havailable : available.WellFormed)
    (hb : b ∈ available.constraints.toList) :
    available.supports plan.sourceFormat ∨ available.ReportsLargest plan.sourceFormat := by
  obtain ⟨e, hab, he⟩ := h.settled
  obtain ⟨hrate, hwidth, hheight⟩ := Catalog.forward_of_mem_constraints hb havailable
  refine Catalog.supports_or_reportsLargest havailable hb h.source ?_
  exact FormatConstraint.sizeAndRate_right (c := { a with encoding := .any }) ha
    (Catalog.proper_of_mem_constraints hb havailable.ratesProper) hab he hrate hwidth hheight

theorem AgreesOn.proper {a b : FormatConstraint} (h : AgreesOn a b plan)
    (ha : a.rate.Within FrameRate.Proper) (hb : b.rate.Within FrameRate.Proper) :
    plan.sourceFormat.rate.Proper := by
  obtain ⟨e, hab, he⟩ := h.settled
  exact FormatConstraint.proper_of_inter (c := { a with encoding := .any }) ha hb hab he

/-- What the source is asked for can be produced, or is a largest size of the report. -/
theorem source_of_decided (havailable : available.WellFormed) (hrequested : requested.WellFormed)
    (h : Decided r p available requested plan) :
    plan.sourceFormat.encoding.isValid ∧ plan.sourceFormat.rate.Proper ∧
      (available.supports plan.sourceFormat ∨ available.ReportsLargest plan.sourceFormat) := by
  cases hempty : requested.isEmpty with
  | true =>
    cases h with
    | mostCapable _ he hf =>
      obtain ⟨rfl, hproper, hlargest⟩ := Catalog.reportsLargest_of_largestFormat? havailable hf
      exact ⟨((Catalog.mem_encodings _ _).mp he).1, hproper, Or.inr hlargest⟩
    | direct hne _ | bridged hne _ _ _ _ =>
      rw [hempty] at hne
      cases hne
  | false =>
    obtain ⟨a, ha, b, hb, hagree⟩ := exists_agreement hempty h
    have hproper := (hrequested a ha).proper
    obtain ⟨x, hx, hvalid⟩ := Catalog.encoding_of_mem_constraints hb
    cases Constraint.exactly.inj (hx.symm.trans hagree.source)
    exact ⟨hvalid,
      hagree.proper hproper (Catalog.proper_of_mem_constraints hb havailable.ratesProper),
      hagree.supports_or_reportsLargest hproper havailable hb⟩

/-- A request for one format of the source gets it as it is. -/
theorem negotiate_ofFormat {f : VideoFormat} {d : FormatConstraint}
    (hd : d ∈ available.constraints.toList) (hf : d.accepts f) :
    negotiate r p available (.ofFormat f) = .ok (interpret r (.direct f)) := by
  have hsome : ((Alternatives.ofFormat f).settleAgainst? available.constraints).isSome := by
    refine (Alternatives.isSome_settleAgainst?_iff _ _).mpr
      ⟨.ofFormat f, List.mem_singleton.mpr rfl, d, hd, .ofFormat f, ?_, rfl⟩
    rw [FormatConstraint.ofFormat_inter, if_pos hf]
  obtain ⟨g, hg⟩ := Option.isSome_iff_exists.mp hsome
  have hgf : g = f := by
    obtain ⟨c, hc, d', -, e, hinter, hlargest⟩ := Alternatives.exists_of_settleAgainst? hg
    rw [List.mem_singleton.mp hc, FormatConstraint.ofFormat_inter] at hinter
    split at hinter
    · cases hinter
      exact (Option.some.inj hlargest).symm
    · cases hinter
  have hne : available.encodings ≠ [] := by
    obtain ⟨o, ho, hvalid, -⟩ := (Catalog.mem_constraints _ _).mp hd
    exact List.ne_nil_of_mem ((Catalog.mem_encodings _ _).mpr ⟨hvalid, o, ho, rfl⟩)
  have hnonempty : (Alternatives.ofFormat f).isEmpty = false := rfl
  unfold negotiate decide?
  rw [if_neg (by rwa [List.isEmpty_iff]), hnonempty, if_neg Bool.false_ne_true, hg, hgf]

/-- **What the source is asked for can be produced, or is a largest size of the report.** So it can
always be produced exactly if the largest sizes that are reported can. -/
theorem supports_sourceFormat_iff_aligned (β : Type) (available : Catalog)
    (havailable : available.WellFormed) :
    (∀ (r : Registry β) (p : Policy) (requested : Alternatives) (plan : Plan),
      requested.WellFormed → negotiate r p available requested = .ok plan →
        available.supports plan.sourceFormat ∨ available.ReportsLargest plan.sourceFormat) ∧
    ((∀ (r : Registry β) (p : Policy) (requested : Alternatives) (plan : Plan),
      requested.WellFormed → negotiate r p available requested = .ok plan →
        available.supports plan.sourceFormat) ↔ available.Aligned) := by
  refine ⟨?_, ?_, ?_⟩
  · intro r p requested plan hrequested h
    obtain ⟨base, hbase, rfl⟩ := exists_decided_of_negotiate h
    exact (source_of_decided havailable hrequested hbase).2.2
  · -- Every largest size is what some request asks for.
    intro hall f hvalid hproper hlargest
    obtain ⟨d, hd, hf⟩ := Catalog.exists_constraint_of_reportsLargest hvalid hlargest
    refine hall Registry.empty {} (.ofFormat f) _ ?_ (negotiate_ofFormat hd hf)
    intro c hc
    rw [List.mem_singleton.mp hc]
    exact FormatConstraint.wellFormed_ofFormat hproper
  · intro haligned r p requested plan hrequested h
    obtain ⟨base, hbase, rfl⟩ := exists_decided_of_negotiate h
    obtain ⟨hvalid, hproper, hsource⟩ := source_of_decided havailable hrequested hbase
    rcases hsource with hsupports | hlargest
    · exact hsupports
    · exact haligned _ hvalid hproper hlargest

/-- A device whose largest width is not on the grid of its widths. -/
def raggedDevice : Catalog :=
  ⟨[⟨.rggb8, [⟨.grid ⟨320, 240⟩ ⟨1001, 480⟩ 16 4, .exactly (.fps 30)⟩]⟩]⟩

theorem raggedDevice_not_aligned :
    raggedDevice.WellFormed ∧
    negotiate (Registry.empty : Registry Unit) {} raggedDevice {} =
      .ok (.direct ⟨.rggb8, ⟨1001, 480⟩, .fps 30⟩) ∧
    raggedDevice.supports ⟨.rggb8, ⟨1001, 480⟩, .fps 30⟩ = false ∧ ¬ raggedDevice.Aligned := by
  have hwellFormed : raggedDevice.WellFormed := by
    intro o ho r hr
    cases List.mem_singleton.mp ho
    cases List.mem_singleton.mp hr
    exact { sizes := by decide, rates := trivial, proper := by decide }
  have hplan : negotiate (Registry.empty : Registry Unit) {} raggedDevice {} =
      .ok (.direct ⟨.rggb8, ⟨1001, 480⟩, .fps 30⟩) := rfl
  have hsupports : raggedDevice.supports ⟨.rggb8, ⟨1001, 480⟩, .fps 30⟩ = false := by decide
  refine ⟨hwellFormed, hplan, hsupports, ?_⟩
  intro haligned
  have hall := (supports_sourceFormat_iff_aligned Unit raggedDevice hwellFormed).2.mpr haligned
  have hsupported := hall Registry.empty {} {} _ (fun c hc => nomatch hc) hplan
  exact absurd (hsupports.symm.trans hsupported) Bool.false_ne_true

end CameraStream.Negotiation
