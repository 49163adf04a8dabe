import CameraStream.Metrics.Counters
import CameraStream.Negotiation.Ranking
import CameraStream.Negotiation.Route

/-!
# Negotiation

`negotiate` decides how a source can serve a request. In order, it takes

* the most capable format of the source, if nothing in particular is requested;
* a format that both sides accept as it is;
* the first strategy, and for it the best-ranked encoding of the source, that bridges the two.

Interpretations that take the source's encoding then come in front of the conversions. They see
frames as the source made them, and have no say in which plan is made.
-/

namespace CameraStream

/-- How a request is served where there is a choice. -/
structure Policy where
  ranking : Ranking := .standard
  /-- Whether a stage that does all conversion at once may be used. -/
  useCombined : Bool := true
  /-- Whether deep samples may be reduced to one byte ahead of demosaicing. -/
  useNormalize : Bool := true
deriving DecidableEq, Repr

namespace Policy

/-- Whether a role may be filled. -/
def allows (p : Policy) : Role → Bool
  | .combined => p.useCombined
  | .bayerNormalize => p.useNormalize
  | _ => true

end Policy

namespace Negotiation

/-- The ways to bridge two sides, as roles in order of processing, the best way first. -/
def strategies : List (List Role) :=
  [[.combined],
    [.bayerNormalize, .debayer],
    [.bayerNormalize, .debayer, .colorConvert],
    [.debayer],
    [.debayer, .colorConvert],
    [.colorConvert],
    [.decode],
    [.decode, .colorConvert]]

/-- The stages of a route at one size and rate. -/
def bindRoute (f : VideoFormat) (route : List Hop) : List PlannedStage :=
  route.map fun hop =>
    ⟨hop.stage.name, hop.stage.kind, f.withEncoding hop.input, f.withEncoding hop.output⟩

/-- The format a request settles on when what it wants in one encoding is made from another. -/
def settleAcross? (offer requested : Alternatives) (source sink : Encoding) :
    Option VideoFormat :=
  (requested.filterEncoding sink).withoutEncoding.settleAgainst? (offer.filterEncoding source)

/-- The plan that bridges the sides from one encoding of the source by one strategy, if its first
route leads to a format of both. -/
def bridge? {β : Type} (r : Registry β) (offer requested : Alternatives) (roles : List Role)
    (source : Encoding) : Option Plan := do
  let route ← Route.find? r requested roles source
  let last ← route.getLast?
  let format ← settleAcross? offer requested source last.output
  return ⟨format, format.withEncoding last.output, bindRoute format route⟩

/-- The plan for a request that asks for nothing in particular: the largest format of the encoding
ranked best. -/
def mostCapable? (p : Policy) (available : Catalog) : Option Plan := do
  let e ← p.ranking.preferred? available.encodings
  let f ← available.largestFormat? e
  return .direct f

/-- The first plan over all allowed strategies, and for each over the source's encodings by
rank. -/
def convert? {β : Type} (r : Registry β) (p : Policy) (available : Catalog)
    (requested : Alternatives) : Option Plan :=
  (strategies.filter (·.all p.allows)).findSome? fun roles =>
    (p.ranking.sort available.encodings).findSome?
      (bridge? r available.constraints requested roles)

/-- The plan between source and sink, without interpretations. -/
def decide? {β : Type} (r : Registry β) (p : Policy) (available : Catalog)
    (requested : Alternatives) : Option Plan :=
  if requested.isEmpty then mostCapable? p available
  else
    match requested.settleAgainst? available.constraints with
    | some f => some (.direct f)
    | none => convert? r p available requested

/-- The plan with every interpretation of the source's encoding in front, bound to the source's
format. -/
def interpret {β : Type} (r : Registry β) (plan : Plan) : Plan :=
  let front := (r.interpretations plan.sourceFormat.encoding).map fun d =>
    (⟨d.name, d.kind, plan.sourceFormat, plan.sourceFormat⟩ : PlannedStage)
  { plan with stages := front ++ plan.stages }

end Negotiation

/-- Decides how a source can serve a request, or why it cannot. -/
def negotiate {β : Type} (r : Registry β) (p : Policy) (available : Catalog)
    (requested : Alternatives) : Except NegotiationError Plan :=
  if available.encodings.isEmpty then .error .nothingAvailable
  else
    match Negotiation.decide? r p available requested with
    | some plan => .ok (Negotiation.interpret r plan)
    | none => .error (.incompatible available requested)

/-- Counts a negotiation without a result. -/
def Counters.countNegotiation {α : Type} (c : Counters) : Except NegotiationError α → Counters
  | .ok _ => c
  | .error _ => c.count .negotiationFailures

end CameraStream
