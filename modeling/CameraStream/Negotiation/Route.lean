import CameraStream.Negotiation.Plan

/-!
# Routes of encodings

A *route* leads from an encoding of the source to one that the request accepts, by a conversion for
every role of a strategy. `Route.search` goes depth first, through stages in the order of
registration and through the outputs of one stage in their order, and stops at the first route. On
the last hop only outputs that the request accepts are worth trying, those it names first.

The hops taken so far are on a path that all of the search shares. A hop is put on it before the
search goes on from there, and is taken off again if that comes to nothing.

Routes are about encodings alone. Size and rate are settled afterwards, once for the whole route,
because conversions keep both.
-/

namespace CameraStream

/-- One conversion of a route. -/
structure Hop where
  stage : StageDescriptor
  input : Encoding
  output : Encoding
deriving DecidableEq, Repr

namespace Route

/-- The outputs worth trying on a hop: on the last one those that the request accepts, in its own
order as far as it names them. -/
def candidates (d : StageDescriptor) (e : Encoding) (last : Bool) (requested : Alternatives) :
    List Encoding :=
  let outputs := d.outputsFor e
  if last then
    Encoding.distinct
      (requested.encodings.filter outputs.contains ++ outputs.filter requested.acceptsEncoding)
  else outputs

/-- Whether some route leads on from an encoding by the given roles to an encoding that the request
accepts. The first one is put on the path. -/
def search {β : Type} (r : Registry β) (requested : Alternatives) :
    List Role → Encoding → StateM (Array Hop) Bool
  | [], e => return requested.acceptsEncoding e
  | role :: roles, e =>
    (r.find (.conversion role) e).anyM fun d =>
      (candidates d e roles.isEmpty requested).anyM fun out => do
        modify (·.push ⟨d, e, out⟩)
        if ← search r requested roles out then
          return true
        modify (·.pop)
        return false

/-- The first route from an encoding by the given roles to an encoding that the request accepts. -/
def find? {β : Type} (r : Registry β) (requested : Alternatives) (roles : List Role)
    (e : Encoding) : Option (List Hop) :=
  match (search r requested roles e).run #[] with
  | (true, path) => some path.toList
  | (false, _) => none

end Route
end CameraStream
