import CameraStream.Negotiation.Route

/-!
# The path of a search

All of a search for a route shares one path. A part of it either fails, and leaves the path as it
was, or succeeds, and leaves the hops of a route at its end. `Route.Adds` says so of a computation
on the path and the route it comes to, whatever the path was before.

Trying one thing after the other keeps to this (`Adds.anyM`), and so does taking a hop and going on
from there (`Adds.hop`). So the search does as a whole (`adds_search`), and what it comes to obeys
the equations of a search without a path (`find?_nil`, `find?_step`).
-/

namespace CameraStream.Route

/-- The path after a search that comes to a route, or to none. -/
def outcome (path : Array Hop) : Option (List Hop) → Bool × Array Hop
  | some route => (true, path ++ route)
  | none => (false, path)

/-- A computation puts the hops of a route on the path, or fails and leaves the path as it is. -/
def Adds (m : StateM (Array Hop) Bool) (found : Option (List Hop)) : Prop :=
  ∀ path, m.run path = outcome path found

namespace Adds

variable {m : StateM (Array Hop) Bool} {found : Option (List Hop)}

/-- Computations that are tried one after the other come to the first route. -/
theorem anyM {α : Type} {l : List α} {f : α → StateM (Array Hop) Bool}
    {g : α → Option (List Hop)} (h : ∀ a, Adds (f a) (g a)) : Adds (l.anyM f) (l.findSome? g) := by
  induction l with
  | nil =>
    intro path
    rfl
  | cons a rest ih =>
    intro path
    rw [List.anyM, List.findSome?_cons, StateT.run_bind, h a path]
    cases g a with
    | some route => rfl
    | none => exact ih path

/-- A hop that is taken back on failure comes in front of the route from there. -/
theorem hop (h : Adds m found) (x : Hop) :
    Adds (do
      modify (·.push x)
      if ← m then
        return true
      modify (·.pop)
      return false) (found.map (x :: ·)) := by
  intro path
  simp only [StateT.run_bind, StateT.run_modify, pure_bind, h (path.push x)]
  cases found with
  | some route => rfl
  | none =>
    show (false, (path.push x).pop) = (false, path)
    rw [Array.pop_push]

/-- Started on an empty path, a computation leaves the route that it comes to. -/
theorem toList_run (h : Adds m found) :
    (match m.run #[] with
      | (true, path) => some path.toList
      | (false, _) => none) = found := by
  rw [h #[]]
  cases found with
  | some route => simp [outcome]
  | none => rfl

end Adds

variable {β : Type} {r : Registry β} {requested : Alternatives}

theorem find?_eq_of_adds {roles : List Role} {e : Encoding} {found : Option (List Hop)}
    (h : Adds (search r requested roles e) found) : find? r requested roles e = found :=
  h.toList_run

theorem adds_search_nil (e : Encoding) :
    Adds (search r requested [] e) (if requested.acceptsEncoding e then some [] else none) := by
  intro path
  show (requested.acceptsEncoding e, path) = _
  cases requested.acceptsEncoding e <;> rfl

theorem adds_search_cons {role : Role} {roles : List Role} {e : Encoding}
    (h : ∀ out, Adds (search r requested roles out) (find? r requested roles out)) :
    Adds (search r requested (role :: roles) e)
      ((r.find (.conversion role) e).findSome? fun d =>
        (candidates d e roles.isEmpty requested).findSome? fun out =>
          (find? r requested roles out).map (⟨d, e, out⟩ :: ·)) :=
  .anyM fun d => .anyM fun out => (h out).hop ⟨d, e, out⟩

/-- **A search puts the route it finds on the path, or leaves the path as it is.** -/
theorem adds_search (roles : List Role) (e : Encoding) :
    Adds (search r requested roles e) (find? r requested roles e) := by
  induction roles generalizing e with
  | nil =>
    rw [find?_eq_of_adds (adds_search_nil e)]
    exact adds_search_nil e
  | cons role roles ih =>
    rw [find?_eq_of_adds (adds_search_cons ih)]
    exact adds_search_cons ih

theorem find?_nil (e : Encoding) :
    find? r requested [] e = if requested.acceptsEncoding e then some [] else none :=
  find?_eq_of_adds (adds_search_nil e)

/-- Where the path is left out, a search goes from one stage to the next and from one output to the
next. -/
theorem find?_step (role : Role) (roles : List Role) (e : Encoding) :
    find? r requested (role :: roles) e =
      (r.find (.conversion role) e).findSome? fun d =>
        (candidates d e roles.isEmpty requested).findSome? fun out =>
          (find? r requested roles out).map (⟨d, e, out⟩ :: ·) :=
  find?_eq_of_adds (adds_search_cons (adds_search roles))

end CameraStream.Route
