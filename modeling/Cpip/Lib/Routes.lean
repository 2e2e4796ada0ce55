import Mathlib.Data.List.Basic

/-!
# Routes

A request goes to the first declared route whose pattern matches its path, piece by piece.  A route
behind one that matches all that it matches is never chosen.
-/

namespace Routes

/-- A segment of a pattern: a text, or a parameter, which any piece but the empty one matches. -/
inductive Segment where
  | lit (text : String)
  | param (name : String)
  deriving DecidableEq, Repr

/-- The parameters with which a pattern matches the pieces of a path. -/
def matchPath : List Segment → List String → Option (List (String × String))
  | [], [] => some []
  | .lit text :: segments, piece :: pieces =>
    if text = piece then matchPath segments pieces else none
  | .param name :: segments, piece :: pieces =>
    if piece ≠ "" then (matchPath segments pieces).map ((name, piece) :: ·) else none
  | _, _ => none

structure Route (ε : Type*) where
  method : String
  pattern : List Segment
  endpoint : ε

variable {ε : Type*}

/-- What the route makes of a request. -/
def Route.accept (r : Route ε) (method : String) (pieces : List String) :
    Option (ε × List (String × String)) :=
  if r.method = method then (matchPath r.pattern pieces).map (r.endpoint, ·) else none

/-- The first route that takes the request. -/
def dispatch (routes : List (Route ε)) (method : String) (pieces : List String) :
    Option (ε × List (String × String)) :=
  routes.findSome? fun r => r.accept method pieces

/-- The first pattern matches wherever the second one does. -/
def Covers : List Segment → List Segment → Prop
  | [], [] => True
  | .lit text :: ss, .lit text' :: ts => text = text' ∧ Covers ss ts
  | .param _ :: ss, .lit text :: ts => text ≠ "" ∧ Covers ss ts
  | .param _ :: ss, .param _ :: ts => Covers ss ts
  | _, _ => False

theorem isSome_matchPath_of_covers {p q : List Segment} (covers : Covers p q) {pieces : List String}
    (matched : (matchPath q pieces).isSome) : (matchPath p pieces).isSome := by
  induction p generalizing q pieces with
  | nil =>
    cases q with
    | nil => exact matched
    | cons t ts => exact covers.elim
  | cons s ss ih =>
    cases q with
    | nil => cases s <;> exact covers.elim
    | cons t ts =>
      cases pieces with
      | nil => cases t <;> simp [matchPath] at matched
      | cons piece pieces =>
        cases t with
        | lit text' =>
          rw [matchPath] at matched
          split_ifs at matched with same
          · cases s with
            | lit text =>
              rw [matchPath, if_pos (covers.1.trans same)]
              exact ih covers.2 matched
            | param name =>
              rw [matchPath, if_pos (same ▸ covers.1), Option.isSome_map]
              exact ih covers.2 matched
          · simp at matched
        | param name' =>
          rw [matchPath] at matched
          split_ifs at matched with nonempty
          · cases s with
            | lit text => exact covers.elim
            | param name =>
              rw [matchPath, if_pos nonempty, Option.isSome_map]
              rw [Option.isSome_map] at matched
              exact ih covers matched
          · simp at matched

/-- A route that is covered by an earlier one can be left out. -/
theorem dispatch_of_covered {before after : List (Route ε)} {r r' : Route ε} (earlier : r ∈ before)
    (method : r.method = r'.method) (covers : Covers r.pattern r'.pattern) (m : String)
    (pieces : List String) :
    dispatch (before ++ r' :: after) m pieces = dispatch (before ++ after) m pieces := by
  unfold dispatch
  rw [List.findSome?_append, List.findSome?_append, List.findSome?_cons]
  cases taken : r'.accept m pieces with
  | none => rfl
  | some answer =>
    have first : (r.accept m pieces).isSome := by
      have matched : (r'.accept m pieces).isSome := by rw [taken]; rfl
      unfold Route.accept at matched ⊢
      rw [method]
      split_ifs at matched ⊢
      · rw [Option.isSome_map] at matched ⊢
        exact isSome_matchPath_of_covers covers matched
      · simp at matched
    have found : (before.findSome? fun r => r.accept m pieces).isSome := by
      rw [List.findSome?_isSome_iff]
      exact ⟨r, earlier, first⟩
    obtain ⟨chosen, hchosen⟩ := Option.isSome_iff_exists.1 found
    rw [hchosen, Option.some_or, Option.some_or]

/-- A request goes to the endpoint of some route. -/
theorem exists_route_of_dispatch {routes : List (Route ε)} {m : String} {pieces : List String}
    {e : ε} {params : List (String × String)}
    (h : dispatch routes m pieces = some (e, params)) : ∃ r ∈ routes, r.endpoint = e := by
  obtain ⟨r, mem, taken⟩ := List.exists_of_findSome?_eq_some h
  unfold Route.accept at taken
  split_ifs at taken
  obtain ⟨params', -, same⟩ := Option.map_eq_some_iff.1 taken
  exact ⟨r, mem, congrArg Prod.fst same⟩

end Routes
