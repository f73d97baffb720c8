import FileRoutes.Route
import FileRoutes.Text.Split

/-! # Summary of routes

The counts of a list of routes (`Summary.ofRoutes`): how many there are, how many have a handler or
problems, how many serve each method, and how many have parameters. -/

namespace FileRoutes

/-- The **counts** of a list of routes. -/
structure Summary where
  /-- The number of routes. -/
  routes : Nat
  /-- The number of routes with a handler. -/
  handlers : Nat
  /-- The number of routes without one. -/
  missingHandlers : Nat
  /-- The number of routes with a problem. -/
  withErrors : Nat
  /-- The number of routes for each method, in ascending order of the methods. -/
  byMethod : List (String × Int)
  /-- The number of routes with a parameter. -/
  dynamic : Nat
  /-- The number of routes with a catch-all parameter. -/
  catchAll : Nat
  deriving DecidableEq, Repr

namespace Summary

/-- The counts of no routes. -/
def empty : Summary := ⟨0, 0, 0, 0, [], 0, 0⟩

/-- The word under which routes without a method are counted. -/
def unresolvedWord : String := "UNRESOLVED"

/-- The word under which a route is counted. -/
def methodOf (route : Route) : String :=
  if route.method = "" then unresolvedWord else route.method

/-- Counts one more under a key, keeping the keys in ascending order. -/
def count (key : String) : List (String × Int) → List (String × Int)
  | [] => [(key, 1)]
  | (other, value) :: rest =>
    if key = other then (other, value + 1) :: rest
    else if key < other then (key, 1) :: (other, value) :: rest
    else (other, value) :: count key rest

/-- Whether a segment of a URL path begins with a mark. -/
def hasSegment (mark : Char) (urlPath : String) : Bool :=
  (Text.fields '/' urlPath.toList).any fun segment => segment.head? == some mark

/-- The **summary** of a list of routes. -/
def ofRoutes (routes : List Route) : Summary :=
  let handlers := routes.countP (·.hasHandler)
  { routes := routes.length
    handlers
    missingHandlers := routes.length - handlers
    withErrors := routes.countP (!·.errors.isEmpty)
    byMethod := routes.foldl (fun counts route => count (methodOf route) counts) []
    dynamic := routes.countP (hasSegment ':' ·.urlPath)
    catchAll := routes.countP (hasSegment '*' ·.urlPath) }

end Summary

end FileRoutes
