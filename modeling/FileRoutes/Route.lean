import FileRoutes.Export.Basic
import FileRoutes.Options.Basic

/-! # Routes

The record of one route file: a `Route` has the paths of the file, what its exports say about it,
and the problems met on the way, each a `Problem`. -/

namespace FileRoutes

/-- A **problem** that was met with a file and did not stop its analysis. -/
structure Problem where
  /-- What went wrong. -/
  message : String
  /-- The line it is about, counted from one. -/
  line : Option Nat
  /-- The column it is about, counted from one. -/
  column : Option Nat
  deriving DecidableEq, Repr

/-- The **record of a route file**. -/
structure Route where
  /-- The path of the file, as it was given. -/
  filePath : String
  /-- The URL path that the file serves. -/
  urlPath : String
  /-- The verb that is served, in capitals, or the empty text when there is none. -/
  method : String
  /-- Whether an export answers requests. -/
  hasHandler : Bool
  /-- Whether an export describes the route. -/
  hasOptions : Bool
  /-- The options of the route, when they were asked for and found. -/
  options : Option RouteOptions
  /-- The exports of the file, in the order of the passes that find them. -/
  exports : List Export
  /-- The problems that were met. -/
  errors : List Problem
  deriving DecidableEq, Repr

/-- A problem with a file as a whole. -/
def Problem.ofMessage (message : String) : Problem := ⟨message, none, none⟩

/-- The record of a file that could not be read. -/
def Route.unreadable (filePath urlPath : String) (problem : Problem) : Route :=
  { filePath, urlPath
    method := ""
    hasHandler := false
    hasOptions := false
    options := none
    exports := []
    errors := [problem] }

end FileRoutes
