import FileRoutes.Verb

/-! # Exports

An **export** of a route file has a name, the form in which it is written (`ExportKind`) and, when
it matters for routing, a role (`ExportRole`). The role follows from the name, and the three forms
that carry names differ in it: a value may be the options or a handler, a function is never the
options, and in a list of re-exports the plain name `handler` has no role. -/

namespace FileRoutes

/-- The form in which an export is written. -/
inductive ExportKind where
  /-- A constant. -/
  | variable
  /-- A function. -/
  | function
  /-- The default export. -/
  | default
  /-- A name in a list of re-exports. -/
  | named
  deriving DecidableEq, Repr

/-- What an export is for. -/
inductive ExportRole where
  /-- It answers requests. -/
  | handler
  /-- It describes the route. -/
  | options
  deriving DecidableEq, Repr

/-- An **export** of a route file. -/
structure Export where
  /-- The exported name. -/
  name : String
  /-- The form in which it is written. -/
  kind : ExportKind
  /-- What it is for, if it matters for routing. -/
  role : Option ExportRole
  deriving DecidableEq, Repr

/-- The word for a kind of export. -/
def ExportKind.word : ExportKind → String
  | .variable => "variable"
  | .function => "function"
  | .default => "default"
  | .named => "named"

/-- The word for a role. -/
def ExportRole.word : ExportRole → String
  | .handler => "handler"
  | .options => "options"

namespace Export

/-- The name under which a route file exports its description. -/
def optionsName : String := "options"

/-- The name of a handler that is not named after a verb. -/
def handlerName : String := "handler"

/-- The name under which the default export is listed. -/
def defaultName : String := "default"

/-- Whether a name is one of the verbs, in any casing. -/
def isVerb (name : String) : Bool :=
  (Verb.ofName? name).isSome

/-- An exported constant: the options by their name, a handler by a verb or `handler`. -/
def ofValue (name : String) : Export :=
  { name
    kind := .variable
    role :=
      if name = optionsName then some .options
      else if isVerb name || name = handlerName then some .handler
      else none }

/-- An exported function: a handler by a verb, `options` being one, or by `handler`. -/
def ofFunction (name : String) : Export :=
  { name
    kind := .function
    role := if isVerb name || name = handlerName then some .handler else none }

/-- The default export. -/
def ofDefault : Export :=
  { name := defaultName, kind := .default, role := none }

/-- A re-exported name: the options by their name, a handler by a verb. -/
def ofNamed (name : String) : Export :=
  { name
    kind := .named
    role :=
      if name = optionsName then some .options
      else if isVerb name then some .handler
      else none }

end Export

end FileRoutes
