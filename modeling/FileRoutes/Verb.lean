/-! # Verbs

The HTTP verbs that a route can serve (`Verb`). A name stands for a verb in any casing
(`Verb.ofName?`); answers give the verb in capitals (`Verb.word`). -/

namespace FileRoutes

/-- An HTTP verb that a route can serve. -/
inductive Verb where
  | get
  | post
  | put
  | patch
  | delete
  | head
  | options
  deriving DecidableEq, Repr

namespace Verb

/-- All verbs. -/
def all : List Verb := [get, post, put, patch, delete, head, options]

/-- The verb in capitals. -/
def word : Verb → String
  | get => "GET"
  | post => "POST"
  | put => "PUT"
  | patch => "PATCH"
  | delete => "DELETE"
  | head => "HEAD"
  | options => "OPTIONS"

/-- The name of a verb, in small letters. -/
def name : Verb → List Char
  | get => ['g', 'e', 't']
  | post => ['p', 'o', 's', 't']
  | put => ['p', 'u', 't']
  | patch => ['p', 'a', 't', 'c', 'h']
  | delete => ['d', 'e', 'l', 'e', 't', 'e']
  | head => ['h', 'e', 'a', 'd']
  | options => ['o', 'p', 't', 'i', 'o', 'n', 's']

/-- The verb that a name stands for, whatever its casing. -/
def ofName? (name : String) : Option Verb :=
  all.find? fun verb => name.toList.map Char.toLower == verb.name

/-- Every verb is listed. -/
theorem mem_all (verb : Verb) : verb ∈ all := by
  cases verb <;> decide

end Verb

end FileRoutes
