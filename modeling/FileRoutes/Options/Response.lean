import FileRoutes.Options.Basic
import FileRoutes.Source.Block
import FileRoutes.Text.Digit

/-! # Response schemas

The responses of a route are an object from statuses to schemas. A key is a status when it writes
three decimal digits, of any script, whose number is one (`statusOfKey?`); the other entries are
left out. One description is given for all responses and goes to the first that reports success
(`describeFirstSuccess`). -/

namespace FileRoutes.ResponseSchema

/-- A text without one quote in front, if there is one. -/
def dropKeyQuote : List Char → List Char
  | [] => []
  | c :: rest => if Source.isKeyQuote c then rest else c :: rest

/-- The number that a key of three digits writes. A quote may stand on either side of the digits,
and a line feed at the end. -/
def threeDigits? (key : List Char) : Option Nat :=
  match dropKeyQuote key with
  | a :: b :: c :: rest => do
    let a ← Text.digitValue? a
    let b ← Text.digitValue? b
    let c ← Text.digitValue? c
    guard (dropKeyQuote rest = [] ∨ dropKeyQuote rest = ['\n'])
    return Text.ofDigits [a, b, c]
  | _ => none

/-- The status that a key writes. -/
def statusOfKey? (key : List Char) : Option Nat :=
  (threeDigits? key).filter isStatus

/-- The response of an entry, still without a description; `none` when the key is no status or the
value is empty. -/
def ofEntry? (entry : List Char × List Char) : Option ResponseSchema := do
  let status ← statusOfKey? entry.1
  guard (!entry.2.isEmpty)
  return ⟨status, String.ofList (Text.collapse entry.2), none⟩

/-- Gives a description to the first response that reports success. -/
def describeFirstSuccess (description : String) : List ResponseSchema → List ResponseSchema
  | [] => []
  | response :: rest =>
    if isSuccess response.status then { response with description := some description } :: rest
    else response :: describeFirstSuccess description rest

/-- Gives a description to the responses. An empty one is none. -/
def describe (description : Option (List Char)) (responses : List ResponseSchema) :
    List ResponseSchema :=
  match description with
  | none | some [] => responses
  | some text => describeFirstSuccess (String.ofList text) responses

/-- The **responses** that an expression describes. What is no object describes none. -/
def ofExpression (expression : List Char) (description : Option (List Char)) :
    List ResponseSchema :=
  match Source.objectBody? expression with
  | none => []
  | some body => describe description ((Source.entries body).filterMap ofEntry?)

end FileRoutes.ResponseSchema
