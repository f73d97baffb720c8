import FileRoutes.Json.Basic
import FileRoutes.Text.Blank
import FileRoutes.Text.Integer

/-! # Checking JSON against a shape

A reader takes a JSON value and answers with the value it stands for or with **every** fault found
on the way (`Checked`): the readers of the fields of a record are combined so that their faults are
listed one field after the other. A `Fault` says what is wrong, and where, as the path of keys and
indices into the value. Where a value of another kind has an evident meaning it is accepted: an
integer may be a string of digits, a truth value or a number whose fraction is zero, a truth value
one of the usual words or the number 0 or 1. -/

namespace FileRoutes.Schema

/-- What is wrong with a value. -/
inductive FaultKind where
  | missing
  | stringType
  | stringTooShort
  | stringPatternMismatch
  | literalError
  | intType
  | intParsing
  | intParsingSize
  | intFromFloat
  | greaterThanEqual
  | lessThanEqual
  | boolType
  | boolParsing
  | listType
  | dictType
  | modelType
  | modelAttributesType
  deriving DecidableEq, Repr

/-- One step into a value. -/
inductive Step where
  /-- To the member with a key. -/
  | key (name : String)
  /-- To the item at an index. -/
  | index (position : Nat)
  deriving DecidableEq, Repr

/-- A **fault**: what is wrong, and where. -/
structure Fault where
  /-- What is wrong. -/
  kind : FaultKind
  /-- The way to the value that is wrong. -/
  place : List Step
  deriving DecidableEq, Repr

/-- The outcome of reading: a value, or the faults that were found. -/
inductive Checked (α : Type) where
  /-- The value is as it should be. -/
  | valid (value : α)
  /-- The faults, of which there is at least one. -/
  | invalid (faults : List Fault)
  deriving DecidableEq, Repr

namespace Checked

/-- Applies a function to the value. -/
def map {α β : Type} (f : α → β) : Checked α → Checked β
  | valid value => valid (f value)
  | invalid faults => invalid faults

/-- Applies a function that is checked itself. The faults of both sides are listed. -/
def ap {α β : Type} : Checked (α → β) → Checked α → Checked β
  | valid f, valid value => valid (f value)
  | valid _, invalid faults => invalid faults
  | invalid faults, valid _ => invalid faults
  | invalid first, invalid second => invalid (first ++ second)

instance : Functor Checked where
  map := map

instance : Applicative Checked where
  pure := valid
  seq f value := ap f (value ())

/-- The outcome of a second check that needs the value of the first. -/
def andThen {α β : Type} (checked : Checked α) (next : α → Checked β) : Checked β :=
  match checked with
  | valid value => next value
  | invalid faults => invalid faults

/-- A single fault in the value itself. -/
def fault {α : Type} (kind : FaultKind) : Checked α := invalid [⟨kind, []⟩]

/-- An outcome one step further inside a value. -/
def within {α : Type} (step : Step) : Checked α → Checked α
  | valid value => valid value
  | invalid faults => invalid (faults.map fun fault => { fault with place := step :: fault.place })

end Checked

/-- Reads a JSON value. -/
abbrev Reader (α : Type) := Json → Checked α

namespace Reader

/-- Reads a string. -/
def string : Reader String
  | .str text => .valid text
  | _ => .fault .stringType

/-- Whether a character in front of or behind a number in a string does not count. -/
def isMargin (c : Char) : Bool :=
  Text.isBlank c && !(0x1C ≤ c.toNat && c.toNat ≤ 0x1F)

/-- The natural number that ASCII digits write, with zeros behind a point or without. -/
def unsignedOfText? (text : List Char) : Option Nat := do
  let whole := text.takeWhile (· != '.')
  let fraction := (text.dropWhile (· != '.')).drop 1
  guard (whole.all (·.toNat < 0x80) && fraction.all (· == '0'))
  Text.parseUnsigned? whole

/-- The integer that a string writes. -/
def integerOfText? (text : List Char) : Option Int :=
  match ((text.dropWhile isMargin).reverse.dropWhile isMargin).reverse with
  | '-' :: rest => (unsignedOfText? rest).map fun value => -(value : Int)
  | '+' :: rest => (unsignedOfText? rest).map fun value => (value : Int)
  | rest => (unsignedOfText? rest).map fun value => (value : Int)

/-- The integers that a word of 64 bits holds lie below this number, and not below its negative. -/
def wordLimit : Nat := 0x8000000000000000

/-- The integer that a number with a fraction stands for. The fraction must be zero, and what stands
in front of it must lie strictly between these limits. -/
def integerOfDecimal (units : Int) (places : Nat) : Checked Int :=
  let one : Int := Text.powerOfTen (places + 1)
  if units % one ≠ 0 then .fault .intFromFloat
  else if (units / one).natAbs < wordLimit then .valid (units / one)
  else .fault .intParsingSize

/-- Reads an integer. -/
def integer : Reader Int
  | .int value => .valid value
  | .decimal units places => integerOfDecimal units places
  | .bool value => .valid (if value then 1 else 0)
  | .str text =>
    match integerOfText? text.toList with
    | some value => .valid value
    | none => .fault .intParsing
  | _ => .fault .intType

/-- Reads a natural number from a least one on, and up to a greatest one if that is given. -/
def natural (least : Nat) (greatest : Option Nat) : Reader Nat := fun json =>
  (integer json).andThen fun value =>
    if value < least then .fault .greaterThanEqual
    else
      match greatest with
      | none => .valid value.toNat
      | some greatest => if greatest < value then .fault .lessThanEqual else .valid value.toNat

/-- The words for no, in small letters. -/
def noWords : List String := ["0", "off", "f", "false", "n", "no"]

/-- The words for yes, in small letters. -/
def yesWords : List String := ["1", "on", "t", "true", "y", "yes"]

/-- The truth value that an integer stands for. -/
def truthOfInteger (value : Int) : Checked Bool :=
  if value = 0 then .valid false else if value = 1 then .valid true else .fault .boolParsing

/-- Reads a truth value. A number that a word does not hold is no integer here. -/
def boolean : Reader Bool
  | .bool value => .valid value
  | .int value =>
    if -(wordLimit : Int) ≤ value ∧ value < wordLimit then truthOfInteger value
    else .fault .boolType
  | .decimal units places =>
    match integerOfDecimal units places with
    | .valid value => truthOfInteger value
    | .invalid _ => .fault .boolType
  | .str text =>
    let word := String.ofList (text.toList.map Char.toLower)
    if noWords.contains word then .valid false
    else if yesWords.contains word then .valid true
    else .fault .boolParsing
  | _ => .fault .boolType

/-- Reads one of some values by its word. -/
def oneOf {α : Type} (values : List α) (word : α → String) : Reader α
  | .str text =>
    match values.find? fun value => word value == text with
    | some value => .valid value
    | none => .fault .literalError
  | _ => .fault .literalError

/-- Reads a value that may be null. -/
def nullable {α : Type} (reader : Reader α) : Reader (Option α)
  | .null => .valid none
  | json => (reader json).map some

/-- Reads the items of a list from an index on. -/
def items {α : Type} (reader : Reader α) : (index : Nat) → List Json → Checked (List α)
  | _, [] => .valid []
  | index, json :: rest =>
    .ap (((reader json).within (.index index)).map List.cons) (items reader (index + 1) rest)

/-- Reads a list. -/
def list {α : Type} (reader : Reader α) : Reader (List α)
  | .arr jsons => items reader 0 jsons
  | _ => .fault .listType

/-- Reads the values of the members of an object. -/
def values {α : Type} (reader : Reader α) : List (String × Json) → Checked (List (String × α))
  | [] => .valid []
  | (key, json) :: rest =>
    .ap (((reader json).within (.key key)).map fun value others => (key, value) :: others)
      (values reader rest)

/-- Reads an object with any keys. -/
def dictionary {α : Type} (reader : Reader α) : Reader (List (String × α))
  | .obj members => values reader members
  | _ => .fault .dictType

/-- Reads an object with fixed fields by its members. What is no object has the given fault. -/
def record {α : Type} (otherwise : FaultKind) (fields : List (String × Json) → Checked α) :
    Reader α
  | .obj members => fields members
  | _ => .fault otherwise

end Reader

/-- The field with a key, which must be there. -/
def required {α : Type} (members : List (String × Json)) (key : String) (reader : Reader α) :
    Checked α :=
  match members.lookup key with
  | some json => (reader json).within (.key key)
  | none => (Checked.fault .missing).within (.key key)

/-- The field with a key, or a default when it is not there. -/
def optional {α : Type} (members : List (String × Json)) (key : String) (reader : Reader α)
    (default : α) : Checked α :=
  match members.lookup key with
  | some json => (reader json).within (.key key)
  | none => .valid default

end FileRoutes.Schema
