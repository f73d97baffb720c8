/-! # JSON values

The values that requests and reports are made of: `Json`. A number is an integer of any size, or has
a fraction and stands for itself exactly: how a decoder rounds what it reads is left to it, and that
a number is none or infinite cannot be said. Strings are texts, so that they hold no surrogates
without partners. The members of an object keep the order in which they were given. -/

namespace FileRoutes

/-- A **JSON value**. -/
inductive Json where
  /-- The null value. -/
  | null
  /-- A truth value. -/
  | bool (value : Bool)
  /-- An integer. -/
  | int (value : Int)
  /-- A number with a fraction, which may be zero: its value in units of the last place behind the
  point. There is one more such place than `places`. -/
  | decimal (units : Int) (places : Nat)
  /-- A string. -/
  | str (value : String)
  /-- A list of values. -/
  | arr (items : List Json)
  /-- A list of members, each a key with its value. -/
  | obj (members : List (String × Json))
  deriving Repr, Inhabited

namespace Json

/-- The value of the first member with a key; `none` without one, and for other values. -/
def member? (key : String) : Json → Option Json
  | .obj members => members.lookup key
  | _ => none

/-- A natural number as a JSON integer. -/
def nat (value : Nat) : Json := .int value

/-- A list of strings. -/
def strs (values : List String) : Json := .arr (values.map .str)

/-- A value that may be missing, which is then null. -/
def ofOption {α : Type} (encode : α → Json) : Option α → Json
  | none => .null
  | some value => encode value

/-- A missing value is null. -/
@[simp] theorem ofOption_none {α : Type} (encode : α → Json) : ofOption encode none = .null := rfl

/-- A value that is there is written as such. -/
@[simp] theorem ofOption_some {α : Type} (encode : α → Json) (value : α) :
    ofOption encode (some value) = encode value := rfl

end Json

end FileRoutes
