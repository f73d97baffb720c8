/-! # Ranges of code points

A character class that a standard lists as ranges is kept as an ascending list of **closed ranges**
(`CharRange`). Membership (`CharRange.covers`) looks a code point up in such a list. -/

namespace FileRoutes.Text

/-- A **closed range** of code points. -/
structure CharRange where
  /-- The first code point of the range. -/
  first : Nat
  /-- The last code point of the range, which belongs to it. -/
  last : Nat
  deriving DecidableEq, Repr

namespace CharRange

/-- Whether a code point lies in the range. -/
def holds (range : CharRange) (code : Nat) : Bool :=
  range.first ≤ code && code ≤ range.last

/-- Whether a character lies in one of the listed ranges. -/
def covers (table : List CharRange) (c : Char) : Bool :=
  table.any fun range => range.holds c.toNat

/-- No character lies in an empty table. -/
@[simp] theorem covers_nil (c : Char) : covers [] c = false := rfl

/-- A character lies in a table iff it lies in the first range or in one of the others. -/
@[simp] theorem covers_cons (range : CharRange) (table : List CharRange) (c : Char) :
    covers (range :: table) c = (range.holds c.toNat || covers table c) := rfl

end CharRange

end FileRoutes.Text
