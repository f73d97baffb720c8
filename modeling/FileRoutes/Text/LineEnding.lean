/-! # Line endings

A text file may end its lines with a line feed, a carriage return, or the two together. Reading
makes every ending a line feed (`unifyLineEndings`), so that what follows sees one style. -/

namespace FileRoutes.Text

/-- Every carriage return, alone or with the line feed after it, becomes one line feed. -/
def unifyLineEndings : List Char → List Char
  | [] => []
  | '\r' :: '\n' :: rest => '\n' :: unifyLineEndings rest
  | c :: rest => (if c = '\r' then '\n' else c) :: unifyLineEndings rest

/-- A text without carriage returns is read as it is. -/
theorem unifyLineEndings_eq_self {text : List Char} (free : '\r' ∉ text) :
    unifyLineEndings text = text := by
  fun_induction unifyLineEndings text with
  | case1 => rfl
  | case2 rest ih => simp at free
  | case3 c rest _ ih =>
    simp only [List.mem_cons, not_or] at free
    simp [ih free.2, Ne.symm free.1]

end FileRoutes.Text
