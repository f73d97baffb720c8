import FileRoutes.Proofs.Source.Balance
import FileRoutes.Proofs.Source.Entries
import FileRoutes.Proofs.Source.Pieces

/-! # Nested extraction

What a block holds is balanced, and so are the parts that its body is cut into and the values that
the parts are cut into. An object literal among these values is therefore closed, so that its body
is found, and the same holds in that body (`extraction_nested`).

* `Balanced.of_append`, `Balanced.trim`: a cut at the top and trimming keep balance.
* `Balanced.of_mem_parts`, `Balanced.splitEntry`: so do the cuts at commas and at colons.
* `Balanced.exists_closer`: the group that is open in front of balanced code is closed in it. -/

namespace FileRoutes.Source

open Text

/-! ## Cuts keep balance -/

section Cuts

variable {text front back rest : List Char}

/-- **Balanced code that is cut at the top** is balanced on both sides. -/
theorem Balanced.of_append (balanced : Balanced 0 (front ++ rest))
    (top : Scanner.start.run front = .start) : Balanced 0 front ∧ Balanced 0 rest := by
  have passes : Passes isCloser .start (front ++ rest) .start := balanced.passes
  obtain ⟨inFront, behind⟩ := passes.of_append
  rw [top] at inFront behind
  exact ⟨balanced_of_passes inFront, balanced_of_passes behind⟩

/-- Behind a plain character code stays balanced. -/
theorem Balanced.tail {c : Char} (plain : isPlain c = true) (balanced : Balanced 0 (c :: rest)) :
    Balanced 0 rest := by
  have top : Scanner.start.run [c] = .start := step_of_isPlain 0 plain
  rw [← List.singleton_append] at balanced
  exact (balanced.of_append top).2

/-- Trimming keeps balance. -/
theorem Balanced.trim (balanced : Balanced 0 text) : Balanced 0 (Text.trim text) := by
  have top : Scanner.start.run text = .start := balanced.passes.run
  obtain ⟨lead, trail, isLead, -, whole⟩ := exists_isGap_trim text
  -- The text is cut twice, in front of its last blanks and behind its first ones.
  have inner : Scanner.start.run (lead ++ Text.trim text) = .start := by
    rw [Scanner.run_append, Scanner.run_of_isGap isLead]
    exact Scanner.run_trim top
  rw [whole] at balanced
  exact ((balanced.of_append inner).1.of_append (Scanner.run_of_isGap isLead)).2

/-- The parts of a balanced body are balanced. -/
theorem Balanced.of_mem_parts {body part : List Char} (balanced : Balanced 0 body)
    (member : part ∈ parts body) : Balanced 0 part := by
  induction body using cut_induction (· == ',') with
  | uncut text uncut =>
    have passes : Passes (· == ',') .start text _ := ⟨rfl, uncut⟩
    rw [parts_of_passes passes] at member
    obtain ⟨-, rfl⟩ := isPart_of_mem_filter passes member
    exact balanced.trim
  | cut front c back passes isComma ih =>
    obtain rfl : c = ',' := by simpa using isComma
    obtain ⟨inFront, behind⟩ := balanced.of_append passes.run
    rw [parts_append_comma passes, List.mem_append] at member
    rcases member with first | later
    · obtain ⟨-, rfl⟩ := isPart_of_mem_filter passes first
      exact inFront.trim
    · exact ih (behind.tail (by decide)) later

/-- The value of a balanced part is balanced, and has no blanks at its ends. -/
theorem Balanced.splitEntry {part : List Char} (balanced : Balanced 0 part) :
    Balanced 0 (splitEntry part).2 ∧
      Text.trim (Source.splitEntry part).2 = (Source.splitEntry part).2 := by
  refine ⟨?_, trim_splitEntry part⟩
  unfold Source.splitEntry
  split
  next key value cut =>
    obtain ⟨c, isColon, rfl, passes⟩ := cutAt?_eq_some_iff.1 cut
    obtain rfl : c = ':' := by simpa using isColon
    exact ((balanced.of_append passes.run).2.tail (by decide)).trim
  next => exact .done

end Cuts

/-! ## Groups are closed -/

/-- **The group that is open in front of balanced code is closed in it**, with balanced code on both
sides of the closer. -/
theorem Balanced.exists_closer {depth : Nat} {text : List Char}
    (balanced : Balanced (depth + 1) text) :
    ∃ front closer back, isCloser closer = true ∧ text = front ++ closer :: back ∧
      Balanced depth front ∧ Balanced 0 back := by
  generalize opened : depth + 1 = outer at balanced
  induction balanced generalizing depth with
  | done => cases opened
  | @plain _ c rest plain _ ih =>
    obtain ⟨front, closer, back, closes, rfl, inFront, behind⟩ := ih opened
    exact ⟨c :: front, closer, back, closes, rfl, .plain plain inFront, behind⟩
  | @opener _ c rest opens _ ih =>
    obtain ⟨front, closer, back, closes, rfl, inFront, behind⟩ := ih (congrArg (· + 1) opened)
    exact ⟨c :: front, closer, back, closes, rfl, .opener opens inFront, behind⟩
  | @closer inner c rest closes balanced ih =>
    obtain rfl := Nat.succ.inj opened
    -- The closer is the one of the group itself, or of one that was opened later.
    cases depth with
    | zero => exact ⟨[], c, rest, closes, rfl, .done, balanced⟩
    | succ depth =>
      obtain ⟨front, closer, back, closes', rfl, inFront, behind⟩ := ih rfl
      exact ⟨c :: front, closer, back, closes', rfl, .closer closes inFront, behind⟩
  | @literal _ length quote rest isQuote closed _ ih =>
    obtain ⟨front, closer, back, closes, whole, inFront, behind⟩ := ih opened
    -- The literal ends in front of the closer, and so it does when the text ends there.
    obtain ⟨within, closed'⟩ := literalLength?_take_append closed front
    refine ⟨quote :: (rest.take length ++ front), closer, back, closes, ?_, ?_, behind⟩
    · rw [List.cons_append, List.append_assoc, ← whole, List.take_append_drop]
    · refine .literal isQuote closed' ?_
      rwa [List.drop_left' (List.length_take_of_le within)]

/-- **An object literal with balanced code is closed**: its body is found, and is balanced. -/
theorem Balanced.exists_objectBody? {expression rest : List Char}
    (balanced : Balanced 0 expression) (object : Text.trim expression = '\x7b' :: rest) :
    ∃ body, objectBody? expression = some body := by
  have trimmed := balanced.trim
  rw [object] at trimmed
  -- The brace opens a group, which is closed in what follows.
  have grouped : Balanced 1 rest := by
    cases trimmed with
    | plain plain => exact absurd plain (by decide)
    | opener _ code => exact code
    | literal quote => exact absurd quote (by decide)
  obtain ⟨front, closer, back, closes, rfl, inFront, -⟩ := grouped.exists_closer
  refine ⟨front, ?_⟩
  rw [objectBody?, object, blockBody?, cutAt?_start_eq_some_iff.2 ⟨closer, closes, rfl, inFront⟩]
  rfl

/-- The body of an object literal is balanced. -/
theorem balanced_of_objectBody? {expression body : List Char}
    (found : objectBody? expression = some body) : Balanced 0 body := by
  rw [objectBody?, ← List.drop_zero (l := Text.trim expression)] at found
  exact (blockBody?_drop_eq_some_iff.1 found).balanced

/-! ## Nested bodies -/

/-- A body **directly encloses** another one: that of an object literal which is the value of one of
its parts. -/
def Encloses (outer inner : List Char) : Prop :=
  ∃ part ∈ parts outer, objectBody? (splitEntry part).2 = some inner

/-- A body that a balanced one encloses at any depth is balanced. -/
theorem Balanced.of_encloses {outer inner : List Char} (balanced : Balanced 0 outer)
    (nested : Relation.ReflTransGen Encloses outer inner) : Balanced 0 inner := by
  induction nested with
  | refl => exact balanced
  | tail _ step _ =>
    obtain ⟨part, -, found⟩ := step
    exact balanced_of_objectBody? found

/-- **Nested extraction does not fail.** Let a block stand in a text, and take any body that its
body encloses at any depth. The parts of that body and the values of the parts are balanced, and
where a value begins with a brace, its own body is found. -/
theorem extraction_nested {text body inner part : List Char} {start : Nat}
    (found : blockBody? (text.drop start) = some body)
    (nested : Relation.ReflTransGen Encloses body inner) (member : part ∈ parts inner) :
    Balanced 0 part ∧ Balanced 0 (splitEntry part).2 ∧
      ((splitEntry part).2.head? = some '\x7b' →
        ∃ deeper, objectBody? (splitEntry part).2 = some deeper) := by
  have outer : Balanced 0 body := (blockBody?_drop_eq_some_iff.1 found).balanced
  have ofPart : Balanced 0 part := (outer.of_encloses nested).of_mem_parts member
  obtain ⟨ofValue, trimmed⟩ := ofPart.splitEntry
  refine ⟨ofPart, ofValue, fun object => ?_⟩
  have brace := List.eq_cons_of_mem_head? object
  exact ofValue.exists_objectBody? (trimmed.trans brace)

/-- A body with an object whose list holds a brace in a literal, and in which another object is. -/
def outerBody : List Char := " a: \x7b b: ['\x7d'], c: \x7bd: 1\x7d \x7d, e ".toList

/-- The body of that object. -/
def innerBody : List Char := " b: ['\x7d'], c: \x7bd: 1\x7d ".toList

/-- The object in that object is found in a text in which the body is a block. -/
theorem extraction_nested_twice :
    blockBody? (("= \x7b".toList ++ outerBody ++ "\x7d;".toList).drop 2) = some outerBody ∧
      Relation.ReflTransGen Encloses outerBody innerBody ∧
      "c: \x7bd: 1\x7d".toList ∈ parts innerBody ∧ Balanced 0 "c: \x7bd: 1\x7d".toList ∧
      ∃ deeper, objectBody? (splitEntry "c: \x7bd: 1\x7d".toList).2 = some deeper := by
  have found :
      blockBody? (("= \x7b".toList ++ outerBody ++ "\x7d;".toList).drop 2) = some outerBody := by
    decide
  have encloses : Encloses outerBody innerBody :=
    ⟨"a: \x7b b: ['\x7d'], c: \x7bd: 1\x7d \x7d".toList, by decide, by decide⟩
  have member : "c: \x7bd: 1\x7d".toList ∈ parts innerBody := by decide
  obtain ⟨ofPart, -, deeper⟩ := extraction_nested found (.single encloses) member
  exact ⟨found, .single encloses, member, ofPart, deeper (by decide)⟩

end FileRoutes.Source
