import FileRoutes.Proofs.Source.Written

/-! # Objects in any layout

An object body is a list of **members** (`Member`): entries, whose keys may be in quotes, and
spreads of other expressions. Reading a body gives back the entries that were written, in order and
with their values as they are, whatever the gaps, the quotes of the keys and the spreads between
them (`entries_of_writesObject`). -/

namespace FileRoutes.Source

open Text

/-- A **member** of an object. -/
inductive Member where
  /-- A key with its value. -/
  | entry (key value : List Char)
  /-- The entries of another object. -/
  | spread (expression : List Char)
  deriving DecidableEq, Repr

namespace Member

/-- The key and the value of an entry. -/
def pair? : Member → Option (List Char × List Char)
  | entry key value => some (key, value)
  | spread _ => none

/-- How a member is written. -/
inductive Writes : Member → List Char → Prop where
  /-- An entry is its key, perhaps in quotes, a colon and its value, with gaps around the colon. -/
  | entry {key value text gap gap' : List Char} (written : WritesKey key text) (isGap : IsGap gap)
      (isGap' : IsGap gap') : Writes (entry key value) (text ++ gap ++ ':' :: (gap' ++ value))
  /-- A spread is its mark and an expression. -/
  | spread {expression : List Char} : Writes (spread expression) (spreadMark ++ expression)

/-- A member is **proper** when its key is a word and its value or expression a token. -/
inductive IsProper : Member → Prop where
  /-- A proper entry. -/
  | entry {key value : List Char} (word : IsWord key) (token : IsToken value) :
      IsProper (entry key value)
  /-- A proper spread. -/
  | spread {expression : List Char} (token : IsToken expression) : IsProper (spread expression)

variable {member : Member} {text : List Char}

/-- The mark of a spread in front of a token makes a token. -/
theorem isToken_spread {expression : List Char} (token : IsToken expression) :
    IsToken (spreadMark ++ expression) := by
  have mark : WellNested false spreadMark := wellNested_of_all (by decide)
  refine ⟨mark.append token.code, trim_eq_self_iff.2 ⟨?_, ?_⟩, List.cons_ne_nil _ _⟩
  · intro c first
    obtain rfl : '.' = c := Option.some.inj first
    decide
  · intro c last
    rw [List.getLast?_append_of_ne_nil _ token.nonempty] at last
    exact (trim_eq_self_iff.1 token.trimmed).2 c last

/-- A proper member is written as a token. -/
theorem Writes.isToken (written : member.Writes text) (proper : member.IsProper) :
    IsToken text := by
  cases written with
  | entry written isGap isGap' =>
    cases proper with
    | entry word token => exact (written.isToken word).entry token isGap isGap'
  | spread =>
    cases proper with
    | spread token => exact isToken_spread token

/-- A proper member is read as its key and its value; a spread is passed over. -/
theorem Writes.entry?_eq (written : member.Writes text) (proper : member.IsProper) :
    entry? text = member.pair? := by
  cases written with
  | entry written isGap isGap' =>
    cases proper with
    | entry word token => exact written.entry?_append word isGap isGap' token
  | @spread expression =>
    have marked : spreadMark.isPrefixOf (spreadMark ++ expression) = true := by
      simp [spreadMark]
    rw [pair?, entry?, if_pos marked]

end Member

/-- **The layouts of an object body** with given entries: proper members in a list, of which the
entries are the given ones, in order. -/
inductive WritesObject (pairs : List (List Char × List Char)) : List Char → Prop where
  /-- The entries, with spreads in front of them, between them and behind them. -/
  | members {members : List Member} {body : List Char}
      (entries : members.filterMap Member.pair? = pairs)
      (spreads : ∀ expression, .spread expression ∈ members → IsToken expression)
      (written : WritesItems Member.Writes members body) : WritesObject pairs body

/-- **Reading an object body undoes writing it**: when the keys are different words and the values
tokens, the entries of every layout are those that were written, in order and unchanged. -/
theorem entries_of_writesObject {pairs : List (List Char × List Char)} {body : List Char}
    (words : ∀ pair ∈ pairs, IsWord pair.1) (tokens : ∀ pair ∈ pairs, IsToken pair.2)
    (distinct : (pairs.map Prod.fst).Nodup) (written : WritesObject pairs body) :
    entries body = pairs := by
  obtain ⟨rfl, spreads, written⟩ := written
  rename_i members
  -- Keys and values are known from the pairs, which leave out the spreads.
  have proper : ∀ member ∈ members, member.IsProper := by
    intro member isMember
    cases member with
    | entry key value =>
      have listed : (key, value) ∈ members.filterMap Member.pair? :=
        List.mem_filterMap.2 ⟨_, isMember, rfl⟩
      exact .entry (words _ listed) (tokens _ listed)
    | spread expression => exact .spread (spreads expression isMember)
  have found : List.Forall₂ Member.Writes members (parts body) :=
    parts_of_writesItems written fun member isMember text written =>
      written.isToken (proper member isMember)
  have read : (parts body).filterMap entry? = members.filterMap Member.pair? :=
    filterMap_of_forall₂ found fun member isMember text written =>
      written.entry?_eq (proper member isMember)
  -- Of equal keys only the first one would be kept.
  rw [entries, read]
  exact firstOfEachKey_eq_self (by simp) distinct

/-- Two entries, whose values hold the marks that entries are cut at. -/
def markedPairs : List (List Char × List Char) :=
  [("on".toList, "f(b, [':'])".toList), ("to".toList, "'a: \\', b'".toList)]

/-- A body with these entries behind a spread, with quotes around the keys and a last comma. -/
def markedBody : List Char := " ...rest, 'on' : f(b, [':']),\n\"to\":'a: \\', b' ,".toList

/-- Those values are tokens. -/
theorem isToken_markedPairs : ∀ pair ∈ markedPairs, IsToken pair.2 := by
  intro pair member
  rcases List.mem_pair.1 member with rfl | rfl
  · have colon : WellNested true ('\'' :: ([':'] ++ ['\''])) :=
      .literal (by decide) (.plain (by decide) (by decide) .nil) .nil
    have name : WellNested true ['b'] := wellNested_of_all (by decide)
    have space : WellNested true [' '] := wellNested_of_all (by decide)
    have list : WellNested true _ := .group (rfl : closerOf? '[' = _) colon .nil
    have arguments := name.append (space.append list).comma
    have call : WellNested false ['f'] := wellNested_of_all (by decide)
    exact ⟨call.append (.group (rfl : closerOf? '(' = _) arguments .nil), by decide, by decide⟩
  · have inside : LiteralBody '\'' "a: \\', b".toList :=
      .plain (by decide) (by decide) <| .plain (by decide) (by decide) <|
      .plain (by decide) (by decide) <| .escaped <| .plain (by decide) (by decide) <|
      .plain (by decide) (by decide) <| .plain (by decide) (by decide) .nil
    exact ⟨.literal (by decide) inside .nil, by decide, by decide⟩

/-- That body is read as those entries. -/
theorem entries_of_writesObject_marked :
    (∀ pair ∈ markedPairs, IsWord pair.1) ∧ (∀ pair ∈ markedPairs, IsToken pair.2) ∧
      (markedPairs.map Prod.fst).Nodup ∧ WritesObject markedPairs markedBody ∧
      entries markedBody = markedPairs := by
  have words : ∀ pair ∈ markedPairs, IsWord pair.1 := by decide
  have distinct : (markedPairs.map Prod.fst).Nodup := by decide
  have space : IsGap [' '] := by decide
  have rest : IsToken "rest".toList := ⟨wellNested_of_all (by decide), by decide, by decide⟩
  have listed : WritesItems Member.Writes
      [.spread "rest".toList, .entry "on".toList "f(b, [':'])".toList,
        .entry "to".toList "'a: \\', b'".toList] _ :=
    .cons space .spread isGap_nil <|
    .cons space (.entry (.quoted (by decide : isKeyQuote '\'' = true)) space space) isGap_nil <|
    .cons (by decide : IsGap ['\n'])
      (.entry (.quoted (by decide : isKeyQuote '"' = true)) isGap_nil isGap_nil) space
      (.nil isGap_nil)
  have written : WritesObject markedPairs markedBody := by
    refine .members (by decide) ?_ listed
    intro expression member
    obtain rfl : expression = "rest".toList := by simpa using member
    exact rest
  exact ⟨words, isToken_markedPairs, distinct, written,
    entries_of_writesObject words isToken_markedPairs distinct written⟩

end FileRoutes.Source
