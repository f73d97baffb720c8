import FileRoutes.Proofs.Options.Printed
import FileRoutes.Proofs.Source.Pieces

/-! # Declarations with a type annotation

A type annotation goes from its colon to the first equals sign behind it. So it does not change the
options that are read when it has no such sign, whatever else it holds. With one, what follows the
sign is taken for the value, and the two declarations differ for some object
(`ofSource?_annotated_iff`).

* `ofSource?_append`: the value of a declaration is read, or else the text behind its left side.
* `blockBody?_annotated`: a block that begins in an annotation ends in it, or it does not end. -/

namespace FileRoutes

open Text Source

/-! ## Blocks that begin in the middle of a text -/

namespace Source

/-- Without a closer at the top at least as many brackets were opened as closed. -/
theorem Passes.notBelow {text : List Char} {scanner : Scanner}
    (passes : Passes isCloser .start text scanner) : 0 ≤ scanner.depth := by
  induction text using List.reverseRecOn generalizing scanner with
  | nil =>
    obtain rfl := passes.run
    exact Int.le_refl 0
  | append_singleton text c ih =>
    obtain ⟨first, last⟩ := passes.of_append
    have notBelow := ih first
    obtain rfl := last.run
    have goesOn := last.uncons.1
    rw [Scanner.run_cons, Scanner.run_nil]
    generalize Scanner.start.run text = before at notBelow goesOn
    obtain ⟨mode, depth⟩ := before
    simp only [Scanner.step] at notBelow ⊢
    split
    next => exact notBelow
    next inCode =>
      split
      next => omega
      next =>
        split
        next closes =>
          -- A closer in code would have been a stop at depth zero.
          have deeper : depth ≠ 0 := by
            rintro rfl
            rw [not_not] at inCode
            exact goesOn (by simp [Scanner.atTop, inCode, closes])
          omega
        next => exact notBelow

/-- The end of an annotated declaration of an empty object. -/
def emptyObject : List Char := " = \x7b\x7d".toList

/-- What no block ends in is left open by an empty object behind it. -/
theorem cutAt?_emptyObject {scanner : Scanner} (notBelow : 0 ≤ scanner.depth)
    (quotes : ∀ q ∈ scanner.mode.quote?, isQuote q = true) :
    cutAt? isCloser scanner emptyObject = none := by
  have inside : ∀ {quote : Char}, isQuote quote = true → LiteralBody quote emptyObject.tail := by
    intro quote isQuote
    simp only [Source.isQuote, Bool.or_eq_true, beq_iff_eq] at isQuote
    rcases isQuote with (rfl | rfl) | rfl <;>
      exact .plain (by decide) (by decide) <| .plain (by decide) (by decide) <|
        .plain (by decide) (by decide) <| .plain (by decide) (by decide) .nil
  obtain ⟨mode, depth⟩ := scanner
  cases mode with
  | code =>
    have code : WellNested false emptyObject :=
      (wellNested_of_all (by decide : [' ', '=', ' '].all _ = true)).append
        (.group (rfl : closerOf? '\x7b' = _) .nil .nil)
    exact (code.passes notBelow fun _ _ closer => .inl closer).uncut
  | literal quote =>
    have isQuote := quotes quote rfl
    have differs : ' ' ≠ quote := by
      rintro rfl
      exact absurd isQuote (by decide)
    exact ((LiteralBody.plain differs (by decide) (inside isQuote)).passes depth).uncut
  | escaped quote =>
    have passes : Passes isCloser ⟨.literal quote, depth⟩ emptyObject.tail _ :=
      (inside (quotes quote rfl)).passes depth
    exact (Passes.cons (c := ' ') rfl passes).uncut

end Source

namespace RouteOptions

/-! ## Declarations -/

/-- The words that declare options. -/
def declaring : List Char := "export const options".toList

/-- What stands between the declared name, or its annotation, and the text behind the declaration of
an object with a given body. -/
def objectValue (body behind : List Char) : List Char :=
  " = \x7b".toList ++ (body ++ '\x7d' :: behind)

/-- The **declaration** of an object with a given body, and the text behind it. -/
def plain (body behind : List Char) : List Char :=
  declaring ++ objectValue body behind

/-- The same declaration with a type **annotation**. -/
def annotated (type body behind : List Char) : List Char :=
  declaring ++ (": ".toList ++ (type ++ objectValue body behind))

section Reading

variable {before front back taken behind : List Char}

/-- Behind the declaring words the value is what follows the equals sign. -/
theorem declaredValue?_declaring {rest : List Char} (ends : atWordEnd rest = true)
    (equals : afterEquals? rest = some behind) :
    declaredValue? (declaring ++ rest) = some behind := by
  have words : declaring =
      Keyword.export ++ ([' '] ++ (Keyword.const ++ ([' '] ++ Keyword.options))) := by decide
  refine declaredValue?_eq_some_iff.2 ⟨[' '], [' '], rest, by simp, by decide, by simp, by decide,
    ends, equals, ?_⟩
  rw [words]
  simp only [List.append_assoc]

/-- **A declaration is read** by its value, or else it is passed over up to there. -/
theorem ofSource?_append (clear : ¬ Keyword.export <:+: before)
    (declared : declaredValue? (declaring ++ (taken ++ behind)) = some behind) :
    ofSource? (before ++ (declaring ++ (taken ++ behind))) =
      ((blockBody? behind).map fun body => ofEntries (entries body)).or (ofSource? behind) := by
  have begins : declaring ++ (taken ++ behind) =
      Keyword.export ++ (declaring.drop 6 ++ (taken ++ behind)) := by
    have words : declaring = Keyword.export ++ declaring.drop 6 := by decide
    rw [← List.append_assoc Keyword.export, ← words]
  have found : search declaration? 0 (declaring ++ (taken ++ behind)) =
      behind :: search declaration? 0 behind := by
    have whole : declaring ++ (taken ++ behind) = 'e' :: (declaring.tail ++ taken) ++ behind := by
      rw [← List.append_assoc, ← List.cons_append]
      rfl
    rw [whole] at declared ⊢
    exact search_eq_cons (declaration?_eq_some declared)
  rw [ofSource?, declaredBody?, begins, search_append_of_silent (silent_declaration? clear _),
    ← begins, found, List.findSome?_cons, ofSource?, declaredBody?]
  cases blockBody? behind <;> rfl

/-- A text without the word in front of every declaration declares nothing. -/
theorem ofSource?_eq_none {source : List Char} (clear : ¬ Keyword.export <:+: source) :
    ofSource? source = none := by
  have nothing : search declaration? 0 source = [] := by
    rw [List.eq_nil_iff_forall_not_mem]
    intro value found
    obtain ⟨suffix, behind, inside, recognised⟩ := exists_suffix_of_mem_search found
    by_cases begins : Keyword.export <+: suffix
    · exact clear (begins.isInfix.trans inside.isInfix)
    · rw [declaration?_eq_none begins] at recognised
      cases recognised
  rw [ofSource?, declaredBody?, nothing]
  rfl

/-- The value of an annotated declaration is what follows the first equals sign. -/
theorem ofSource?_typed (clear : ¬ Keyword.export <:+: before) (absent : '=' ∉ front) :
    ofSource? (before ++ (declaring ++ (':' :: (front ++ '=' :: back)))) =
      ((blockBody? (trimStart back)).map fun body => ofEntries (entries body)).or
        (ofSource? (trimStart back)) := by
  obtain ⟨gap, -, whole⟩ := exists_isGap_append_trimStart back
  have skipped : (front ++ '=' :: back).dropWhile (· != '=') = '=' :: back := by
    rw [List.dropWhile_append_of_pos]
    · simp
    · intro c member
      exact bne_iff_ne.2 (ne_of_mem_of_not_mem member absent)
  have equals : afterEquals? (':' :: (front ++ '=' :: back)) = some (trimStart back) := by
    rw [afterEquals?, trimStart_cons_of_not_blank (by decide)]
    simp only [skipped]
  have ends : atWordEnd (':' :: (front ++ '=' :: back)) = true := by
    simp [atWordEnd, (by decide : isWordChar ':' = false)]
  have declared := declaredValue?_declaring ends equals
  have parts : ':' :: (front ++ '=' :: back) =
      (':' :: (front ++ '=' :: gap)) ++ trimStart back := by
    simp [← whole]
  rw [parts] at declared ⊢
  exact ofSource?_append clear declared

/-- The value of a declaration without an annotation is the object. -/
theorem ofSource?_plain (clear : ¬ Keyword.export <:+: before) (body behind : List Char) :
    ofSource? (before ++ plain body behind) =
      ((blockBody? ('\x7b' :: (body ++ '\x7d' :: behind))).map fun body =>
        ofEntries (entries body)).or (ofSource? ('\x7b' :: (body ++ '\x7d' :: behind))) := by
  have space : IsGap [' '] := by decide
  obtain ⟨ends, equals⟩ := afterEquals?_append space space (body ++ '\x7d' :: behind)
  have declared : declaredValue? (declaring ++ (" = ".toList ++
      ('\x7b' :: (body ++ '\x7d' :: behind)))) = some ('\x7b' :: (body ++ '\x7d' :: behind)) :=
    declaredValue?_declaring ends equals
  exact ofSource?_append clear declared

end Reading

/-! ## Annotations without an equals sign -/

/-- **An annotation without an equals sign** does not change what is read. -/
theorem ofSource?_annotated {before type : List Char} (clear : ¬ Keyword.export <:+: before)
    (absent : '=' ∉ type) (body behind : List Char) :
    ofSource? (before ++ annotated type body behind) =
      ofSource? (before ++ plain body behind) := by
  have absent' : '=' ∉ ' ' :: (type ++ [' ']) := by simp [absent]
  have same : annotated type body behind =
      declaring ++ (':' :: ((' ' :: (type ++ [' '])) ++
        '=' :: (' ' :: '\x7b' :: (body ++ '\x7d' :: behind)))) := by
    simp [annotated, objectValue]
  have value : trimStart (' ' :: '\x7b' :: (body ++ '\x7d' :: behind)) =
      '\x7b' :: (body ++ '\x7d' :: behind) := by
    rw [trimStart_cons_of_blank (by decide), trimStart_cons_of_not_blank (by decide)]
  rw [same, ofSource?_typed clear absent', value, ofSource?_plain clear]

/-! ## Annotations with an equals sign -/

section Equals

variable {type back : List Char}

/-- The block that is read behind an equals sign in an annotation **ends in the annotation**, or it
does not end when the object is empty. -/
theorem blockBody?_annotated (back : List Char) :
    (∃ found, ∀ body, blockBody? (trimStart (back ++ objectValue body [])) = some found) ∨
      blockBody? (trimStart (back ++ objectValue [] [])) = none := by
  have empty : objectValue [] [] = emptyObject := by decide
  cases start : trimStart back with
  | nil =>
    -- The annotation ends with the sign, and the next one is taken for the value.
    obtain ⟨gap, isGap, whole⟩ := exists_isGap_append_trimStart back
    right
    rw [whole, start, List.append_nil, trimStart_append_of_isGap isGap, empty]
    decide
  | cons c rest =>
    have value : ∀ body, trimStart (back ++ objectValue body []) =
        c :: (rest ++ objectValue body []) := by
      intro body
      rw [trimStart_append (by rw [start]; simp), start, List.cons_append]
    by_cases brace : c = '\x7b'
    · subst brace
      cases cut : cutAt? isCloser .start rest with
      | some sides =>
        obtain ⟨found, others⟩ := sides
        obtain ⟨closer, closes, rfl, passes⟩ := cutAt?_eq_some_iff.1 cut
        refine .inl ⟨found, fun body => ?_⟩
        have cut' : cutAt? isCloser .start (found ++ closer :: (others ++ objectValue body [])) =
            some (found, others ++ objectValue body []) :=
          cutAt?_eq_some_iff.2 ⟨closer, closes, rfl, passes⟩
        rw [value, blockBody?, List.append_assoc, List.cons_append, cut']
        rfl
      | none =>
        have passes : Passes isCloser .start rest _ := ⟨rfl, cut⟩
        right
        rw [value, blockBody?, cutAt?_append_of_passes passes, empty, cutAt?_emptyObject
          passes.notBelow (Scanner.isQuote_of_quote?_run rest)]
        rfl
    · right
      rw [value]
      simp [blockBody?, brace]

/-- Behind an equals sign in an annotation nothing is declared, when neither what stands there nor
the body speaks of exports. -/
theorem ofSource?_behind_eq_none {body : List Char} (clear : ¬ Keyword.export <:+: back)
    (clearBody : ¬ Keyword.export <:+: body) :
    ofSource? (trimStart (back ++ objectValue body [])) = none := by
  refine ofSource?_eq_none fun inside => ?_
  have whole : Keyword.export <:+: back ++ ' ' :: ("= ".toList ++ '\x7b' :: (body ++ ['\x7d'])) :=
    inside.trans (List.dropWhile_suffix _).isInfix
  -- The word holds neither a space nor a brace, so that it stands between two of them.
  rcases isInfix_append_cons (by decide) whole with inBack | later
  · exact clear inBack
  rcases isInfix_append_cons (by decide) later with inMark | later
  · exact absurd inMark (by decide)
  rcases isInfix_append_cons (by decide) later with inBody | inEnd
  · exact clearBody inBody
  · exact absurd inEnd (by decide)

/-- With an equals sign in its annotation a declaration is read as the block behind that sign. -/
theorem ofSource?_annotated_of_equals {front body : List Char} (absent : '=' ∉ front)
    (clear : ¬ Keyword.export <:+: back) (clearBody : ¬ Keyword.export <:+: body) :
    ofSource? (annotated (front ++ '=' :: back) body []) =
      (blockBody? (trimStart (back ++ objectValue body []))).map fun found =>
        ofEntries (entries found) := by
  have absent' : '=' ∉ ' ' :: front := by simp [absent]
  have same : annotated (front ++ '=' :: back) body [] =
      [] ++ (declaring ++ (':' :: ((' ' :: front) ++ '=' :: (back ++ objectValue body [])))) := by
    simp [annotated]
  rw [same, ofSource?_typed (by decide) absent', ofSource?_behind_eq_none clear clearBody,
    Option.or_none]

/-- Without an annotation it is read as the object. -/
theorem ofSource?_plain_of_wellNested {body : List Char} (code : WellNested true body) :
    ofSource? (plain body []) = some (ofEntries (entries body)) := by
  rw [← List.nil_append (plain body []), ofSource?_plain (by decide), blockBody?_append code]
  rfl

/-- **An annotation with an equals sign** changes what is read of some object. -/
theorem exists_ofSource?_annotated_ne (clear : ¬ Keyword.export <:+: type)
    (equals : '=' ∈ type) :
    ∃ body, ofSource? (annotated type body []) ≠ ofSource? (plain body []) := by
  obtain ⟨front, back, rfl, absent⟩ := List.eq_append_cons_of_mem equals
  have clearBack : ¬ Keyword.export <:+: back := fun inside =>
    clear (inside.trans ((List.suffix_append (front ++ ['=']) back).isInfix.trans (by simp)))
  let schema : List Char := "body:x".toList
  have different : ofEntries (entries []) ≠ ofEntries (entries schema) := by decide
  by_contra same
  simp only [not_exists, not_not] at same
  have ofNothing := same []
  have ofSchema := same schema
  rw [ofSource?_annotated_of_equals absent clearBack (by decide),
    ofSource?_plain_of_wellNested .nil] at ofNothing
  rw [ofSource?_annotated_of_equals absent clearBack (by decide),
    ofSource?_plain_of_wellNested (wellNested_of_all (by decide))] at ofSchema
  -- The block is the same for both objects, or it does not end for the empty one.
  rcases blockBody?_annotated back with ⟨found, always⟩ | never
  · rw [always, Option.map_some, Option.some.injEq] at ofNothing ofSchema
    exact different (ofNothing.symm.trans ofSchema)
  · rw [never] at ofNothing
    cases ofNothing

end Equals

/-- **What a type annotation changes.** An annotation without an equals sign does not change the
options that are read, whatever the body and the text behind it are and whatever text without the
word `export` stands in front. An annotation that does not speak of exports leaves all options as
they are only when it has no equals sign. -/
theorem ofSource?_annotated_iff (type : List Char) :
    ('=' ∉ type → ∀ before body behind, ¬ Keyword.export <:+: before →
      ofSource? (before ++ annotated type body behind) =
        ofSource? (before ++ plain body behind)) ∧
    (¬ Keyword.export <:+: type →
      ((∀ before body behind, ¬ Keyword.export <:+: before →
        ofSource? (before ++ annotated type body behind) =
          ofSource? (before ++ plain body behind)) ↔ '=' ∉ type)) := by
  have unchanged : '=' ∉ type → ∀ before body behind, ¬ Keyword.export <:+: before →
      ofSource? (before ++ annotated type body behind) =
        ofSource? (before ++ plain body behind) :=
    fun absent before body behind clear => ofSource?_annotated clear absent body behind
  refine ⟨unchanged, fun clear => ⟨fun always equals => ?_, unchanged⟩⟩
  obtain ⟨body, differ⟩ := exists_ofSource?_annotated_ne clear equals
  exact differ (always [] body [] (by decide))

/-- An object type with a list and a literal in it. -/
def objectType : List Char := "\x7b a: (b | 'c;\x7d')[], d?: Map<e, f> \x7d".toList

/-- That type does not change the options that are read. -/
theorem ofSource?_annotated_iff_objectType :
    '=' ∉ objectType ∧ ¬ Keyword.export <:+: "const a = 1; ".toList ∧
      ofSource? ("const a = 1; ".toList ++
          annotated objectType " summary: 'x' ".toList ";".toList) =
        ofSource? ("const a = 1; ".toList ++ plain " summary: 'x' ".toList ";".toList) := by
  have absent : '=' ∉ objectType := by decide
  have clear : ¬ Keyword.export <:+: "const a = 1; ".toList := by decide +kernel
  exact ⟨absent, clear, (ofSource?_annotated_iff objectType).1 absent _ _ _ clear⟩

/-- The type of functions without arguments. -/
def functionType : List Char := "() => object".toList

/-- That type hides the options. -/
theorem ofSource?_annotated_ne_functionType :
    ¬ ∀ before type body behind : List Char, ¬ Keyword.export <:+: before →
      WellNested true type → ';' ∉ type →
        ofSource? (before ++ annotated type body behind) =
          ofSource? (before ++ plain body behind) := by
  intro same
  have code : WellNested true functionType :=
    .group (rfl : closerOf? '(' = _) .nil (wellNested_of_all (by decide))
  have equal := same [] functionType "summary: 'x'".toList [] (by decide) code (by decide)
  have hidden : ofSource? ([] ++ annotated functionType "summary: 'x'".toList []) = none := by
    decide +kernel
  have found : (ofSource? ([] ++ plain "summary: 'x'".toList [])).isSome := by decide +kernel
  rw [← equal, hidden] at found
  cases found

end RouteOptions

end FileRoutes
