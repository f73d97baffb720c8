import FileRoutes.Proofs.Text.Gap
import FileRoutes.Source.Block

/-! # Well-nested code

Code is **well nested** (`WellNested`) when it is a row of complete string literals, of groups in
brackets that are closed by their own closer, and of other characters. Reading such code leaves the
scanner as it was and meets no stop at the top (`WellNested.passes`), so that it can be skipped by
every cut: the main facts are `blockBody?_append` for a block and `pieces_append_of_passes` for a
list.

* `LiteralBody quote text`: a text that may stand between two quotes.
* `WellNested commas text`: well-nested code, with commas outside its groups only on demand.
* `Passes stop scanner text scanner'`: reading leads from one state to the other without a stop. -/

namespace FileRoutes.Source

open Text

/-- The closer of a group, by its opener. -/
def closerOf? : Char → Option Char
  | '\x7b' => some '\x7d'
  | '[' => some ']'
  | '(' => some ')'
  | _ => none

/-- A character that is **plain**: it begins no literal and is no bracket. -/
def isPlain (c : Char) : Bool :=
  !isQuote c && !isOpener c && !isCloser c

/-- The **inside of a literal**: no quote of its kind but behind a backslash, and no lone backslash
at its end. -/
inductive LiteralBody (quote : Char) : List Char → Prop where
  /-- Nothing stands between the quotes. -/
  | nil : LiteralBody quote []
  /-- A character that stands for itself. -/
  | plain {c : Char} {rest : List Char} (differs : c ≠ quote) (noBackslash : c ≠ '\\')
      (body : LiteralBody quote rest) : LiteralBody quote (c :: rest)
  /-- A backslash with the character that it takes along. -/
  | escaped {c : Char} {rest : List Char} (body : LiteralBody quote rest) :
      LiteralBody quote ('\\' :: c :: rest)

/-- **Well-nested code**. Commas may always stand in its groups, and outside them on demand. -/
inductive WellNested : (commas : Bool) → List Char → Prop where
  /-- No code. -/
  | nil {commas : Bool} : WellNested commas []
  /-- A plain character. -/
  | plain {commas : Bool} {c : Char} {rest : List Char} (isPlain : isPlain c = true)
      (comma : c = ',' → commas = true) (code : WellNested commas rest) :
      WellNested commas (c :: rest)
  /-- A complete string literal. -/
  | literal {commas : Bool} {quote : Char} {body rest : List Char} (isQuote : isQuote quote = true)
      (complete : LiteralBody quote body) (code : WellNested commas rest) :
      WellNested commas (quote :: (body ++ quote :: rest))
  /-- A group that is closed by its own closer. -/
  | group {commas : Bool} {opener closer : Char} {inside rest : List Char}
      (pair : closerOf? opener = some closer) (nested : WellNested true inside)
      (code : WellNested commas rest) : WellNested commas (opener :: (inside ++ closer :: rest))

/-! ## The kinds of characters -/

/-- A quote opens and closes no group, and is no comma. -/
theorem of_isQuote {c : Char} (quote : isQuote c = true) :
    isOpener c = false ∧ isCloser c = false ∧ c ≠ ',' ∧ c ≠ '\\' ∧ isBlank c = false := by
  simp only [isQuote, Bool.or_eq_true, beq_iff_eq] at quote
  rcases quote with (rfl | rfl) | rfl <;> decide

/-- An opener is no quote and no closer. -/
theorem of_isOpener {c : Char} (opens : isOpener c = true) :
    isQuote c = false ∧ isCloser c = false := by
  simp only [isOpener, Bool.or_eq_true, beq_iff_eq] at opens
  rcases opens with (rfl | rfl) | rfl <;> decide

/-- A closer is no quote and no opener. -/
theorem of_isCloser {c : Char} (closes : isCloser c = true) :
    isQuote c = false ∧ isOpener c = false := by
  simp only [isCloser, Bool.or_eq_true, beq_iff_eq] at closes
  rcases closes with (rfl | rfl) | rfl <;> decide

/-- The two brackets of a group. -/
theorem of_closerOf? {opener closer : Char} (pair : closerOf? opener = some closer) :
    isQuote opener = false ∧ isOpener opener = true ∧ isCloser opener = false ∧ opener ≠ ',' ∧
      isQuote closer = false ∧ isOpener closer = false ∧ isCloser closer = true ∧
      isBlank opener = false ∧ isBlank closer = false := by
  unfold closerOf? at pair
  split at pair
  all_goals simp only [Option.some.injEq, reduceCtorEq] at pair
  all_goals subst pair; decide

/-- A plain character is no quote and no bracket. -/
theorem isPlain_iff {c : Char} :
    isPlain c = true ↔ isQuote c = false ∧ isOpener c = false ∧ isCloser c = false := by
  simp [isPlain, and_assoc]

/-- A blank is plain, and neither a comma nor a colon. -/
theorem isPlain_of_isBlank {c : Char} (blank : isBlank c = true) :
    isPlain c = true ∧ c ≠ ',' ∧ c ≠ ':' := by
  simp only [isPlain, isQuote, isOpener, isCloser, Bool.and_eq_true, Bool.not_eq_true',
    Bool.or_eq_false_iff, beq_eq_false_iff_ne]
  refine ⟨⟨⟨⟨⟨?_, ?_⟩, ?_⟩, ⟨?_, ?_⟩, ?_⟩, ⟨?_, ?_⟩, ?_⟩, ?_, ?_⟩
  all_goals rintro rfl; exact absurd blank (by decide)

/-- A word character is plain, and no mark between keys and values. -/
theorem isPlain_of_isWordChar {c : Char} (word : isWordChar c = true) :
    isPlain c = true ∧ c ≠ ',' ∧ c ≠ ':' ∧ c ≠ '.' := by
  simp only [isPlain, isQuote, isOpener, isCloser, Bool.and_eq_true, Bool.not_eq_true',
    Bool.or_eq_false_iff, beq_eq_false_iff_ne]
  refine ⟨⟨⟨⟨⟨?_, ?_⟩, ?_⟩, ⟨?_, ?_⟩, ?_⟩, ⟨?_, ?_⟩, ?_⟩, ?_, ?_, ?_⟩
  all_goals rintro rfl; exact absurd word (by decide)

/-! ## Steps of the scanner -/

section Step

variable {c : Char} (depth : Int)

/-- A plain character leaves the state as it is. -/
theorem step_of_isPlain (plain : isPlain c = true) :
    Scanner.step ⟨.code, depth⟩ c = ⟨.code, depth⟩ := by
  obtain ⟨noQuote, noOpener, noCloser⟩ := isPlain_iff.1 plain
  simp [Scanner.step, Mode.step, noQuote, noOpener, noCloser]

/-- An opener goes one bracket deeper. -/
theorem step_of_isOpener (opens : isOpener c = true) :
    Scanner.step ⟨.code, depth⟩ c = ⟨.code, depth + 1⟩ := by
  simp [Scanner.step, Mode.step, of_isOpener opens, opens]

/-- A closer comes back from a bracket. -/
theorem step_of_isCloser (closes : isCloser c = true) :
    Scanner.step ⟨.code, depth⟩ c = ⟨.code, depth - 1⟩ := by
  simp [Scanner.step, Mode.step, of_isCloser closes, closes]

/-- A quote begins a literal. -/
theorem step_of_isQuote (quote : isQuote c = true) :
    Scanner.step ⟨.code, depth⟩ c = ⟨.literal c, depth⟩ := by
  obtain ⟨noOpener, noCloser, -⟩ := of_isQuote quote
  simp [Scanner.step, Mode.step, quote, noOpener, noCloser]

/-- In a literal the depth stays. -/
theorem step_of_ne_code {mode : Mode} (inside : mode ≠ .code) :
    Scanner.step ⟨mode, depth⟩ c = ⟨mode.step c, depth⟩ := by
  simp [Scanner.step, inside]

end Step

/-! ## Reading without a stop -/

/-- A text **passes** from one state to another: reading it leads there, and meets no character at
the top that is asked for. -/
structure Passes (stop : Char → Bool) (scanner : Scanner) (text : List Char)
    (scanner' : Scanner) : Prop where
  /-- The text leads from the one state to the other. -/
  run : scanner.run text = scanner'
  /-- There is nowhere to cut. -/
  uncut : cutAt? stop scanner text = none

section Passes

variable {stop : Char → Bool} {scanner scanner' scanner'' : Scanner} {text rest : List Char}

/-- No text passes. -/
theorem Passes.nil : Passes stop scanner [] scanner := ⟨rfl, rfl⟩

/-- A character that is no stop passes, and the text behind it goes on. -/
theorem Passes.cons {c : Char} (goesOn : (scanner.atTop && stop c) = false)
    (passes : Passes stop (scanner.step c) text scanner') :
    Passes stop scanner (c :: text) scanner' := by
  refine ⟨passes.run, ?_⟩
  rw [cutAt?, if_neg (by simp [goesOn]), passes.uncut]
  rfl

/-- The first character of a text that passes is no stop, and the text behind it passes. -/
theorem Passes.uncons {c : Char} (passes : Passes stop scanner (c :: text) scanner') :
    ¬(scanner.atTop && stop c) = true ∧ Passes stop (scanner.step c) text scanner' := by
  have uncut := passes.uncut
  rw [cutAt?] at uncut
  split at uncut
  next => cases uncut
  next goesOn => exact ⟨goesOn, passes.run, Option.map_eq_none_iff.1 uncut⟩

/-- A cut is looked for behind a text that passes. -/
theorem cutAt?_append_of_passes (passes : Passes stop scanner text scanner') (rest : List Char) :
    cutAt? stop scanner (text ++ rest) =
      (cutAt? stop scanner' rest).map fun (front, back) => (text ++ front, back) := by
  induction text generalizing scanner with
  | nil =>
    obtain rfl := passes.run
    simp
  | cons c text ih =>
    obtain ⟨goesOn, later⟩ := passes.uncons
    rw [List.cons_append, cutAt?, if_neg goesOn, ih later, Option.map_map]
    rfl

/-- Two texts pass one after the other. -/
theorem Passes.append (first : Passes stop scanner text scanner')
    (second : Passes stop scanner' rest scanner'') :
    Passes stop scanner (text ++ rest) scanner'' := by
  refine ⟨?_, ?_⟩
  · rw [Scanner.run_append, first.run, second.run]
  · rw [cutAt?_append_of_passes first, second.uncut]
    rfl

/-- A text that passes is one piece, up to the stop behind it. -/
theorem pieces_append_of_passes (passes : Passes stop scanner text scanner') {c : Char}
    (top : scanner'.atTop = true) (stops : stop c = true) (rest : List Char) :
    pieces stop scanner (text ++ c :: rest) = text :: pieces stop scanner' rest := by
  induction text generalizing scanner with
  | nil =>
    obtain rfl := passes.run
    rw [Scanner.run_nil] at top ⊢
    rw [List.nil_append, pieces, if_pos (by simp [top, stops])]
  | cons d text ih =>
    obtain ⟨goesOn, later⟩ := passes.uncons
    rw [List.cons_append, pieces, if_neg goesOn, ih later]

/-- A text that passes is one piece. -/
theorem pieces_of_passes (passes : Passes stop scanner text scanner') :
    pieces stop scanner text = [text] := by
  induction text generalizing scanner with
  | nil => rfl
  | cons d text ih =>
    obtain ⟨goesOn, later⟩ := passes.uncons
    rw [pieces, if_neg goesOn, ih later]

/-- Plain characters that are no stops pass. -/
theorem passes_of_isPlain {depth : Int}
    (plain : ∀ c ∈ text, isPlain c = true ∧ stop c = false) :
    Passes stop ⟨.code, depth⟩ text ⟨.code, depth⟩ := by
  induction text with
  | nil => exact .nil
  | cons c text ih =>
    obtain ⟨isPlain, goesOn⟩ := plain c List.mem_cons_self
    refine .cons (by simp [goesOn]) ?_
    rw [step_of_isPlain depth isPlain]
    exact ih fun d member => plain d (List.mem_cons_of_mem c member)

/-- The inside of a literal passes, whatever it holds. -/
theorem LiteralBody.passes {quote : Char} (body : LiteralBody quote text) (depth : Int) :
    Passes stop ⟨.literal quote, depth⟩ text ⟨.literal quote, depth⟩ := by
  induction body with
  | nil => exact .nil
  | plain differs noBackslash _ ih =>
    refine .cons (by simp [Scanner.atTop]) ?_
    simpa [Scanner.step, Mode.step, differs, noBackslash] using ih
  | escaped _ ih =>
    refine .cons (by simp [Scanner.atTop]) (.cons (by simp [Scanner.atTop, Scanner.step, Mode.step]) ?_)
    simpa [Scanner.step, Mode.step] using ih

/-- A complete literal passes when its quote is no stop. -/
theorem LiteralBody.passes_quoted {quote : Char} (body : LiteralBody quote text)
    (quoted : isQuote quote = true) {depth : Int}
    (goesOn : ((Scanner.mk .code depth).atTop && stop quote) = false) :
    Passes stop ⟨.code, depth⟩ (quote :: (text ++ [quote])) ⟨.code, depth⟩ := by
  have noBackslash : quote ≠ '\\' := (of_isQuote quoted).2.2.2.1
  have closed : Scanner.step ⟨.literal quote, depth⟩ quote = ⟨.code, depth⟩ := by
    simp [Scanner.step, Mode.step, noBackslash]
  -- The quote opens the literal, its inside passes, and the same quote closes it again.
  refine .cons goesOn ?_
  rw [step_of_isQuote depth quoted]
  refine (body.passes depth).append (.cons (by simp [Scanner.atTop]) ?_)
  rw [closed]
  exact .nil

/-- **Well-nested code passes.** At the top the stops must be closers, or commas when there are none
outside the groups; inside brackets they may be any characters. -/
theorem WellNested.passes {commas : Bool} (code : WellNested commas text) {depth : Int}
    (notBelow : 0 ≤ depth)
    (stops : depth = 0 → ∀ c, stop c = true → isCloser c = true ∨ c = ',' ∧ commas = false) :
    Passes stop ⟨.code, depth⟩ text ⟨.code, depth⟩ := by
  -- Only closers and, without commas, commas stop; neither stands outside the groups of the code.
  have goesOn : ∀ c, isCloser c = false → (c = ',' → commas = true) →
      ((Scanner.mk .code depth).atTop && stop c) = false := by
    intro c noCloser noComma
    by_contra met
    simp only [Scanner.atTop, Bool.not_eq_false, Bool.and_eq_true, decide_eq_true_eq] at met
    rcases stops met.1.2 c met.2 with closer | ⟨comma, without⟩
    · rw [noCloser] at closer
      exact Bool.false_ne_true closer
    · rw [noComma comma] at without
      exact Bool.false_ne_true without.symm
  induction code generalizing depth with
  | nil => exact .nil
  | plain plain comma _ ih =>
    refine .cons (goesOn _ (isPlain_iff.1 plain).2.2 comma) ?_
    rw [step_of_isPlain depth plain]
    exact ih notBelow stops goesOn
  | @literal _ quote body rest quoted inside _ ih =>
    obtain ⟨-, noCloser, noComma, -⟩ := of_isQuote quoted
    have literal : Passes stop ⟨.code, depth⟩ (quote :: (body ++ [quote])) ⟨.code, depth⟩ :=
      inside.passes_quoted quoted (goesOn _ noCloser fun comma => absurd comma noComma)
    have whole : quote :: (body ++ quote :: rest) = quote :: (body ++ [quote]) ++ rest := by simp
    rw [whole]
    exact literal.append (ih notBelow stops goesOn)
  | @group _ opener closer inner rest pair _ _ insideIH ih =>
    obtain ⟨-, opens, noCloser, noComma, -, -, closes, -⟩ := of_closerOf? pair
    refine .cons (goesOn _ noCloser fun comma => absurd comma noComma) ?_
    have closed : Scanner.step ⟨.code, depth + 1⟩ closer = ⟨.code, depth⟩ := by
      rw [step_of_isCloser _ closes, Int.add_sub_cancel]
    -- Between its brackets nothing stands at the top, so that nothing there is a stop.
    have below : depth + 1 ≠ 0 := by omega
    have insidePasses : Passes stop ⟨.code, depth + 1⟩ inner ⟨.code, depth + 1⟩ :=
      insideIH (by omega) (fun top => absurd top below) fun c _ _ => by simp [Scanner.atTop, below]
    rw [step_of_isOpener depth opens]
    refine insidePasses.append (.cons (by simp [Scanner.atTop, below]) ?_)
    rw [closed]
    exact ih notBelow stops goesOn

end Passes

/-! ## Building well-nested code -/

section WellNested

variable {commas : Bool} {text rest : List Char}

/-- Two pieces of code, one after the other. -/
theorem WellNested.append (first : WellNested commas text) (second : WellNested commas rest) :
    WellNested commas (text ++ rest) := by
  induction first with
  | nil => exact second
  | plain isPlain comma _ ih => exact .plain isPlain comma (ih second)
  | literal isQuote body _ ih =>
    rw [List.cons_append, List.append_assoc, List.cons_append]
    exact .literal isQuote body (ih second)
  | group pair inside _ _ ih =>
    rw [List.cons_append, List.append_assoc, List.cons_append]
    exact .group pair inside (ih second)

/-- Plain characters without commas are code. -/
theorem wellNested_of_isPlain (plain : ∀ c ∈ text, isPlain c = true ∧ c ≠ ',') :
    WellNested commas text := by
  induction text with
  | nil => exact .nil
  | cons c text ih =>
    obtain ⟨isPlain, noComma⟩ := plain c List.mem_cons_self
    refine .plain isPlain (fun comma => absurd comma noComma) (ih ?_)
    exact fun d member => plain d (List.mem_cons_of_mem c member)

/-- Whether all characters are plain, and none a comma, can be computed. -/
theorem wellNested_of_all (plain : (text.all fun c => isPlain c && c != ',') = true) :
    WellNested commas text := by
  refine wellNested_of_isPlain fun c member => ?_
  simpa using List.all_eq_true.1 plain c member

/-- A gap is code. -/
theorem wellNested_of_isGap (isGap : IsGap text) : WellNested commas text :=
  wellNested_of_isPlain fun c member =>
    ⟨(isPlain_of_isBlank (isGap c member)).1, (isPlain_of_isBlank (isGap c member)).2.1⟩

/-- A word is code. -/
theorem wellNested_of_isWord (isWord : ∀ c ∈ text, isWordChar c = true) : WellNested commas text :=
  wellNested_of_isPlain fun c member =>
    ⟨(isPlain_of_isWordChar (isWord c member)).1, (isPlain_of_isWordChar (isWord c member)).2.1⟩

/-- Code without commas outside its groups is code with commas on demand. -/
theorem WellNested.withCommas (code : WellNested commas text) : WellNested true text := by
  induction code with
  | nil => exact .nil
  | plain isPlain _ _ ih => exact .plain isPlain (fun _ => rfl) ih
  | literal isQuote body _ ih => exact .literal isQuote body ih
  | group pair inside _ _ ih => exact .group pair inside ih

/-- A comma is code where commas may stand. -/
theorem WellNested.comma (code : WellNested true text) : WellNested true (',' :: text) :=
  .plain (by decide) (fun _ => rfl) code

end WellNested

/-! ## Blocks -/

/-- The body of a block is found again in front of its closing brace, whatever follows. -/
theorem blockBody?_append {body : List Char} (code : WellNested true body) (behind : List Char) :
    blockBody? ('\x7b' :: (body ++ '\x7d' :: behind)) = some body := by
  have passes : Passes isCloser .start body .start :=
    code.passes (Int.le_refl 0) fun _ c closer => .inl closer
  have stops : cutAt? isCloser .start ('\x7d' :: behind) = some ([], behind) := rfl
  rw [blockBody?, cutAt?_append_of_passes passes, stops]
  simp

end FileRoutes.Source
