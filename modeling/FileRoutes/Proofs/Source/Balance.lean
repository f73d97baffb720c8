import FileRoutes.Proofs.Source.Pieces

/-! # Balanced blocks

Code is **balanced** (`Balanced`) when it is read from left to right over complete string literals,
no bracket is closed that was not opened, and none is left open at the end; any closer closes any
group. A block stands at an index of a text (`IsBlockAt`) when a brace stands there and balanced code
behind it, up to a closer. The body of a block is found exactly where one stands, and then it is the
only one (`blockBody?_iff_isBlockAt`).

* `passes_iff_of_literalLength?`: a literal is jumped over.
* `balanced_iff_passes`: balanced code leads to the top, and has no closer there.
* `cutAt?_start_eq_some_iff`: the cut at the first closer at the top has balanced code in front. -/

namespace FileRoutes.Source

/-- **Balanced** code with a number of brackets open in front of it. -/
inductive Balanced : (depth : Nat) → List Char → Prop where
  /-- At the end no bracket is open. -/
  | done : Balanced 0 []
  /-- A plain character. -/
  | plain {depth : Nat} {c : Char} {rest : List Char} (isPlain : isPlain c = true)
      (code : Balanced depth rest) : Balanced depth (c :: rest)
  /-- A bracket that opens a group. -/
  | opener {depth : Nat} {c : Char} {rest : List Char} (opens : isOpener c = true)
      (code : Balanced (depth + 1) rest) : Balanced depth (c :: rest)
  /-- A bracket that closes a group, of which there is one. -/
  | closer {depth : Nat} {c : Char} {rest : List Char} (closes : isCloser c = true)
      (code : Balanced depth rest) : Balanced (depth + 1) (c :: rest)
  /-- A string literal, which is closed, and the code behind it. -/
  | literal {depth length : Nat} {quote : Char} {rest : List Char} (isQuote : isQuote quote = true)
      (closed : literalLength? (.literal quote) rest = some length)
      (code : Balanced depth (rest.drop length)) : Balanced depth (quote :: rest)

/-- A **block** stands at an index: a brace, balanced code, and a bracket that closes it. -/
structure IsBlockAt (text : List Char) (start : Nat) (body : List Char) : Prop where
  /-- The brace stands at the index. -/
  opens : text[start]? = some '\x7b'
  /-- The body stands behind the brace, and a closer behind the body. -/
  closes : ∃ closer tail, isCloser closer = true ∧ text.drop (start + 1) = body ++ closer :: tail
  /-- The body is balanced. -/
  balanced : Balanced 0 body

/-! ## Literals are jumped over -/

section Literals

variable {stop : Char → Bool} {mode : Mode} {depth : Int} {text : List Char} {scanner : Scanner}

/-- In code there is no literal to be closed. -/
@[simp] theorem literalLength?_code (text : List Char) : literalLength? .code text = some 0 := by
  cases text <;> rfl

/-- A literal goes on with its next character. -/
theorem literalLength?_cons (inside : mode ≠ .code) (c : Char) (rest : List Char) :
    literalLength? mode (c :: rest) = (literalLength? (mode.step c) rest).map (· + 1) := by
  cases mode with
  | code => exact absurd rfl inside
  | literal quote => rfl
  | escaped quote => rfl

/-- A literal that has no more characters is not closed. -/
theorem literalLength?_nil (inside : mode ≠ .code) : literalLength? mode [] = none := by
  cases mode with
  | code => exact absurd rfl inside
  | literal quote => rfl
  | escaped quote => rfl

/-- **A literal is jumped over**: the text passes when the code behind the literal does. -/
theorem passes_iff_of_literalLength? {length : Nat}
    (closed : literalLength? mode text = some length) :
    Passes stop ⟨mode, depth⟩ text scanner ↔
      Passes stop ⟨.code, depth⟩ (text.drop length) scanner := by
  induction text generalizing mode length with
  | nil =>
    by_cases inside : mode = .code
    · simp [inside]
    · rw [literalLength?_nil inside] at closed
      cases closed
  | cons c text ih =>
    by_cases inside : mode = .code
    · subst inside
      obtain rfl : 0 = length := by simpa using closed
      rfl
    · rw [literalLength?_cons inside] at closed
      obtain ⟨before, closed', rfl⟩ := Option.map_eq_some_iff.1 closed
      have goesOn : ((Scanner.mk mode depth).atTop && stop c) = false := by
        simp [Scanner.atTop, inside]
      rw [List.drop_succ_cons, ← ih closed', ← step_of_ne_code depth inside]
      exact ⟨fun passes => passes.uncons.2, .cons goesOn⟩

/-- A literal is closed when reading comes out of it. -/
theorem exists_literalLength?_of_run (out : (Scanner.run ⟨mode, depth⟩ text).mode = .code) :
    ∃ length, literalLength? mode text = some length := by
  induction text generalizing mode with
  | nil =>
    obtain rfl : mode = .code := out
    exact ⟨0, rfl⟩
  | cons c text ih =>
    by_cases inside : mode = .code
    · subst inside
      exact ⟨0, rfl⟩
    · rw [Scanner.run_cons, step_of_ne_code depth inside] at out
      obtain ⟨length, closed⟩ := ih out
      exact ⟨length + 1, by rw [literalLength?_cons inside, closed]; rfl⟩

/-- A literal ends within the text, and where it ends does not change with what stands behind. -/
theorem literalLength?_take_append {length : Nat} (closed : literalLength? mode text = some length)
    (rest : List Char) :
    length ≤ text.length ∧ literalLength? mode (text.take length ++ rest) = some length := by
  induction text generalizing mode length with
  | nil =>
    by_cases inside : mode = .code
    · subst inside
      obtain rfl : 0 = length := by simpa using closed
      simp
    · rw [literalLength?_nil inside] at closed
      cases closed
  | cons c text ih =>
    by_cases inside : mode = .code
    · subst inside
      obtain rfl : 0 = length := by simpa using closed
      simp
    · rw [literalLength?_cons inside] at closed
      obtain ⟨before, closed', rfl⟩ := Option.map_eq_some_iff.1 closed
      obtain ⟨within, same⟩ := ih closed'
      refine ⟨Nat.succ_le_succ within, ?_⟩
      rw [List.take_succ_cons, List.cons_append, literalLength?_cons inside, same]
      rfl

end Literals

/-! ## Closers at the top -/

/-- Balanced code leads to the top, and no closer stands there. -/
theorem Balanced.passes {depth : Nat} {text : List Char} (balanced : Balanced depth text) :
    Passes isCloser ⟨.code, depth⟩ text .start := by
  induction balanced with
  | done => exact .nil
  | plain plain _ ih =>
    refine .cons (by simp [(isPlain_iff.1 plain).2.2]) ?_
    rwa [step_of_isPlain _ plain]
  | opener opens _ ih =>
    refine .cons (by simp [(of_isOpener opens).2]) ?_
    rwa [step_of_isOpener _ opens, ← Nat.cast_succ]
  | @closer depth c rest closes _ ih =>
    have below : (Scanner.mk .code ((depth + 1 : Nat) : Int)).atTop = false := by
      simp [Scanner.atTop]
      omega
    have up : ((depth + 1 : Nat) : Int) - 1 = depth := by omega
    refine .cons (by rw [below, Bool.false_and]) ?_
    rwa [step_of_isCloser _ closes, up]
  | literal isQuote closed _ ih =>
    refine .cons (by simp [(of_isQuote isQuote).2.1]) ?_
    rwa [step_of_isQuote _ isQuote, passes_iff_of_literalLength? closed]

/-- Code that leads to the top without a closer there is balanced. -/
theorem balanced_of_passes {depth : Nat} {text : List Char}
    (passes : Passes isCloser ⟨.code, depth⟩ text .start) : Balanced depth text := by
  -- The literals are taken as a whole, so that the text becomes shorter by more than a character.
  induction size : text.length using Nat.strong_induction_on generalizing text depth with
  | _ n ih =>
    cases text with
    | nil =>
      obtain rfl : depth = 0 := by simpa [Scanner.start] using passes.run
      exact .done
    | cons c rest =>
      have shorter : rest.length < n := by simp [← size]
      obtain ⟨goesOn, later⟩ := passes.uncons
      by_cases quote : isQuote c = true
      · rw [step_of_isQuote _ quote] at later
        obtain ⟨length, closed⟩ := exists_literalLength?_of_run (congrArg Scanner.mode later.run)
        have smaller : (rest.drop length).length < n := by
          rw [List.length_drop]
          omega
        exact .literal quote closed
          (ih _ smaller ((passes_iff_of_literalLength? closed).1 later) rfl)
      by_cases opens : isOpener c = true
      · rw [step_of_isOpener _ opens, ← Nat.cast_succ] at later
        exact .opener opens (ih _ shorter later rfl)
      by_cases closes : isCloser c = true
      · cases depth with
        | zero => exact absurd (by simp [Scanner.atTop, closes]) goesOn
        | succ depth =>
          have up : ((depth + 1 : Nat) : Int) - 1 = depth := by omega
          rw [step_of_isCloser _ closes, up] at later
          exact .closer closes (ih _ shorter later rfl)
      · have plain : isPlain c = true := by simp [isPlain, quote, opens, closes]
        rw [step_of_isPlain _ plain] at later
        exact .plain plain (ih _ shorter later rfl)

/-- **Balanced code** is what leads to the top without a closer there. -/
theorem balanced_iff_passes {depth : Nat} {text : List Char} :
    Balanced depth text ↔ Passes isCloser ⟨.code, depth⟩ text .start :=
  ⟨Balanced.passes, balanced_of_passes⟩

/-- **The cut at the first closer at the top** is the one with balanced code in front. -/
theorem cutAt?_start_eq_some_iff {text front back : List Char} :
    cutAt? isCloser .start text = some (front, back) ↔
      ∃ c, isCloser c = true ∧ text = front ++ c :: back ∧ Balanced 0 front := by
  rw [cutAt?_eq_some_iff]
  exact exists_congr fun c => and_congr_right fun _ => and_congr_right fun _ =>
    balanced_iff_passes.symm

/-! ## Blocks in a text -/

/-- The body of a block is found exactly where it stands. -/
theorem blockBody?_drop_eq_some_iff {text body : List Char} {start : Nat} :
    blockBody? (text.drop start) = some body ↔ IsBlockAt text start body := by
  have first : (text.drop start).head? = text[start]? := List.head?_drop
  have others : (text.drop start).tail = text.drop (start + 1) := List.tail_drop
  constructor
  · intro found
    unfold blockBody? at found
    split at found
    next rest equal =>
      rw [equal] at first others
      obtain ⟨⟨front, back⟩, cut, rfl⟩ := Option.map_eq_some_iff.1 found
      obtain ⟨closer, closes, whole, balanced⟩ := cutAt?_start_eq_some_iff.1 cut
      exact ⟨first.symm, ⟨closer, back, closes, others ▸ whole⟩, balanced⟩
    next => cases found
  · rintro ⟨opens, ⟨closer, tail, closes, whole⟩, balanced⟩
    have equal : text.drop start = '\x7b' :: (body ++ closer :: tail) := by
      rw [← whole, ← others]
      exact List.eq_cons_of_mem_head? (first.trans opens)
    rw [equal, blockBody?, cutAt?_start_eq_some_iff.2 ⟨closer, closes, rfl, balanced⟩]
    rfl

/-- **Exactly the balanced blocks are found.** The body of a block is found at an index of a text iff
the block stands there, nothing is found iff no block stands there, and well-nested code in braces is
found again whatever stands behind it. -/
theorem blockBody?_iff_isBlockAt :
    (∀ (text : List Char) (start : Nat) (body : List Char),
      blockBody? (text.drop start) = some body ↔ IsBlockAt text start body) ∧
    (∀ (text : List Char) (start : Nat),
      blockBody? (text.drop start) = none ↔ ¬ ∃ body, IsBlockAt text start body) ∧
    ∀ body tail : List Char, WellNested true body →
      blockBody? (('\x7b' :: (body ++ '\x7d' :: tail)).drop 0) = some body := by
  refine ⟨fun text start body => blockBody?_drop_eq_some_iff, fun text start => ?_,
    fun body tail code => blockBody?_append code tail⟩
  rw [Option.eq_none_iff_forall_ne_some, not_exists]
  exact forall_congr' fun body => not_congr blockBody?_drop_eq_some_iff

/-- Code with brackets and an escaped quote in its literals. -/
def quotedCode : List Char := "a: '\x7d\\'', b: [`(`, c]".toList

/-- That code is found again in its braces. -/
theorem blockBody?_iff_isBlockAt_quoted :
    WellNested true quotedCode ∧
      blockBody? (('\x7b' :: (quotedCode ++ '\x7d' :: "]) \x7d".toList)).drop 0) =
        some quotedCode := by
  have single : LiteralBody '\'' "\x7d\\'".toList :=
    .plain (by decide) (by decide) (.escaped .nil)
  have ticked : LiteralBody '`' "(".toList := .plain (by decide) (by decide) .nil
  have name : WellNested true " c".toList := wellNested_of_all (by decide)
  have items : WellNested true ('`' :: ("(".toList ++ '`' :: ',' :: " c".toList)) :=
    .literal (by decide) ticked name.comma
  have list : WellNested true ('[' :: (_ ++ ']' :: [])) := .group rfl items .nil
  have second : WellNested true (" b: ".toList ++ _) := (wellNested_of_all (by decide)).append list
  have first : WellNested true ('\'' :: ("\x7d\\'".toList ++ '\'' :: ',' :: _)) :=
    .literal (by decide) single second.comma
  have code : WellNested true ("a: ".toList ++ _) := (wellNested_of_all (by decide)).append first
  exact ⟨code, blockBody?_iff_isBlockAt.2.2 quotedCode _ code⟩

end FileRoutes.Source
