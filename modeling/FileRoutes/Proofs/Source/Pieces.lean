import FileRoutes.Proofs.Source.Nesting
import FileRoutes.Text.Split

/-! # Lists and their pieces

The commas at the top cut a body into pieces. Whatever the body holds, it has exactly one list of
**pieces** (`ArePieces`), of which the parts are those that are not blank, trimmed; a part is the
only part of itself, and the parts of a list that is written from parts are these parts
(`parts_canonical`).

* `cutAt?_eq_some_iff`, `cutAt?_eq_none_iff`: where a text is cut, and when it is not.
* `cut_induction`: what holds of texts without a cut, and of a text with a cut when it holds behind
  the cut, holds of all texts.
* `Scanner.eq_start_of_run_gap`: blanks lead to the top only from the top. -/

namespace FileRoutes.Source

open Text

/-! ## Cuts -/

section Cuts

variable {stop : Char → Bool} {scanner scanner' : Scanner} {text front back rest : List Char}

/-- The top is where reading starts. -/
theorem Scanner.atTop_iff : scanner.atTop = true ↔ scanner = .start := by
  obtain ⟨mode, depth⟩ := scanner
  simp [Scanner.atTop, Scanner.start]

/-- Of a text that passes, each of two parts passes. -/
theorem Passes.of_append (passes : Passes stop scanner (text ++ rest) scanner') :
    Passes stop scanner text (scanner.run text) ∧ Passes stop (scanner.run text) rest scanner' := by
  induction text generalizing scanner with
  | nil => exact ⟨.nil, passes⟩
  | cons c text ih =>
    obtain ⟨goesOn, later⟩ := passes.uncons
    obtain ⟨first, second⟩ := ih later
    exact ⟨.cons (by simpa using goesOn) first, second⟩

/-- **A text is cut** at a character that is asked for, behind a text that leads to the top without
meeting one. -/
theorem cutAt?_eq_some_iff :
    cutAt? stop scanner text = some (front, back) ↔
      ∃ c, stop c = true ∧ text = front ++ c :: back ∧ Passes stop scanner front .start := by
  constructor
  · intro cut
    induction text generalizing scanner front with
    | nil => cases cut
    | cons c rest ih =>
      rw [cutAt?] at cut
      split at cut
      next here =>
        obtain ⟨top, stops⟩ := Bool.and_eq_true_iff.1 here
        obtain rfl := Scanner.atTop_iff.1 top
        obtain ⟨rfl, rfl⟩ := Prod.mk.inj (Option.some.inj cut)
        exact ⟨c, stops, rfl, .nil⟩
      next goesOn =>
        obtain ⟨⟨inner, back'⟩, later, equal⟩ := Option.map_eq_some_iff.1 cut
        obtain ⟨rfl, rfl⟩ := Prod.mk.inj equal
        obtain ⟨d, stops, rfl, passes⟩ := ih later
        exact ⟨d, stops, rfl, .cons (Bool.eq_false_iff.2 goesOn) passes⟩
  · rintro ⟨c, stops, rfl, passes⟩
    have here : cutAt? stop .start (c :: back) = some ([], back) := by
      rw [cutAt?, if_pos (by simp [Scanner.atTop_iff, stops])]
    rw [cutAt?_append_of_passes passes, here]
    simp

/-- **A text is not cut** when none of the characters that are asked for stands at the top. -/
theorem cutAt?_eq_none_iff :
    cutAt? stop scanner text = none ↔
      ∀ front c back, text = front ++ c :: back → stop c = true →
        (scanner.run front).atTop = false := by
  constructor
  · rintro uncut front c back rfl stops
    have passes : Passes stop scanner (front ++ c :: back) _ := ⟨rfl, uncut⟩
    simpa [stops] using passes.of_append.2.uncons.1
  · intro nowhere
    rw [Option.eq_none_iff_forall_ne_some]
    rintro ⟨front, back⟩ cut
    obtain ⟨c, stops, whole, passes⟩ := cutAt?_eq_some_iff.1 cut
    have inside := nowhere front c back whole stops
    rw [passes.run] at inside
    exact Bool.false_ne_true inside.symm

/-- **Induction along the cuts** of a text. -/
@[elab_as_elim]
theorem cut_induction (stop : Char → Bool) {motive : List Char → Prop}
    (uncut : ∀ text, cutAt? stop .start text = none → motive text)
    (cut : ∀ front c back, Passes stop .start front .start → stop c = true → motive back →
      motive (front ++ c :: back)) (text : List Char) : motive text := by
  -- What is behind a cut is shorter than the text.
  induction size : text.length using Nat.strong_induction_on generalizing text with
  | _ n ih =>
    cases found : cutAt? stop .start text with
    | none => exact uncut text found
    | some sides =>
      obtain ⟨front, back⟩ := sides
      obtain ⟨c, stops, rfl, passes⟩ := cutAt?_eq_some_iff.1 found
      refine cut front c back passes stops (ih back.length ?_ back rfl)
      rw [← size, List.length_append, List.length_cons]
      omega

end Cuts

/-! ## Gaps do not move the scanner -/

/-- The quote of the literal that is being read. -/
def Mode.quote? : Mode → Option Char
  | .code => none
  | .literal quote | .escaped quote => some quote

/-- Only quotes begin literals. -/
theorem isQuote_of_quote?_step {mode : Mode} (quotes : ∀ q ∈ mode.quote?, isQuote q = true)
    (c : Char) : ∀ q ∈ (mode.step c).quote?, isQuote q = true := by
  cases mode with
  | code =>
    by_cases quote : isQuote c = true
    · simp [Mode.step, quote, Mode.quote?]
    · simp [Mode.step, quote, Mode.quote?]
  | literal quote =>
    simp only [Mode.quote?, Option.mem_some_iff, forall_eq'] at quotes
    rw [Mode.step]
    split_ifs <;> simp [Mode.quote?, quotes]
  | escaped quote => exact quotes

/-- Wherever reading leads, it is in literals that quotes begin. -/
theorem Scanner.isQuote_of_quote?_run (text : List Char) :
    ∀ q ∈ (Scanner.start.run text).mode.quote?, isQuote q = true := by
  -- The invariant goes from a text to the text with one more character.
  induction text using List.reverseRecOn with
  | nil => simp [Scanner.start, Mode.quote?]
  | append_singleton text c ih =>
    rw [Scanner.run_append]
    exact isQuote_of_quote?_step ih c

/-- A gap leaves the top where it is. -/
theorem Scanner.run_of_isGap {gap : List Char} (isGap : IsGap gap) :
    Scanner.start.run gap = .start := by
  have passes : Passes isCloser .start gap .start :=
    (wellNested_of_isGap isGap : WellNested true gap).passes (Int.le_refl 0)
      fun _ _ closer => .inl closer
  exact passes.run

/-- A blank leads to the top only from the top. -/
theorem Scanner.eq_start_of_step_blank {scanner : Scanner} {c : Char} (blank : isBlank c = true)
    (quotes : ∀ q ∈ scanner.mode.quote?, isQuote q = true) (top : scanner.step c = .start) :
    scanner = .start := by
  have plain : isPlain c = true := (isPlain_of_isBlank blank).1
  obtain ⟨mode, depth⟩ := scanner
  cases mode with
  | code => rwa [step_of_isPlain depth plain] at top
  | literal quote =>
    -- The blank is no quote, so that the literal goes on behind it.
    have differs : c ≠ quote := by
      rintro rfl
      exact Bool.false_ne_true ((isPlain_iff.1 plain).1.symm.trans (quotes c rfl))
    have inside := congrArg Scanner.mode top
    simp only [Scanner.step, Mode.step, Scanner.start, differs, if_false] at inside
    split at inside <;> cases inside
  | escaped quote =>
    -- Whatever stands behind a backslash, the literal goes on.
    have inside := congrArg Scanner.mode top
    cases inside

/-- **A gap leads to the top only from the top.** -/
theorem Scanner.eq_start_of_run_gap {text gap : List Char} (isGap : IsGap gap)
    (top : Scanner.start.run (text ++ gap) = .start) : Scanner.start.run text = .start := by
  -- The last blank is taken off first: only there the state behind it is known.
  induction gap using List.reverseRecOn with
  | nil => rwa [List.append_nil] at top
  | append_singleton gap c ih =>
    obtain ⟨isGap, blank⟩ := (isGap_append gap [c]).1 isGap
    rw [← List.append_assoc, Scanner.run_append] at top
    refine ih isGap (Scanner.eq_start_of_step_blank ((isGap_cons c []).1 blank).1 ?_ top)
    exact Scanner.isQuote_of_quote?_run (text ++ gap)

/-! ## Pieces -/

section Pieces

variable {text front back part : List Char} {texts : List (List Char)} {scanner : Scanner}

/-- **The pieces of a text**: joined by commas they give the text, none of them, read by itself, has
a comma at the top, and all but the last end at the top. -/
structure ArePieces (text : List Char) (texts : List (List Char)) : Prop where
  /-- There is a piece. -/
  nonempty : texts ≠ []
  /-- Nothing but the commas between the pieces is lost. -/
  joined : joinFields ',' texts = text
  /-- No piece has a comma outside its literals and brackets. -/
  uncut : ∀ piece ∈ texts, ∀ front back, piece = front ++ ',' :: back →
    (Scanner.start.run front).atTop = false
  /-- In front of each comma all literals and brackets are closed. -/
  closed : ∀ piece ∈ texts.dropLast, (Scanner.start.run piece).atTop = true

/-- A text passes in front of commas when none stands at the top. -/
theorem passes_comma_iff :
    (∃ scanner, Passes (· == ',') .start text scanner) ↔
      ∀ front back, text = front ++ ',' :: back → (Scanner.start.run front).atTop = false := by
  constructor
  · rintro ⟨scanner, passes⟩ front back whole
    exact cutAt?_eq_none_iff.1 passes.uncut front ',' back whole (beq_self_eq_true ',')
  · intro nowhere
    refine ⟨_, rfl, cutAt?_eq_none_iff.2 fun front c back whole isComma => ?_⟩
    obtain rfl : c = ',' := by simpa using isComma
    exact nowhere front back whole

/-- A text without a comma at the top is its only piece. -/
theorem ArePieces.single (passes : Passes (· == ',') .start text scanner) :
    ArePieces text [text] where
  nonempty := List.cons_ne_nil _ _
  joined := rfl
  uncut := by
    intro piece member
    obtain rfl := List.mem_singleton.1 member
    exact passes_comma_iff.1 ⟨scanner, passes⟩
  closed := by simp

/-- A text that leads to the top in front of a comma is the first piece. -/
theorem ArePieces.cons (passes : Passes (· == ',') .start front .start)
    (others : ArePieces back texts) : ArePieces (front ++ ',' :: back) (front :: texts) where
  nonempty := List.cons_ne_nil _ _
  joined := by
    obtain ⟨next, others', rfl⟩ := List.exists_cons_of_ne_nil others.nonempty
    rw [joinFields, others.joined]
    exact List.cons_ne_nil _ _
  uncut := by
    intro piece member
    rcases List.mem_cons.1 member with rfl | later
    · exact passes_comma_iff.1 ⟨.start, passes⟩
    · exact others.uncut piece later
  closed := by
    intro piece member
    rw [List.dropLast_cons_of_ne_nil others.nonempty] at member
    rcases List.mem_cons.1 member with rfl | earlier
    · exact Scanner.atTop_iff.2 passes.run
    · exact others.closed piece earlier

/-- The first of several pieces leads to the top in front of the comma that ends it. -/
theorem ArePieces.uncons {next : List Char} (pieces : ArePieces text (front :: next :: texts)) :
    ∃ back, text = front ++ ',' :: back ∧ Passes (· == ',') .start front .start ∧
      ArePieces back (next :: texts) := by
  obtain ⟨-, joined, uncut, closed⟩ := pieces
  obtain ⟨scanner, passes⟩ := passes_comma_iff.2 (uncut front List.mem_cons_self)
  have top : Scanner.start.run front = .start :=
    Scanner.atTop_iff.1 (closed front (by simp))
  refine ⟨joinFields ',' (next :: texts), joined.symm, ⟨top, passes.uncut⟩, ?_⟩
  exact ⟨List.cons_ne_nil _ _, rfl, fun piece member => uncut piece (List.mem_cons_of_mem _ member),
    fun piece member => closed piece (by simp [member])⟩

/-- A body has pieces. -/
theorem arePieces_pieces (body : List Char) : ArePieces body (pieces (· == ',') .start body) := by
  induction body using cut_induction (· == ',') with
  | uncut text uncut =>
    have passes : Passes (· == ',') .start text _ := ⟨rfl, uncut⟩
    rw [pieces_of_passes passes]
    exact .single passes
  | cut front c back passes isComma ih =>
    obtain rfl : c = ',' := by simpa using isComma
    rw [pieces_append_of_passes passes rfl isComma]
    exact ih.cons passes

/-- **The pieces of a body are determined by it.** -/
theorem ArePieces.eq_pieces (found : ArePieces text texts) :
    texts = pieces (· == ',') .start text := by
  -- Each piece but the last is the text in front of the first comma at the top.
  induction texts generalizing text with
  | nil => exact absurd rfl found.nonempty
  | cons front texts ih =>
    cases texts with
    | nil =>
      obtain ⟨scanner, passes⟩ := passes_comma_iff.2 (found.uncut front List.mem_cons_self)
      rw [← found.joined, joinFields, pieces_of_passes passes]
    | cons next texts =>
      obtain ⟨back, rfl, passes, others⟩ := found.uncons
      rw [pieces_append_of_passes passes rfl (beq_self_eq_true ','), ← ih others]

end Pieces

/-! ## Parts -/

section Parts

variable {text front part : List Char} {scanner : Scanner}

/-- A text without a comma at the top is the only part, or blank. -/
theorem parts_of_passes (passes : Passes (· == ',') .start text scanner) :
    parts text = [trim text].filter (!·.isEmpty) := by
  rw [parts, pieces_of_passes passes, List.map_singleton]

/-- In front of a comma at the top there is one part, or a blank. -/
theorem parts_append_comma (passes : Passes (· == ',') .start front .start) (back : List Char) :
    parts (front ++ ',' :: back) = [trim front].filter (!·.isEmpty) ++ parts back := by
  rw [parts, pieces_append_of_passes passes rfl (beq_self_eq_true ','), List.map_cons,
    ← List.singleton_append, List.filter_append, ← parts]

/-- A text passes as well without the blanks at its ends. -/
theorem Passes.trim {stop : Char → Bool} (passes : Passes stop .start text scanner) :
    Passes stop .start (trim text) (Scanner.start.run (trim text)) := by
  obtain ⟨lead, trail, isLead, -, whole⟩ := exists_isGap_trim text
  have inner := (whole ▸ passes).of_append.1.of_append.2
  rw [Scanner.run_of_isGap isLead] at inner
  exact ⟨rfl, inner.uncut⟩

/-- A text that leads to the top does so without the blanks at its ends. -/
theorem Scanner.run_trim (top : Scanner.start.run text = .start) :
    Scanner.start.run (Text.trim text) = .start := by
  obtain ⟨lead, trail, isLead, isTrail, whole⟩ := exists_isGap_trim text
  rw [whole] at top
  have inner := Scanner.eq_start_of_run_gap isTrail top
  rwa [Scanner.run_append, Scanner.run_of_isGap isLead] at inner

/-- **What a part is**: it has no comma at the top, no blanks at its ends, and is not empty. -/
structure IsPart (part : List Char) : Prop where
  /-- It is not cut. -/
  uncut : cutAt? (· == ',') .start part = none
  /-- It is trimmed. -/
  trimmed : trim part = part
  /-- There is something to read. -/
  nonempty : part ≠ []

/-- A piece that is not blank is trimmed to a part. -/
theorem isPart_of_mem_filter (passes : Passes (· == ',') .start text scanner)
    (member : part ∈ [trim text].filter (!·.isEmpty)) : IsPart part ∧ part = trim text := by
  obtain ⟨single, nonempty⟩ := List.mem_filter.1 member
  obtain rfl := List.mem_singleton.1 single
  exact ⟨⟨passes.trim.uncut, trim_trim text, by simpa using nonempty⟩, rfl⟩

/-- The parts of a body are parts. -/
theorem isPart_of_mem_parts {body : List Char} (member : part ∈ parts body) : IsPart part := by
  induction body using cut_induction (· == ',') with
  | uncut text uncut =>
    have passes : Passes (· == ',') .start text _ := ⟨rfl, uncut⟩
    rw [parts_of_passes passes] at member
    exact (isPart_of_mem_filter passes member).1
  | cut front c back passes isComma ih =>
    obtain rfl : c = ',' := by simpa using isComma
    rw [parts_append_comma passes, List.mem_append] at member
    rcases member with first | later
    · exact (isPart_of_mem_filter passes first).1
    · exact ih later

/-- A part is its own only part. -/
theorem IsPart.parts_eq (isPart : IsPart part) : parts part = [part] := by
  have passes : Passes (· == ',') .start part _ := ⟨rfl, isPart.uncut⟩
  rw [parts_of_passes passes, isPart.trimmed]
  simp [isPart.nonempty]

/-- **Parts are the pieces of the list that is written from them.** -/
theorem arePieces_parts {body : List Char} (nonempty : parts body ≠ []) :
    ArePieces (joinFields ',' (parts body)) (parts body) := by
  induction body using cut_induction (· == ',') with
  | uncut text uncut =>
    have passes : Passes (· == ',') .start text _ := ⟨rfl, uncut⟩
    rw [parts_of_passes passes] at nonempty ⊢
    by_cases blank : trim text = []
    · exact absurd (by simp [blank]) nonempty
    · rw [List.filter_cons_of_pos (by simp [blank]), List.filter_nil]
      exact .single passes.trim
  | cut front c back passes isComma ih =>
    obtain rfl : c = ',' := by simpa using isComma
    rw [parts_append_comma passes] at nonempty ⊢
    -- A blank piece leaves no part, and a comma goes only where parts are left behind it.
    by_cases blank : trim front = []
    · rw [List.filter_cons_of_neg (by simp [blank]), List.filter_nil, List.nil_append] at nonempty ⊢
      exact ih nonempty
    · rw [List.filter_cons_of_pos (by simp [blank]), List.filter_nil, List.singleton_append]
      by_cases last : parts back = []
      · rw [last]
        exact .single passes.trim
      · rw [joinFields.eq_3 _ _ _ last]
        exact .cons ⟨Scanner.run_trim passes.run, passes.trim.uncut⟩ (ih last)

/-- The parts are the pieces that are not blank, trimmed. -/
theorem parts_eq_map_filter (body : List Char) :
    parts body = ((pieces (· == ',') .start body).filter fun piece => ¬IsGap piece).map trim := by
  rw [parts, List.filter_map]
  congr 1
  refine List.filter_congr fun piece _ => ?_
  rw [Bool.eq_iff_iff]
  simp [trim_eq_nil_iff]

/-- Joined parts are found again. -/
theorem parts_joinFields_parts (body : List Char) :
    parts (joinFields ',' (parts body)) = parts body := by
  by_cases none : parts body = []
  · rw [none]
    rfl
  · rw [parts, ← (arePieces_parts none).eq_pieces]
    have trimmed : (parts body).map trim = parts body :=
      (List.map_congr_left fun part member => (isPart_of_mem_parts member).trimmed).trans
        (List.map_id _)
    rw [trimmed, List.filter_eq_self]
    intro part member
    simpa using (isPart_of_mem_parts member).nonempty

/-- **Cutting a list loses nothing and is stable.** Every body has exactly one list of pieces, of
which the parts are those that are not blank, trimmed. A part is the only part of itself, and the
parts that are joined by commas are found again. -/
theorem parts_canonical (body : List Char) :
    (∃ pieces, (∀ texts, ArePieces body texts ↔ texts = pieces) ∧
      parts body = (pieces.filter fun piece => ¬IsGap piece).map trim) ∧
    (∀ part ∈ parts body, parts part = [part]) ∧
    parts (joinFields ',' (parts body)) = parts body := by
  refine ⟨⟨pieces (· == ',') .start body, fun texts => ?_, parts_eq_map_filter body⟩, ?_,
    parts_joinFields_parts body⟩
  · constructor
    · exact fun found => found.eq_pieces
    · rintro rfl
      exact arePieces_pieces body
  · exact fun part member => (isPart_of_mem_parts member).parts_eq

/-- A list with a closer too many and a literal that is not closed, whose last backslash takes a
blank along. -/
def raggedList : List Char := "a , [b, c],, ), 'd, \\ ".toList

/-- The last part of that list goes on to its end, and is a part without the blank as well. -/
theorem parts_canonical_ragged :
    "), 'd, \\".toList ∈ parts raggedList ∧
      parts "), 'd, \\".toList = ["), 'd, \\".toList] := by
  have member : "), 'd, \\".toList ∈ parts raggedList := by decide
  exact ⟨member, (parts_canonical raggedList).2.1 _ member⟩

end Parts

end FileRoutes.Source
