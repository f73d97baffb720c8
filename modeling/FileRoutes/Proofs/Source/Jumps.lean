import FileRoutes.Proofs.Source.Balance
import FileRoutes.Proofs.Source.Closing

/-! # Jumping over literals

Behind an opening quote a literal ends with the first equal quote that has an even number of
backslashes in front (`ClosesAt`), or with the text (`literalEnd_eq_of_closesAt`,
`literalEnd_eq_length`). A reader that jumps over literals (`Cursor`) therefore goes strictly
forward and comes to the end of every text (`Cursor.lt_next`, `Cursor.length_trail_le`). What is cut
out of code character by character is what such a reader cuts out: block bodies, parts and entries
are found by jumps (`literals_jumped_over`).

* `Cursor.exists_passes_next`: between two stops of the reader nothing stands at the top.
* `cutAt?_drop`, `pieces_drop`: the first cut and all cuts are among its stops. -/

namespace FileRoutes.Source

/-! ## The end of a literal -/

/-- A quote **closes** the literal that begins at an index: it stands behind that index, with an
even number of backslashes in front of it that stand there too. -/
structure ClosesAt (text : List Char) (start : Nat) (quote : Char) (index : Nat) : Prop where
  /-- The quote stands behind the one that opens the literal. -/
  behind : start < index
  /-- It is the same quote. -/
  isQuote : text[index]? = some quote
  /-- The backslashes in front of it take each other along. -/
  even : Even (backslashRun ((text.take index).drop (start + 1)))

section LiteralEnd

variable {text : List Char} {start index : Nat} {quote c : Char}

/-- At the index of a character the rest of the text begins with it. -/
theorem drop_eq_cons (here : text[index]? = some c) :
    text.drop index = c :: text.drop (index + 1) := by
  obtain ⟨inside, rfl⟩ := List.getElem?_eq_some_iff.1 here
  exact List.drop_eq_getElem_cons inside

/-- Between two indices stands what was dropped at the one and not at the other. -/
theorem drop_eq_append {first last : Nat} (order : first ≤ last) (text : List Char) :
    text.drop first = (text.take last).drop first ++ text.drop last := by
  have joined := List.take_append_drop (last - first) (text.drop first)
  rwa [List.drop_drop, Nat.add_sub_cancel' order, ← List.drop_take, eq_comm] at joined

/-- A quote closes a literal iff it cuts the text behind the opening quote behind an even run. -/
theorem closesAt_iff :
    ClosesAt text start quote index ↔ ∃ inside back,
      text.drop (start + 1) = inside ++ quote :: back ∧ index = start + 1 + inside.length ∧
        Even (backslashRun inside) := by
  constructor
  · rintro ⟨behind, isQuote, even⟩
    have within := (List.getElem?_eq_some_iff.1 isQuote).1
    refine ⟨_, text.drop (index + 1), ?_, ?_, even⟩
    · rw [drop_eq_append behind, drop_eq_cons isQuote]
    · rw [List.length_drop, List.length_take]
      omega
  · rintro ⟨inside, back, whole, rfl, even⟩
    refine ⟨by omega, ?_, ?_⟩
    · rw [← List.getElem?_drop, whole, List.getElem?_append_right (Nat.le_refl _), Nat.sub_self]
      rfl
    · rwa [List.drop_take, whole, Nat.add_sub_cancel_left, List.take_left]

/-- A literal that is closed ends where its length says. -/
theorem literalEnd_of_closed (here : text[start]? = some quote) {length : Nat}
    (closed : literalLength? (.literal quote) (text.drop (start + 1)) = some length) :
    literalEnd text start = start + 1 + length := by
  simp only [literalEnd, drop_eq_cons here, closed]

/-- A literal that is not closed ends with the text. -/
theorem literalEnd_of_unclosed (here : text[start]? = some quote)
    (unclosed : literalLength? (.literal quote) (text.drop (start + 1)) = none) :
    literalEnd text start = text.length := by
  simp only [literalEnd, drop_eq_cons here, unclosed]

/-- **The end of a literal** is behind its opening quote and within the text. -/
theorem literalEnd_bounds (here : text[start]? = some quote) :
    start < literalEnd text start ∧ literalEnd text start ≤ text.length := by
  have within := (List.getElem?_eq_some_iff.1 here).1
  cases closed : literalLength? (.literal quote) (text.drop (start + 1)) with
  | some length =>
    have short := (literalLength?_take_append closed []).1
    rw [List.length_drop] at short
    rw [literalEnd_of_closed here closed]
    omega
  | none =>
    rw [literalEnd_of_unclosed here closed]
    exact ⟨within, Nat.le_refl _⟩

/-- A literal that is closed ends with the first quote that closes it. -/
theorem exists_isLeast_closesAt (noBackslash : quote ≠ '\\') (here : text[start]? = some quote)
    {length : Nat}
    (closed : literalLength? (.literal quote) (text.drop (start + 1)) = some length) :
    ∃ least, IsLeast {index | ClosesAt text start quote index} least ∧
      literalEnd text start = least + 1 := by
  obtain ⟨inside, back, whole, rfl, even, escaped⟩ :=
    (literalLength?_eq_some_iff noBackslash).1 closed
  refine ⟨start + 1 + inside.length, ⟨closesAt_iff.2 ⟨inside, back, whole, rfl, even⟩, ?_⟩, ?_⟩
  · intro index closes
    obtain ⟨inside', back', whole', rfl, even'⟩ := closesAt_iff.1 closes
    by_contra earlier
    -- An earlier quote would stand in the inside, where all of them are escaped.
    rw [whole] at whole'
    rcases List.append_eq_append_iff.1 whole' with ⟨middle, rfl, -⟩ | ⟨middle, rfl, behind⟩
    · simp at earlier
    · cases middle with
      | nil => simp at earlier
      | cons c middle =>
        obtain ⟨rfl, -⟩ := List.cons.inj behind
        exact Nat.not_even_iff_odd.2 (escaped inside' middle rfl) even'
  · rw [literalEnd_of_closed here closed]
    omega

/-- A literal that a quote closes is closed. -/
theorem exists_literalLength?_of_closesAt (noBackslash : quote ≠ '\\')
    (closes : ClosesAt text start quote index) :
    ∃ length, literalLength? (.literal quote) (text.drop (start + 1)) = some length := by
  -- The first such quote has only escaped ones in front of it.
  have found : ∃ index, ClosesAt text start quote index := ⟨index, closes⟩
  classical
  obtain ⟨inside, back, whole, least, even⟩ := closesAt_iff.1 (Nat.find_spec found)
  refine ⟨_, (literalLength?_eq_some_iff noBackslash).2 ⟨inside, back, whole, rfl, even, ?_⟩⟩
  rintro front behind rfl
  rw [List.nil_append]
  by_contra odd
  have first := Nat.find_min' found (closesAt_iff.2
    ⟨front, behind ++ quote :: back, by simpa using whole, rfl, Nat.not_odd_iff_even.1 odd⟩)
  simp only [least, List.length_append, List.length_cons] at first
  omega

/-- **A literal ends behind the first quote that closes it.** -/
theorem literalEnd_eq_of_closesAt (noBackslash : quote ≠ '\\') (here : text[start]? = some quote)
    (closes : ClosesAt text start quote index) :
    ∃ least, IsLeast {index | ClosesAt text start quote index} least ∧
      literalEnd text start = least + 1 := by
  obtain ⟨length, closed⟩ := exists_literalLength?_of_closesAt noBackslash closes
  exact exists_isLeast_closesAt noBackslash here closed

/-- **A literal that no quote closes** ends with the text. -/
theorem literalEnd_eq_length (noBackslash : quote ≠ '\\') (here : text[start]? = some quote)
    (unclosed : ∀ index, ¬ClosesAt text start quote index) :
    literalEnd text start = text.length := by
  refine literalEnd_of_unclosed here (Option.eq_none_iff_forall_ne_some.2 fun length closed => ?_)
  obtain ⟨least, ⟨closes, -⟩, -⟩ := exists_isLeast_closesAt noBackslash here closed
  exact unclosed least closes

end LiteralEnd

/-! ## A reader that jumps -/

/-- Where a **reader** of code stands that takes literals as a whole. -/
structure Cursor where
  /-- The index of the next character. -/
  index : Nat
  /-- How many brackets were opened and not closed. -/
  depth : Int
  deriving DecidableEq, Repr

namespace Cursor

/-- **One step of the reader**: over the literal that begins here, or over one other character. -/
def next (text : List Char) (cursor : Cursor) : Cursor :=
  match text[cursor.index]? with
  | none => cursor
  | some c =>
    if isQuote c then { cursor with index := literalEnd text cursor.index }
    else
      { index := cursor.index + 1
        depth :=
          if isOpener c then cursor.depth + 1
          else if isCloser c then cursor.depth - 1
          else cursor.depth }

/-- **The reader goes forward** with each step, and not over the end of the text. -/
theorem lt_next {text : List Char} {cursor : Cursor} (inside : cursor.index < text.length) :
    cursor.index < (cursor.next text).index ∧ (cursor.next text).index ≤ text.length := by
  have here := List.getElem?_eq_getElem inside
  rw [next, here]
  dsimp only
  split
  · exact literalEnd_bounds here
  · exact ⟨Nat.lt_succ_self _, inside⟩

/-- A plain character is passed alone, and leaves the depth as it is. -/
theorem next_of_isPlain {text : List Char} {cursor : Cursor} {c : Char}
    (here : text[cursor.index]? = some c) (plain : isPlain c = true) :
    cursor.next text = ⟨cursor.index + 1, cursor.depth⟩ := by
  obtain ⟨noQuote, noOpener, noCloser⟩ := isPlain_iff.1 plain
  simp [next, here, noQuote, noOpener, noCloser]

/-- The **trail** of the reader: where it stops, up to the end of the text. -/
def trail (text : List Char) (cursor : Cursor) : List Cursor :=
  if cursor.index < text.length then cursor :: trail text (cursor.next text) else []
termination_by text.length - cursor.index
decreasing_by
  have inside : cursor.index < text.length := by assumption
  have forward := (lt_next inside).1
  omega

/-- Whether the reader stands at some depth in front of a character that is asked for. -/
def isAt (text : List Char) (depth : Int) (stop : Char → Bool) (cursor : Cursor) : Bool :=
  cursor.depth == depth && text[cursor.index]?.any stop

/-- The reader is there when the character stands there and as many brackets are open. -/
theorem isAt_iff {text : List Char} {depth : Int} {stop : Char → Bool} {cursor : Cursor} :
    cursor.isAt text depth stop = true ↔
      ∃ c, text[cursor.index]? = some c ∧ stop c = true ∧ cursor.depth = depth := by
  simp only [isAt, Bool.and_eq_true, beq_iff_eq, Option.any_eq_true]
  tauto

section Trail

variable {text : List Char} {cursor passed : Cursor} {stop : Char → Bool} {level : Int}

/-- Within the text the reader stops here and goes on. -/
theorem trail_of_lt (inside : cursor.index < text.length) :
    cursor.trail text = cursor :: (cursor.next text).trail text := by
  rw [trail, if_pos inside]

/-- **The reader comes to the end**: it stops at most once for each character. -/
theorem length_trail_le (text : List Char) (cursor : Cursor) :
    (cursor.trail text).length ≤ text.length - cursor.index := by
  fun_induction trail text cursor with
  | case1 cursor inside ih =>
    have forward := (lt_next inside).1
    rw [List.length_cons]
    omega
  | case2 cursor outside => exact Nat.zero_le _

/-- The reader does not come back. -/
theorem le_of_mem_trail (member : passed ∈ cursor.trail text) : cursor.index ≤ passed.index := by
  fun_induction trail text cursor with
  | case1 cursor inside ih =>
    rcases List.mem_cons.1 member with rfl | later
    · exact Nat.le_refl _
    · exact Nat.le_trans (lt_next inside).1.le (ih later)
  | case2 cursor outside => cases member

end Trail

end Cursor

/-! ## Cuts along the trail -/

section Cuts

variable {text : List Char} {cursor : Cursor} {stop : Char → Bool} {level depth : Int} {mode : Mode}

/-- In a literal that is not closed there is nowhere to cut. -/
theorem passes_of_literalLength?_eq_none (unclosed : literalLength? mode text = none) :
    ∃ scanner, Passes stop ⟨mode, depth⟩ text scanner := by
  induction text generalizing mode with
  | nil => exact ⟨_, .nil⟩
  | cons c text ih =>
    have inside : mode ≠ .code := by
      rintro rfl
      rw [literalLength?_code] at unclosed
      cases unclosed
    rw [literalLength?_cons inside, Option.map_eq_none_iff] at unclosed
    obtain ⟨scanner, passes⟩ := ih unclosed
    refine ⟨scanner, .cons (by simp [Scanner.atTop, inside]) ?_⟩
    rwa [step_of_ne_code depth inside]

/-- A literal passes as a whole, from its opening quote to where it ends. -/
theorem exists_passes_literal {quote : Char} (isQuote : isQuote quote = true)
    (noStop : stop quote = false) {start : Nat} (here : text[start]? = some quote) :
    ∃ scanner, Passes stop ⟨.code, depth⟩ ((text.take (literalEnd text start)).drop start) scanner ∧
      (literalEnd text start < text.length → scanner = ⟨.code, depth⟩) := by
  have goesOn : ((Scanner.mk .code depth).atTop && stop quote) = false := by
    rw [noStop, Bool.and_false]
  obtain ⟨forward, within⟩ := literalEnd_bounds here
  have opened : (text.take (literalEnd text start)).drop start =
      quote :: (text.drop (start + 1)).take (literalEnd text start - (start + 1)) := by
    have size : literalEnd text start - start = literalEnd text start - (start + 1) + 1 := by omega
    rw [List.drop_take, drop_eq_cons here, size, List.take_succ_cons]
  rw [opened]
  cases closed : literalLength? (.literal quote) (text.drop (start + 1)) with
  | some length =>
    have ends : literalEnd text start - (start + 1) = length := by
      rw [literalEnd_of_closed here closed]
      omega
    have whole := (literalLength?_take_append closed []).2
    rw [List.append_nil] at whole
    refine ⟨⟨.code, depth⟩, .cons goesOn ?_, fun _ => rfl⟩
    rw [step_of_isQuote depth isQuote, ends, passes_iff_of_literalLength? whole,
      List.drop_eq_nil_of_le (List.length_take_le _ _)]
    exact .nil
  | none =>
    have ends := literalEnd_of_unclosed here closed
    obtain ⟨scanner, passes⟩ : ∃ scanner,
        Passes stop ⟨.literal quote, depth⟩ (text.drop (start + 1)) scanner :=
      passes_of_literalLength?_eq_none closed
    refine ⟨scanner, .cons goesOn ?_, fun inside => absurd ends inside.ne⟩
    rwa [step_of_isQuote depth isQuote, ends, ← List.length_drop, List.take_length]

/-- **Between two stops of the reader** nothing that is asked for stands at the top, and the scanner
agrees with the reader on the depth. -/
theorem Cursor.exists_passes_next (inside : cursor.index < text.length)
    (noQuotes : ∀ c, isQuote c = true → stop c = false)
    (goesOn : cursor.isAt text level stop = false) :
    ∃ scanner, Passes stop ⟨.code, cursor.depth - level⟩
        ((text.take (cursor.next text).index).drop cursor.index) scanner ∧
      ((cursor.next text).index < text.length →
        scanner = ⟨.code, (cursor.next text).depth - level⟩) := by
  obtain ⟨c, here⟩ : ∃ c, text[cursor.index]? = some c := ⟨_, List.getElem?_eq_getElem inside⟩
  by_cases quote : isQuote c = true
  · simpa [next, here, quote] using exists_passes_literal quote (noQuotes c quote) here
  · have single : (text.take (cursor.index + 1)).drop cursor.index = [c] := by
      rw [List.drop_take, drop_eq_cons here, Nat.add_sub_cancel_left]
      rfl
    have stays : ((Scanner.mk .code (cursor.depth - level)).atTop && stop c) = false := by
      simpa [isAt, here, Scanner.atTop, Int.sub_eq_zero] using goesOn
    simp only [next, here, quote, if_false, Bool.false_eq_true]
    rw [single]
    refine ⟨_, .cons stays .nil, fun _ => ?_⟩
    by_cases opens : isOpener c = true
    · rw [step_of_isOpener _ opens, if_pos opens]
      congr 1
      omega
    · by_cases closes : isCloser c = true
      · rw [step_of_isCloser _ closes, if_neg opens, if_pos closes]
        congr 1
        omega
      · have plain : isPlain c = true := by simp [isPlain, quote, opens, closes]
        rw [step_of_isPlain _ plain, if_neg opens, if_neg closes]

/-- Behind the end of a text nothing is read, and it does not matter where the scanner was left. -/
theorem eq_of_agrees {α : Type} (read : Scanner → List Char → α)
    (ends : ∀ scanner scanner', read scanner [] = read scanner' []) {index : Nat}
    {scanner scanner' : Scanner} (agrees : index < text.length → scanner = scanner') :
    read scanner (text.drop index) = read scanner' (text.drop index) := by
  by_cases more : index < text.length
  · rw [agrees more]
  · rw [List.drop_eq_nil_of_le (Nat.not_lt.1 more), ends scanner scanner']

/-- **The first cut** is made where the reader first stops in front of a character that is asked
for. -/
theorem cutAt?_drop (noQuotes : ∀ c, isQuote c = true → stop c = false) (text : List Char)
    (cursor : Cursor) (level : Int) :
    cutAt? stop ⟨.code, cursor.depth - level⟩ (text.drop cursor.index) =
      ((cursor.trail text).find? (·.isAt text level stop)).map fun found =>
        ((text.take found.index).drop cursor.index, text.drop (found.index + 1)) := by
  fun_induction Cursor.trail text cursor with
  | case2 cursor outside =>
    rw [List.drop_eq_nil_of_le (Nat.not_lt.1 outside)]
    rfl
  | case1 cursor inside ih =>
    by_cases here : cursor.isAt text level stop = true
    · obtain ⟨c, at', stops, top⟩ := Cursor.isAt_iff.1 here
      rw [List.find?_cons_of_pos here, drop_eq_cons at', cutAt?, top, Int.sub_self]
      simp [Scanner.atTop, stops, List.drop_take]
    · rw [Bool.not_eq_true] at here
      obtain ⟨scanner, passes, agrees⟩ := Cursor.exists_passes_next inside noQuotes here
      have order := (Cursor.lt_next inside).1.le
      have later := eq_of_agrees (cutAt? stop) (fun _ _ => rfl) agrees
      rw [List.find?_cons_of_neg (by simp [here]), drop_eq_append order,
        cutAt?_append_of_passes passes, later, ih, Option.map_map]
      refine Option.map_congr fun found isFirst => ?_
      have behind := Cursor.le_of_mem_trail (List.mem_of_find?_eq_some isFirst)
      simp only [Function.comp_apply, Prod.mk.injEq, and_true]
      rw [drop_eq_append order (text.take found.index), List.take_take, Nat.min_eq_left behind]

/-- The **slices** of a text from an index on, between the indices at which it is cut. -/
def slices (text : List Char) : (start : Nat) → List Nat → List (List Char)
  | start, [] => [text.drop start]
  | start, cut :: cuts => (text.take cut).drop start :: slices text (cut + 1) cuts

/-- A later start makes the first slice shorter. -/
theorem slices_eq_modifyHead {first last : Nat} {cuts : List Nat} (order : first ≤ last)
    (behind : ∀ cut ∈ cuts, last ≤ cut) :
    slices text first cuts =
      (slices text last cuts).modifyHead ((text.take last).drop first ++ ·) := by
  cases cuts with
  | nil => rw [slices, slices, List.modifyHead_cons, ← drop_eq_append order]
  | cons cut cuts =>
    have within := behind cut List.mem_cons_self
    rw [slices, slices, List.modifyHead_cons, drop_eq_append order (text.take cut), List.take_take,
      Nat.min_eq_left within]

/-- There is always a piece. -/
theorem pieces_ne_nil (stop : Char → Bool) (scanner : Scanner) (text : List Char) :
    pieces stop scanner text ≠ [] := by
  cases text with
  | nil => simp [pieces]
  | cons c text =>
    rw [pieces]
    split
    · simp
    · split <;> simp

/-- A text that passes goes in front of the first piece. -/
theorem pieces_append {front rest : List Char} {scanner scanner' : Scanner}
    (passes : Passes stop scanner front scanner') :
    pieces stop scanner (front ++ rest) = (pieces stop scanner' rest).modifyHead (front ++ ·) := by
  obtain ⟨piece, others, equal⟩ := List.exists_cons_of_ne_nil (pieces_ne_nil stop scanner' rest)
  rw [equal, List.modifyHead_cons]
  induction front generalizing scanner with
  | nil =>
    obtain rfl := passes.run
    exact equal
  | cons c front ih =>
    obtain ⟨goesOn, later⟩ := passes.uncons
    rw [List.cons_append, pieces, if_neg goesOn, ih later]
    rfl

/-- **All cuts** are made where the reader stops in front of characters that are asked for. -/
theorem pieces_drop (plain : ∀ c, stop c = true → isPlain c = true) (text : List Char)
    (cursor : Cursor) (level : Int) :
    pieces stop ⟨.code, cursor.depth - level⟩ (text.drop cursor.index) =
      slices text cursor.index
        (((cursor.trail text).filter (·.isAt text level stop)).map Cursor.index) := by
  have noQuotes : ∀ c, isQuote c = true → stop c = false := fun c quote => by
    by_contra stops
    have noQuote := (isPlain_iff.1 (plain c (Bool.not_eq_false _ ▸ stops))).1
    rw [quote] at noQuote
    cases noQuote
  fun_induction Cursor.trail text cursor with
  | case2 cursor outside =>
    simp [pieces, slices, List.drop_eq_nil_of_le (Nat.not_lt.1 outside)]
  | case1 cursor inside ih =>
    by_cases here : cursor.isAt text level stop = true
    · obtain ⟨c, at', stops, top⟩ := Cursor.isAt_iff.1 here
      have step := Cursor.next_of_isPlain at' (plain c stops)
      have further : (cursor.next text).depth = cursor.depth := by rw [step]
      have behind : (cursor.next text).index = cursor.index + 1 := by rw [step]
      rw [further, behind, top, Int.sub_self] at ih
      rw [List.filter_cons_of_pos here, List.map_cons, slices, drop_eq_cons at', pieces, top,
        Int.sub_self, if_pos (by simp [Scanner.atTop, stops]), ih, List.drop_take, Nat.sub_self,
        List.take_zero]
    · rw [Bool.not_eq_true] at here
      obtain ⟨scanner, passes, agrees⟩ := Cursor.exists_passes_next inside noQuotes here
      have order := (Cursor.lt_next inside).1.le
      have later := eq_of_agrees (pieces stop) (fun _ _ => rfl) agrees
      rw [List.filter_cons_of_neg (by simp [here]), drop_eq_append order, pieces_append passes,
        later, ih, ← slices_eq_modifyHead order]
      intro cut member
      obtain ⟨found, among, rfl⟩ := List.mem_map.1 member
      exact Cursor.le_of_mem_trail (List.mem_of_mem_filter among)

end Cuts

/-! ## What is found by jumps -/

/-- The body of the block at an index, **by jumps**: from its brace the reader goes on to the first
closer in front of which one bracket is open. -/
def bodyByJumps? (text : List Char) (start : Nat) : Option (List Char) :=
  if text[start]? = some '\x7b' then
    ((Cursor.trail text ⟨start, 0⟩).find? (·.isAt text 1 isCloser)).map fun found =>
      (text.take found.index).drop (start + 1)
  else none

/-- The parts of a body, **by jumps**: the reader stops in front of commas outside all brackets. -/
def partsByJumps (body : List Char) : List (List Char) :=
  let commas := (Cursor.trail body ⟨0, 0⟩).filter (·.isAt body 0 (· == ','))
  ((slices body 0 (commas.map Cursor.index)).map Text.trim).filter (!·.isEmpty)

/-- The key and the value of a part, **by jumps**: the reader goes on to the first colon outside all
brackets. -/
def entryByJumps (part : List Char) : List Char × List Char :=
  match (Cursor.trail part ⟨0, 0⟩).find? (·.isAt part 0 (· == ':')) with
  | some found => (bareKey (part.take found.index), Text.trim (part.drop (found.index + 1)))
  | none => (bareKey part, [])

/-- Bodies of blocks are found by jumps. -/
theorem blockBody?_drop (text : List Char) (start : Nat) :
    blockBody? (text.drop start) = bodyByJumps? text start := by
  unfold bodyByJumps?
  split
  next here =>
    have inside : (Cursor.mk start 0).index < text.length := (List.getElem?_eq_some_iff.1 here).1
    have noQuotes : ∀ c, isQuote c = true → isCloser c = false := fun c quote =>
      (of_isQuote quote).2.1
    have opened : Cursor.next text ⟨start, 0⟩ = ⟨start + 1, 1⟩ := by
      simp [Cursor.next, here, isQuote, isOpener]
    have goesOn : Cursor.isAt text 1 isCloser ⟨start, 0⟩ = false := by simp [Cursor.isAt]
    have cut := cutAt?_drop noQuotes text ⟨start + 1, 1⟩ 1
    rw [Int.sub_self] at cut
    rw [drop_eq_cons here, blockBody?, Scanner.start, cut,
      Cursor.trail_of_lt inside, opened,
      List.find?_cons_of_neg (by simp [goesOn]), Option.map_map]
    rfl
  next absent =>
    unfold blockBody?
    split
    next rest whole =>
      exact absurd (by rw [← List.head?_drop, whole]; rfl) absent
    next => rfl

/-- Parts are found by jumps. -/
theorem parts_eq_partsByJumps (body : List Char) : parts body = partsByJumps body := by
  have plain : ∀ c, (c == ',') = true → isPlain c = true := by
    intro c isComma
    obtain rfl := beq_iff_eq.1 isComma
    decide
  have cuts := pieces_drop plain body ⟨0, 0⟩ 0
  rw [Int.sub_self, List.drop_zero] at cuts
  rw [parts, Scanner.start, cuts]
  rfl

/-- Entries are found by jumps. -/
theorem splitEntry_eq_entryByJumps (part : List Char) : splitEntry part = entryByJumps part := by
  have noQuotes : ∀ c, isQuote c = true → (c == ':') = false := by
    intro c quote
    by_contra colon
    obtain rfl := beq_iff_eq.1 (Bool.not_eq_false _ ▸ colon)
    cases quote
  have cut := cutAt?_drop noQuotes part ⟨0, 0⟩ 0
  rw [Int.sub_self, List.drop_zero] at cut
  rw [splitEntry, Scanner.start, cut, entryByJumps]
  cases (Cursor.trail part ⟨0, 0⟩).find? (·.isAt part 0 (· == ':')) <;> rfl

/-- **Literals are jumped over.** The literal behind a quote ends within the text: behind the first
equal quote with an even number of backslashes in front, or with the text when there is none. So a
reader that jumps over literals goes strictly forward and comes to the end of every text, and bodies
of blocks, parts and entries are what it finds. -/
theorem literals_jumped_over :
    (∀ (text : List Char) (start : Nat) (quote : Char), isQuote quote = true →
      text[start]? = some quote →
        (start < literalEnd text start ∧ literalEnd text start ≤ text.length) ∧
        (∀ index, ClosesAt text start quote index →
          ∃ least, IsLeast {index | ClosesAt text start quote index} least ∧
            literalEnd text start = least + 1) ∧
        ((∀ index, ¬ClosesAt text start quote index) → literalEnd text start = text.length)) ∧
    (∀ (text : List Char) (cursor : Cursor), cursor.index < text.length →
      cursor.index < (cursor.next text).index ∧ (cursor.next text).index ≤ text.length) ∧
    (∀ (text : List Char) (cursor : Cursor),
      (cursor.trail text).length ≤ text.length - cursor.index) ∧
    (∀ text start, blockBody? (text.drop start) = bodyByJumps? text start) ∧
    (∀ body, parts body = partsByJumps body) ∧
    ∀ part, splitEntry part = entryByJumps part := by
  refine ⟨fun text start quote isQuote here => ?_, fun text cursor => Cursor.lt_next,
    Cursor.length_trail_le, blockBody?_drop, parts_eq_partsByJumps, splitEntry_eq_entryByJumps⟩
  have noBackslash : quote ≠ '\\' := (of_isQuote isQuote).2.2.2.1
  exact ⟨literalEnd_bounds here, fun index => literalEnd_eq_of_closesAt noBackslash here,
    literalEnd_eq_length noBackslash here⟩

/-- Code in which a literal holds an escaped quote, a bracket and an escaped backslash, and another
one is not closed. -/
def slashedText : List Char := "\x7bk: 'a\\'\x7d\\\\', b: \"]".toList

/-- The first of these literals ends behind the quote that closes it, the second one with the text,
and behind the first one the reader is further on. -/
theorem literals_jumped_over_slashed :
    (isQuote '\'' = true ∧ slashedText[4]? = some '\'' ∧ ClosesAt slashedText 4 '\'' 11 ∧
      ∃ least, IsLeast {index | ClosesAt slashedText 4 '\'' index} least ∧
        literalEnd slashedText 4 = least + 1) ∧
    (isQuote '"' = true ∧ slashedText[17]? = some '"' ∧
      (∀ index, ¬ClosesAt slashedText 17 '"' index) ∧
      literalEnd slashedText 17 = slashedText.length) ∧
    4 < slashedText.length ∧ 4 < (Cursor.next slashedText ⟨4, 1⟩).index := by
  have closes : ClosesAt slashedText 4 '\'' 11 := ⟨by decide, by decide, by decide⟩
  have unclosed : ∀ index, ¬ClosesAt slashedText 17 '"' index := by
    rintro index ⟨behind, isQuote, -⟩
    have within : index < 19 := (List.getElem?_eq_some_iff.1 isQuote).1
    obtain rfl : index = 18 := by omega
    revert isQuote
    decide
  have inside : 4 < slashedText.length := by decide
  have first := literals_jumped_over.1 slashedText 4 '\'' (by decide) (by decide)
  have second := literals_jumped_over.1 slashedText 17 '"' (by decide) (by decide)
  exact ⟨⟨by decide, by decide, closes, first.2.1 11 closes⟩,
    ⟨by decide, by decide, unclosed, second.2.2 unclosed⟩, inside,
    (literals_jumped_over.2.1 slashedText ⟨4, 1⟩ inside).1⟩

end FileRoutes.Source
