import FileRoutes.Export.Scan
import FileRoutes.Proofs.Text.Gap
import FileRoutes.Proofs.Text.Search

/-! # The form of exports

What the recognisers of exports accept, said by concatenation: a keyword with a gap behind it
(`Keyword.after?_eq_some_iff`), a name in front of a mark (`Export.nameBefore?_eq_some_iff`), and from
them the export of a constant (`Export.valueName?_eq_some_iff`). No export begins in a text without
the keyword, also when one stands right behind that text (`Keyword.silent_of_clear`). -/

namespace FileRoutes

open Text

/-! ## Keywords -/

namespace Keyword

/-- A keyword is read together with the whole gap behind it. -/
theorem after?_eq_some_iff {word text rest : List Char} :
    after? word text = some rest ↔
      ∃ gap, gap ≠ [] ∧ IsGap gap ∧ (∀ c ∈ rest.head?, isBlank c = false) ∧
        text = word ++ (gap ++ rest) := by
  rw [after?, Option.bind_eq_some_iff]
  constructor
  · rintro ⟨tail, beginning, blanks⟩
    rw [after?_eq_some] at beginning
    cases tail with
    | nil => simp [afterBlanks?] at blanks
    | cons c tail =>
      rw [afterBlanks?] at blanks
      split at blanks
      next blank =>
        obtain rfl := Option.some.inj blanks
        obtain ⟨gap, isGap, equal⟩ := exists_isGap_append_trimStart tail
        refine ⟨c :: gap, by simp, by simp [blank, isGap], isBlank_head?_trimStart _, ?_⟩
        rw [beginning, List.cons_append, ← equal]
      next => simp at blanks
  · rintro ⟨gap, nonempty, isGap, solid, rfl⟩
    refine ⟨gap ++ rest, Text.after?_eq_some.2 rfl, ?_⟩
    cases gap with
    | nil => exact absurd rfl nonempty
    | cons c gap =>
      rw [isGap_cons] at isGap
      rw [List.cons_append, afterBlanks?, if_pos isGap.1, trimStart_append_of_isGap isGap.2,
        trimStart_eq_self_iff.2 solid]

/-- A text that begins with another character than the keyword is not recognised. -/
theorem after?_cons_of_ne {first c : Char} (differ : first ≠ c) (word text : List Char) :
    after? (first :: word) (c :: text) = none := by
  simp [after?, Text.after?, differ]

/-- **The keyword does not begin inside itself**: in front of it, no part of a text without the
keyword is completed to one. -/
theorem silent_of_clear {front : List Char} (clear : ¬ «export» <:+: front) (rest : List Char) :
    Silent (Text.after? «export») front («export» ++ rest) := by
  intro suffix inside nonempty
  rw [after?_eq_none_iff]
  rintro ⟨tail, overlap⟩
  rcases List.append_eq_append_iff.1 overlap with ⟨_, rfl, -⟩ | ⟨later, keyword, begins⟩
  · exact clear ((List.prefix_append _ _).isInfix.trans inside.isInfix)
  · cases later with
    | nil =>
      rw [List.append_nil] at keyword
      exact clear (keyword ▸ inside.isInfix)
    | cons c later =>
      obtain ⟨first, others, rfl⟩ := List.exists_cons_of_ne_nil nonempty
      have again : c = 'e' := (List.cons.inj begins).1.symm
      have inner : c ∈ «export».tail := by
        rw [keyword]
        simp
      subst again
      exact absurd inner (by decide)

end Keyword

namespace Export

/-! ## Names in front of a mark -/

/-- A **mark** that may stand behind a name: neither a word character nor a blank. -/
def IsMark (c : Char) : Prop := isWordChar c = false ∧ isBlank c = false

/-- A word ends where no word character follows. -/
theorem wordSpan_append_of_head? {word rest : List Char} (isWord : ∀ c ∈ word, isWordChar c = true)
    (ends : ∀ c ∈ rest.head?, isWordChar c = false) : wordSpan (word ++ rest) = (word, rest) := by
  have stops : wordSpan rest = ([], rest) := by
    cases rest with
    | nil => rfl
    | cons c rest => simp [wordSpan, ends c rfl]
  simp only [wordSpan, Prod.mk.injEq] at stops
  rw [wordSpan, List.takeWhile_append_of_pos isWord, List.dropWhile_append_of_pos isWord, stops.1,
    stops.2, List.append_nil]

/-- A gap that is not empty begins with a blank, which is no word character. -/
theorem isWordChar_head?_of_isGap {gap : List Char} (nonempty : gap ≠ []) (isGap : IsGap gap)
    (rest : List Char) : ∀ c ∈ (gap ++ rest).head?, isWordChar c = false := by
  cases gap with
  | nil => exact absurd rfl nonempty
  | cons c gap => simpa using isWordChar_eq_false_of_isBlank (isGap c List.mem_cons_self)

/-- In front of a mark, and of the gap before it, no word goes on. -/
theorem isWordChar_head?_of_isMark {gap : List Char} {mark : Char} (isGap : IsGap gap)
    (isMark : IsMark mark) (behind : List Char) :
    ∀ c ∈ (gap ++ mark :: behind).head?, isWordChar c = false := by
  cases gap with
  | nil => simpa using isMark.1
  | cons c gap => exact isWordChar_head?_of_isGap (by simp) isGap _

/-- A name in front of a mark is a word, a gap and the mark. -/
theorem nameBefore?_eq_some_iff {marks text behind : List Char} {name : String}
    (areMarks : ∀ mark ∈ marks, IsMark mark) :
    nameBefore? marks text = some (name, behind) ↔
      ∃ word gap mark, word ≠ [] ∧ (∀ c ∈ word, isWordChar c = true) ∧ IsGap gap ∧ mark ∈ marks ∧
        name = String.ofList word ∧ text = word ++ (gap ++ mark :: behind) := by
  constructor
  · intro recognised
    unfold nameBefore? at recognised
    have whole := Text.wordSpan_append text
    have isWord : ∀ c ∈ (wordSpan text).1, isWordChar c = true := fun c member =>
      List.mem_takeWhile_imp member
    generalize wordSpan text = span at recognised whole isWord
    obtain ⟨word, rest⟩ := span
    obtain ⟨gap, isGap, equal⟩ := exists_isGap_append_trimStart rest
    dsimp only at recognised whole isWord
    split at recognised
    · simp at recognised
    · simp at recognised
    next word _ _ mark tail nonempty trimmed =>
      split at recognised
      next isMark =>
        simp only [Option.some.injEq, Prod.mk.injEq] at recognised
        obtain ⟨rfl, rfl⟩ := recognised
        refine ⟨word, gap, mark, nonempty, isWord, isGap, isMark, rfl, ?_⟩
        rw [← whole, equal, trimmed]
      next => simp at recognised
  · rintro ⟨word, gap, mark, nonempty, isWord, isGap, isMark, rfl, rfl⟩
    have solid := (areMarks mark isMark).2
    have ends := isWordChar_head?_of_isMark isGap (areMarks mark isMark) behind
    rw [nameBefore?, wordSpan_append_of_head? isWord ends]
    cases word with
    | nil => exact absurd rfl nonempty
    | cons c word =>
      simp only [trimStart_append_of_isGap isGap, trimStart_cons_of_not_blank solid, if_pos isMark]

/-! ## Exported constants -/

/-- The marks behind the name of a constant are marks. -/
theorem isMark_of_mem_valueMarks : ∀ mark ∈ ['=', ':'], IsMark mark := by
  intro mark member
  simp only [List.mem_cons, List.not_mem_nil, or_false] at member
  rcases member with rfl | rfl <;> exact ⟨by decide +kernel, by decide +kernel⟩

/-- The export of a constant: the two keywords with gaps behind them, the name, and a mark. -/
theorem valueName?_eq_some_iff {text behind : List Char} {name : String} :
    valueName? text = some (name, behind) ↔
      ∃ gap gap' word gap'' mark, gap ≠ [] ∧ IsGap gap ∧ gap' ≠ [] ∧ IsGap gap' ∧
        word ≠ [] ∧ (∀ c ∈ word, isWordChar c = true) ∧ IsGap gap'' ∧ mark ∈ ['=', ':'] ∧
        name = String.ofList word ∧
        text = Keyword.export ++ (gap ++ (Keyword.const ++ (gap' ++
          (word ++ (gap'' ++ mark :: behind))))) := by
  simp only [valueName?, Option.bind_eq_bind, Option.bind_eq_some_iff,
    Keyword.after?_eq_some_iff, nameBefore?_eq_some_iff isMark_of_mem_valueMarks]
  constructor
  · rintro ⟨rest, ⟨gap, nonempty, isGap, -, rfl⟩, rest', ⟨gap', nonempty', isGap', -, rfl⟩,
      word, gap'', mark, hasName, isWord, isGap'', isMark, rfl, rfl⟩
    exact ⟨gap, gap', word, gap'', mark, nonempty, isGap, nonempty', isGap', hasName, isWord,
      isGap'', isMark, rfl, rfl⟩
  · rintro ⟨gap, gap', word, gap'', mark, nonempty, isGap, nonempty', isGap', hasName, isWord,
      isGap'', isMark, rfl, rfl⟩
    refine ⟨_, ⟨gap, nonempty, isGap, ?_, rfl⟩, _, ⟨gap', nonempty', isGap', ?_, rfl⟩,
      word, gap'', mark, hasName, isWord, isGap'', isMark, rfl, rfl⟩
    · simpa [Keyword.const] using (by decide : isBlank 'c' = false)
    · cases word with
      | nil => exact absurd rfl hasName
      | cons c word =>
        simpa using isBlank_eq_false_of_isWordChar (isWord c List.mem_cons_self)

end Export

end FileRoutes
