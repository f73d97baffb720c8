import FileRoutes.Proofs.Path
import FileRoutes.Proofs.Text.Gap
import FileRoutes.Proofs.Text.Search

/-! # Layouts of a text

Two texts are **layouts** of each other (`Reflows`) when they differ only in which blanks their gaps
are made of: where one has a gap of at least one blank the other has one too, and all other
characters are the same. They are the texts that become equal when runs of blanks are squeezed
(`reflows_iff_squeeze`), and they have the same words (`Reflows.words`). What is cut out of two
layouts along characters that are no blanks are layouts of each other again, and a recogniser that
does not tell layouts apart finds the same in both (`Reflows.scan`). -/

namespace FileRoutes.Text

/-! ## Words of a text -/

section Words

variable {word lead gap rest : List Char}

/-- A blank belongs to no word. -/
theorem words_cons_of_blank {c : Char} (blank : isBlank c = true) (rest : List Char) :
    words (c :: rest) = words rest := by
  cases rest <;> simp [words, blank]

/-- A gap has no words, and takes none from what stands behind it. -/
theorem words_append_of_isGap (isGap : IsGap gap) (rest : List Char) :
    words (gap ++ rest) = words rest := by
  induction gap with
  | nil => rfl
  | cons c gap ih =>
    rw [isGap_cons] at isGap
    rw [List.cons_append, words_cons_of_blank isGap.1, ih isGap.2]

/-- A word ends in front of a blank and at the end of the text. -/
theorem words_append_of_solid (solid : ∀ c ∈ word, isBlank c = false) (nonempty : word ≠ [])
    (ends : ∀ c ∈ rest.head?, isBlank c = true) : words (word ++ rest) = word :: words rest := by
  induction word with
  | nil => exact absurd rfl nonempty
  | cons c word ih =>
    have here := solid c List.mem_cons_self
    cases word with
    | nil =>
      cases rest with
      | nil => simp [words, here]
      | cons d rest => simp [words, here, ends d rfl]
    | cons d word =>
      have others := ih (fun c member => solid c (List.mem_cons_of_mem _ member)) (by simp)
      have next := solid d (by simp)
      rw [List.cons_append] at others
      simp [words, here, next, others, extendFirst]

end Words

/-! ## Layouts -/

/-- **Two layouts** of one text. -/
inductive Reflows : List Char → List Char → Prop where
  /-- There is nothing to lay out. -/
  | nil : Reflows [] []
  /-- A character that is no blank stays. -/
  | cons {c : Char} {rest rest' : List Char} (solid : isBlank c = false)
      (more : Reflows rest rest') : Reflows (c :: rest) (c :: rest')
  /-- A gap that is not empty becomes another one. -/
  | gap {gap gap' rest rest' : List Char} (nonempty : gap ≠ []) (isGap : IsGap gap)
      (nonempty' : gap' ≠ []) (isGap' : IsGap gap') (more : Reflows rest rest') :
      Reflows (gap ++ rest) (gap' ++ rest')

namespace Reflows

variable {text other : List Char}

/-- One blank may stand for another one. -/
theorem blank {c d : Char} {rest rest' : List Char} (blank : isBlank c = true)
    (blank' : isBlank d = true) (more : Reflows rest rest') : Reflows (c :: rest) (d :: rest') :=
  .gap (List.cons_ne_nil c []) (by simp [blank]) (List.cons_ne_nil d []) (by simp [blank']) more

/-- Layouts are layouts of each other. -/
theorem symm (layout : Reflows text other) : Reflows other text := by
  induction layout with
  | nil => exact .nil
  | cons solid _ ih => exact .cons solid ih
  | gap nonempty isGap nonempty' isGap' _ ih => exact .gap nonempty' isGap' nonempty isGap ih

/-- Cutting the blanks in front leaves layouts. -/
theorem trimStart (layout : Reflows text other) :
    Reflows (trimStart text) (trimStart other) := by
  induction layout with
  | nil => exact .nil
  | cons solid more =>
    rw [trimStart_cons_of_not_blank solid, trimStart_cons_of_not_blank solid]
    exact .cons solid more
  | gap _ isGap _ isGap' _ ih =>
    rwa [trimStart_append_of_isGap isGap, trimStart_append_of_isGap isGap']

/-- **How two layouts begin**: not at all, with the same character, or with blanks. -/
theorem inv (layout : Reflows text other) :
    (text = [] ∧ other = []) ∨
    (∃ c rest rest', isBlank c = false ∧ text = c :: rest ∧ other = c :: rest' ∧
      Reflows rest rest') ∨
    ∃ c rest d rest', isBlank c = true ∧ isBlank d = true ∧ text = c :: rest ∧ other = d :: rest' ∧
      Reflows (Text.trimStart rest) (Text.trimStart rest') := by
  cases layout with
  | nil => exact .inl ⟨rfl, rfl⟩
  | cons solid more => exact .inr (.inl ⟨_, _, _, solid, rfl, rfl, more⟩)
  | @gap gap gap' rest rest' nonempty isGap nonempty' isGap' more =>
    obtain ⟨c, gap, rfl⟩ := List.exists_cons_of_ne_nil nonempty
    obtain ⟨d, gap', rfl⟩ := List.exists_cons_of_ne_nil nonempty'
    rw [isGap_cons] at isGap isGap'
    refine .inr (.inr ⟨c, gap ++ rest, d, gap' ++ rest', isGap.1, isGap'.1, rfl, rfl, ?_⟩)
    rw [trimStart_append_of_isGap isGap.2, trimStart_append_of_isGap isGap'.2]
    exact more.trimStart

/-- Layouts are empty alike. -/
theorem isEmpty (layout : Reflows text other) : text.isEmpty = other.isEmpty := by
  rcases layout.inv with ⟨rfl, rfl⟩ | ⟨_, _, _, _, rfl, rfl, _⟩ | ⟨_, _, _, _, _, _, rfl, rfl, _⟩ <;> rfl

/-- A character that is no blank stands in both layouts or in neither. -/
theorem mem_iff (layout : Reflows text other) {c : Char} (solid : isBlank c = false) :
    c ∈ text ↔ c ∈ other := by
  induction layout with
  | nil => rfl
  | cons _ _ ih => rw [List.mem_cons, List.mem_cons, ih]
  | gap _ isGap _ isGap' _ ih =>
    simp [not_mem_of_isGap isGap solid, not_mem_of_isGap isGap' solid, ih]

/-- Layouts are gaps alike. -/
theorem isGap (layout : Reflows text other) (gap : IsGap text) : IsGap other := by
  induction layout with
  | nil => exact gap
  | cons solid _ _ =>
    rw [isGap_cons, solid] at gap
    cases gap.1
  | gap _ _ _ isGap' _ ih =>
    rw [isGap_append] at gap ⊢
    exact ⟨isGap', ih gap.2⟩

/-- **Layouts have the same words.** -/
theorem words (layout : Reflows text other) : words text = words other := by
  induction layout with
  | nil => rfl
  | gap _ isGap _ isGap' _ ih => rw [words_append_of_isGap isGap, words_append_of_isGap isGap', ih]
  | @cons c rest rest' solid more ih =>
    -- The word that begins here goes on unless both rests begin with a blank or end.
    rcases more.inv with ⟨rfl, rfl⟩ | ⟨d, rest, rest', solid', rfl, rfl, _⟩ |
      ⟨d, rest, d', rest', blank, blank', rfl, rfl, _⟩
    · rfl
    · simp [Text.words, solid, solid', ih]
    · simp [Text.words, solid, blank, blank', ih]

end Reflows

/-! ## Squeezed layouts -/

section Squeeze

variable {gap rest : List Char}

/-- Behind a blank a gap is squeezed out. -/
theorem squeeze_true_append (isGap : IsGap gap) (rest : List Char) :
    squeeze true (gap ++ rest) = squeeze true rest := by
  induction gap with
  | nil => rfl
  | cons c gap ih =>
    rw [isGap_cons] at isGap
    rw [List.cons_append, squeeze, if_pos isGap.1, if_pos rfl, ih isGap.2]

/-- A gap is squeezed to one space. -/
theorem squeeze_false_append (nonempty : gap ≠ []) (isGap : IsGap gap) (rest : List Char) :
    squeeze false (gap ++ rest) = ' ' :: squeeze true rest := by
  obtain ⟨c, gap, rfl⟩ := List.exists_cons_of_ne_nil nonempty
  rw [isGap_cons] at isGap
  rw [List.cons_append, squeeze, if_pos isGap.1, if_neg Bool.false_ne_true,
    squeeze_true_append isGap.2]

/-- Behind a blank a text is squeezed as if the blanks in front were cut. -/
theorem squeeze_true_eq (text : List Char) : squeeze true text = squeeze false (trimStart text) := by
  obtain ⟨gap, isGap, whole⟩ := exists_isGap_append_trimStart text
  have solid := isBlank_head?_trimStart text
  rw [whole, squeeze_true_append isGap, ← whole]
  cases beginning : trimStart text with
  | nil => rfl
  | cons c rest =>
    rw [beginning] at solid
    rw [squeeze, squeeze, solid c rfl]
    rfl

/-- A character that is no blank is kept. -/
theorem squeeze_cons_of_not_blank {c : Char} (solid : isBlank c = false) (afterBlank : Bool)
    (rest : List Char) : squeeze afterBlank (c :: rest) = c :: squeeze false rest := by
  simp [squeeze, solid]

/-- Only nothing is squeezed to nothing. -/
theorem squeeze_false_eq_nil {text : List Char} (nothing : squeeze false text = []) : text = [] := by
  cases text with
  | nil => rfl
  | cons c rest =>
    rw [squeeze] at nothing
    split at nothing <;> simp at nothing

/-- Only gaps are squeezed to gaps. -/
theorem isGap_squeeze_iff {afterBlank : Bool} {text : List Char} :
    IsGap (squeeze afterBlank text) ↔ IsGap text := by
  have space : isBlank ' ' = true := by decide
  induction text generalizing afterBlank with
  | nil => rfl
  | cons c rest ih =>
    rw [squeeze, isGap_cons]
    split
    next blank => split <;> simp [ih, blank, space]
    next solid => simp [solid]

/-- Only gaps collapse to nothing. -/
theorem collapse_eq_nil_iff {text : List Char} : collapse text = [] ↔ IsGap text := by
  rw [collapse, trim_eq_nil_iff, isGap_squeeze_iff]

/-- Layouts are squeezed to the same text. -/
theorem Reflows.squeeze {text other : List Char} (layout : Reflows text other)
    (afterBlank : Bool) : squeeze afterBlank text = squeeze afterBlank other := by
  induction layout generalizing afterBlank with
  | nil => rfl
  | cons solid _ ih =>
    rw [squeeze_cons_of_not_blank solid, squeeze_cons_of_not_blank solid, ih]
  | gap nonempty isGap nonempty' isGap' _ ih =>
    cases afterBlank with
    | true => rw [squeeze_true_append isGap, squeeze_true_append isGap', ih]
    | false =>
      rw [squeeze_false_append nonempty isGap, squeeze_false_append nonempty' isGap', ih]

/-- Texts that are squeezed to the same text are layouts of each other. -/
theorem reflows_of_squeeze {text other : List Char} (same : squeeze false text = squeeze false other) :
    Reflows text other := by
  have space : isBlank ' ' = true := by decide
  induction size : text.length using Nat.strong_induction_on generalizing text other with
  | _ n ih =>
    cases text with
    | nil =>
      obtain rfl := squeeze_false_eq_nil same.symm
      exact .nil
    | cons c rest =>
      have shorter : (trimStart rest).length < n := by
        rw [← size]
        exact Nat.lt_succ_of_le (List.dropWhile_suffix _).length_le
      cases other with
      | nil => cases squeeze_false_eq_nil same
      | cons d rest' =>
        -- Both begin with a blank, or both with the same other character.
        by_cases blank : isBlank c = true <;> by_cases blank' : isBlank d = true
        · have spaced : squeeze true rest = squeeze true rest' := by
            simpa [squeeze, blank, blank'] using same
          rw [squeeze_true_eq, squeeze_true_eq] at spaced
          obtain ⟨gap, isGap, whole⟩ := exists_isGap_append_trimStart rest
          obtain ⟨gap', isGap', whole'⟩ := exists_isGap_append_trimStart rest'
          have more := ih _ shorter spaced rfl
          rw [whole, whole', ← List.cons_append, ← List.cons_append]
          exact .gap (by simp) (by simp [blank, isGap]) (by simp) (by simp [blank', isGap']) more
        · rw [Bool.not_eq_true] at blank'
          rw [squeeze_cons_of_not_blank blank', squeeze, if_pos blank, if_neg Bool.false_ne_true,
            List.cons.injEq] at same
          rw [← same.1, space] at blank'
          cases blank'
        · rw [Bool.not_eq_true] at blank
          rw [squeeze_cons_of_not_blank blank, squeeze, if_pos blank', if_neg Bool.false_ne_true,
            List.cons.injEq] at same
          rw [same.1, space] at blank
          cases blank
        · rw [Bool.not_eq_true] at blank blank'
          rw [squeeze_cons_of_not_blank blank, squeeze_cons_of_not_blank blank',
            List.cons.injEq] at same
          obtain ⟨rfl, same⟩ := same
          exact .cons blank (ih rest.length (by simp [← size]) same rfl)

/-- **Layouts are the texts that are squeezed to the same text.** -/
theorem reflows_iff_squeeze {text other : List Char} :
    Reflows text other ↔ squeeze false text = squeeze false other :=
  ⟨fun layout => layout.squeeze false, reflows_of_squeeze⟩

/-- Layouts of layouts are layouts. -/
theorem Reflows.trans {text other another : List Char} (layout : Reflows text other)
    (layout' : Reflows other another) : Reflows text another := by
  rw [reflows_iff_squeeze] at layout layout' ⊢
  exact layout.trans layout'

instance (text other : List Char) : Decidable (Reflows text other) :=
  decidable_of_iff _ reflows_iff_squeeze.symm

end Squeeze

/-! ## Cutting layouts -/

/-- A text is longer than its part in front of a character iff it has that character. -/
theorem length_takeWhile_lt_iff {stop : Char} {text : List Char} :
    (text.takeWhile (· != stop)).length < text.length ↔ stop ∈ text := by
  have front := List.takeWhile_prefix (l := text) (· != stop)
  rw [← not_iff_not, Nat.not_lt]
  constructor
  · intro long member
    have whole := List.takeWhile_eq_self_iff.1 (front.eq_of_length_le long) stop member
    simp at whole
  · intro absent
    have whole : text.takeWhile (· != stop) = text :=
      List.takeWhile_eq_self_iff.2 fun c member => bne_iff_ne.2 (ne_of_mem_of_not_mem member absent)
    rw [whole]

namespace Reflows

variable {text other : List Char}

/-- The same beginning leaves layouts. -/
theorem after? {beginning : List Char} (solid : ∀ c ∈ beginning, isBlank c = false)
    (layout : Reflows text other) :
    Option.Rel Reflows (after? beginning text) (after? beginning other) := by
  induction beginning generalizing text other with
  | nil => exact .some layout
  | cons b beginning ih =>
    have here := solid b List.mem_cons_self
    rcases layout.inv with ⟨rfl, rfl⟩ | ⟨c, rest, rest', _, rfl, rfl, more⟩ |
      ⟨c, rest, d, rest', blank, blank', rfl, rfl, _⟩
    · exact .none
    · rw [Text.after?, Text.after?]
      split
      · exact ih (fun c member => solid c (List.mem_cons_of_mem _ member)) more
      · exact .none
    · have differ : b ≠ c := fun equal => by simp [equal, blank] at here
      have differ' : b ≠ d := fun equal => by simp [equal, blank'] at here
      rw [Text.after?, Text.after?, if_neg differ, if_neg differ']
      exact .none

/-- A word in front stays. -/
theorem append_word {word rest : List Char} (solid : ∀ c ∈ word, isBlank c = false)
    (layout : Reflows (word ++ rest) other) : ∃ rest', other = word ++ rest' ∧ Reflows rest rest' := by
  have behind := layout.after? solid
  rw [after?_eq_some.2 rfl] at behind
  cases found : Text.after? word other with
  | none =>
    rw [found] at behind
    cases behind
  | some rest' =>
    rw [found] at behind
    cases behind with
    | some more => exact ⟨rest', after?_eq_some.1 found, more⟩

/-- Layouts have no blanks in front alike. -/
theorem isEmpty_takeWhile (layout : Reflows text other) :
    (text.takeWhile isBlank).isEmpty = (other.takeWhile isBlank).isEmpty := by
  rcases layout.inv with ⟨rfl, rfl⟩ | ⟨c, _, _, solid, rfl, rfl, _⟩ |
    ⟨_, _, _, _, blank, blank', rfl, rfl, _⟩
  · rfl
  · simp [solid]
  · simp [blank, blank']

/-- **A layout of a word between gaps** is the word between gaps, which are there alike. -/
theorem padded {lead word trail : List Char} (isLead : IsGap lead)
    (solid : ∀ c ∈ word, isBlank c = false) (nonempty : word ≠ []) (isTrail : IsGap trail)
    (layout : Reflows (lead ++ word ++ trail) other) :
    ∃ lead' trail', IsGap lead' ∧ IsGap trail' ∧ other = lead' ++ word ++ trail' ∧
      (lead' = [] ↔ lead = []) ∧ (trail' = [] ↔ trail = []) := by
  have first : ∀ rest, ∀ c ∈ (word ++ rest).head?, isBlank c = false := by
    intro rest c begins
    rw [List.head?_append_of_ne_nil _ nonempty] at begins
    exact solid c (List.mem_of_mem_head? begins)
  rw [List.append_assoc] at layout
  have inner := layout.trimStart
  rw [trimStart_append_of_isGap isLead, trimStart_eq_self_iff.2 (first trail)] at inner
  obtain ⟨trail', behind, more⟩ := inner.append_word solid
  obtain ⟨lead', isLead', whole⟩ := exists_isGap_append_trimStart other
  rw [behind] at whole
  subst whole
  refine ⟨lead', trail', isLead', more.isGap isTrail, (List.append_assoc _ _ _).symm, ?_, ?_⟩
  · have alike := layout.isEmpty_takeWhile
    rw [takeWhile_isBlank_append isLead (first trail),
      takeWhile_isBlank_append isLead' (first trail')] at alike
    rw [← List.isEmpty_iff, ← List.isEmpty_iff, alike]
  · rw [← List.isEmpty_iff, ← List.isEmpty_iff, more.isEmpty]

/-- Blanks in front are there alike, and leave layouts. -/
theorem afterBlanks? (layout : Reflows text other) :
    Option.Rel Reflows (afterBlanks? text) (afterBlanks? other) := by
  rcases layout.inv with ⟨rfl, rfl⟩ | ⟨c, rest, rest', solid, rfl, rfl, _⟩ |
    ⟨c, rest, d, rest', blank, blank', rfl, rfl, more⟩
  · exact .none
  · rw [Text.afterBlanks?, Text.afterBlanks?, solid]
    exact .none
  · rw [Text.afterBlanks?, Text.afterBlanks?, if_pos blank, if_pos blank']
    exact .some more

/-- A row of characters that are no blanks is the same in front of both layouts, and leaves
layouts. -/
theorem takeWhile_eq {test : Char → Bool} (solid : ∀ c, test c = true → isBlank c = false)
    (layout : Reflows text other) : text.takeWhile test = other.takeWhile test ∧
      Reflows (text.dropWhile test) (other.dropWhile test) := by
  have stops : ∀ {c : Char}, isBlank c = true → test c = false := fun {c} blank => by
    by_contra holds
    rw [Bool.not_eq_false] at holds
    rw [solid c holds] at blank
    cases blank
  induction layout with
  | nil => exact ⟨rfl, .nil⟩
  | @cons c rest rest' isSolid more ih =>
    by_cases holds : test c = true
    · simpa [holds] using ih
    · simpa [holds] using Reflows.cons isSolid more
  | @gap gap gap' rest rest' nonempty isGap nonempty' isGap' more _ =>
    have layout := Reflows.gap nonempty isGap nonempty' isGap' more
    obtain ⟨c, gap, rfl⟩ := List.exists_cons_of_ne_nil nonempty
    obtain ⟨d, gap', rfl⟩ := List.exists_cons_of_ne_nil nonempty'
    rw [isGap_cons] at isGap isGap'
    simpa [stops isGap.1, stops isGap'.1] using layout

/-- Up to a character that is no blank there are layouts. -/
theorem takeWhile_ne {stop : Char} (solid : isBlank stop = false) (layout : Reflows text other) :
    Reflows (text.takeWhile (· != stop)) (other.takeWhile (· != stop)) := by
  have passes : ∀ {gap : List Char}, IsGap gap → ∀ c ∈ gap, (c != stop) = true :=
    fun isGap c member => bne_iff_ne.2 (ne_of_mem_of_not_mem member (not_mem_of_isGap isGap solid))
  induction layout with
  | nil => exact .nil
  | @cons c rest rest' isSolid more ih =>
    by_cases stops : c = stop
    · simpa [stops] using Reflows.nil
    · simpa [stops] using Reflows.cons isSolid ih
  | gap nonempty isGap nonempty' isGap' _ ih =>
    rw [List.takeWhile_append_of_pos (passes isGap), List.takeWhile_append_of_pos (passes isGap')]
    exact .gap nonempty isGap nonempty' isGap' ih

/-- Layouts stay layouts, one by one, when layouts go in front of the first. -/
theorem modifyHead_append {front front' : List Char} {parts parts' : List (List Char)}
    (goesInFront : ∀ {rest rest'}, Reflows rest rest' → Reflows (front ++ rest) (front' ++ rest'))
    (layouts : List.Forall₂ Reflows parts parts') :
    List.Forall₂ Reflows (parts.modifyHead (front ++ ·)) (parts'.modifyHead (front' ++ ·)) := by
  cases layouts with
  | nil => exact .nil
  | cons first others => exact .cons (goesInFront first) others

/-- The fields between separators that are no blanks are layouts of each other, one by one. -/
theorem fields {separator : Char} (solid : isBlank separator = false)
    (layout : Reflows text other) :
    List.Forall₂ Reflows (fields separator text) (fields separator other) := by
  induction layout with
  | nil => exact .cons .nil .nil
  | @cons c rest rest' isSolid _ ih =>
    by_cases separates : c = separator
    · simpa [Text.fields, separates] using List.Forall₂.cons Reflows.nil ih
    · have apart : separator ∉ [c] := by simpa using Ne.symm separates
      rw [← List.singleton_append, fields_append_of_not_mem apart,
        ← List.singleton_append (l := rest'), fields_append_of_not_mem apart]
      exact modifyHead_append (Reflows.cons isSolid) ih
  | gap nonempty isGap nonempty' isGap' _ ih =>
    rw [fields_append_of_not_mem (not_mem_of_isGap isGap solid),
      fields_append_of_not_mem (not_mem_of_isGap isGap' solid)]
    exact modifyHead_append (Reflows.gap nonempty isGap nonempty' isGap') ih

/-! ## Searching layouts -/

/-- **A recogniser that does not tell layouts apart** finds the same in both, one find after the
other. -/
theorem scan {β : Type} {ask : List Char → Option β} {Alike : β → β → Prop}
    (silent : ∀ gap rest, IsGap gap → Silent ask gap rest)
    (alike : ∀ text other, Reflows text other → Option.Rel Alike (ask text) (ask other))
    (layout : Reflows text other) : List.Forall₂ Alike (scan ask text) (scan ask other) := by
  induction layout with
  | nil => exact .nil
  | gap _ isGap _ isGap' _ ih =>
    rwa [scan_append_of_silent (silent _ _ isGap), scan_append_of_silent (silent _ _ isGap')]
  | @cons c rest rest' solid more ih =>
    have here := alike _ _ (Reflows.cons solid more)
    rw [Text.scan, Text.scan]
    generalize ask (c :: rest) = found at here ⊢
    generalize ask (c :: rest') = found' at here ⊢
    cases here with
    | some same => exact .cons same ih
    | none => exact ih

end Reflows

end FileRoutes.Text
