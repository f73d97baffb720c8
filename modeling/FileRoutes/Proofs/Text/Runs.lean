import FileRoutes.Proofs.Text.Layout

/-! # Texts on one line

The **runs** of a text (`HasRuns`) are its longest stretches without blanks, in order. Every text
has exactly one list of them, its words (`hasRuns_iff`), and collapsing the text joins its runs by
single spaces (`HasRuns.collapse_eq`). The text then is **on one line** (`IsOnOneLine`): its only
blanks are single spaces between other characters. Texts collapse to the same text iff they have the
same runs (`collapse_joins_runs`). -/

namespace FileRoutes.Text

/-- A **run**: a text without blanks that is not empty. -/
structure IsRun (run : List Char) : Prop where
  /-- There is a character. -/
  nonempty : run ≠ []
  /-- No character is a blank. -/
  solid : ∀ c ∈ run, isBlank c = false

/-- **The runs of a text**: between gaps, none of them goes on in front of it or behind it. -/
inductive HasRuns : List Char → List (List Char) → Prop where
  /-- A gap has no runs. -/
  | gap {gap : List Char} (isGap : IsGap gap) : HasRuns gap []
  /-- Behind a gap a run goes on up to a blank or the end of the text. -/
  | run {gap run rest : List Char} {runs : List (List Char)} (isGap : IsGap gap) (isRun : IsRun run)
      (ends : ∀ c ∈ rest.head?, isBlank c = true) (more : HasRuns rest runs) :
      HasRuns (gap ++ (run ++ rest)) (run :: runs)

/-- A text is **on one line** when each blank in it is a space between two characters that are no
blanks. -/
def IsOnOneLine (text : List Char) : Prop :=
  ∀ front c back, text = front ++ c :: back → isBlank c = true →
    c = ' ' ∧ (∃ d ∈ front.getLast?, isBlank d = false) ∧ ∃ d ∈ back.head?, isBlank d = false

/-! ## Every text has its runs -/

section Runs

variable {text rest : List Char} {runs : List (List Char)} {c : Char}

/-- A run does not begin with a blank. -/
theorem IsRun.head? {run : List Char} (isRun : IsRun run) (rest : List Char) :
    ∃ c ∈ (run ++ rest).head?, isBlank c = false := by
  obtain ⟨c, run, rfl⟩ := List.exists_cons_of_ne_nil isRun.nonempty
  exact ⟨c, rfl, isRun.solid c List.mem_cons_self⟩

/-- A run does not end with a blank. -/
theorem IsRun.getLast? {run : List Char} (isRun : IsRun run) :
    ∃ c ∈ run.getLast?, isBlank c = false :=
  ⟨_, List.getLast?_eq_some_getLast isRun.nonempty, isRun.solid _ (List.getLast_mem isRun.nonempty)⟩

/-- What is found are runs. -/
theorem HasRuns.isRun (found : HasRuns text runs) : ∀ run ∈ runs, IsRun run := by
  induction found with
  | gap => simp
  | run _ isRun _ _ ih => exact List.forall_mem_cons.2 ⟨isRun, ih⟩

/-- A gap in front does not matter. -/
theorem HasRuns.append_gap {gap : List Char} (isGap : IsGap gap) (found : HasRuns rest runs) :
    HasRuns (gap ++ rest) runs := by
  cases found with
  | gap isGap' => exact .gap ((isGap_append _ _).2 ⟨isGap, isGap'⟩)
  | run isGap' isRun ends more =>
    rw [← List.append_assoc]
    exact .run ((isGap_append _ _).2 ⟨isGap, isGap'⟩) isRun ends more

/-- A character that is no blank is a run, or goes in front of the first one. -/
theorem HasRuns.exists_cons (solid : isBlank c = false) (found : HasRuns rest runs) :
    ∃ runs', HasRuns (c :: rest) runs' := by
  have alone : IsRun [c] := ⟨List.cons_ne_nil c [], by simpa using solid⟩
  -- When a gap follows, or the end, the character is a run of its own.
  have apart : (∀ d ∈ rest.head?, isBlank d = true) → ∃ runs', HasRuns (c :: rest) runs' :=
    fun ends => ⟨[c] :: runs, .run isGap_nil alone ends found⟩
  cases found with
  | gap isGap => exact apart fun d first => isGap d (List.mem_of_mem_head? first)
  | @run gap run rest runs isGap isRun ends more =>
    cases gap with
    | nil =>
      have longer : IsRun (c :: run) :=
        ⟨List.cons_ne_nil c run, List.forall_mem_cons.2 ⟨solid, isRun.solid⟩⟩
      exact ⟨(c :: run) :: runs, .run isGap_nil longer ends more⟩
    | cons d gap =>
      refine apart fun e first => ?_
      obtain rfl := Option.some.inj first
      exact ((isGap_cons _ _).1 isGap).1

/-- Every text has runs. -/
theorem exists_hasRuns (text : List Char) : ∃ runs, HasRuns text runs := by
  induction text with
  | nil => exact ⟨[], .gap isGap_nil⟩
  | cons c rest ih =>
    obtain ⟨runs, found⟩ := ih
    by_cases blank : isBlank c = true
    · have single : IsGap [c] := by simpa using blank
      exact ⟨runs, found.append_gap single⟩
    · exact found.exists_cons (Bool.eq_false_iff.2 blank)

/-- The runs of a text are its words. -/
theorem HasRuns.eq_words (found : HasRuns text runs) : words text = runs := by
  induction found with
  | gap isGap => simpa [words] using words_append_of_isGap isGap []
  | run isGap isRun ends _ ih =>
    rw [words_append_of_isGap isGap, words_append_of_solid isRun.solid isRun.nonempty ends, ih]

/-- **The words of a text** are its runs, of which there is one list. -/
theorem hasRuns_iff : HasRuns text runs ↔ words text = runs := by
  refine ⟨HasRuns.eq_words, ?_⟩
  rintro rfl
  obtain ⟨runs, found⟩ := exists_hasRuns text
  rwa [found.eq_words]

end Runs

/-! ## Runs joined by spaces -/

section Joined

variable {text front back rest : List Char} {runs : List (List Char)} {c : Char}

/-- A run is joined to what is behind it by a space. -/
theorem joinFields_cons (run : List Char) (nonempty : runs ≠ []) :
    joinFields ' ' (run :: runs) = run ++ ' ' :: joinFields ' ' runs := by
  obtain ⟨next, others, rfl⟩ := List.exists_cons_of_ne_nil nonempty
  rfl

/-- Joined runs begin with the first of them. -/
theorem head?_joinFields (areRuns : ∀ run ∈ runs, IsRun run) (nonempty : runs ≠ []) :
    ∃ c ∈ (joinFields ' ' runs).head?, isBlank c = false := by
  obtain ⟨run, runs, rfl⟩ := List.exists_cons_of_ne_nil nonempty
  have isRun := areRuns run List.mem_cons_self
  by_cases single : runs = []
  · subst single
    simpa [joinFields] using isRun.head? []
  · rw [joinFields_cons run single]
    exact isRun.head? _

/-- **Joined runs are the runs of their text.** -/
theorem hasRuns_joinFields (areRuns : ∀ run ∈ runs, IsRun run) :
    HasRuns (joinFields ' ' runs) runs := by
  induction runs with
  | nil => exact .gap isGap_nil
  | cons run runs ih =>
    obtain ⟨isRun, others⟩ := List.forall_mem_cons.1 areRuns
    by_cases single : runs = []
    · subst single
      have alone : HasRuns ([] ++ (run ++ [])) [run] :=
        .run isGap_nil isRun (by simp) (.gap isGap_nil)
      simpa [joinFields] using alone
    · have space : IsGap [' '] := by decide
      have behind : HasRuns ([' '] ++ joinFields ' ' runs) runs := (ih others).append_gap space
      have ends : ∀ c ∈ ([' '] ++ joinFields ' ' runs).head?, isBlank c = true := by
        intro c first
        obtain rfl := Option.some.inj first
        decide
      have whole : HasRuns ([] ++ (run ++ ([' '] ++ joinFields ' ' runs))) (run :: runs) :=
        .run isGap_nil isRun ends behind
      rw [joinFields_cons run single]
      exact whole

/-- **Joined runs are on one line.** -/
theorem isOnOneLine_joinFields (areRuns : ∀ run ∈ runs, IsRun run) :
    IsOnOneLine (joinFields ' ' runs) := by
  induction runs with
  | nil => simp [IsOnOneLine, joinFields]
  | cons run runs ih =>
    obtain ⟨isRun, others⟩ := List.forall_mem_cons.1 areRuns
    intro front c back whole blank
    have apart : c ∉ run := fun member => by
      rw [isRun.solid c member] at blank
      cases blank
    by_cases single : runs = []
    · subst single
      exact absurd (by rw [joinFields] at whole; simp [whole]) apart
    · rw [joinFields_cons run single] at whole
      -- The blank is the space behind the run, or one that stands further behind.
      rcases List.append_eq_append_iff.1 whole with ⟨middle, rfl, behind⟩ | ⟨middle, rfl, behind⟩
      · cases middle with
        | nil =>
          obtain ⟨rfl, rfl⟩ := List.cons.inj behind
          rw [List.append_nil]
          exact ⟨rfl, isRun.getLast?, head?_joinFields others single⟩
        | cons d middle =>
          obtain ⟨rfl, later⟩ := List.cons.inj behind
          obtain ⟨isSpace, ⟨e, last, solid⟩, first⟩ := ih others middle c back later blank
          refine ⟨isSpace, ⟨e, ?_, solid⟩, first⟩
          rw [List.getLast?_append, List.getLast?_cons, Option.mem_def.1 last]
          rfl
      · cases middle with
        | nil =>
          obtain ⟨rfl, rfl⟩ := List.cons.inj behind
          rw [List.append_nil] at isRun
          exact ⟨rfl, isRun.getLast?, head?_joinFields others single⟩
        | cons d middle =>
          obtain ⟨rfl, -⟩ := List.cons.inj behind
          exact absurd (by simp) apart

end Joined

/-! ## Collapsing -/

section Collapse

variable {text : List Char} {runs : List (List Char)}

/-- A text without blanks is squeezed to itself. -/
theorem squeeze_append_of_isRun {run : List Char} (isRun : IsRun run) (afterBlank : Bool)
    (rest : List Char) : squeeze afterBlank (run ++ rest) = run ++ squeeze false rest := by
  obtain ⟨nonempty, solid⟩ := isRun
  induction run generalizing afterBlank with
  | nil => exact absurd rfl nonempty
  | cons c run ih =>
    obtain ⟨here, others⟩ := List.forall_mem_cons.1 solid
    rw [List.cons_append, squeeze_cons_of_not_blank here]
    by_cases single : run = []
    · subst single
      rfl
    · rw [ih false single others, List.cons_append]

/-- **Squeezing joins the runs** and leaves at most a gap behind them. -/
theorem HasRuns.exists_squeeze_eq (found : HasRuns text runs) :
    ∃ gap, IsGap gap ∧ squeeze true text = joinFields ' ' runs ++ gap := by
  have space : isBlank ' ' = true := by decide
  induction found with
  | @gap gap isGap =>
    refine ⟨[], isGap_nil, ?_⟩
    simpa [squeeze, joinFields] using squeeze_true_append isGap []
  | @run gap run rest runs isGap isRun ends more ih =>
    obtain ⟨trail, isTrail, squeezed⟩ := ih
    rw [squeeze_true_append isGap, squeeze_append_of_isRun isRun]
    cases rest with
    | nil =>
      refine ⟨[], isGap_nil, ?_⟩
      rw [← more.eq_words]
      simp [squeeze, words, joinFields]
    | cons c rest =>
      have blank := ends c rfl
      -- Squeezed behind a run, the blank becomes the space that joins what follows.
      have spaced : squeeze false (c :: rest) = ' ' :: (joinFields ' ' runs ++ trail) := by
        rw [← squeezed, squeeze, squeeze, if_pos blank, if_pos blank]
        rfl
      rw [spaced]
      by_cases single : runs = []
      · subst single
        exact ⟨' ' :: trail, by simp [space, isTrail], rfl⟩
      · refine ⟨trail, isTrail, ?_⟩
        rw [joinFields_cons run single, List.append_assoc, List.cons_append]

/-- Trimmed, a text is squeezed to the same whether a blank stands in front or not. -/
theorem trim_squeeze (text : List Char) : trim (squeeze false text) = trim (squeeze true text) := by
  have space : IsGap [' '] := by decide
  cases text with
  | nil => rfl
  | cons c rest =>
    by_cases blank : isBlank c = true
    · have padded := trim_padded space isGap_nil (squeeze true rest)
      rw [squeeze, squeeze, if_pos blank, if_pos blank]
      simpa using padded
    · rw [squeeze, squeeze, if_neg blank, if_neg blank]

/-- A text on one line has no blanks at its ends. -/
theorem IsOnOneLine.trim_eq (line : IsOnOneLine text) : trim text = text := by
  rw [trim_eq_self_iff]
  constructor
  · intro c first
    by_contra blank
    obtain ⟨rest, whole⟩ := List.head?_eq_some_iff.1 first
    obtain ⟨-, ⟨d, last, -⟩, -⟩ := line [] c rest whole (Bool.not_eq_false _ ▸ blank)
    cases last
  · intro c last
    by_contra blank
    obtain ⟨front, whole⟩ := List.getLast?_eq_some_iff.1 last
    obtain ⟨-, -, ⟨d, first, -⟩⟩ := line front c [] whole (Bool.not_eq_false _ ▸ blank)
    cases first

/-- **A text collapses to its runs**, joined by single spaces. -/
theorem HasRuns.collapse_eq (found : HasRuns text runs) : collapse text = joinFields ' ' runs := by
  obtain ⟨gap, isGap, squeezed⟩ := found.exists_squeeze_eq
  have padded := trim_padded isGap_nil isGap (joinFields ' ' runs)
  rw [List.nil_append, (isOnOneLine_joinFields found.isRun).trim_eq] at padded
  rw [collapse, trim_squeeze, squeezed, padded]

/-- What a text collapses to is on one line, and has the same runs. -/
theorem HasRuns.collapse (found : HasRuns text runs) :
    IsOnOneLine (collapse text) ∧ HasRuns (Text.collapse text) runs := by
  rw [found.collapse_eq]
  exact ⟨isOnOneLine_joinFields found.isRun, hasRuns_joinFields found.isRun⟩

/-- Texts with the same runs collapse to the same text, and only they do. -/
theorem collapse_eq_collapse_iff {other : List Char} :
    collapse text = collapse other ↔ ∃ runs, HasRuns text runs ∧ HasRuns other runs := by
  constructor
  · intro same
    -- The runs of both can be read off the collapsed text.
    have found : HasRuns text (words text) := hasRuns_iff.2 rfl
    have found' : HasRuns other (words other) := hasRuns_iff.2 rfl
    have equal : words text = words other := by
      rw [← found.collapse.2.eq_words, ← found'.collapse.2.eq_words, same]
    exact ⟨words text, found, equal ▸ found'⟩
  · rintro ⟨shared, found, found'⟩
    rw [found.collapse_eq, found'.collapse_eq]

end Collapse

/-- **Collapsing joins the runs of a text.** Every text has exactly one list of runs, and collapses
to these, joined by single spaces. It so comes on one line, where it collapses no further, and two
texts collapse to the same text iff they have the same runs. -/
theorem collapse_joins_runs (text : List Char) :
    (∃ runs, HasRuns text runs ∧ (∀ others, HasRuns text others → others = runs) ∧
      collapse text = joinFields ' ' runs) ∧
    collapse (collapse text) = collapse text ∧
    IsOnOneLine (collapse text) ∧
    ∀ other, collapse text = collapse other ↔ ∃ runs, HasRuns text runs ∧ HasRuns other runs := by
  have found : HasRuns text (words text) := hasRuns_iff.2 rfl
  obtain ⟨line, found'⟩ := found.collapse
  have unique : ∀ others, HasRuns text others → others = words text := fun others found =>
    (hasRuns_iff.1 found).symm
  refine ⟨⟨words text, found, unique, found.collapse_eq⟩, ?_, line, fun other =>
    collapse_eq_collapse_iff⟩
  rw [found'.collapse_eq, found.collapse_eq]

end FileRoutes.Text
