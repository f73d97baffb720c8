import FileRoutes.Text.Split
import Mathlib.Data.List.Infix

/-! # Searching a text

What `Text.search` finds. Each find begins somewhere in the text (`exists_suffix_of_mem_search`),
and a beginning in which nothing is found is passed over (`search_append_of_silent`). When no find
can begin inside another one (`Apart`), the search finds all that there is: it agrees with asking
the recogniser at every position (`search_eq_scan`), so that its finds are those of all positions in
ascending order (`exists_listsFinds_search`). When no find holds a separator (`KeepsOut`), two texts
with one between them are searched one after the other (`search_append_separator`). A single phrase
is found by `Text.through?`, and that at its first place (`through?_eq_some_iff`). -/

namespace FileRoutes.Text

variable {α : Type} {recognise : List Char → Option (α × List Char)}

/-- The characters that are taken are passed over. -/
theorem search_length_append (taken rest : List Char) :
    search recognise taken.length (taken ++ rest) = search recognise 0 rest := by
  induction taken with
  | nil => rfl
  | cons c taken ih => exact ih

/-- What is recognised at the beginning is found first. -/
theorem exists_search_eq_cons {text behind : List Char} {found : α} (nonempty : text ≠ [])
    (recognised : recognise text = some (found, behind)) :
    ∃ more, search recognise 0 text = found :: more := by
  obtain ⟨c, rest, rfl⟩ := List.exists_cons_of_ne_nil nonempty
  rw [search, recognised]
  exact ⟨_, rfl⟩

/-- A find goes up to the text behind it, where the search goes on. -/
theorem search_eq_cons {c : Char} {inside behind : List Char} {found : α}
    (recognised : recognise (c :: inside ++ behind) = some (found, behind)) :
    search recognise 0 (c :: inside ++ behind) = found :: search recognise 0 behind := by
  have taken : (inside ++ behind).length - behind.length = inside.length := by
    rw [List.length_append]
    omega
  rw [List.cons_append] at recognised ⊢
  rw [search, recognised]
  simp only [taken, search_length_append]

/-- Every find begins at some position of the text. -/
theorem exists_suffix_of_mem_search {found : α} {taken : Nat} {text : List Char}
    (member : found ∈ search recognise taken text) :
    ∃ suffix behind, suffix <:+ text ∧ recognise suffix = some (found, behind) := by
  fun_induction search recognise taken text with
  | case1 => simp at member
  | case2 taken c rest ih =>
    obtain ⟨suffix, behind, inside, recognised⟩ := ih member
    exact ⟨suffix, behind, inside.trans (List.suffix_cons c rest), recognised⟩
  | case3 c rest first behind recognised ih =>
    rw [List.mem_cons] at member
    rcases member with rfl | later
    · exact ⟨c :: rest, behind, List.suffix_rfl, recognised⟩
    · obtain ⟨suffix, behind', inside, recognised'⟩ := ih later
      exact ⟨suffix, behind', inside.trans (List.suffix_cons c rest), recognised'⟩
  | case4 c rest _ ih =>
    obtain ⟨suffix, behind, inside, recognised⟩ := ih member
    exact ⟨suffix, behind, inside.trans (List.suffix_cons c rest), recognised⟩

/-- Asking at every position finds what some position gives. -/
theorem mem_scan_iff {ask : List Char → Option α} {found : α} {text : List Char} :
    found ∈ scan ask text ↔ ∃ suffix, suffix <:+ text ∧ suffix ≠ [] ∧ ask suffix = some found := by
  induction text with
  | nil => simp [scan]
  | cons c rest ih =>
    have split_suffix : (∃ suffix, suffix <:+ c :: rest ∧ suffix ≠ [] ∧ ask suffix = some found) ↔
        ask (c :: rest) = some found ∨ found ∈ scan ask rest := by
      rw [ih]
      constructor
      · rintro ⟨suffix, inside, nonempty, asked⟩
        rcases List.suffix_cons_iff.1 inside with rfl | inside
        · exact .inl asked
        · exact .inr ⟨suffix, inside, nonempty, asked⟩
      · rintro (asked | ⟨suffix, inside, nonempty, asked⟩)
        · exact ⟨c :: rest, List.suffix_rfl, by simp, asked⟩
        · exact ⟨suffix, inside.trans (List.suffix_cons c rest), nonempty, asked⟩
    rw [split_suffix, scan]
    split
    next first asked =>
      rw [asked, List.mem_cons, Option.some.injEq]
      exact or_congr_left eq_comm
    next none => simp [none]

/-! ## Beginnings in which nothing is found -/

section Silent

variable {β : Type} {ask : List Char → Option β}

/-- A text is **silent** in front of another one when nothing is recognised at its positions. -/
def Silent (ask : List Char → Option β) (text rest : List Char) : Prop :=
  ∀ suffix, suffix <:+ text → suffix ≠ [] → ask (suffix ++ rest) = none

/-- A silent text stays silent without its first character. -/
theorem Silent.tail {c : Char} {text rest : List Char} (silent : Silent ask (c :: text) rest) :
    Silent ask text rest := by
  intro suffix inside nonempty
  exact silent suffix (inside.trans (List.suffix_cons c text)) nonempty

/-- Two silent texts, one after the other, are silent. -/
theorem Silent.append {text text' rest : List Char} (first : Silent ask text (text' ++ rest))
    (second : Silent ask text' rest) : Silent ask (text ++ text') rest := by
  induction text with
  | nil => exact second
  | cons c text ih =>
    intro suffix inside nonempty
    rw [List.cons_append] at inside
    rcases List.suffix_cons_iff.1 inside with rfl | inside
    · simpa using first (c :: text) List.suffix_rfl (by simp)
    · exact ih first.tail suffix inside nonempty

/-- A silent text is passed over. -/
theorem search_append_of_silent {text rest : List Char} (silent : Silent recognise text rest) :
    search recognise 0 (text ++ rest) = search recognise 0 rest := by
  induction text with
  | nil => rfl
  | cons c text ih =>
    have none := silent (c :: text) List.suffix_rfl (by simp)
    rw [List.cons_append] at none ⊢
    rw [search, none]
    exact ih silent.tail

/-- Asking at every position of a silent text finds nothing. -/
theorem scan_append_of_silent {text rest : List Char} (silent : Silent ask text rest) :
    scan ask (text ++ rest) = scan ask rest := by
  induction text with
  | nil => rfl
  | cons c text ih =>
    have none := silent (c :: text) List.suffix_rfl (by simp)
    rw [List.cons_append] at none ⊢
    rw [scan, none]
    exact ih silent.tail

end Silent

/-! ## Phrases over a separator -/

section Infix

variable {phrase text rest : List Char} {c : Char}

/-- A phrase that begins a text and lacks a character begins the text in front of that character. -/
theorem isPrefix_of_isPrefix_append (absent : c ∉ phrase) (begins : phrase <+: text ++ c :: rest) :
    phrase <+: text := by
  have upTo : text ++ [c] <+: text ++ c :: rest := by simp
  rcases List.prefix_or_prefix_of_prefix begins upTo with short | long
  · rcases List.prefix_concat_iff.1 short with rfl | inside
    · simp at absent
    · exact inside
  · exact absurd (long.subset (by simp)) absent

/-- **A phrase without a character** stands in front of the character or behind it. -/
theorem isInfix_append_cons (absent : c ∉ phrase) (inside : phrase <:+: text ++ c :: rest) :
    phrase <:+: text ∨ phrase <:+: rest := by
  induction text with
  | nil =>
    rcases List.infix_cons_iff.1 inside with begins | later
    · exact .inl (isPrefix_of_isPrefix_append absent begins).isInfix
    · exact .inr later
  | cons d text ih =>
    rw [List.cons_append] at inside
    rcases List.infix_cons_iff.1 inside with begins | later
    · rw [← List.cons_append] at begins
      exact .inl (isPrefix_of_isPrefix_append absent begins).isInfix
    · exact (ih later).imp_left fun stands => stands.trans (List.suffix_cons d text).isInfix

end Infix

/-! ## The text in front of a phrase -/

section Before

variable {phrase text rest : List Char}

/-- A text does not begin with a phrase when there is no text after it. -/
theorem after?_eq_none_iff : after? phrase text = none ↔ ¬ phrase <+: text := by
  rw [Option.eq_none_iff_forall_ne_some]
  simp only [ne_eq, after?_eq_some, not_iff_not, List.IsPrefix, ← not_exists]
  simp only [eq_comm]

/-- A phrase does not begin in a text without its first character. -/
theorem silent_after?_of_not_mem {first : Char} (absent : first ∉ text) (others rest : List Char) :
    Silent (after? (first :: others)) text rest := by
  intro suffix inside nonempty
  obtain ⟨c, suffix, rfl⟩ := List.exists_cons_of_ne_nil nonempty
  have differ : first ≠ c := fun equal => absent (equal ▸ inside.subset List.mem_cons_self)
  simp [after?, differ]

/-- A text in which the phrase does not begin stands in front of it. -/
theorem before_append_of_silent (silent : Silent (after? phrase) text rest) :
    before phrase (text ++ rest) = text ++ before phrase rest := by
  induction text with
  | nil => rfl
  | cons c text ih =>
    have none := silent (c :: text) List.suffix_rfl (by simp)
    rw [after?_eq_none_iff, ← List.isPrefixOf_iff_prefix, List.cons_append] at none
    rw [List.cons_append, before, if_neg none, ih silent.tail, List.cons_append]

/-- The text in front of a phrase ends where the phrase begins. -/
theorem before_eq_nil_of_isPrefix (begins : phrase <+: text) : before phrase text = [] := by
  cases text with
  | nil => rfl
  | cons c text => rw [before, if_pos (List.isPrefixOf_iff_prefix.2 begins)]

/-- Behind the text in front of a phrase there is the phrase, or nothing. -/
theorem exists_before_append (phrase text : List Char) :
    ∃ rest, text = before phrase text ++ rest ∧ (rest = [] ∨ phrase <+: rest) := by
  induction text with
  | nil => exact ⟨[], rfl, .inl rfl⟩
  | cons c text ih =>
    rw [before]
    split
    next begins => exact ⟨c :: text, rfl, .inr (List.isPrefixOf_iff_prefix.1 begins)⟩
    next =>
      obtain ⟨rest, whole, ends⟩ := ih
      exact ⟨rest, congrArg (c :: ·) whole, ends⟩

end Before

/-! ## Finds that keep apart -/

/-- A recogniser keeps its finds **apart** when a find is a beginning of the text, of at least one
character, and nothing is recognised inside it. -/
def Apart (recognise : List Char → Option (α × List Char)) : Prop :=
  ∀ text found behind, recognise text = some (found, behind) →
    ∃ c inside, text = c :: inside ++ behind ∧ Silent recognise inside behind

/-- When finds keep apart, going on behind each of them misses none. -/
theorem search_eq_scan (apart : Apart recognise) (text : List Char) :
    search recognise 0 text = (scan recognise text).map Prod.fst := by
  induction size : text.length using Nat.strong_induction_on generalizing text with
  | _ n ih =>
    cases text with
    | nil => rfl
    | cons c rest =>
      cases recognised : recognise (c :: rest) with
      | none =>
        rw [search, scan, recognised]
        exact ih rest.length (by simp [← size]) rest rfl
      | some find =>
        obtain ⟨found, behind⟩ := find
        obtain ⟨first, inside, whole, silent⟩ := apart _ _ _ recognised
        obtain ⟨rfl, rfl⟩ : c = first ∧ rest = inside ++ behind := by simpa using whole
        have shorter : behind.length < n := by
          rw [← size, List.length_cons, List.length_append]
          omega
        -- The search goes on behind the find; the scan finds nothing inside it either.
        rw [← List.cons_append, search_eq_cons recognised, List.cons_append, scan, recognised,
          List.map_cons, scan_append_of_silent silent, ih behind.length shorter behind rfl]

/-! ## Finds and their positions -/

/-- Finds with their positions **list** what a relation reads in a text: the positions ascend, and a
find stands in the list exactly where it is read. So no position has two finds. -/
structure ListsFinds (reads : α → List Char → Prop) (text : List Char)
    (finds : List (Nat × α)) : Prop where
  /-- The positions ascend. -/
  ascending : finds.Pairwise fun find later => find.1 < later.1
  /-- A find is listed exactly where it is read. -/
  mem_iff : ∀ position found, (position, found) ∈ finds ↔ reads found (text.drop position)

/-- Asking at every position lists what the positions give. -/
theorem exists_listsFinds_scan {ask : List Char → Option α} (nothing : ask [] = none)
    (text : List Char) :
    ∃ finds, ListsFinds (fun found suffix => ask suffix = some found) text finds ∧
      scan ask text = finds.map Prod.snd := by
  induction text with
  | nil => exact ⟨[], ⟨.nil, by simp [nothing]⟩, rfl⟩
  | cons c rest ih =>
    obtain ⟨finds, lists, same⟩ := ih
    -- Behind the first character every find stands one position further on.
    let later := finds.map fun find => (find.1 + 1, find.2)
    have ascending : later.Pairwise fun find later => find.1 < later.1 :=
      List.pairwise_map.2 (lists.ascending.imp Nat.succ_lt_succ)
    have mem_later : ∀ position found, (position, found) ∈ later ↔
        ∃ before, position = before + 1 ∧ ask (rest.drop before) = some found := by
      intro position found
      simp only [later, List.mem_map, Prod.exists, Prod.mk.injEq]
      constructor
      · rintro ⟨before, _, member, rfl, rfl⟩
        exact ⟨before, rfl, (lists.mem_iff _ _).1 member⟩
      · rintro ⟨before, rfl, asked⟩
        exact ⟨before, found, (lists.mem_iff _ _).2 asked, rfl, rfl⟩
    have same_later : scan ask rest = later.map Prod.snd := by
      rw [same, List.map_map]
      rfl
    rw [scan, same_later]
    cases asked : ask (c :: rest) with
    | some first =>
      refine ⟨(0, first) :: later, ⟨List.pairwise_cons.2 ⟨?_, ascending⟩, ?_⟩, rfl⟩
      · rintro ⟨position, found⟩ member
        obtain ⟨before, rfl, -⟩ := (mem_later position found).1 member
        exact Nat.succ_pos before
      · intro position found
        rw [List.mem_cons, mem_later]
        cases position <;> simp [asked, eq_comm]
    | none =>
      refine ⟨later, ⟨ascending, ?_⟩, rfl⟩
      intro position found
      rw [mem_later]
      cases position <;> simp [asked]

/-- When finds keep apart, the search lists what the positions of a text give. -/
theorem exists_listsFinds_search (apart : Apart recognise) (text : List Char) :
    ∃ finds, ListsFinds (fun found suffix => ∃ behind, recognise suffix = some (found, behind)) text
        finds ∧ search recognise 0 text = finds.map Prod.snd := by
  have nothing : recognise [] = none := by
    by_contra found
    obtain ⟨⟨found, behind⟩, recognised⟩ := Option.ne_none_iff_exists'.1 found
    obtain ⟨c, inside, whole, -⟩ := apart _ _ _ recognised
    simp at whole
  obtain ⟨finds, lists, same⟩ := exists_listsFinds_scan nothing text
  refine ⟨finds.map fun find => (find.1, find.2.1), ⟨?_, ?_⟩, ?_⟩
  · exact List.pairwise_map.2 lists.ascending
  · intro position found
    simp [← lists.mem_iff]
  · rw [search_eq_scan apart, same, List.map_map, List.map_map]
    rfl

/-! ## Separators -/

/-- A recogniser **keeps a separator out** when a find is a beginning of the text without that
character, and is recognised whatever stands behind it. -/
def KeepsOut (separator : Char) (recognise : List Char → Option (α × List Char)) : Prop :=
  ∀ text found behind, recognise text = some (found, behind) →
    ∃ find, text = find ++ behind ∧ find ≠ [] ∧ separator ∉ find ∧
      ∀ other, recognise (find ++ other) = some (found, other)

section Separator

variable {separator : Char}

/-- What begins a text does not change with what stands behind a separator. -/
theorem map_fst_append_separator (keepsOut : KeepsOut separator recognise)
    (text rest : List Char) :
    (recognise (text ++ separator :: rest)).map Prod.fst = (recognise text).map Prod.fst := by
  cases recognised : recognise text with
  | some find =>
    obtain ⟨found, behind⟩ := find
    obtain ⟨find, rfl, -, -, always⟩ := keepsOut _ _ _ recognised
    rw [List.append_assoc, always]
    rfl
  | none =>
    rw [Option.map_none, Option.map_eq_none_iff]
    by_contra given
    obtain ⟨⟨found, behind⟩, given⟩ := Option.ne_none_iff_exists'.1 given
    obtain ⟨find, whole, -, free, always⟩ := keepsOut _ _ _ given
    -- The find ends in front of the separator, and would have begun the text alone.
    rcases List.append_eq_append_iff.1 whole with ⟨more, rfl, split⟩ | ⟨more, rfl, -⟩
    · cases more with
      | nil =>
        have alone := always []
        simp [recognised] at alone
      | cons c more =>
        obtain ⟨rfl, -⟩ := List.cons.inj split
        simp at free
    · rw [always] at recognised
      cases recognised

/-- A separator parts the finds at the positions of a text. -/
theorem scan_append_separator (keepsOut : KeepsOut separator recognise) (text rest : List Char) :
    (scan recognise (text ++ separator :: rest)).map Prod.fst =
      (scan recognise text).map Prod.fst ++ (scan recognise rest).map Prod.fst := by
  induction text with
  | nil =>
    have same := map_fst_append_separator keepsOut [] rest
    have nothing : recognise [] = none := by
      by_contra found
      obtain ⟨⟨found, behind⟩, recognised⟩ := Option.ne_none_iff_exists'.1 found
      obtain ⟨find, whole, nonempty, -⟩ := keepsOut _ _ _ recognised
      exact nonempty (List.append_eq_nil_iff.1 whole.symm).1
    rw [nothing, Option.map_none, Option.map_eq_none_iff, List.nil_append] at same
    simp [scan, same]
  | cons c text ih =>
    have same := map_fst_append_separator keepsOut (c :: text) rest
    rw [List.cons_append] at same ⊢
    rw [scan, scan]
    cases recognised : recognise (c :: text) <;>
      cases recognised' : recognise (c :: (text ++ separator :: rest)) <;>
      simp_all

/-- **A separator parts a search**: what is found in front of it, and then what is found behind. -/
theorem search_append_separator (apart : Apart recognise) (keepsOut : KeepsOut separator recognise)
    (text rest : List Char) :
    search recognise 0 (text ++ separator :: rest) =
      search recognise 0 text ++ search recognise 0 rest := by
  rw [search_eq_scan apart, search_eq_scan apart, search_eq_scan apart,
    scan_append_separator keepsOut]

end Separator

/-! ## The first place of a phrase -/

section Phrase

variable {front phrase rest text found : List Char}

/-- A phrase **stands first** behind a text when, with something after it, the phrase begins at no
earlier place. -/
def StandsFirst (front phrase rest : List Char) : Prop :=
  ∀ other behind, front ++ phrase ++ rest = other ++ phrase ++ behind →
    front.length ≤ other.length

/-- What is found up to the end of a phrase is the text in front of its first place, and the
phrase. -/
theorem exists_standsFirst_of_through? (searched : through? phrase text = some found) :
    ∃ front rest, text = front ++ phrase ++ rest ∧ found = front ++ phrase ∧
      StandsFirst front phrase rest := by
  induction text generalizing found with
  | nil =>
    rw [through?] at searched
    split at searched
    next empty =>
      obtain rfl := List.isEmpty_iff.1 empty
      exact ⟨[], [], rfl, (Option.some.inj searched).symm, fun _ _ _ => Nat.zero_le _⟩
    next => cases searched
  | cons c text ih =>
    rw [through?] at searched
    split at searched
    next begins =>
      obtain ⟨rest, whole⟩ := List.isPrefixOf_iff_prefix.1 begins
      exact ⟨[], rest, whole.symm, (Option.some.inj searched).symm, fun _ _ _ => Nat.zero_le _⟩
    next later =>
      obtain ⟨inner, given, rfl⟩ := Option.map_eq_some_iff.1 searched
      obtain ⟨front, rest, rfl, rfl, first⟩ := ih given
      refine ⟨c :: front, rest, rfl, rfl, fun other behind whole => ?_⟩
      cases other with
      | nil => exact absurd (List.isPrefixOf_iff_prefix.2 ⟨behind, whole.symm⟩) later
      | cons d other =>
        obtain ⟨-, whole⟩ := List.cons.inj whole
        exact Nat.succ_le_succ (first other behind whole)

/-- A phrase is not found exactly where it does not stand. -/
theorem through?_eq_none_iff : through? phrase text = none ↔ ¬ phrase <:+: text := by
  induction text with
  | nil =>
    rw [through?]
    cases phrase <;> simp
  | cons c text ih =>
    rw [through?, List.infix_cons_iff, ← List.isPrefixOf_iff_prefix]
    split
    next begins => simp [begins]
    next other => simp [other, ih]

/-- **A phrase is found where it stands first**, and there alone. -/
theorem through?_eq_some_iff :
    through? phrase (front ++ phrase ++ rest) = some (front ++ phrase) ↔
      StandsFirst front phrase rest := by
  constructor
  · intro searched
    obtain ⟨front', rest', whole, same, first⟩ := exists_standsFirst_of_through? searched
    obtain rfl := List.append_cancel_right same
    obtain rfl := List.append_cancel_left whole
    exact first
  · intro first
    cases searched : through? phrase (front ++ phrase ++ rest) with
    | none => exact absurd ⟨front, rest, rfl⟩ (through?_eq_none_iff.1 searched)
    | some found =>
      obtain ⟨front', rest', whole, rfl, first'⟩ := exists_standsFirst_of_through? searched
      -- Neither place comes before the other.
      have length : front.length = front'.length :=
        Nat.le_antisymm (first front' rest' whole) (first' front rest whole.symm)
      rw [List.append_assoc, List.append_assoc] at whole
      obtain ⟨rfl, -⟩ := List.append_inj whole length
      rfl

instance (front phrase rest : List Char) : Decidable (StandsFirst front phrase rest) :=
  decidable_of_iff _ through?_eq_some_iff

end Phrase

end FileRoutes.Text
