import FileRoutes.Proofs.Export.Layout

/-! # Texts whose layout does not matter

The layout of a text matters for its exports only in lists of re-exports: an alias is told by the
phrase ` as `, with its two spaces, and a gap in a local name stays part of it. The exports of two
layouts are the same when all local names are single words (`Export.allIn_eq`). They are the same in
all layouts of a text exactly when the entries of its lists are **fixed** (`Export.IsFixedEntry`), as
two layouts show that tell other entries apart (`Export.exists_word_of_stable`,
`Export.eq_nil_or_eq_nil_of_stable`). Both are stated in `Export.allIn_layouts`. -/

namespace FileRoutes

open Text

/-! ## Local names -/

namespace Export

/-- An entry whose local name is a single word, unless the entry is blank. -/
def IsPlainEntry (entry : List Char) : Prop :=
  IsGap entry ∨ ∃ name, localName? entry = some name ∧ ∀ c ∈ name.toList, isBlank c = false

instance (entry : List Char) : Decidable (IsPlainEntry entry) :=
  decidable_of_iff (IsGap entry ∨
    ∃ name ∈ localName? entry, name.toList.all (!isBlank ·) = true) (by simp [IsPlainEntry])

/-- A local name that is a single word is the first word of its entry. -/
theorem head?_words_of_localName? {entry : List Char} {name : String}
    (named : localName? entry = some name) (solid : ∀ c ∈ name.toList, isBlank c = false) :
    (words entry).head? = some name.toList := by
  obtain ⟨nonempty, lead, trail, rest, isLead, isTrail, ends, rfl⟩ := exists_eq_of_localName? named
  rw [List.append_assoc, List.append_assoc, words_append_of_isGap isLead,
    words_append_of_solid solid nonempty (isBlank_head?_of_ends isTrail ends)]
  rfl

/-- **Local names that are single words** do not depend on the layout of their entry. -/
theorem localName?_eq {entry entry' : List Char} (layout : Reflows entry entry')
    (plain : IsPlainEntry entry) (plain' : IsPlainEntry entry') :
    localName? entry = localName? entry' := by
  rcases plain with isGap | ⟨name, named, solid⟩
  · rw [localName?_of_isGap isGap, localName?_of_isGap (layout.isGap isGap)]
  rcases plain' with isGap' | ⟨name', named', solid'⟩
  · rw [localName?_of_isGap isGap', localName?_of_isGap (layout.symm.isGap isGap')]
  have first := head?_words_of_localName? named solid
  rw [layout.words, head?_words_of_localName? named' solid', Option.some.injEq,
    String.toList_inj] at first
  rw [named, named', first]

/-- Two layouts whose local names are single words have the same exports. -/
theorem allIn_eq {source other : List Char} (layout : Reflows source other)
    (plain : ∀ entry ∈ listedEntries source, IsPlainEntry entry)
    (plain' : ∀ entry ∈ listedEntries other, IsPlainEntry entry) : allIn other = allIn source := by
  have names : (listedEntries source).map localName? = (listedEntries other).map localName? := by
    rw [← List.forall₂_eq_eq_eq, List.forall₂_map_left_iff, List.forall₂_map_right_iff]
    have both := (List.forall₂_and_left _ _).2 ⟨plain, layout.listedEntries⟩
    have swapped := (List.forall₂_and_left _ _).2 ⟨plain', both.flip⟩
    exact swapped.flip.imp fun entry entry' ⟨plain', plain, layout⟩ => localName?_eq layout plain plain'
  have found := congrArg (List.filterMap id) names
  rw [List.filterMap_map, List.filterMap_map, Function.id_comp] at found
  rw [allIn, allIn, valuesIn_eq layout, functionsIn_eq layout, defaultIn_eq layout, namedIn_eq,
    namedIn_eq, found]

/-! ## Texts whose layout does not matter -/

/-- An entry whose local name is the same in every layout: one word at most, which is not that of
the phrase between two gaps. -/
inductive IsFixedEntry : List Char → Prop where
  /-- A word between gaps. -/
  | padded {lead word trail : List Char} (isLead : IsGap lead)
      (solid : ∀ c ∈ word, isBlank c = false) (isTrail : IsGap trail)
      (noPhrase : word = ['a', 's'] → lead = [] ∨ trail = []) :
      IsFixedEntry (lead ++ word ++ trail)

/-- A gap is a fixed entry. -/
theorem isFixedEntry_of_isGap {entry : List Char} (isGap : IsGap entry) : IsFixedEntry entry := by
  have fixed : IsFixedEntry (entry ++ [] ++ []) :=
    .padded isGap (by simp) isGap_nil fun phrase => by cases phrase
  simpa using fixed

/-- A fixed entry is fixed in every layout. -/
theorem IsFixedEntry.layout {entry entry' : List Char} (fixed : IsFixedEntry entry)
    (layout : Reflows entry entry') : IsFixedEntry entry' := by
  obtain ⟨isLead, solid, isTrail, noPhrase⟩ := fixed
  rename_i lead word trail
  by_cases nonempty : word = []
  · subst nonempty
    exact isFixedEntry_of_isGap (layout.isGap (by simp [isLead, isTrail]))
  · obtain ⟨lead', trail', isLead', isTrail', rfl, noLead, noTrail⟩ :=
      layout.padded isLead solid nonempty isTrail
    exact .padded isLead' solid isTrail' fun phrase => by rw [noLead, noTrail]; exact noPhrase phrase

/-- The local name of a fixed entry is a single word. -/
theorem IsFixedEntry.isPlainEntry {entry : List Char} (fixed : IsFixedEntry entry) :
    IsPlainEntry entry := by
  obtain ⟨isLead, solid, isTrail, noPhrase⟩ := fixed
  rename_i lead word trail
  by_cases nonempty : word = []
  · subst nonempty
    exact .inl (by simp [isLead, isTrail])
  · have named := localName?_eq_some isLead isTrail solid nonempty (.inl rfl) fun phrase =>
      (noPhrase phrase).imp_right fun nothing => by simp [nothing]
    rw [List.append_nil] at named
    exact .inr ⟨String.ofList word, named, by simpa using solid⟩

/-- The layout of a text in which all blanks are the same. -/
def withBlank (blank : Char) (text : List Char) : List Char :=
  text.map fun c => if isBlank c then blank else c

/-- Making all blanks the same gives a layout. -/
theorem reflows_withBlank {blank : Char} (isBlank : isBlank blank = true) (text : List Char) :
    Reflows text (withBlank blank text) := by
  induction text with
  | nil => exact .nil
  | cons c text ih =>
    rw [withBlank, List.map_cons]
    split
    next here => exact .blank here isBlank ih
    next solid => exact .cons (by simpa using solid) ih

/-- No other blanks are left. -/
theorem eq_of_mem_withBlank {blank c : Char} {text : List Char} (member : c ∈ withBlank blank text)
    (isBlank : isBlank c = true) : c = blank := by
  obtain ⟨d, -, rfl⟩ := List.mem_map.1 member
  split at isBlank
  next here => rw [if_pos here]
  next solid => exact absurd isBlank solid

/-- The inside of a list holds characters of the text only. -/
theorem mem_of_mem_group? {text inside : List Char} (found : group? text = some inside) {c : Char}
    (member : c ∈ inside) : c ∈ text := by
  obtain ⟨rest, keyword, found⟩ := Option.bind_eq_some_iff.1 found
  have beginning := Text.after?_eq_some.1 keyword
  have trimmed := (List.dropWhile_suffix isBlank (l := rest)).subset
  split at found
  next body brace =>
    obtain ⟨-, -, found⟩ := Option.bind_eq_some_iff.1 found
    obtain rfl := Option.some.inj found
    have inBody : c ∈ body :=
      (List.takeWhile_prefix _).subset ((List.dropWhile_suffix _).subset member)
    have inRest : c ∈ trimStart rest := by simp [brace, inBody]
    simp [beginning, trimmed inRest]
  next => cases found

/-- A list holds characters of the text only. -/
theorem mem_of_mem_groups {within : Bool} {text group : List Char} (listed : group ∈ groups within text)
    {c : Char} (member : c ∈ group) : c ∈ text := by
  fun_induction groups within text with
  | case1 => simp at listed
  | case2 d rest ih => exact List.mem_cons_of_mem _ (ih listed)
  | case3 d rest first found ih =>
    rcases List.mem_cons.1 listed with rfl | listed
    · exact mem_of_mem_group? found member
    · exact List.mem_cons_of_mem _ (ih listed)
  | case4 d rest _ ih => exact List.mem_cons_of_mem _ (ih listed)

/-- An entry holds characters of the text only. -/
theorem mem_of_mem_listedEntries {source entry : List Char} (listed : entry ∈ listedEntries source)
    {c : Char} (member : c ∈ entry) : c ∈ source := by
  obtain ⟨group, inSource, inGroup⟩ := List.mem_flatMap.1 listed
  exact mem_of_mem_groups inSource (mem_of_mem_fields inGroup member)

/-- When all blanks of a text are the same, so are those of its entries. -/
theorem eq_of_mem_entry_withBlank {blank c : Char} {source entry : List Char}
    (listed : entry ∈ listedEntries (withBlank blank source)) (member : c ∈ entry)
    (isBlank : isBlank c = true) : c = blank :=
  eq_of_mem_withBlank (mem_of_mem_listedEntries listed member) isBlank

/-- With tabs for blanks, an entry that is not blank has all between its gaps for a local name. -/
theorem localName?_of_tabs {source entry : List Char}
    (listed : entry ∈ listedEntries (withBlank '\t' source)) (solid : ¬ IsGap entry) :
    localName? entry = some (String.ofList (trim entry)) := by
  refine localName?_of_not_mem (fun member => ?_) solid
  exact absurd (eq_of_mem_entry_withBlank listed member (by decide)) (by decide)

/-- With spaces for blanks, the word of the phrase between two gaps has no local name. -/
theorem localName?_of_spaces {lead trail : List Char} (isLead : IsGap lead) (isTrail : IsGap trail)
    (nonempty : lead ≠ []) (nonempty' : trail ≠ [])
    (spaces : ∀ c ∈ lead ++ ['a', 's'] ++ trail, isBlank c = true → c = ' ') :
    localName? (lead ++ ['a', 's'] ++ trail) = none := by
  obtain ⟨gap, b, rfl⟩ := (List.eq_nil_or_concat' lead).resolve_left nonempty
  obtain ⟨d, rest, rfl⟩ := List.exists_cons_of_ne_nil nonempty'
  obtain rfl : b = ' ' := spaces b (by simp) (isLead b (by simp))
  obtain rfl : d = ' ' := spaces d (by simp) (isTrail d (by simp))
  rw [isGap_append] at isLead
  have nothing : localName? (gap ++ (Keyword.asPhrase ++ rest)) = none :=
    localName?_eq_none isLead.1
  simpa [Keyword.asPhrase] using nothing

/-- Two layouts with the same exports have the same local names. -/
theorem localNames_eq {source other : List Char} (layout : Reflows source other)
    (same : allIn other = allIn source) :
    (listedEntries other).filterMap localName? = (listedEntries source).filterMap localName? := by
  have injective : Function.Injective ofNamed := fun name name' equal =>
    congrArg Export.name equal
  rw [allIn, allIn, valuesIn_eq layout, functionsIn_eq layout, defaultIn_eq layout,
    List.append_cancel_left_eq, namedIn_eq, namedIn_eq] at same
  exact List.map_injective_iff.2 injective same

/-- An element of one of two related lists has a partner. -/
theorem exists_of_mem_of_forall₂ {α β : Type} {R : α → β → Prop} {l : List α} {l' : List β}
    (related : List.Forall₂ R l l') {a : α} (member : a ∈ l) : ∃ b ∈ l', R a b := by
  induction related with
  | nil => cases member
  | @cons b b' l l' pair _ ih =>
    rcases List.mem_cons.1 member with rfl | member
    · exact ⟨b', List.mem_cons_self, pair⟩
    · obtain ⟨partner, listed, pair⟩ := ih member
      exact ⟨partner, List.mem_cons_of_mem _ listed, pair⟩

/-! ### Counting what is found in related lists -/

section Related

variable {α β γ : Type} {R : α → β → Prop} {f : α → Option γ} {g : β → Option γ} {l : List α}
  {l' : List β}

/-- Where everything that is found on the left is found on the right, the right has more. -/
theorem length_filterMap_le (related : List.Forall₂ R l l')
    (imp : ∀ a b, R a b → f a ≠ none → g b ≠ none) :
    (l.filterMap f).length ≤ (l'.filterMap g).length := by
  induction related with
  | nil => simp
  | @cons a b l l' pair _ ih =>
    have here := imp a b pair
    cases found : f a <;> cases found' : g b <;> simp_all
    omega

/-- If then the right has no more, it finds something nowhere else. -/
theorem forall₂_of_length_filterMap_le (related : List.Forall₂ R l l')
    (imp : ∀ a b, R a b → f a ≠ none → g b ≠ none)
    (noMore : (l'.filterMap g).length ≤ (l.filterMap f).length) :
    List.Forall₂ (fun a b => R a b ∧ (g b ≠ none → f a ≠ none)) l l' := by
  induction related with
  | nil => exact .nil
  | @cons a b l l' pair others ih =>
    have here := imp a b pair
    have less := length_filterMap_le others imp
    cases found : f a with
    | some _ =>
      obtain ⟨_, found'⟩ := Option.ne_none_iff_exists'.1 (here (by simp [found]))
      rw [List.filterMap_cons_some found, List.filterMap_cons_some found'] at noMore
      exact .cons ⟨pair, by simp [found]⟩ (ih (Nat.le_of_succ_le_succ noMore))
    | none =>
      cases found' : g b with
      | none =>
        rw [List.filterMap_cons_none found, List.filterMap_cons_none found'] at noMore
        exact .cons ⟨pair, by simp [found']⟩ (ih noMore)
      | some _ =>
        rw [List.filterMap_cons_none found, List.filterMap_cons_some found', List.length_cons]
          at noMore
        omega

end Related

section Stable

variable {source : List Char}

/-- When the layout does not matter, all layouts have the same local names. -/
theorem localNames_eq_of_stable
    (stable : ∀ other, Reflows source other → allIn other = allIn source) {other other' : List Char}
    (layout : Reflows source other) (layout' : Reflows source other') :
    (listedEntries other).filterMap localName? = (listedEntries other').filterMap localName? :=
  (localNames_eq layout (stable _ layout)).trans (localNames_eq layout' (stable _ layout')).symm

/-- **When the layout does not matter, entries are single words at most.** With tabs for blanks, a
name of several words has a tab, and it is no name when line feeds are used. -/
theorem exists_word_of_stable
    (stable : ∀ other, Reflows source other → allIn other = allIn source) {entry : List Char}
    (listed : entry ∈ listedEntries source) :
    ∃ lead word trail, IsGap lead ∧ (∀ c ∈ word, isBlank c = false) ∧ IsGap trail ∧
      entry = lead ++ word ++ trail := by
  have tabs := reflows_withBlank (by decide : isBlank '\t' = true) source
  have feeds := reflows_withBlank (by decide : isBlank '\n' = true) source
  have names := localNames_eq_of_stable stable tabs feeds
  obtain ⟨entry', listed', layout⟩ := exists_of_mem_of_forall₂ tabs.listedEntries listed
  by_cases isGap : IsGap entry
  · exact ⟨entry, [], [], isGap, by simp, isGap_nil, by simp⟩
  have named := localName?_of_tabs listed' fun isGap' => isGap (layout.symm.isGap isGap')
  obtain ⟨lead, trail, isLead, isTrail, whole⟩ := exists_isGap_trim entry'
  have solid : ∀ c ∈ trim entry', isBlank c = false := by
    intro c member
    by_contra blank
    rw [Bool.not_eq_false] at blank
    have inside : c ∈ entry' := by
      rw [whole]
      simp [member]
    obtain rfl := eq_of_mem_entry_withBlank listed' inside blank
    have found := List.mem_filterMap.2 ⟨entry', listed', named⟩
    rw [names] at found
    obtain ⟨entry'', listed'', named''⟩ := List.mem_filterMap.1 found
    obtain ⟨-, lead, trail, rest, -, -, -, rfl⟩ := exists_eq_of_localName? named''
    exact absurd (eq_of_mem_entry_withBlank listed'' (by simp [member]) blank) (by decide)
  have nonempty : trim entry' ≠ [] := by simpa using (exists_eq_of_localName? named).1
  have back : Reflows (lead ++ trim entry' ++ trail) entry := by
    rw [← whole]
    exact layout.symm
  obtain ⟨lead', trail', isLead', isTrail', equal, -, -⟩ := back.padded isLead solid nonempty isTrail
  exact ⟨lead', trim entry', trail', isLead', solid, isTrail', equal⟩

/-- When the layout does not matter, every entry that is not blank has a local name, also with spaces
for blanks: it has one with tabs, and there are no more names with tabs than with spaces. -/
theorem localName?_ne_none_of_stable
    (stable : ∀ other, Reflows source other → allIn other = allIn source) {entry : List Char}
    (listed : entry ∈ listedEntries (withBlank ' ' source)) (solid : ¬ IsGap entry) :
    localName? entry ≠ none := by
  have spaces := reflows_withBlank (by decide : isBlank ' ' = true) source
  have tabs := reflows_withBlank (by decide : isBlank '\t' = true) source
  have named : ∀ entry' ∈ listedEntries (withBlank '\t' source), ¬ IsGap entry' →
      localName? entry' ≠ none := fun entry' listed' solid => by
    simp [localName?_of_tabs listed' solid]
  have related : List.Forall₂ (fun entry entry' => Reflows entry entry' ∧
        (¬ IsGap entry' → localName? entry' ≠ none))
      (listedEntries (withBlank ' ' source)) (listedEntries (withBlank '\t' source)) := by
    have layouts := (tabs.symm.trans spaces).listedEntries
    exact ((List.forall₂_and_left _ _).2 ⟨named, layouts⟩).flip.imp
      fun _ _ ⟨named, layout⟩ => ⟨layout.symm, named⟩
  have noMore := congrArg List.length (localNames_eq_of_stable stable tabs spaces)
  have sameNames := forall₂_of_length_filterMap_le related
    (fun _ _ ⟨layout, named⟩ given => named fun isGap' =>
      given (localName?_of_isGap (layout.symm.isGap isGap'))) noMore.le
  obtain ⟨entry', -, ⟨layout, named⟩, back⟩ := exists_of_mem_of_forall₂ sameNames listed
  exact back (named fun isGap' => solid (layout.symm.isGap isGap'))

/-- **When the layout does not matter, the word of the phrase does not stand between two gaps**: with
spaces for blanks it has no local name there. -/
theorem eq_nil_or_eq_nil_of_stable
    (stable : ∀ other, Reflows source other → allIn other = allIn source) {lead trail : List Char}
    (isLead : IsGap lead) (isTrail : IsGap trail)
    (listed : lead ++ ['a', 's'] ++ trail ∈ listedEntries source) : lead = [] ∨ trail = [] := by
  by_contra both
  rw [not_or] at both
  have spaces := reflows_withBlank (by decide : isBlank ' ' = true) source
  obtain ⟨entry, listed', layout⟩ := exists_of_mem_of_forall₂ spaces.listedEntries listed
  have solid : ∀ c ∈ ['a', 's'], isBlank c = false := by
    simp only [List.mem_cons, List.not_mem_nil, or_false]
    rintro c (rfl | rfl) <;> decide
  obtain ⟨lead', trail', isLead', isTrail', rfl, noLead, noTrail⟩ :=
    layout.padded isLead solid (by simp) isTrail
  have nothing := localName?_of_spaces isLead' isTrail' (both.1 ∘ noLead.1) (both.2 ∘ noTrail.1)
    fun c member => eq_of_mem_entry_withBlank listed' member
  have noGap : ¬ IsGap (lead' ++ ['a', 's'] ++ trail') := fun isGap =>
    absurd (isGap 'a' (by simp)) (by decide)
  exact localName?_ne_none_of_stable stable listed' noGap nothing

/-- When the layout does not matter, the entries of all lists are fixed. -/
theorem isFixedEntry_of_stable
    (stable : ∀ other, Reflows source other → allIn other = allIn source) {entry : List Char}
    (listed : entry ∈ listedEntries source) : IsFixedEntry entry := by
  obtain ⟨lead, word, trail, isLead, solid, isTrail, rfl⟩ := exists_word_of_stable stable listed
  refine .padded isLead solid isTrail ?_
  rintro rfl
  exact eq_nil_or_eq_nil_of_stable stable isLead isTrail listed

end Stable

/-- **The exports of a text and its layout.** In two layouts of a text the constants, the functions
and the default export are the same, and all exports are when in both of them the local names in
lists of re-exports are single words. The exports are the same in all layouts of a text exactly when
each entry of its lists is one word at most, which is not that of the phrase between two gaps. -/
theorem allIn_layouts :
    (∀ source other, Reflows source other →
      valuesIn other = valuesIn source ∧ functionsIn other = functionsIn source ∧
      defaultIn other = defaultIn source ∧
      ((∀ entry ∈ listedEntries source, IsPlainEntry entry) →
        (∀ entry ∈ listedEntries other, IsPlainEntry entry) → allIn other = allIn source)) ∧
    ∀ source, (∀ other, Reflows source other → allIn other = allIn source) ↔
      ∀ entry ∈ listedEntries source, IsFixedEntry entry := by
  refine ⟨fun source other layout => ⟨valuesIn_eq layout, functionsIn_eq layout,
    defaultIn_eq layout, allIn_eq layout⟩, fun source => ⟨?_, ?_⟩⟩
  · intro stable entry listed
    exact isFixedEntry_of_stable stable listed
  · intro fixed other layout
    refine allIn_eq layout (fun entry listed => (fixed entry listed).isPlainEntry) ?_
    intro entry' listed'
    obtain ⟨entry, listed, back⟩ := exists_of_mem_of_forall₂ layout.symm.listedEntries listed'
    exact ((fixed entry listed).layout back.symm).isPlainEntry

/-- A list on one line, with a comma behind its last entry. -/
def listOnLine : List Char := "export \x7b get, options, \x7d".toList

/-- That list over several lines. -/
def listOverLines : List Char := "export\n\x7b\n\tget,\n\toptions,\n\x7d".toList

/-- The lists give the same exports. -/
theorem allIn_layouts_lines :
    Reflows listOnLine listOverLines ∧ allIn listOverLines = allIn listOnLine := by
  have layout : Reflows listOnLine listOverLines := by decide +kernel
  exact ⟨layout, (allIn_layouts.1 _ _ layout).2.2.2 (by decide +kernel) (by decide +kernel)⟩

/-- A line feed in place of a space hides an alias. -/
theorem allIn_ne_of_reflows :
    ¬ ∀ source other, Reflows source other → allIn other = allIn source := by
  intro same
  have equal := same "export \x7b get as post \x7d".toList "export \x7b get\nas post \x7d".toList
    (by decide +kernel)
  exact absurd equal (by decide +kernel)

end Export

end FileRoutes
