import FileRoutes.Proofs.Export.Form
import FileRoutes.Proofs.Path
import FileRoutes.Proofs.Source.Written

/-! # Lists of re-exports

A list of re-exports gives the local name of each of its entries, whatever aliases and gaps stand in
it. A text without the keyword of exports has no list (`groups_of_clear`), and a list that stands
between two such texts is the only one (`groups_append`). What stands in front of the phrase ` as `
is the local name, unless the name is itself that word (`localName?_eq_some`). So a list that is
written for specifiers is read back as their names (`namedIn_of_writesItems`). -/

namespace FileRoutes

open Text Source

namespace Export

/-! ## Finding lists -/

section Groups

variable {front gap body behind : List Char}

/-- A text in which no list begins is passed over. -/
theorem groups_append_of_silent (silent : Silent group? front behind) :
    groups false (front ++ behind) = groups false behind := by
  induction front with
  | nil => rfl
  | cons c front ih =>
    have none := silent (c :: front) List.suffix_rfl (by simp)
    rw [List.cons_append] at none ⊢
    rw [groups, none]
    exact ih silent.tail

/-- No list begins where the keyword does not. -/
theorem silent_group? (silent : Silent (Text.after? Keyword.export) front behind) :
    Silent group? front behind := by
  intro suffix inside nonempty
  simp [group?, silent suffix inside nonempty]

/-- A text without the keyword has no lists. -/
theorem groups_of_clear (clear : ¬ Keyword.export <:+: behind) : groups false behind = [] := by
  have silent : Silent (Text.after? Keyword.export) behind [] := by
    intro suffix inside _
    rw [List.append_nil, after?_eq_none_iff]
    exact fun begins => clear (begins.isInfix.trans inside.isInfix)
  have passed := groups_append_of_silent (silent_group? silent)
  rwa [List.append_nil] at passed

/-- Inside a list everything in front of its end is passed over. -/
theorem groups_append_of_not_mem {text : List Char} (inside : '\x7d' ∉ text)
    (rest : List Char) : groups true (text ++ rest) = groups true rest := by
  induction text with
  | nil => rfl
  | cons c text ih =>
    rw [List.mem_cons, not_or] at inside
    have goesOn : (c != '\x7d') = true := bne_iff_ne.2 (Ne.symm inside.1)
    rw [List.cons_append, groups, goesOn]
    exact ih inside.2

/-- The inside of a list reaches up to the first brace that closes it. -/
theorem group?_append (isGap : IsGap gap) (nonempty : body ≠ []) (inside : '\x7d' ∉ body)
    (behind : List Char) :
    group? (Keyword.export ++ (gap ++ '\x7b' :: (body ++ '\x7d' :: behind))) =
      some (trimStart body) := by
  have keyword : Text.after? Keyword.export
      (Keyword.export ++ (gap ++ '\x7b' :: (body ++ '\x7d' :: behind))) =
        some (gap ++ '\x7b' :: (body ++ '\x7d' :: behind)) := Text.after?_eq_some.2 rfl
  have brace : trimStart (gap ++ '\x7b' :: (body ++ '\x7d' :: behind)) =
      '\x7b' :: (body ++ '\x7d' :: behind) := by
    rw [trimStart_append_of_isGap isGap, trimStart_cons_of_not_blank (by decide)]
  have taken : (body ++ '\x7d' :: behind).takeWhile (· != '\x7d') = body := by
    rw [List.takeWhile_append_of_pos fun c member => bne_iff_ne.2 (ne_of_mem_of_not_mem member inside)]
    simp
  simp only [group?, keyword, Option.bind_eq_bind, Option.bind_some, brace, taken]
  simp [nonempty]

/-- **A list between texts without the keyword** is the only one. -/
theorem groups_append (isGap : IsGap gap) (nonempty : body ≠ []) (inside : '\x7d' ∉ body)
    (clearFront : ¬ Keyword.export <:+: front) (clearBehind : ¬ Keyword.export <:+: behind) :
    groups false (front ++ (Keyword.export ++ (gap ++ '\x7b' :: (body ++ '\x7d' :: behind)))) =
      [trimStart body] := by
  have silent := silent_group? (Keyword.silent_of_clear clearFront
    (gap ++ '\x7b' :: (body ++ '\x7d' :: behind)))
  have inFront : '\x7d' ∉ Keyword.export.tail ++ (gap ++ '\x7b' :: body) := by
    simp [Keyword.export, not_mem_of_isGap isGap (by decide : isBlank '\x7d' = false), inside]
  have found := group?_append isGap nonempty inside behind
  have whole : Keyword.export ++ (gap ++ '\x7b' :: (body ++ '\x7d' :: behind)) =
      'e' :: (Keyword.export.tail ++ (gap ++ '\x7b' :: body) ++ '\x7d' :: behind) := by
    simp [Keyword.export]
  rw [groups_append_of_silent silent]
  rw [whole] at found ⊢
  have closes : groups true ('\x7d' :: behind) = groups false behind := rfl
  rw [groups, found]
  simp only [groups_append_of_not_mem inFront, closes, groups_of_clear clearBehind]

end Groups

/-! ## Local names -/

section LocalName

variable {lead word trail rest : List Char}

/-- The word of the phrase is no beginning of another word. -/
theorem not_isPrefix_of_word (solid : ∀ c ∈ word, isBlank c = false)
    (ends : ∀ c ∈ rest.head?, isBlank c = true)
    (other : word = ['a', 's'] → ' ' ∉ rest.head?) :
    ¬ Keyword.asPhrase.tail <+: word ++ rest := by
  rintro ⟨tail, equal⟩
  -- Up to the first blank there is the word on one side, and the word of the phrase on the other.
  have spans := congrArg (List.takeWhile fun c => !isBlank c) equal
  have stops : rest.takeWhile (fun c => !isBlank c) = [] := by
    cases rest with
    | nil => rfl
    | cons c rest => simp [ends c rfl]
  have word_span : (word ++ rest).takeWhile (fun c => !isBlank c) = word := by
    rw [List.takeWhile_append_of_pos (by simpa using solid), stops, List.append_nil]
  rw [word_span] at spans
  obtain rfl : ['a', 's'] = word := spans
  have behind : ['a', 's'] ++ ' ' :: tail = ['a', 's'] ++ rest := equal
  obtain rfl : ' ' :: tail = rest := List.append_cancel_left behind
  exact other rfl rfl

/-- In a gap the phrase does not begin unless its word stands right behind the gap. -/
theorem silent_asPhrase_of_isGap (isGap : IsGap lead) (other : ¬ Keyword.asPhrase.tail <+: rest) :
    Silent (Text.after? Keyword.asPhrase) lead rest := by
  intro suffix inside nonempty
  rw [after?_eq_none_iff]
  rintro ⟨tail, equal⟩
  obtain ⟨c, suffix, rfl⟩ := List.exists_cons_of_ne_nil nonempty
  obtain ⟨-, equal⟩ := List.cons.inj equal
  cases suffix with
  | nil => exact other ⟨tail, equal⟩
  | cons d suffix =>
    obtain ⟨rfl, -⟩ := List.cons.inj equal
    have blank := isGap 'a' (inside.subset (by simp))
    exact absurd blank (by decide)

/-- In front of the phrase or the end, a blank ends a word, or there is nothing. -/
theorem isBlank_head?_of_ends (isTrail : IsGap trail)
    (ends : rest = [] ∨ Keyword.asPhrase <+: rest) :
    ∀ c ∈ (trail ++ rest).head?, isBlank c = true := by
  cases trail with
  | cons c trail => simpa using isTrail c List.mem_cons_self
  | nil =>
    rcases ends with rfl | ⟨tail, rfl⟩
    · simp
    · simp [Keyword.asPhrase, (by decide : isBlank ' ' = true)]

/-- **The local name of an entry** is the word in front of the phrase, or of the end. It may be the
word of the phrase itself when nothing stands in front of it or no space behind it. -/
theorem localName?_eq_some (isLead : IsGap lead) (isTrail : IsGap trail)
    (solid : ∀ c ∈ word, isBlank c = false) (nonempty : word ≠ [])
    (ends : rest = [] ∨ Keyword.asPhrase <+: rest)
    (other : word = ['a', 's'] → lead = [] ∨ ' ' ∉ (trail ++ rest).head?) :
    localName? (lead ++ word ++ trail ++ rest) = some (String.ofList word) := by
  have behindWord := isBlank_head?_of_ends isTrail ends
  have inLead : Silent (Text.after? Keyword.asPhrase) lead (word ++ (trail ++ rest)) := by
    by_cases nothing : lead = []
    · subst nothing
      rintro suffix inside nonempty
      exact absurd (List.suffix_nil.1 inside) nonempty
    · exact silent_asPhrase_of_isGap isLead
        (not_isPrefix_of_word solid behindWord fun same => (other same).resolve_left nothing)
  have inWord : Silent (Text.after? Keyword.asPhrase) word (trail ++ rest) := by
    apply silent_after?_of_not_mem
    intro member
    exact absurd (solid ' ' member) (by decide)
  have inTrail : Silent (Text.after? Keyword.asPhrase) trail rest :=
    silent_asPhrase_of_isGap isTrail fun begins => by
      obtain ⟨tail, rfl⟩ := begins
      exact absurd (isBlank_head?_of_ends isGap_nil ends 'a' rfl) (by decide)
  have upToPhrase : before Keyword.asPhrase rest = [] := by
    rcases ends with rfl | begins
    · rfl
    · exact before_eq_nil_of_isPrefix begins
  have inFront : before Keyword.asPhrase (lead ++ word ++ trail ++ rest) = lead ++ word ++ trail := by
    rw [List.append_assoc, List.append_assoc, before_append_of_silent inLead,
      before_append_of_silent inWord, before_append_of_silent inTrail, upToPhrase]
    simp
  have trimmed : trim word = word :=
    trim_eq_self_iff.2 ⟨fun c first => solid c (List.mem_of_mem_head? first),
      fun c last => solid c (List.mem_of_getLast? last)⟩
  rw [localName?, inFront, trim_padded isLead isTrail, trimmed]
  cases word with
  | nil => exact absurd rfl nonempty
  | cons c word => rfl

/-- A blank entry has no local name. -/
theorem localName?_of_isGap (isGap : IsGap lead) : localName? lead = none := by
  have silent : Silent (Text.after? Keyword.asPhrase) lead [] :=
    silent_asPhrase_of_isGap isGap (by decide)
  have inFront := before_append_of_silent silent
  rw [List.append_nil] at inFront
  rw [localName?, inFront, before, List.append_nil, trim_of_isGap isGap]

/-- An entry that begins with the phrase, gaps in front aside, has no local name. -/
theorem localName?_eq_none (isLead : IsGap lead) :
    localName? (lead ++ (Keyword.asPhrase ++ rest)) = none := by
  have silent : Silent (Text.after? Keyword.asPhrase) lead (Keyword.asPhrase ++ rest) := by
    apply silent_asPhrase_of_isGap isLead
    rintro ⟨tail, equal⟩
    exact absurd (List.cons.inj equal).1 (by decide)
  rw [localName?, before_append_of_silent silent, before_eq_nil_of_isPrefix (List.prefix_append _ _),
    List.append_nil, trim_of_isGap isLead]

/-- A local name stands in its entry between gaps, and behind these there is the phrase or
nothing. -/
theorem exists_eq_of_localName? {entry : List Char} {name : String}
    (named : localName? entry = some name) : name.toList ≠ [] ∧
      ∃ lead trail rest, IsGap lead ∧ IsGap trail ∧ (rest = [] ∨ Keyword.asPhrase <+: rest) ∧
        entry = lead ++ name.toList ++ trail ++ rest := by
  obtain ⟨rest, whole, ends⟩ := exists_before_append Keyword.asPhrase entry
  obtain ⟨lead, trail, isLead, isTrail, padded⟩ :=
    exists_isGap_trim (before Keyword.asPhrase entry)
  rw [localName?] at named
  split at named
  · cases named
  next nonempty =>
    obtain rfl := Option.some.inj named
    rw [String.toList_ofList]
    exact ⟨nonempty, lead, trail, rest, isLead, isTrail, ends, padded ▸ whole⟩

/-- Without a space, all of an entry between the gaps around it is its local name. -/
theorem localName?_of_not_mem {entry : List Char} (noSpace : ' ' ∉ entry) (solid : ¬ IsGap entry) :
    localName? entry = some (String.ofList (trim entry)) := by
  have silent : Silent (Text.after? Keyword.asPhrase) entry [] :=
    silent_after?_of_not_mem noSpace _ []
  have inFront := before_append_of_silent silent
  rw [List.append_nil, before, List.append_nil] at inFront
  rw [localName?, inFront]
  cases trimmed : trim entry with
  | cons c rest => rfl
  | nil =>
    obtain ⟨lead, trail, isLead, isTrail, whole⟩ := exists_isGap_trim entry
    rw [trimmed, List.append_nil] at whole
    rw [whole, isGap_append] at solid
    exact absurd ⟨isLead, isTrail⟩ solid

end LocalName

/-! ## Written lists -/

/-- A **specifier** in a list of re-exports. -/
structure Specifier where
  /-- The local name. -/
  name : String
  /-- The alias under which it is exported, if it has one. -/
  newName : Option String

/-- A specifier whose names are words, of which the local one is not the word of the phrase. -/
structure Specifier.IsPlain (specifier : Specifier) : Prop where
  /-- The local name is a word. -/
  isName : IsWord specifier.name.toList
  /-- The alias is a word. -/
  isNewName : ∀ newName ∈ specifier.newName, IsWord newName.toList
  /-- The local name is not the word of the phrase. -/
  noPhrase : specifier.name ≠ "as"

instance (specifier : Specifier) : Decidable specifier.IsPlain :=
  decidable_of_iff (IsWord specifier.name.toList ∧
      (∀ newName ∈ specifier.newName, IsWord newName.toList) ∧ specifier.name ≠ "as")
    ⟨fun ⟨isName, isNewName, noPhrase⟩ => ⟨isName, isNewName, noPhrase⟩,
      fun ⟨isName, isNewName, noPhrase⟩ => ⟨isName, isNewName, noPhrase⟩⟩

/-- The text of a specifier: the local name, and the alias behind the phrase, which may have gaps
around it. -/
inductive WritesSpecifier : Specifier → List Char → Prop where
  /-- A local name alone. -/
  | name {name : String} : WritesSpecifier ⟨name, none⟩ name.toList
  /-- A local name with an alias. -/
  | renamed {name newName : String} {gap gap' : List Char} (isGap : IsGap gap) (isGap' : IsGap gap') :
      WritesSpecifier ⟨name, some newName⟩
        (name.toList ++ gap ++ (Keyword.asPhrase ++ (gap' ++ newName.toList)))

/-- What an export in a list of re-exports is for a specifier: its local name, with the role that
the name has there. -/
structure IsReexportOf (specifier : Specifier) (seen : Export) : Prop where
  /-- It has the local name. -/
  name : seen.name = specifier.name
  /-- It is listed as a re-export. -/
  kind : seen.kind = .named
  /-- The very name `options` stands for the description. -/
  options : seen.role = some .options ↔ specifier.name = "options"
  /-- The other spellings of verbs stand for handlers. -/
  handler : seen.role = some .handler ↔ specifier.name ≠ "options" ∧
    ∃ verb : Verb, specifier.name.toList.map Char.toLower = verb.name

/-- The re-export of a local name. -/
theorem isReexportOf_ofNamed (specifier : Specifier) :
    IsReexportOf specifier (ofNamed specifier.name) where
  name := rfl
  kind := rfl
  options := by
    unfold ofNamed optionsName
    split_ifs <;> simp_all
  handler := by
    have verb : isVerb specifier.name = true ↔
        ∃ verb : Verb, specifier.name.toList.map Char.toLower = verb.name := by
      simp [isVerb, Verb.ofName?, Verb.mem_all]
    rw [← verb]
    unfold ofNamed optionsName
    split_ifs <;> simp_all

section Specifiers

variable {specifiers : List Specifier} {specifier : Specifier} {text body : List Char}

/-- Specifiers are made of word characters and blanks. -/
theorem WritesSpecifier.not_mem (written : WritesSpecifier specifier text)
    (plain : specifier.IsPlain) {c : Char} (noWord : isWordChar c = false)
    (solid : isBlank c = false) : c ∉ text := by
  have notInWord : ∀ {word : List Char}, IsWord word → c ∉ word := fun isWord member => by
    rw [isWord.isWord c member] at noWord
    cases noWord
  have notInPhrase : c ∉ Keyword.asPhrase := fun member => by
    simp only [Keyword.asPhrase, List.mem_cons, List.not_mem_nil, or_false] at member
    rcases member with rfl | rfl | rfl | rfl
    · exact absurd solid (by decide)
    · exact absurd noWord (by decide)
    · exact absurd noWord (by decide)
    · exact absurd solid (by decide)
  cases written with
  | name => exact notInWord plain.isName
  | renamed isGap isGap' =>
    simp [notInWord plain.isName, not_mem_of_isGap isGap solid, notInPhrase,
      not_mem_of_isGap isGap' solid, notInWord (plain.isNewName _ rfl)]

/-- An entry with a specifier is one field. -/
theorem WritesSpecifier.not_mem_padded (written : WritesSpecifier specifier text)
    (plain : specifier.IsPlain) {lead trail : List Char} (isLead : IsGap lead)
    (isTrail : IsGap trail) : ',' ∉ lead ++ text ++ trail := by
  have solid : isBlank ',' = false := by decide
  simp [not_mem_of_isGap isLead solid, written.not_mem plain (by decide +kernel) solid,
    not_mem_of_isGap isTrail solid]

/-- A specifier begins with its local name. -/
theorem WritesSpecifier.exists_eq_cons (written : WritesSpecifier specifier text)
    (plain : specifier.IsPlain) : ∃ c rest, text = c :: rest ∧ isBlank c = false := by
  obtain ⟨c, word, equal⟩ := List.exists_cons_of_ne_nil plain.isName.nonempty
  have solid := isBlank_eq_false_of_isWordChar
    (plain.isName.isWord c (equal ▸ List.mem_cons_self))
  cases written with
  | name => exact ⟨c, word, equal, solid⟩
  | renamed isGap isGap' => exact ⟨c, _, by rw [equal]; rfl, solid⟩

/-- **An entry with a specifier gives its local name.** -/
theorem WritesSpecifier.localName?_padded (written : WritesSpecifier specifier text)
    (plain : specifier.IsPlain) {lead trail : List Char} (isLead : IsGap lead)
    (isTrail : IsGap trail) : localName? (lead ++ text ++ trail) = some specifier.name := by
  have solid : ∀ c ∈ specifier.name.toList, isBlank c = false := fun c member =>
    isBlank_eq_false_of_isWordChar (plain.isName.isWord c member)
  have noPhrase : specifier.name.toList ≠ ['a', 's'] := fun same =>
    plain.noPhrase (String.toList_inj.1 same)
  cases written with
  | name =>
    have named := localName?_eq_some isLead isTrail solid plain.isName.nonempty (.inl rfl)
      (absurd · noPhrase)
    simpa using named
  | @renamed name newName gap gap' isGap isGap' =>
    have phrase : Keyword.asPhrase <+: Keyword.asPhrase ++ (gap' ++ newName.toList ++ trail) :=
      List.prefix_append _ _
    have named := localName?_eq_some isLead isGap solid plain.isName.nonempty (.inr phrase)
      (absurd · noPhrase)
    simpa using named

/-- The names in a list that is written for specifiers are their local names. -/
theorem groupNames_of_writesItems (written : WritesItems WritesSpecifier specifiers body)
    (plain : ∀ specifier ∈ specifiers, specifier.IsPlain) :
    groupNames body = specifiers.map Specifier.name := by
  rw [groupNames]
  induction written with
  | nil isGap =>
    rw [fields_eq_singleton (not_mem_of_isGap isGap (by decide)), List.filterMap_cons,
      localName?_of_isGap isGap]
    rfl
  | @last specifier lead text trail isLead written isTrail =>
    have here := plain specifier (by simp)
    rw [fields_eq_singleton (written.not_mem_padded here isLead isTrail), List.filterMap_cons,
      written.localName?_padded here isLead isTrail]
    rfl
  | @cons specifier specifiers lead text trail rest isLead written isTrail _ ih =>
    have here := plain specifier (by simp)
    rw [fields_append_cons (written.not_mem_padded here isLead isTrail), List.filterMap_cons,
      written.localName?_padded here isLead isTrail,
      ih fun specifier member => plain specifier (List.mem_cons_of_mem _ member)]
    rfl

/-- A list that is written for specifiers has a first character and no brace. -/
theorem inside_of_writesItems (written : WritesItems WritesSpecifier specifiers body)
    (plain : ∀ specifier ∈ specifiers, specifier.IsPlain) (nonempty : specifiers ≠ []) :
    body ≠ [] ∧ '\x7d' ∉ body := by
  constructor
  · cases written with
    | nil => exact absurd rfl nonempty
    | last isLead written isTrail =>
      obtain ⟨c, rest, rfl, -⟩ := written.exists_eq_cons (plain _ (by simp))
      simp
    | cons => simp
  · exact written.not_mem (by decide) (by decide) fun specifier member text here =>
      here.not_mem (plain specifier member) (by decide +kernel) (by decide)

end Specifiers

/-- **Lists of re-exports are read back.** A list that is written for specifiers whose names are
words, with gaps wherever they may stand, and between texts without the keyword of exports, gives
one export for each specifier, in order: its local name, with the role that the name has in such a
list. -/
theorem namedIn_of_writesItems {specifiers : List Specifier} {front gap body behind : List Char}
    (nonempty : specifiers ≠ []) (plain : ∀ specifier ∈ specifiers, specifier.IsPlain)
    (isGap : IsGap gap) (written : WritesItems WritesSpecifier specifiers body)
    (clearFront : ¬ Keyword.export <:+: front) (clearBehind : ¬ Keyword.export <:+: behind) :
    List.Forall₂ IsReexportOf specifiers
      (namedIn (front ++ (Keyword.export ++ (gap ++ '\x7b' :: (body ++ '\x7d' :: behind))))) := by
  obtain ⟨hasBody, inside⟩ := inside_of_writesItems written plain nonempty
  have begins : ∀ specifier ∈ specifiers, ∀ text, WritesSpecifier specifier text →
      ∃ c rest, text = c :: rest ∧ isBlank c = false := fun specifier member _ here =>
    here.exists_eq_cons (plain specifier member)
  have names : groupNames (trimStart body) = specifiers.map Specifier.name :=
    groupNames_of_writesItems (written.trimStart begins) plain
  rw [namedIn, groups_append isGap hasBody inside clearFront clearBehind, List.flatMap_singleton,
    names, List.map_map, List.forall₂_map_right_iff, List.forall₂_same]
  exact fun specifier _ => isReexportOf_ofNamed specifier

/-- A list over several lines: a name whose alias is the word of the phrase, and another name in front
of a comma. -/
theorem namedIn_of_writesItems_lines :
    List.Forall₂ IsReexportOf [⟨"get", some "as"⟩, ⟨"options", none⟩]
      (namedIn ("// exp\n".toList ++ (Keyword.export ++ ("\t".toList ++
        '\x7b' :: ("\n get\n as as,\n options,\n".toList ++ '\x7d' :: ";\n".toList))))) := by
  have first : WritesSpecifier ⟨"get", some "as"⟩ "get\n as as".toList :=
    .renamed (by decide : IsGap ['\n']) (by decide : IsGap [])
  have last : WritesSpecifier ⟨"options", none⟩ "options".toList := .name
  have written : WritesItems WritesSpecifier [⟨"get", some "as"⟩, ⟨"options", none⟩]
      "\n get\n as as,\n options,\n".toList :=
    .cons (by decide : IsGap ['\n', ' ']) first (by decide : IsGap [])
      (.cons (by decide : IsGap ['\n', ' ']) last (by decide : IsGap [])
        (.nil (by decide : IsGap ['\n'])))
  exact namedIn_of_writesItems (by simp) (by decide +kernel) (by decide) written (by decide) (by decide)

end Export

end FileRoutes
