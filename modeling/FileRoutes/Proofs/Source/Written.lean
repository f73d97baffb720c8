import FileRoutes.Proofs.Source.Pieces
import FileRoutes.Proofs.Source.Quoting

/-! # Writing lists and objects

How lists of items and objects are written in code, with gaps around every token and perhaps a comma
behind the last item, and that reading finds again what was written.

* `WritesItems writes items text`: items one after the other, with commas between neighbours.
* `WritesEntry key writes item text`: an entry of an object, with a word for its key.
* `parts_of_writesItems`, `stringList?_of_writesItems`, `entries_of_writesItems`: the readers find
  the items, the strings and the entries, in order. -/

namespace FileRoutes.Source

open Text

/-- **Items in a list**: each with gaps around it, and a comma behind each but perhaps the last. -/
inductive WritesItems {ι : Type} (writes : ι → List Char → Prop) : List ι → List Char → Prop where
  /-- No items: a gap alone. -/
  | nil {gap : List Char} (isGap : IsGap gap) : WritesItems writes [] gap
  /-- The last item, without a comma. -/
  | last {item : ι} {lead text trail : List Char} (isLead : IsGap lead) (written : writes item text)
      (isTrail : IsGap trail) : WritesItems writes [item] (lead ++ text ++ trail)
  /-- An item with a comma, and the items behind it, of which there may be none. -/
  | cons {item : ι} {items : List ι} {lead text trail rest : List Char} (isLead : IsGap lead)
      (written : writes item text) (isTrail : IsGap trail) (others : WritesItems writes items rest) :
      WritesItems writes (item :: items) (lead ++ text ++ trail ++ ',' :: rest)

/-- An **entry** of an object: the key, a colon, and the value, with gaps around the colon. -/
inductive WritesEntry {ι : Type} (key : ι → List Char) (writes : ι → List Char → Prop) (item : ι) :
    List Char → Prop where
  /-- The key and the value of an item. -/
  | entry {gap gap' value : List Char} (isGap : IsGap gap) (isGap' : IsGap gap')
      (written : writes item value) :
      WritesEntry key writes item (key item ++ gap ++ ':' :: (gap' ++ value))

/-- Reading texts that are written for items gives what each item is read as. -/
theorem filterMap_of_forall₂ {ι τ α : Type} {writes : ι → τ → Prop} {read : τ → Option α}
    {view : ι → Option α} {items : List ι} {texts : List τ}
    (written : List.Forall₂ writes items texts)
    (reads : ∀ item ∈ items, ∀ text, writes item text → read text = view item) :
    texts.filterMap read = items.filterMap view := by
  induction written with
  | nil => rfl
  | cons here _ ih =>
    have others := ih fun item member => reads item (List.mem_cons_of_mem _ member)
    rw [List.filterMap_cons, List.filterMap_cons, reads _ List.mem_cons_self _ here, others]

/-! ## Lists -/

section Lists

variable {ι : Type} {writes : ι → List Char → Prop} {items : List ι} {body : List Char}

/-- A token with gaps around it is code without commas outside its groups. -/
theorem IsToken.wellNested_padded {text lead trail : List Char} (token : IsToken text)
    (isLead : IsGap lead) (isTrail : IsGap trail) : WellNested false (lead ++ text ++ trail) :=
  ((wellNested_of_isGap isLead).append token.code).append (wellNested_of_isGap isTrail)

/-- Code without commas outside its groups is read up to the next comma. -/
theorem passes_comma {text : List Char} (code : WellNested false text) :
    Passes (· == ',') .start text .start := by
  refine code.passes (Int.le_refl 0) fun _ c stop => .inr ⟨?_, rfl⟩
  simpa using stop

/-- A token with gaps around it is one part of a list. -/
theorem parts_of_token {text lead trail : List Char} (token : IsToken text) (isLead : IsGap lead)
    (isTrail : IsGap trail) : parts (lead ++ text ++ trail) = [text] := by
  rw [parts_of_passes (passes_comma (token.wellNested_padded isLead isTrail)),
    trim_padded isLead isTrail, token.trimmed]
  simp [token.nonempty]

/-- In front of a comma, a token with gaps around it is the first part of a list. -/
theorem parts_token_comma {text lead trail : List Char} (token : IsToken text) (isLead : IsGap lead)
    (isTrail : IsGap trail) (rest : List Char) :
    parts (lead ++ text ++ trail ++ ',' :: rest) = text :: parts rest := by
  rw [parts_append_comma (passes_comma (token.wellNested_padded isLead isTrail)),
    trim_padded isLead isTrail, token.trimmed]
  simp [token.nonempty]

/-- Reading a list finds what was written for its items, in order. -/
theorem parts_of_writesItems (written : WritesItems writes items body)
    (tokens : ∀ item ∈ items, ∀ text, writes item text → IsToken text) :
    List.Forall₂ writes items (parts body) := by
  induction written with
  | nil isGap =>
    rw [parts_of_passes (passes_comma (wellNested_of_isGap isGap)), trim_of_isGap isGap]
    exact .nil
  | last isLead written isTrail =>
    have token := tokens _ (by simp) _ written
    rw [parts_of_token token isLead isTrail]
    exact .cons written .nil
  | cons isLead written isTrail _ ih =>
    have token := tokens _ (by simp) _ written
    rw [parts_token_comma token isLead isTrail]
    exact .cons written (ih fun item member => tokens item (List.mem_cons_of_mem _ member))

/-- A list that is written is code, with commas between its items. -/
theorem WritesItems.wellNested (written : WritesItems writes items body)
    (tokens : ∀ item ∈ items, ∀ text, writes item text → IsToken text) : WellNested true body := by
  induction written with
  | nil isGap => exact wellNested_of_isGap isGap
  | last isLead written isTrail =>
    have token := tokens _ (by simp) _ written
    exact (token.wellNested_padded isLead isTrail).withCommas
  | cons isLead written isTrail _ ih =>
    have token := tokens _ (by simp) _ written
    have others := ih fun item member => tokens item (List.mem_cons_of_mem _ member)
    exact (token.wellNested_padded isLead isTrail).withCommas.append others.comma

/-- A list that is written for items holds their characters, blanks and commas. -/
theorem WritesItems.not_mem (written : WritesItems writes items body) {c : Char}
    (solid : isBlank c = false) (noComma : c ≠ ',')
    (absent : ∀ item ∈ items, ∀ text, writes item text → c ∉ text) : c ∉ body := by
  have noGap : ∀ {gap : List Char}, IsGap gap → c ∉ gap := fun isGap => not_mem_of_isGap isGap solid
  induction written with
  | nil isGap => exact noGap isGap
  | last isLead written isTrail =>
    simp [noGap isLead, absent _ (by simp) _ written, noGap isTrail]
  | cons isLead written isTrail _ ih =>
    have others := ih fun item member => absent item (List.mem_cons_of_mem _ member)
    simp [noGap isLead, absent _ (by simp) _ written, noGap isTrail, others, noComma]

/-- A list that is written for items stays one when the blanks in front are cut. -/
theorem WritesItems.trimStart (written : WritesItems writes items body)
    (solid : ∀ item ∈ items, ∀ text, writes item text →
      ∃ c rest, text = c :: rest ∧ isBlank c = false) :
    WritesItems writes items (trimStart body) := by
  -- Only the gap in front of the first item is cut, and the first item keeps its beginning.
  cases written with
  | nil isGap =>
    rw [trimStart_of_isGap isGap]
    exact .nil isGap_nil
  | @last item lead text trail isLead written isTrail =>
    obtain ⟨c, rest, rfl, first⟩ := solid item (by simp) text written
    rw [List.append_assoc, trimStart_append_of_isGap isLead, List.cons_append,
      trimStart_cons_of_not_blank first]
    exact .last isGap_nil written isTrail
  | @cons item items lead text trail rest isLead written isTrail others =>
    obtain ⟨c, rest', rfl, first⟩ := solid item (by simp) text written
    rw [List.append_assoc, List.append_assoc, trimStart_append_of_isGap isLead, List.cons_append,
      trimStart_cons_of_not_blank first]
    simpa using WritesItems.cons isGap_nil written isTrail others

/-- A list in brackets is a token. -/
theorem WritesItems.isToken (written : WritesItems writes items body)
    (tokens : ∀ item ∈ items, ∀ text, writes item text → IsToken text) {opener closer : Char}
    (pair : closerOf? opener = some closer) : IsToken (opener :: (body ++ [closer])) := by
  refine ⟨.group pair (written.wellNested tokens) .nil, ?_, by simp⟩
  have solid : isBlank opener = false ∧ isBlank closer = false := (of_closerOf? pair).2.2.2.2.2.2.2
  exact trim_cons_concat solid.1 solid.2 body

/-- **Reading a list of literals gives the strings that they write.** -/
theorem stringList?_of_writesItems {strings : List (List Char)}
    (written : WritesItems WritesString strings body) :
    stringList? ('[' :: (body ++ [']'])) = some strings := by
  have tokens : ∀ string ∈ strings, ∀ text, WritesString string text → IsToken text :=
    fun _ _ _ literal => isToken_of_writesString literal
  have values : (parts body).filterMap stringValue? = strings.filterMap some :=
    filterMap_of_forall₂ (parts_of_writesItems written tokens)
      fun _ _ _ literal => stringValue?_of_writesString literal
  rw [List.filterMap_some] at values
  rw [stringList?, (written.isToken tokens rfl).trimmed]
  simp [values]

end Lists

/-! ## Objects -/

/-- A **word** that can be the key of an entry as it stands. -/
structure IsWord (text : List Char) : Prop where
  /-- All characters are word characters. -/
  isWord : ∀ c ∈ text, isWordChar c = true
  /-- There is at least one. -/
  nonempty : text ≠ []

instance (text : List Char) : Decidable (IsWord text) :=
  decidable_of_iff (text.all isWordChar = true ∧ text ≠ [])
    ⟨fun ⟨isWord, nonempty⟩ => ⟨List.all_eq_true.1 isWord, nonempty⟩,
      fun ⟨isWord, nonempty⟩ => ⟨List.all_eq_true.2 isWord, nonempty⟩⟩

section Objects

variable {ι : Type} {key : ι → List Char} {writes : ι → List Char → Prop} {items : List ι}
  {body : List Char}

/-- Neither end of a word is a blank. -/
theorem IsWord.solid {text : List Char} (word : IsWord text) :
    (∀ c ∈ text.head?, isBlank c = false) ∧ ∀ c ∈ text.getLast?, isBlank c = false :=
  ⟨fun c first => isBlank_eq_false_of_isWordChar (word.isWord c (List.mem_of_mem_head? first)),
    fun c last => isBlank_eq_false_of_isWordChar (word.isWord c (List.mem_of_getLast? last))⟩

/-- A word that is read backwards is a word. -/
theorem IsWord.reverse {text : List Char} (word : IsWord text) : IsWord text.reverse :=
  ⟨fun c member => word.isWord c (List.mem_reverse.1 member), by simpa using word.nonempty⟩

/-- A word has no quotes in front to take off. -/
theorem IsWord.dropWhile_isKeyQuote {text : List Char} (word : IsWord text) (rest : List Char) :
    (text ++ rest).dropWhile isKeyQuote = text ++ rest := by
  cases text with
  | nil => exact absurd rfl word.nonempty
  | cons c text =>
    have plain := (isPlain_iff.1 (isPlain_of_isWordChar (word.isWord c List.mem_cons_self)).1).1
    have noQuote : isKeyQuote c = false := by
      simp only [isQuote, Bool.or_eq_false_iff] at plain
      simp [isKeyQuote, plain.1]
    simp [noQuote]

/-- A quote that a key may be written in is a quote. -/
theorem isQuote_of_isKeyQuote {c : Char} (quote : isKeyQuote c = true) : isQuote c = true := by
  simp only [isKeyQuote] at quote
  simp [isQuote, quote]

/-- A word may stand between the quotes of a literal. -/
theorem IsWord.literalBody {quote : Char} (isQuote : isQuote quote = true) {text : List Char}
    (word : ∀ c ∈ text, isWordChar c = true) : LiteralBody quote text := by
  induction text with
  | nil => exact .nil
  | cons c text ih =>
    have isWord := word c List.mem_cons_self
    have differs : c ≠ quote := by
      rintro rfl
      rw [(isPlain_iff.1 (isPlain_of_isWordChar isWord).1).1] at isQuote
      cases isQuote
    have noBackslash : c ≠ '\\' := by
      rintro rfl
      exact absurd isWord (by decide)
    exact .plain differs noBackslash (ih fun d member => word d (List.mem_cons_of_mem _ member))

/-- **How a key is written**: as it stands, or in quotes. -/
inductive WritesKey (key : List Char) : List Char → Prop where
  /-- The bare key. -/
  | bare : WritesKey key key
  /-- The key in quotes. -/
  | quoted {quote : Char} (isKeyQuote : isKeyQuote quote = true) :
      WritesKey key (quote :: (key ++ [quote]))

section Keys

variable {word text gap gap' value : List Char}

/-- A key is a token. -/
theorem WritesKey.isToken (written : WritesKey word text) (isWord : IsWord word) :
    IsToken text := by
  cases written with
  | bare =>
    have trimmed := trim_eq_self_iff.2 isWord.solid
    exact ⟨wellNested_of_isWord isWord.isWord, trimmed, isWord.nonempty⟩
  | quoted isKeyQuote =>
    have isQuote := isQuote_of_isKeyQuote isKeyQuote
    have solid := (of_isQuote isQuote).2.2.2.2
    exact ⟨.literal isQuote (IsWord.literalBody isQuote isWord.isWord) .nil,
      trim_cons_concat solid solid word, by simp⟩

/-- A key has no colon outside its quotes. -/
theorem WritesKey.passes (written : WritesKey word text) (isWord : IsWord word) :
    Passes (· == ':') .start text .start := by
  cases written with
  | bare =>
    refine passes_of_isPlain fun c member => ?_
    have plain := isPlain_of_isWordChar (isWord.isWord c member)
    simp [plain.1, plain.2.2.1]
  | @quoted quote isKeyQuote =>
    have isQuote := isQuote_of_isKeyQuote isKeyQuote
    have noColon : quote ≠ ':' := by
      rintro rfl
      exact absurd isQuote (by decide)
    exact (IsWord.literalBody isQuote isWord.isWord).passes_quoted isQuote (by simp [noColon])

/-- In front of a gap a key is read as the word that it writes. -/
theorem WritesKey.bareKey_append (written : WritesKey word text) (isWord : IsWord word)
    (isGap : IsGap gap) : bareKey (text ++ gap) = word := by
  have trimmed : trim (text ++ gap) = text := by
    have padded := trim_padded isGap_nil isGap text
    rwa [List.nil_append, (written.isToken isWord).trimmed] at padded
  have front := isWord.dropWhile_isKeyQuote
  have behind := isWord.reverse.dropWhile_isKeyQuote
  rw [bareKey, trimmed]
  cases written with
  | bare =>
    have front := front []
    have behind := behind []
    rw [List.append_nil] at front behind
    rw [front, behind, List.reverse_reverse]
  | @quoted quote isKeyQuote =>
    have behind := behind []
    rw [List.append_nil] at behind
    rw [List.dropWhile_cons_of_pos isKeyQuote, front, List.reverse_append, List.reverse_singleton,
      List.singleton_append, List.dropWhile_cons_of_pos isKeyQuote, behind, List.reverse_reverse]

/-- A key does not begin the spread of another object. -/
theorem WritesKey.isPrefixOf_spreadMark (written : WritesKey word text) (isWord : IsWord word)
    (rest : List Char) : spreadMark.isPrefixOf (text ++ rest) = false := by
  cases written with
  | bare =>
    cases word with
    | nil => exact absurd rfl isWord.nonempty
    | cons c word =>
      have noDot := (isPlain_of_isWordChar (isWord.isWord c List.mem_cons_self)).2.2.2
      simp [spreadMark, List.isPrefixOf, noDot.symm]
  | @quoted quote isKeyQuote =>
    have noDot : '.' ≠ quote := by
      rintro rfl
      exact absurd isKeyQuote (by decide)
    simp [spreadMark, List.isPrefixOf, noDot]

/-- Reading an entry finds its key and its value. -/
theorem WritesKey.entry?_append (written : WritesKey word text) (isWord : IsWord word)
    (isGap : IsGap gap) (isGap' : IsGap gap') (token : IsToken value) :
    entry? (text ++ gap ++ ':' :: (gap' ++ value)) = some (word, value) := by
  -- Neither the key nor the gap behind it has a colon, so that the cut is at the one behind them.
  have gapPasses : Passes (· == ':') .start gap .start := by
    refine passes_of_isPlain fun c member => ?_
    have blank := isPlain_of_isBlank (isGap c member)
    simp [blank.1, blank.2.2]
  have passes := (written.passes isWord).append gapPasses
  have cut : cutAt? (· == ':') .start (text ++ gap ++ ':' :: (gap' ++ value)) =
      some (text ++ gap, gap' ++ value) :=
    cutAt?_eq_some_iff.2 ⟨':', rfl, rfl, passes⟩
  have trimmed : trim (gap' ++ value) = value := by
    have padded := trim_padded isGap' isGap_nil value
    rwa [List.append_nil, token.trimmed] at padded
  have noSpread := written.isPrefixOf_spreadMark isWord (gap ++ ':' :: (gap' ++ value))
  rw [← List.append_assoc] at noSpread
  unfold entry?
  rw [noSpread, splitEntry, cut]
  simp [written.bareKey_append isWord isGap, trimmed, isWord.nonempty]

/-- A key and a value with a colon between them are a token. -/
theorem IsToken.entry (key : IsToken text) (token : IsToken value) (isGap : IsGap gap)
    (isGap' : IsGap gap') : IsToken (text ++ gap ++ ':' :: (gap' ++ value)) := by
  -- An entry begins as its key does and ends as its value does.
  refine ⟨?_, trim_eq_self_iff.2 ⟨?_, ?_⟩, by simp⟩
  · have colon : WellNested false (':' :: (gap' ++ value)) :=
      .plain (by decide) (fun comma => absurd comma (by decide))
        ((wellNested_of_isGap isGap').append token.code)
    exact (key.code.append (wellNested_of_isGap isGap)).append colon
  · intro c first
    rw [List.append_assoc, List.head?_append_of_ne_nil _ key.nonempty] at first
    exact (trim_eq_self_iff.1 key.trimmed).1 c first
  · intro c last
    have whole : text ++ gap ++ ':' :: (gap' ++ value) = text ++ gap ++ ':' :: gap' ++ value := by
      simp
    rw [whole, List.getLast?_append_of_ne_nil _ token.nonempty] at last
    exact (trim_eq_self_iff.1 token.trimmed).2 c last

end Keys

/-- An entry is a token. -/
theorem WritesEntry.isToken {item : ι} {text : List Char}
    (written : WritesEntry key writes item text) (isWord : IsWord (key item))
    (token : ∀ value, writes item value → IsToken value) : IsToken text := by
  obtain ⟨isGap, isGap', value⟩ := written
  exact (WritesKey.bare.isToken isWord).entry (token _ value) isGap isGap'

/-- Entries whose keys differ are all kept. -/
theorem firstOfEachKey_eq_self {found : List (List Char × List Char)} {seen : List (List Char)}
    (fresh : ∀ entry ∈ found, entry.1 ∉ seen) (distinct : (found.map Prod.fst).Nodup) :
    firstOfEachKey seen found = found := by
  induction found generalizing seen with
  | nil => rfl
  | cons entry found ih =>
    rw [List.map_cons, List.nodup_cons] at distinct
    rw [firstOfEachKey, if_neg (fresh entry List.mem_cons_self), ih _ distinct.2]
    intro later member
    rw [List.mem_cons, not_or]
    refine ⟨?_, fresh later (List.mem_cons_of_mem _ member)⟩
    intro equal
    exact distinct.1 (equal ▸ List.mem_map_of_mem member)

/-- **Reading an object finds its entries**, in order, when their keys are different words. -/
theorem entries_of_writesItems (written : WritesItems (WritesEntry key writes) items body)
    (words : ∀ item ∈ items, IsWord (key item))
    (tokens : ∀ item ∈ items, ∀ value, writes item value → IsToken value)
    (distinct : (items.map key).Nodup) :
    List.Forall₂ (fun item entry => entry.1 = key item ∧ writes item entry.2) items
      (entries body) := by
  have found : List.Forall₂ (WritesEntry key writes) items (parts body) :=
    parts_of_writesItems written fun item member text entry =>
      entry.isToken (words item member) (tokens item member)
  have read : List.Forall₂ (fun item entry => entry.1 = key item ∧ writes item entry.2) items
      ((parts body).filterMap entry?) := by
    -- From here on only the parts matter, and no longer the text that they were found in.
    clear written distinct
    generalize parts body = texts at found
    induction found with
    | nil => exact .nil
    | @cons item text items texts entry _ ih =>
      obtain ⟨isGap, isGap', value⟩ := entry
      have here := WritesKey.bare.entry?_append (words item List.mem_cons_self) isGap isGap'
        (tokens item List.mem_cons_self _ value)
      rw [List.filterMap_cons, here]
      refine .cons ⟨rfl, value⟩ (ih ?_ ?_)
      · exact fun item member => words item (List.mem_cons_of_mem _ member)
      · exact fun item member => tokens item (List.mem_cons_of_mem _ member)
  have keys : ((parts body).filterMap entry?).map Prod.fst = items.map key := by
    clear written words tokens distinct found
    generalize (parts body).filterMap entry? = found at read
    induction read with
    | nil => rfl
    | cons entry _ ih => rw [List.map_cons, List.map_cons, entry.1, ih]
  rw [entries, firstOfEachKey_eq_self (by simp) (by rwa [keys])]
  exact read

/-- The entry of an item is found under its key. -/
theorem lookup_of_forall₂ {found : List (List Char × List Char)}
    (read : List.Forall₂ (fun item entry => entry.1 = key item ∧ writes item entry.2) items found)
    (distinct : (items.map key).Nodup) {item : ι} (member : item ∈ items) :
    ∃ value, found.lookup (key item) = some value ∧ writes item value := by
  induction read with
  | nil => simp at member
  | @cons first entry items found here _ ih =>
    obtain ⟨name, value⟩ := entry
    obtain ⟨rfl, written⟩ := here
    rw [List.map_cons, List.nodup_cons] at distinct
    rcases List.mem_cons.1 member with rfl | later
    · exact ⟨value, List.lookup_cons_self, written⟩
    · have differs : key item ≠ key first := fun equal =>
        distinct.1 (equal ▸ List.mem_map_of_mem later)
      rw [List.lookup_cons, beq_false_of_ne differs]
      exact ih distinct.2 later

/-- Under a key of no item there is no entry. -/
theorem lookup_eq_none_of_forall₂ {found : List (List Char × List Char)}
    (read : List.Forall₂ (fun item entry => entry.1 = key item ∧ writes item entry.2) items found)
    {name : List Char} (absent : ∀ item ∈ items, key item ≠ name) : found.lookup name = none := by
  induction read with
  | nil => rfl
  | cons here _ ih =>
    have differs := absent _ List.mem_cons_self
    rw [← here.1] at differs
    rw [List.lookup_cons, beq_false_of_ne differs.symm]
    exact ih fun item member => absent item (List.mem_cons_of_mem _ member)

/-- An object in braces is read as such. -/
theorem objectBody?_of_writesItems (written : WritesItems (WritesEntry key writes) items body)
    (words : ∀ item ∈ items, IsWord (key item))
    (tokens : ∀ item ∈ items, ∀ value, writes item value → IsToken value) :
    objectBody? ('\x7b' :: (body ++ ['\x7d'])) = some body := by
  have entryTokens : ∀ item ∈ items, ∀ text, WritesEntry key writes item text → IsToken text :=
    fun item member _ entry => entry.isToken (words item member) (tokens item member)
  rw [objectBody?, (written.isToken entryTokens rfl).trimmed]
  exact blockBody?_append (written.wellNested entryTokens) []

end Objects

end FileRoutes.Source
