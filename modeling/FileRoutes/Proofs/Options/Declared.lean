import FileRoutes.Proofs.Analysis.File
import FileRoutes.Proofs.Export.Declarations

/-! # Declared options are exported

A declaration of the options begins where the export of a constant named `options` begins
(`RouteOptions.valueName?_of_declaredValue?`). So a text that declares options exports them, and the
analysis of a file reads them whenever they are there (`options_analyzeFile`). -/

namespace FileRoutes

open Text

namespace RouteOptions

/-- The left side of a declaration: the two keywords with gaps behind them, the name, which ends
there, and what the equals sign needs. -/
theorem declaredValue?_eq_some_iff {text behind : List Char} :
    declaredValue? text = some behind ↔
      ∃ gap gap' rest, gap ≠ [] ∧ IsGap gap ∧ gap' ≠ [] ∧ IsGap gap' ∧ atWordEnd rest = true ∧
        afterEquals? rest = some behind ∧
        text = Keyword.export ++ (gap ++ (Keyword.const ++ (gap' ++ (Keyword.options ++ rest)))) := by
  simp only [declaredValue?, Option.bind_eq_bind, Option.bind_eq_some_iff, Option.guard_eq_some',
    Keyword.after?_eq_some_iff, Text.after?_eq_some]
  constructor
  · rintro ⟨_, ⟨gap, nonempty, isGap, -, rfl⟩, _, ⟨gap', nonempty', isGap', -, rfl⟩, rest, rfl,
      -, ends, equals⟩
    exact ⟨gap, gap', rest, nonempty, isGap, nonempty', isGap', ends, equals, rfl⟩
  · rintro ⟨gap, gap', rest, nonempty, isGap, nonempty', isGap', ends, equals, rfl⟩
    refine ⟨_, ⟨gap, nonempty, isGap, ?_, rfl⟩, _, ⟨gap', nonempty', isGap', ?_, rfl⟩, rest, rfl,
      (), ends, equals⟩
    · simpa [Keyword.const] using (by decide : isBlank 'c' = false)
    · simpa [Keyword.options] using (by decide : isBlank 'o' = false)

/-- In front of the value there is an equals sign or a colon. -/
theorem exists_mark_of_afterEquals? {rest behind : List Char}
    (found : afterEquals? rest = some behind) :
    ∃ gap mark tail, IsGap gap ∧ mark ∈ ['=', ':'] ∧ rest = gap ++ mark :: tail := by
  obtain ⟨gap, isGap, equal⟩ := exists_isGap_append_trimStart rest
  unfold afterEquals? at found
  split at found
  next tail trimmed => exact ⟨gap, '=', tail, isGap, by simp, by rw [equal, trimmed]⟩
  next tail trimmed => exact ⟨gap, ':', tail, isGap, by simp, by rw [equal, trimmed]⟩
  next => simp at found

/-- Where the options are declared, a constant of that name is exported. -/
theorem valueName?_of_declaredValue? {text behind : List Char}
    (declared : declaredValue? text = some behind) :
    ∃ behind', Export.valueName? text = some (Export.optionsName, behind') := by
  obtain ⟨gap, gap', rest, nonempty, isGap, nonempty', isGap', -, equals, rfl⟩ :=
    declaredValue?_eq_some_iff.1 declared
  obtain ⟨gap'', mark, tail, isGap'', isMark, rfl⟩ := exists_mark_of_afterEquals? equals
  have isWord : ∀ c ∈ Keyword.options, isWordChar c = true := List.all_eq_true.1 (by decide +kernel)
  refine ⟨tail, Export.valueName?_eq_some_iff.2 ⟨gap, gap', Keyword.options, gap'', mark, nonempty,
    isGap, nonempty', isGap', by simp [Keyword.options], isWord, isGap'', isMark, ?_, rfl⟩⟩
  decide

/-- The exported constant that describes the route. -/
def exported : Export :=
  { name := Export.optionsName, kind := .variable, role := some .options }

/-- A text that declares options exports them. -/
theorem exported_mem_allIn {source : List Char} (declared : (ofSource? source).isSome) :
    exported ∈ Export.allIn source := by
  rw [ofSource?, Option.isSome_map, declaredBody?, List.isSome_findSome?, List.any_eq_true] at declared
  obtain ⟨value, found, -⟩ := declared
  obtain ⟨suffix, behind, inside, recognised⟩ := exists_suffix_of_mem_search found
  obtain ⟨behind', declaredAt, -⟩ := Option.map_eq_some_iff.1 recognised
  obtain ⟨behind'', exportedAt⟩ := valueName?_of_declaredValue? declaredAt
  have nonempty : suffix ≠ [] := by
    rintro rfl
    simp [declaredValue?, Keyword.after?, Text.after?, Keyword.export] at declaredAt
  -- No other constant hides the one that begins here.
  have named : Export.optionsName ∈ search Export.valueName? 0 source := by
    rw [Export.search_valueName?, List.mem_map]
    exact ⟨_, mem_scan_iff.2 ⟨suffix, inside, nonempty, exportedAt⟩, rfl⟩
  have value : exported ∈ Export.valuesIn source := List.mem_map.2 ⟨_, named, rfl⟩
  simp [Export.allIn, value]

end RouteOptions

/-- What the reader of declared options finds in a text is what the analysis of the text records. -/
theorem options_analyzeSource (filePath urlPath : String) (source : List Char) :
    (analyzeSource (some declaredOptions) filePath urlPath source).options =
      RouteOptions.ofSource? source := by
  have recorded : (analyzeSource (some declaredOptions) filePath urlPath source).options =
      if (Resolution.ofExports (Export.allIn source)).hasOptions then RouteOptions.ofSource? source
      else none := by
    simp only [analyzeSource, readOptions, declaredOptions]
    split <;> rfl
  rw [recorded]
  split
  next => rfl
  next unseen =>
    cases declared : RouteOptions.ofSource? source with
    | none => rfl
    | some options =>
      -- Options that are declared are among the exports, which the resolution has seen.
      have member := RouteOptions.exported_mem_allIn (by rw [declared]; rfl)
      exact absurd (Resolution.hasOptions_ofExports _ |>.2 ⟨_, member, rfl⟩) unseen

/-- **Declared options are never passed over.** A file with a given text gets the options that the
text declares, whatever the file system and the routes root; for a text that declares any has them
among its exported constants. -/
theorem options_analyzeFile :
    (∀ (fs : FileSystem) (filePath root : String) (source : List Char),
      readSource fs filePath = .ok source →
        (analyzeFile fs (some declaredOptions) filePath root).options =
          RouteOptions.ofSource? source) ∧
    ∀ source : List Char, (RouteOptions.ofSource? source).isSome →
      Export.mk "options" .variable (some .options) ∈ Export.allIn source := by
  constructor
  · intro fs filePath root source read
    rw [analyzeFile_of_readSource read]
    exact options_analyzeSource filePath _ source
  · intro source declared
    exact RouteOptions.exported_mem_allIn declared

/-- The text of a route file with a summary behind a comment that speaks of exports. -/
def summarySource : List Char :=
  "// export const\nexport const options: RouteOptions = \x7b summary: 'All users' \x7d;".toList

/-- A file system in which a file holds that text. -/
def summaryFiles : FileSystem := ⟨[(["users.ts"], .file (Utf8.encode summarySource))], []⟩

/-- The summary of that file is found. -/
theorem options_analyzeFile_users :
    readSource summaryFiles "users.ts" = .ok summarySource ∧
      (analyzeFile summaryFiles (some declaredOptions) "users.ts" "").options =
        RouteOptions.ofSource? summarySource ∧
      (RouteOptions.ofSource? summarySource).isSome ∧
      Export.mk "options" .variable (some .options) ∈ Export.allIn summarySource := by
  have reached : summaryFiles.status (.ofString "users.ts") =
      .ok (["users.ts"], .file (Utf8.encode summarySource)) :=
    FileSystem.status_name (by decide) (by decide) rfl rfl (fun target => nofun) (by decide)
  have decoded : Utf8.decode (Utf8.encode summarySource) = .ok summarySource := by decide +kernel
  have read : readSource summaryFiles "users.ts" = .ok summarySource := by
    rw [readSource, FileSystem.bytes, reached]
    simp only [bind, Except.bind, Except.mapError, pure, Except.pure, decoded]
    decide +kernel
  have declared : (RouteOptions.ofSource? summarySource).isSome := by decide +kernel
  exact ⟨read, options_analyzeFile.1 _ _ _ _ read, declared, options_analyzeFile.2 _ declared⟩

end FileRoutes
