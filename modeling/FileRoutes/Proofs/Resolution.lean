import FileRoutes.Export.Scan
import FileRoutes.Resolution
import Mathlib

/-! # What a resolution has seen

The resolution of a list of exports, read off the list (`Resolution.ofExports_eq`): the first export
that **answers requests** decides the verb, there is a handler iff one answers, and options iff one
describes the route (`Resolution.hasOptions_ofExports`). So more exports take nothing back, and for
the exports of a text the four passes count in their order, wherever in the text their finds stand
(`Resolution.ofExports_decided_by_first`). -/

namespace FileRoutes

/-! ## Verbs and their names -/

namespace Verb

/-- Capitals are the same whether or not a character is made small before. -/
theorem toUpper_toLower (c : Char) : c.toLower.toUpper = c.toUpper := by
  unfold Char.toLower
  split
  next capital =>
    have bounds : 'A'.val.toNat = 65 ∧ 'Z'.val.toNat = 90 ∧ 'a'.val.toNat = 97 ∧
      'z'.val.toNat = 122 := by decide
    have first := UInt32.le_iff_toNat_le.1 capital.1
    have last := UInt32.le_iff_toNat_le.1 capital.2
    have small : (c.val + ('a'.val - 'A'.val)).toNat = c.val.toNat + 32 := by
      have shift : ('a'.val - 'A'.val).toNat = 32 := by decide
      rw [UInt32.toNat_add]
      omega
    -- The small letter is moved back, modulo the size of a word, and the capital stays.
    apply Char.ext
    simp only [Char.toUpper, UInt32.le_iff_toNat_le, small]
    rw [dif_pos (by omega), dif_neg (by omega)]
    apply UInt32.toNat_inj.1
    have shift : ('A'.val - 'a'.val).toNat = 2 ^ 32 - 32 := by decide
    rw [UInt32.toNat_add, small]
    omega
  next => rfl

/-- **The word of a verb is the name that stands for it, in capitals.** -/
theorem word_of_ofName? {name : String} {verb : Verb} (named : ofName? name = some verb) :
    verb.word = name.toUpper := by
  have small : name.toList.map Char.toLower = verb.name := by
    simpa using List.find?_some named
  have capitals : verb.word.toList = verb.name.map Char.toUpper := by
    cases verb <;> decide
  apply String.toList_injective
  rw [String.toUpper, String.toList_map, capitals, ← small, List.map_map]
  exact List.map_congr_left fun c _ => toUpper_toLower c

/-- The word of a verb is not empty. -/
theorem word_ne_empty (verb : Verb) : verb.word ≠ "" := by
  cases verb <;> decide

end Verb

/-! ## Exports that answer -/

namespace Export

/-- Whether an export is a **handler**. -/
def isHandler (seen : Export) : Bool := seen.role == some .handler

/-- Whether an export **answers requests**: a handler does, and so does a default export that has no
role. -/
def answers (seen : Export) : Bool :=
  seen.isHandler || (seen.role == none && seen.kind == .default)

/-- Whether an export **describes the route**. -/
def describes (seen : Export) : Bool := seen.role == some .options

/-- The method of an export that answers requests: the name in capitals of a handler that is named
after a verb, in any casing, and else `GET`. -/
def boundMethod (seen : Export) : String :=
  if seen.isHandler && isVerb seen.name then seen.name.toUpper else "GET"

/-- The verb of an export that answers requests. -/
def boundVerb (seen : Export) : Verb :=
  if seen.isHandler then seen.servedVerb else .get

/-- The method is the word of the verb. -/
theorem word_boundVerb (seen : Export) : seen.boundVerb.word = seen.boundMethod := by
  unfold boundVerb boundMethod servedVerb isVerb
  cases seen.isHandler with
  | false => rfl
  | true =>
    cases named : Verb.ofName? seen.name with
    | none => rfl
    | some verb => simpa using Verb.word_of_ofName? named

/-- In a pass that finds no default exports, those that answer are the handlers. -/
theorem find?_answers_map {form : String → Export} (kind : ExportKind) (other : kind ≠ .default)
    (hasKind : ∀ name, (form name).kind = kind) (names : List String) :
    (names.map form).find? answers = (names.map form).find? isHandler := by
  have same : ∀ name, answers (form name) = isHandler (form name) := by
    intro name
    simp [answers, hasKind, other]
  simp only [List.find?_map, Function.comp_def, same]

/-- **A re-exported handler is named after a verb**, and not with the very name of the options. -/
theorem isHandler_ofNamed_iff (name : String) :
    (ofNamed name).isHandler = true ↔ isVerb name = true ∧ name ≠ optionsName := by
  unfold isHandler ofNamed
  dsimp only
  split
  next options => simp [options]
  next other =>
    split
    next verb => simp [verb, other]
    next silent => simp [silent]

/-- The method of a re-exported handler is its name in capitals. -/
theorem boundMethod_of_find?_named {names : List String} {seen : Export}
    (found : (names.map ofNamed).find? isHandler = some seen) :
    seen.boundMethod = seen.name.toUpper := by
  obtain ⟨name, -, rfl⟩ := List.mem_map.1 (List.mem_of_find?_eq_some found)
  have handler : (ofNamed name).isHandler = true := List.find?_some found
  have verb : isVerb (ofNamed name).name = true := ((isHandler_ofNamed_iff name).1 handler).1
  rw [boundMethod, handler, verb]
  rfl

end Export

/-! ## The resolution in one look -/

namespace Resolution

open Export

/-- **One more export**: it binds its verb if it answers and none is bound, and sets the flags that
it stands for. -/
theorem step_eq {resolution : Resolution} (bound : resolution.hasHandler = resolution.verb.isSome)
    (next : Export) : resolution.step next =
      { verb := resolution.verb.or (if next.answers then some next.boundVerb else none)
        hasHandler := resolution.hasHandler || next.answers
        hasOptions := resolution.hasOptions || next.describes } := by
  obtain ⟨verb, hasHandler, hasOptions⟩ := resolution
  obtain ⟨name, kind, role⟩ := next
  obtain rfl : hasHandler = verb.isSome := bound
  cases role with
  | some role =>
    cases role <;> simp [step, Resolution.bind, answers, isHandler, describes, boundVerb]
  | none =>
    -- Only a default export matters, and only while no verb is bound.
    by_cases isDefault : kind = .default <;> cases verb <;>
      simp [step, Resolution.bind, answers, isHandler, describes, boundVerb, isDefault]

/-- **The resolution of a list of exports**: the verb of the first one that answers, and whether one
answers and one describes the route. -/
theorem ofExports_eq (exports : List Export) : ofExports exports =
    { verb := (exports.find? answers).map boundVerb
      hasHandler := exports.any answers
      hasOptions := exports.any describes } := by
  induction exports using List.reverseRecOn with
  | nil => rfl
  | append_singleton exports last ih =>
    have bound : (ofExports exports).hasHandler = (ofExports exports).verb.isSome := by
      rw [ih, Option.isSome_map, List.isSome_find?]
    rw [ofExports_concat, step_eq bound, ih, List.find?_append, List.any_append, List.any_append]
    cases found : exports.find? answers <;> cases answers : last.answers <;> simp [answers]

/-- The method is that of the first export that answers. -/
theorem method_ofExports (exports : List Export) :
    (ofExports exports).method = ((exports.find? answers).map boundMethod).getD "" := by
  have word : Verb.word ∘ boundVerb = boundMethod := funext word_boundVerb
  rw [ofExports_eq, method, Option.map_map, word]

/-- There is a handler iff an export answers. -/
theorem hasHandler_ofExports (exports : List Export) :
    (ofExports exports).hasHandler = true ↔ ∃ seen ∈ exports, seen.answers = true := by
  rw [ofExports_eq, List.any_eq_true]

/-- The options are seen iff an export describes the route. -/
theorem hasOptions_ofExports (exports : List Export) :
    (ofExports exports).hasOptions = true ↔ ∃ seen ∈ exports, seen.role = some .options := by
  simp [ofExports_eq, describes]

/-- **A handler has a method**, and nothing else has one. -/
theorem hasHandler_iff_method (exports : List Export) :
    (ofExports exports).hasHandler = true ↔ (ofExports exports).method ≠ "" := by
  rw [ofExports_eq, method, ← List.isSome_find?]
  cases exports.find? answers with
  | none => simp
  | some seen => simpa using seen.boundVerb.word_ne_empty

/-- **The first export that answers decides.** The method is that of the first handler or default
export without a role, there is a handler iff there is such an export, and options iff an export
describes the route. Hence further exports neither change a method nor take a flag back. Of the
exports of a text, the first handler among the constants counts, else the first one among the
functions, else the default export, and else the first handler among the re-exports. Those are the
ones that are named after a verb, while the very name `options` stands for the description. -/
theorem ofExports_decided_by_first :
    (∀ exports : List Export,
      (ofExports exports).method = ((exports.find? answers).map boundMethod).getD "" ∧
      ((ofExports exports).hasHandler = true ↔ ∃ seen ∈ exports, seen.answers = true) ∧
      ((ofExports exports).hasOptions = true ↔ ∃ seen ∈ exports, seen.role = some .options)) ∧
    (∀ exports further : List Export,
      ((ofExports exports).method ≠ "" →
        (ofExports (exports ++ further)).method = (ofExports exports).method) ∧
      ((ofExports exports).hasHandler = true → (ofExports (exports ++ further)).hasHandler = true) ∧
      ((ofExports exports).hasOptions = true →
        (ofExports (exports ++ further)).hasOptions = true)) ∧
    ∀ source : List Char,
      (ofExports (allIn source)).method =
        (match (valuesIn source).find? isHandler, (functionsIn source).find? isHandler,
          defaultIn source, (namedIn source).find? isHandler with
        | some value, _, _, _ => value.boundMethod
        | none, some function, _, _ => function.boundMethod
        | none, none, _ :: _, _ => "GET"
        | none, none, [], some named => named.name.toUpper
        | none, none, [], none => "") ∧
      ∀ named ∈ namedIn source, named.isHandler = true ↔
        isVerb named.name = true ∧ named.name ≠ optionsName := by
  refine ⟨fun exports => ⟨method_ofExports exports, hasHandler_ofExports exports,
    hasOptions_ofExports exports⟩, fun exports further => ⟨?_, ?_, ?_⟩, fun source => ⟨?_, ?_⟩⟩
  · intro bound
    rw [method_ofExports] at bound
    rw [method_ofExports, method_ofExports, List.find?_append]
    cases found : exports.find? answers with
    | none => simp [found] at bound
    | some seen => rfl
  · simp only [hasHandler_ofExports]
    rintro ⟨seen, member, does⟩
    exact ⟨seen, List.mem_append_left _ member, does⟩
  · simp only [hasOptions_ofExports]
    rintro ⟨seen, member, role⟩
    exact ⟨seen, List.mem_append_left _ member, role⟩
  · have values : (valuesIn source).find? answers = (valuesIn source).find? isHandler :=
      find?_answers_map .variable (by decide) (fun _ => rfl) _
    have functions : (functionsIn source).find? answers = (functionsIn source).find? isHandler :=
      find?_answers_map .function (by decide) (fun _ => rfl) _
    have named : (namedIn source).find? answers = (namedIn source).find? isHandler :=
      find?_answers_map .named (by decide) (fun _ => rfl) _
    have reexported : ∀ seen, (namedIn source).find? isHandler = some seen →
        seen.boundMethod = seen.name.toUpper := fun seen => boundMethod_of_find?_named
    rw [method_ofExports, allIn, List.find?_append, List.find?_append, List.find?_append, values,
      functions, named]
    revert reexported
    -- The passes are asked one after the other, and the default export answers if it is there.
    rcases (valuesIn source).find? isHandler with _ | value
    · rcases (functionsIn source).find? isHandler with _ | function
      · unfold defaultIn
        split
        · rcases (namedIn source).find? isHandler with _ | seen
          · intro _
            rfl
          · intro reexported
            exact reexported seen rfl
        · intro _
          rfl
      · intro _
        rfl
    · intro _
      rfl
  · intro named member
    obtain ⟨name, -, rfl⟩ := List.mem_map.1 member
    exact isHandler_ofNamed_iff name

/-- A file that exports a constant without a role and a function `Post`, and then more. -/
def postExports : List Export := [ofValue "schema", ofFunction "Post"]

/-- More exports, which would decide alone. -/
def moreExports : List Export := [ofValue "get", ofNamed "options"]

/-- The function keeps its verb, and the flags stay set. -/
theorem ofExports_decided_by_first_post :
    (ofExports postExports).method ≠ "" ∧
      (ofExports (postExports ++ moreExports)).method = (ofExports postExports).method ∧
      (ofExports postExports).hasHandler = true ∧
      (ofExports (postExports ++ moreExports)).hasHandler = true ∧
      (ofExports moreExports).hasOptions = true ∧
      (ofExports (moreExports ++ postExports)).hasOptions = true := by
  have bound : (ofExports postExports).method ≠ "" := by decide +kernel
  have handler : (ofExports postExports).hasHandler = true := by decide +kernel
  have options : (ofExports moreExports).hasOptions = true := by decide +kernel
  have extended := ofExports_decided_by_first.2.1 postExports moreExports
  exact ⟨bound, extended.1 bound, handler, extended.2.1 handler, options,
    (ofExports_decided_by_first.2.1 moreExports postExports).2.2 options⟩

end Resolution

end FileRoutes
