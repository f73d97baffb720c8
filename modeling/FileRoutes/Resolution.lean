import FileRoutes.Export.Basic

/-! # The verb of a route

Which verb a route serves follows from its exports (`Resolution.ofExports`): the first export that
answers requests decides. A default export answers requests only when no handler stands before it,
and then serves `GET`, as does a handler that is not named after a verb. -/

namespace FileRoutes

/-- What the exports of a route say about it. -/
structure Resolution where
  /-- The verb that is served; `none` as long as nothing answers requests. -/
  verb : Option Verb
  /-- Whether an export answers requests. -/
  hasHandler : Bool
  /-- Whether an export describes the route. -/
  hasOptions : Bool
  deriving DecidableEq, Repr

namespace Export

/-- The verb that a handler serves. -/
def servedVerb (handler : Export) : Verb :=
  (Verb.ofName? handler.name).getD .get

end Export

namespace Resolution

/-- What no export says. -/
def unresolved : Resolution := ⟨none, false, false⟩

/-- The resolution with a handler, whose verb counts unless one is bound already. -/
def bind (resolution : Resolution) (verb : Verb) : Resolution :=
  { resolution with verb := resolution.verb.or (some verb), hasHandler := true }

/-- The resolution after one more export. -/
def step (resolution : Resolution) (next : Export) : Resolution :=
  match next.role with
  | some .options => { resolution with hasOptions := true }
  | some .handler => resolution.bind next.servedVerb
  | none =>
    if next.kind = .default ∧ !resolution.hasHandler then resolution.bind .get else resolution

/-- The **resolution** of a list of exports. -/
def ofExports (exports : List Export) : Resolution :=
  exports.foldl step unresolved

/-- The verb in capitals, or the empty text while there is none. -/
def method (resolution : Resolution) : String :=
  (resolution.verb.map Verb.word).getD ""

/-- No exports leave the route unresolved. -/
@[simp] theorem ofExports_nil : ofExports [] = unresolved := rfl

/-- A further export is taken into account after all before it. -/
@[simp] theorem ofExports_concat (exports : List Export) (last : Export) :
    ofExports (exports ++ [last]) = (ofExports exports).step last := by
  simp [ofExports]

end Resolution

end FileRoutes
