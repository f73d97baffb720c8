/-! # Sharing work

Files are analysed one by one or by several workers (`Schedule`). The workers get equal shares of
neighbouring files, and the answers are put together in the order of the files, so every schedule
gives the same answers (`Schedule.map_eq`). -/

namespace FileRoutes

/-- Who does the work on a list of items. -/
inductive Schedule where
  /-- One worker does all of it. -/
  | alone
  /-- Several workers share it. -/
  | shared (workers : Nat)
  deriving DecidableEq, Repr

namespace Schedule

/-- The schedule for some items when a number of workers is asked for. There is at least one
worker, and never more than there are items. -/
def plan (asked : Int) (items : Nat) : Schedule :=
  let workers := max 1 asked
  if workers = 1 ∨ items < 2 then .alone else .shared (min workers.toNat items)

/-- Cuts a list into shares of one more than the given number of items. -/
def shares {α : Type} (more : Nat) : List α → List (List α)
  | [] => []
  | item :: rest => (item :: rest.take more) :: shares more (rest.drop more)
  termination_by items => items.length
  decreasing_by simp only [List.length_drop, List.length_cons]; omega

/-- The answers for a list of items. -/
def map {α β : Type} (schedule : Schedule) (answer : α → β) (items : List α) : List β :=
  match schedule with
  | .alone => items.map answer
  | .shared workers =>
    ((shares (items.length / workers) items).map fun share => share.map answer).flatten

/-- The shares make up the list. -/
theorem flatten_shares {α : Type} (more : Nat) (items : List α) :
    (shares more items).flatten = items := by
  fun_induction shares more items with
  | case1 => rfl
  | case2 item rest ih => simp [ih]

/-- Every schedule gives the answers of its items in order. -/
theorem map_eq {α β : Type} (schedule : Schedule) (answer : α → β) (items : List α) :
    schedule.map answer items = items.map answer := by
  cases schedule with
  | alone => rfl
  | shared workers => rw [map, ← List.map_flatten, flatten_shares]

end Schedule

end FileRoutes
