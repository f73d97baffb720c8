import FileRoutes.Analysis.Summary
import Mathlib

/-! # What a summary counts

The counts for each method are a **tally** of words (`Summary.IsTally`): every word that occurs
stands in it once, in ascending order, with how often it occurs. Counting one more word keeps that
(`IsTally.count`), so that a summary holds the tally of the words of its routes
(`isTally_byMethod`). Words have only one tally, whatever their order (`IsTally.unique`), and the
tally of two lists of words is the sum of theirs, word by word (`IsTally.lookup_append`). Hence a
summary does not depend on the order of the routes (`ofRoutes_eq_of_perm`), the summaries of two
lists add up (`isSum_ofRoutes`), and the counts of each balance (`isBalanced_ofRoutes`). -/

namespace FileRoutes.Summary

/-! ## Counting a word -/

section Count

variable {counts : List (String × Int)}

/-- Counts stand **in ascending order**, each word once. -/
def Ascends (counts : List (String × Int)) : Prop :=
  counts.Pairwise fun first second => first.1 < second.1

/-- The words that are counted are the old ones and the new one. -/
theorem fst_eq_or_mem_of_mem_count {key : String} {entry : String × Int}
    (member : entry ∈ count key counts) : entry.1 = key ∨ ∃ old ∈ counts, old.1 = entry.1 := by
  induction counts with
  | nil =>
    obtain rfl := List.mem_singleton.1 member
    exact .inl rfl
  | cons first rest ih =>
    obtain ⟨other, value⟩ := first
    rw [count] at member
    split at member
    next same =>
      rcases List.mem_cons.1 member with rfl | member
      · exact .inl same.symm
      · exact .inr ⟨entry, List.mem_cons_of_mem _ member, rfl⟩
    next =>
      split at member
      next =>
        rcases List.mem_cons.1 member with rfl | member
        · exact .inl rfl
        · exact .inr ⟨entry, member, rfl⟩
      next =>
        rcases List.mem_cons.1 member with rfl | member
        · exact .inr ⟨_, List.mem_cons_self, rfl⟩
        · rcases ih member with same | ⟨old, inside, same⟩
          · exact .inl same
          · exact .inr ⟨old, List.mem_cons_of_mem _ inside, same⟩

/-- **Counting keeps the order.** -/
theorem Ascends.count (ascends : Ascends counts) (key : String) :
    Ascends (Summary.count key counts) := by
  induction counts with
  | nil => exact List.pairwise_singleton _ _
  | cons first rest ih =>
    obtain ⟨other, value⟩ := first
    obtain ⟨before, later⟩ := List.pairwise_cons.1 ascends
    rw [Summary.count]
    split
    next => exact List.pairwise_cons.2 ⟨before, later⟩
    next differ =>
      split
      next less =>
        -- What stands behind the first word stands behind the new one.
        refine List.pairwise_cons.2 ⟨fun entry member => ?_, ascends⟩
        rcases List.mem_cons.1 member with rfl | member
        · exact less
        · exact less.trans (before entry member)
      next notLess =>
        refine List.pairwise_cons.2 ⟨fun entry member => ?_, ih later⟩
        rcases fst_eq_or_mem_of_mem_count member with same | ⟨old, inside, same⟩
        · exact same ▸ lt_of_le_of_ne (not_lt.1 notLess) (Ne.symm differ)
        · exact same ▸ before old inside

/-- A word in front of all others is not counted. -/
theorem lookup_eq_none_of_lt {word : String} (before : ∀ entry ∈ counts, word < entry.1) :
    counts.lookup word = none := by
  rw [List.lookup_eq_none_iff]
  intro entry member
  simpa using (before entry member).ne

/-- **Counting adds one** to the number of its word, and changes no other. -/
theorem lookup_count (ascends : Ascends counts) (key word : String) :
    (count key counts).lookup word =
      if word = key then some ((counts.lookup key).getD 0 + 1) else counts.lookup word := by
  induction counts with
  | nil =>
    by_cases same : word = key
    · simp [count, same]
    · simp [count, same, List.lookup_cons, beq_false_of_ne same]
  | cons first rest ih =>
    obtain ⟨other, value⟩ := first
    obtain ⟨before, later⟩ := List.pairwise_cons.1 ascends
    rw [count]
    split
    next here =>
      subst here
      by_cases same : word = key
      · simp [same]
      · simp [same, List.lookup_cons, beq_false_of_ne same]
    next differ =>
      split
      next less =>
        -- The word stands in front of all that are counted, so that it was not among them.
        have fresh : List.lookup key ((other, value) :: rest) = none := by
          refine lookup_eq_none_of_lt fun entry member => ?_
          rcases List.mem_cons.1 member with rfl | member
          · exact less
          · exact less.trans (before entry member)
        by_cases same : word = key
        · simp [same, fresh]
        · simp [same, List.lookup_cons, beq_false_of_ne same]
      next =>
        by_cases here : word = other
        · subst here
          simp [Ne.symm differ]
        · simp [List.lookup_cons, beq_false_of_ne here, beq_false_of_ne differ, ih later]

/-- Counting makes the sum of all numbers one more. -/
theorem sum_count (key : String) (counts : List (String × Int)) :
    ((count key counts).map Prod.snd).sum = (counts.map Prod.snd).sum + 1 := by
  induction counts with
  | nil => rfl
  | cons first rest ih =>
    rw [count]
    split
    next =>
      simp only [List.map_cons, List.sum_cons]
      omega
    next =>
      split
      next =>
        simp only [List.map_cons, List.sum_cons]
        omega
      next =>
        simp only [List.map_cons, List.sum_cons, ih]
        omega

end Count

/-! ## Tallies -/

/-- Counts are the **tally** of some words. -/
structure IsTally (words : List String) (counts : List (String × Int)) : Prop where
  /-- The words stand in ascending order, each once. -/
  ascends : Ascends counts
  /-- The words that occur are counted, each as often as it occurs. -/
  lookup : ∀ word, counts.lookup word = if word ∈ words then some (words.count word : Int) else none
  /-- The numbers sum up to how many words there are. -/
  sum : (counts.map Prod.snd).sum = words.length

namespace IsTally

variable {words others : List String} {counts counts' : List (String × Int)}

/-- No words have an empty tally. -/
theorem nil : IsTally [] [] where
  ascends := .nil
  lookup _ := rfl
  sum := rfl

/-- **Counting a word gives the tally of the words with that one.** -/
theorem count (tally : IsTally words counts) (key : String) :
    IsTally (words ++ [key]) (Summary.count key counts) where
  ascends := tally.ascends.count key
  lookup word := by
    rw [lookup_count tally.ascends, tally.lookup, tally.lookup]
    by_cases same : word = key
    · subst same
      by_cases old : word ∈ words
      · simp [old]
      · simp [old, List.count_eq_zero_of_not_mem old]
    · simp [same, List.count_singleton, beq_false_of_ne (Ne.symm same)]
  sum := by
    rw [sum_count, tally.sum]
    simp

/-- What is counted is looked up. -/
theorem lookup_of_mem (tally : IsTally words counts) {entry : String × Int}
    (member : entry ∈ counts) : counts.lookup entry.1 = some entry.2 := by
  obtain ⟨front, rest, rfl⟩ := List.append_of_mem member
  refine List.lookup_eq_some_iff.2 ⟨front, rest, rfl, fun other inside => ?_⟩
  have before := (List.pairwise_append.1 tally.ascends).2.2 other inside entry List.mem_cons_self
  simpa using before.ne'

/-- **What is counted**: the words that occur, with how often they do. -/
theorem mem_iff (tally : IsTally words counts) {entry : String × Int} :
    entry ∈ counts ↔ entry.1 ∈ words ∧ entry.2 = words.count entry.1 := by
  constructor
  · intro member
    have found := tally.lookup_of_mem member
    rw [tally.lookup] at found
    split at found
    next occurs => exact ⟨occurs, (Option.some.inj found).symm⟩
    next => cases found
  · rintro ⟨occurs, number⟩
    have found := tally.lookup entry.1
    rw [if_pos occurs, ← number] at found
    obtain ⟨front, rest, rfl, -⟩ := List.lookup_eq_some_iff.1 found
    exact List.mem_append_right front List.mem_cons_self

/-- **Words have only one tally**, in whatever order they are given. -/
theorem unique (tally : IsTally words counts) (tally' : IsTally others counts')
    (perm : words.Perm others) : counts = counts' := by
  have irrefl : Std.Irrefl fun first second : String × Int => first.1 < second.1 :=
    ⟨fun entry => lt_irrefl entry.1⟩
  have asymm : Std.Asymm fun first second : String × Int => first.1 < second.1 :=
    ⟨fun _ _ less => less.asymm⟩
  refine List.Pairwise.eq_of_mem_iff tally.ascends tally'.ascends fun entry => ?_
  rw [tally.mem_iff, tally'.mem_iff, perm.mem_iff, perm.count_eq]

/-- **The tally of two lists of words** is the sum of theirs, word by word. -/
theorem lookup_append (tally : IsTally words counts) (tally' : IsTally others counts')
    {total : List (String × Int)} (whole : IsTally (words ++ others) total) (word : String) :
    total.lookup word = Option.merge (· + ·) (counts.lookup word) (counts'.lookup word) := by
  rw [whole.lookup, tally.lookup, tally'.lookup]
  by_cases first : word ∈ words <;> by_cases second : word ∈ others <;>
    simp [first, second, List.count_eq_zero_of_not_mem]

end IsTally

/-- **A summary holds the tally of the words** under which its routes are counted. -/
theorem isTally_byMethod (routes : List Route) :
    IsTally (routes.map methodOf) (ofRoutes routes).byMethod := by
  show IsTally _ (routes.foldl (fun counts route => Summary.count (methodOf route) counts) [])
  induction routes using List.reverseRecOn with
  | nil => exact .nil
  | append_singleton routes route ih =>
    rw [List.map_append, List.foldl_append]
    exact ih.count (methodOf route)

/-! ## Summaries -/

/-- **A summary does not depend on the order** of the routes. -/
theorem ofRoutes_eq_of_perm {xs ys : List Route} (perm : xs.Perm ys) :
    ofRoutes xs = ofRoutes ys := by
  have byMethod : (ofRoutes xs).byMethod = (ofRoutes ys).byMethod :=
    (isTally_byMethod xs).unique (isTally_byMethod ys) (perm.map methodOf)
  simp only [ofRoutes, mk.injEq, perm.length_eq, perm.countP_eq, true_and, and_true]
  exact byMethod

/-- A summary is the **sum** of two others when each of its counts is. -/
structure IsSum (total first second : Summary) : Prop where
  /-- Routes are added. -/
  routes : total.routes = first.routes + second.routes
  /-- Those with a handler are. -/
  handlers : total.handlers = first.handlers + second.handlers
  /-- Those without one are. -/
  missingHandlers : total.missingHandlers = first.missingHandlers + second.missingHandlers
  /-- Those with a problem are. -/
  withErrors : total.withErrors = first.withErrors + second.withErrors
  /-- The numbers for each method are: one that stands in a single summary is kept. -/
  byMethod : ∀ word, total.byMethod.lookup word =
    Option.merge (· + ·) (first.byMethod.lookup word) (second.byMethod.lookup word)
  /-- Those with a parameter are. -/
  dynamic : total.dynamic = first.dynamic + second.dynamic
  /-- Those with a catch-all parameter are. -/
  catchAll : total.catchAll = first.catchAll + second.catchAll

/-- The routes without a handler are counted as such. -/
theorem missingHandlers_ofRoutes (routes : List Route) :
    (ofRoutes routes).missingHandlers = routes.countP (!·.hasHandler) := by
  have parts := List.length_eq_countP_add_countP (·.hasHandler) (l := routes)
  simp only [Bool.not_eq_true, Bool.decide_eq_false] at parts
  show routes.length - routes.countP (·.hasHandler) = _
  omega

/-- **The summary of two lists of routes** is the sum of theirs. -/
theorem isSum_ofRoutes (xs ys : List Route) :
    IsSum (ofRoutes (xs ++ ys)) (ofRoutes xs) (ofRoutes ys) where
  routes := List.length_append
  handlers := List.countP_append
  missingHandlers := by simp only [missingHandlers_ofRoutes, List.countP_append]
  withErrors := List.countP_append
  byMethod := by
    have whole := isTally_byMethod (xs ++ ys)
    rw [List.map_append] at whole
    exact (isTally_byMethod xs).lookup_append (isTally_byMethod ys) whole
  dynamic := List.countP_append
  catchAll := List.countP_append

/-- A summary is **balanced** when it counts each of so many routes once in every way. -/
structure IsBalanced (summary : Summary) (size : Nat) : Prop where
  /-- All routes are counted. -/
  routes : summary.routes = size
  /-- Each has a handler or none. -/
  handlers : summary.handlers + summary.missingHandlers = size
  /-- Each is counted for one method. -/
  sum : (summary.byMethod.map Prod.snd).sum = size
  /-- A method is listed only for a route. -/
  positive : ∀ entry ∈ summary.byMethod, 1 ≤ entry.2
  /-- The methods stand in strictly ascending order. -/
  ascends : Ascends summary.byMethod

/-- **The summary of routes is balanced.** -/
theorem isBalanced_ofRoutes (routes : List Route) : IsBalanced (ofRoutes routes) routes.length where
  routes := rfl
  handlers := by
    have most := List.countP_le_length (p := (·.hasHandler)) (l := routes)
    show routes.countP (·.hasHandler) + (routes.length - routes.countP (·.hasHandler)) = _
    omega
  sum := by simpa using (isTally_byMethod routes).sum
  positive entry member := by
    obtain ⟨occurs, number⟩ := (isTally_byMethod routes).mem_iff.1 member
    have often : 0 < (routes.map methodOf).count entry.1 := List.count_pos_iff.2 occurs
    omega
  ascends := (isTally_byMethod routes).ascends

end FileRoutes.Summary
