import FileRoutes.Analysis.Discovery
import Mathlib.Data.List.Infix

/-! # Names of route files

Two tests look at the end of a name: the search for route files takes the suffix behind the last dot
(`isRouteFileName`), and the URL path is freed of an extension that the text ends in
(`UrlPath.stripExtension`). They agree: a name that does not begin with a dot has the suffix of a
route file exactly when it ends in a route extension (`isRouteFileName_iff_isSuffix`), and then that
extension is what is removed (`UrlPath.stripExtension_append`). -/

namespace FileRoutes

/-- **The suffix of a name** is a dot and a word without dots exactly when the name ends in them and
something stands in front. -/
theorem Path.suffix_eq_iff {name word : List Char} (nonempty : word ≠ []) (whole : '.' ∉ word) :
    Path.suffix name = '.' :: word ↔ ∃ stem, stem ≠ [] ∧ name = stem ++ '.' :: word := by
  unfold Path.suffix
  constructor
  · intro found
    have parts := List.takeWhile_append_dropWhile (p := (· != '.')) (l := name.reverse)
    have stops := List.head?_dropWhile_not (· != '.') name.reverse
    generalize name.reverse.takeWhile (· != '.') = tail at found parts
    generalize name.reverse.dropWhile (· != '.') = front at parts stops
    dsimp only at found
    split at found
    · cases found
    next long =>
      obtain rfl : tail.reverse = word := List.tail_eq_of_cons_eq found
      have whole := congrArg List.reverse parts
      rw [List.reverse_reverse, List.reverse_append] at whole
      -- In front of the word there is a dot, and more than that.
      cases front with
      | nil =>
        rw [← whole] at long
        simp at long
      | cons c front =>
        obtain rfl : c = '.' := by simpa using stops
        refine ⟨front.reverse, ?_, by rw [← whole]; simp⟩
        intro nothing
        rw [← whole] at long
        simp [List.reverse_eq_nil_iff.1 nothing] at long
  · rintro ⟨stem, something, rfl⟩
    have backwards : (stem ++ '.' :: word).reverse = word.reverse ++ '.' :: stem.reverse := by simp
    have letters : ∀ c ∈ word.reverse, (c != '.') = true := by
      intro c member
      simp only [bne_iff_ne]
      rintro rfl
      exact whole (List.mem_reverse.1 member)
    have tail : (stem ++ '.' :: word).reverse.takeWhile (· != '.') = word.reverse := by
      rw [backwards, List.takeWhile_append_of_pos letters, List.takeWhile_cons_of_neg (by simp),
        List.append_nil]
    have positive := List.length_pos_iff.2 something
    simp only [tail]
    rw [if_neg, List.reverse_reverse]
    simp only [Bool.or_eq_true, List.isEmpty_iff, List.reverse_eq_nil_iff, nonempty, false_or,
      decide_eq_true_eq, List.length_append, List.length_cons, List.length_reverse]
    omega

namespace UrlPath

/-- An extension is taken off a text that ends in it. -/
theorem dropExtension?_eq_some_iff {extension text rest : List Char} :
    dropExtension? extension text = some rest ↔ text = rest ++ extension := by
  rw [dropExtension?, Option.map_eq_some_iff]
  constructor
  · rintro ⟨reversed, found, rfl⟩
    rw [Text.after?_eq_some] at found
    rw [← List.reverse_reverse text, found, List.reverse_append, List.reverse_reverse]
  · rintro rfl
    refine ⟨rest.reverse, Text.after?_eq_some.2 ?_, List.reverse_reverse rest⟩
    rw [List.reverse_append]

/-- **A route extension at the end of a text is what is removed from it.** -/
theorem stripExtension_append {extension : List Char} (member : extension ∈ extensions)
    (stem : List Char) : stripExtension (stem ++ extension) = stem := by
  have removed : dropExtension? extension (stem ++ extension) = some stem :=
    dropExtension?_eq_some_iff.2 rfl
  unfold stripExtension
  simp only [extensions, List.mem_cons, List.not_mem_nil, or_false] at member
  rcases member with rfl | rfl
  · simp [extensions, removed]
  · -- The shorter extension, which is tried first, ends in another letter.
    have other : dropExtension? ['.', 't', 's'] (stem ++ ['.', 't', 's', 'x']) = none := by
      rw [Option.eq_none_iff_forall_ne_some]
      intro rest found
      have last := congrArg List.getLast? (dropExtension?_eq_some_iff.1 found)
      simp at last
    simp [extensions, removed, other]

end UrlPath

/-- **A name has the suffix of a route file** exactly when it ends in a route extension behind at
least one character. -/
theorem isRouteFileName_iff {name : String} :
    isRouteFileName name = true ↔
      ∃ extension ∈ UrlPath.extensions, ∃ stem, stem ≠ [] ∧ name.toList = stem ++ extension := by
  have ts : Path.suffix name.toList = ['.', 't', 's'] ↔ _ :=
    Path.suffix_eq_iff (by decide) (by decide)
  have tsx : Path.suffix name.toList = ['.', 't', 's', 'x'] ↔ _ :=
    Path.suffix_eq_iff (by decide) (by decide)
  simp only [isRouteFileName, UrlPath.extensions, List.contains_iff_mem, List.mem_cons,
    List.not_mem_nil, or_false, exists_eq_or_imp, exists_eq_left, ts, tsx]

/-- Of a name that does not begin with a dot, the end alone decides. -/
theorem isRouteFileName_iff_isSuffix {name : String} (visible : name.toList.head? ≠ some '.') :
    isRouteFileName name = true ↔
      ∃ extension ∈ UrlPath.extensions, extension <:+ name.toList := by
  rw [isRouteFileName_iff]
  refine exists_congr fun extension => and_congr_right fun member => ?_
  constructor
  · rintro ⟨stem, -, ends⟩
    exact ⟨stem, ends.symm⟩
  · rintro ⟨stem, ends⟩
    refine ⟨stem, ?_, ends.symm⟩
    rintro rfl
    -- Without anything in front the name would begin with the dot of the extension.
    have dot : extension.head? = some '.' := by
      simp only [UrlPath.extensions, List.mem_cons, List.not_mem_nil, or_false] at member
      rcases member with rfl | rfl <;> rfl
    rw [← ends, List.nil_append] at visible
    exact visible dot

end FileRoutes
