import FileRoutes.Proofs.Text.Gap
import FileRoutes.Source.Block

/-! # The entries of any body

Whatever an object body holds, its entries have different keys (`nodup_keys_entries`), and no value
has blanks at its ends (`trim_of_mem_entries`). -/

namespace FileRoutes.Source

open Text

/-! ## Keys -/

section Keys

variable {seen : List (List Char)} {found : List (List Char × List Char)}

/-- Entries are left out, and none is added or moved. -/
theorem firstOfEachKey_sublist : (firstOfEachKey seen found).Sublist found := by
  induction found generalizing seen with
  | nil => exact List.Sublist.refl []
  | cons entry rest ih =>
    rw [firstOfEachKey]
    split
    · exact ih.cons entry
    · exact ih.cons_cons entry

/-- A key that was seen is not kept. -/
theorem not_mem_seen_of_mem {entry : List Char × List Char}
    (member : entry ∈ firstOfEachKey seen found) : entry.1 ∉ seen := by
  induction found generalizing seen with
  | nil => cases member
  | cons first rest ih =>
    rw [firstOfEachKey] at member
    split at member
    next => exact ih member
    next fresh =>
      rcases List.mem_cons.1 member with rfl | later
      · exact fresh
      · exact fun inside => ih later (List.mem_cons_of_mem _ inside)

/-- The keys that are kept differ. -/
theorem nodup_keys_firstOfEachKey : ((firstOfEachKey seen found).map Prod.fst).Nodup := by
  induction found generalizing seen with
  | nil => exact List.nodup_nil
  | cons first rest ih =>
    rw [firstOfEachKey]
    split
    · exact ih
    · rw [List.map_cons, List.nodup_cons]
      refine ⟨fun again => ?_, ih⟩
      -- From its first entry on the key counts as seen.
      obtain ⟨entry, member, same⟩ := List.mem_map.1 again
      exact not_mem_seen_of_mem member (same ▸ List.mem_cons_self)

end Keys

/-- **The keys of a body differ.** -/
theorem nodup_keys_entries (body : List Char) : ((entries body).map Prod.fst).Nodup :=
  nodup_keys_firstOfEachKey

/-! ## Values -/

/-- The value of a part has no blanks at its ends. -/
theorem trim_splitEntry (part : List Char) : trim (splitEntry part).2 = (splitEntry part).2 := by
  unfold splitEntry
  split
  next key value _ => exact trim_trim value
  next => rfl

/-- **The values of a body** have no blanks at their ends. -/
theorem trim_of_mem_entries {body : List Char} {entry : List Char × List Char}
    (member : entry ∈ entries body) : trim entry.2 = entry.2 := by
  obtain ⟨part, -, read⟩ := List.mem_filterMap.1 (firstOfEachKey_sublist.subset member)
  unfold entry? at read
  split at read
  next => cases read
  next =>
    simp only at read
    split at read
    next => cases read
    next =>
      obtain rfl := Option.some.inj read
      exact trim_splitEntry part

end FileRoutes.Source
