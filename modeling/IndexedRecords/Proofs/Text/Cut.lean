import IndexedRecords.Text.Cut
import IndexedRecords.Text.Ranges

/-!
# Cutting texts apart

A text is cut at a separator that stands nowhere before the place, or nowhere after it, and is left
whole where there is none. A text that has no character of a class at its ends stays when it is
trimmed.

## Main statements

* `cutFirst?_append`, `cutLast?_append`: texts that are cut at the first and at the last separator.
* `trimBy_eq_self`: texts with nothing to trim.
-/

namespace IndexedRecords.Text

variable {sep : Char} {cs before after : List Char} {p : Char → Bool}

/-! ### Separators -/

/-- A text is cut at the first separator: the part before it has none. -/
theorem cutFirst?_append (h : sep ∉ before) (after : List Char) :
    cutFirst? sep (before ++ sep :: after) = some (before, after) := by
  induction before with
  | nil => exact if_pos rfl
  | cons c before ih =>
    have hc : c ≠ sep := (List.ne_of_not_mem_cons h).symm
    rw [List.cons_append, cutFirst?, if_neg hc, ih (List.not_mem_of_not_mem_cons h)]
    rfl

theorem cutFirst?_eq_none_iff : cutFirst? sep cs = none ↔ sep ∉ cs := by
  induction cs with
  | nil => exact iff_of_true rfl List.not_mem_nil
  | cons c cs ih =>
    rw [cutFirst?, List.mem_cons, not_or]
    split
    · next hc => exact iff_of_false nofun fun h => h.1 hc.symm
    · next hc => rw [Option.map_eq_none_iff, ih, and_iff_right fun h : sep = c => hc h.symm]

/-- A text is cut at the last separator: the part after it has none. -/
theorem cutLast?_append (before : List Char) (h : sep ∉ after) :
    cutLast? sep (before ++ sep :: after) = some (before, after) := by
  have hreverse : (before ++ sep :: after).reverse = after.reverse ++ sep :: before.reverse := by
    simp
  rw [cutLast?, hreverse, cutFirst?_append (mt List.mem_reverse.mp h), Option.map_some]
  simp only [List.reverse_reverse]

theorem cutLast?_eq_none_iff : cutLast? sep cs = none ↔ sep ∉ cs := by
  rw [cutLast?, Option.map_eq_none_iff, cutFirst?_eq_none_iff, List.mem_reverse]

/-! ### Ends -/

theorem dropWhile_eq_self (h : ∀ c ∈ cs.head?, p c = false) : cs.dropWhile p = cs := by
  cases cs with
  | nil => rfl
  | cons c cs => exact List.dropWhile_cons_of_neg (Bool.eq_false_iff.mp (h c rfl))

/-- A text stays when it is trimmed if no character at its ends is to go. -/
theorem trimBy_eq_self (hhead : ∀ c ∈ cs.head?, p c = false)
    (hlast : ∀ c ∈ cs.getLast?, p c = false) : trimBy p cs = cs := by
  rw [trimBy, dropWhile_eq_self hhead, dropWhile_eq_self, List.reverse_reverse]
  rwa [List.head?_reverse]

theorem trimBy_eq_self_of_forall (h : ∀ c ∈ cs, p c = false) : trimBy p cs = cs :=
  trimBy_eq_self (fun c hc => h c (List.mem_of_mem_head? hc))
    fun c hc => h c (List.mem_of_mem_getLast? hc)

theorem trimBy_cons_of_pos {c : Char} (h : p c = true) (cs : List Char) :
    trimBy p (c :: cs) = trimBy p cs := by
  rw [trimBy, List.dropWhile_cons_of_pos h, trimBy]

end IndexedRecords.Text
