import IndexedRecords.Text.Cut

/-!
# Replacing marks in texts

An occurrence of a mark may lie across the place where two texts meet. It does not where the second
text starts with a character that stands nowhere in the mark but at its front; then the marks of the
two texts are replaced one text at a time (`replaceAll_append_cons`).
-/

namespace IndexedRecords.Text

variable {mark replacement : List Char} {c : Char}

/-- What starts with a mark, across the place where a text meets one that starts with a character
from outside the rest of the mark, starts with it before that place. -/
theorem prefix_of_prefix_append_cons {xs ys : List Char} (hc : c ∉ mark.tail) (hxs : xs ≠ [])
    (h : mark <+: xs ++ c :: ys) : mark <+: xs := by
  rcases List.prefix_or_prefix_of_prefix h (List.prefix_append xs (c :: ys)) with hle | hle
  · exact hle
  · obtain ⟨more, rfl⟩ := hle
    have hmore : more <+: c :: ys := (List.prefix_append_right_inj xs).mp h
    cases more with
    | nil => simp
    | cons d more =>
      obtain rfl : d = c := (List.cons_prefix_cons.mp hmore).1
      obtain ⟨x, xs, rfl⟩ := List.exists_cons_of_ne_nil hxs
      exact absurd (by simp) hc

theorem replaceFrom_eq_drop (skip : Nat) (cs : List Char) :
    replaceFrom mark replacement skip cs = replaceAll mark replacement (cs.drop skip) := by
  induction cs generalizing skip with
  | nil => rw [replaceFrom, List.drop_nil]; rfl
  | cons c cs ih =>
    cases skip with
    | zero => rfl
    | succ skip => rw [replaceFrom, ih, List.drop_succ_cons]

theorem replaceFrom_append_cons (hc : c ∉ mark.tail) (skip : Nat) (xs ys : List Char) :
    replaceFrom mark replacement skip (xs ++ c :: ys) =
      replaceFrom mark replacement skip xs ++
        replaceFrom mark replacement (skip - xs.length) (c :: ys) := by
  induction xs generalizing skip with
  | nil => rw [replaceFrom, List.nil_append, List.nil_append, List.length_nil, Nat.sub_zero]
  | cons x xs ih =>
    cases skip with
    | succ skip =>
      rw [List.cons_append, replaceFrom, replaceFrom, ih, List.length_cons, Nat.add_sub_add_right]
    | zero =>
      rw [List.cons_append, replaceFrom, replaceFrom, Nat.zero_sub]
      -- a mark that starts before the character ends before it, since it has it nowhere but at its
      -- start
      by_cases hmark : mark <+: x :: xs
      · have hmark' : mark <+: x :: (xs ++ c :: ys) := hmark.trans (List.prefix_append _ (c :: ys))
        have hskip : mark.length - 1 - xs.length = 0 := by
          have := hmark.length_le
          rw [List.length_cons] at this
          omega
        rw [if_pos (List.isPrefixOf_iff_prefix.mpr hmark'),
          if_pos (List.isPrefixOf_iff_prefix.mpr hmark), ih, hskip, List.append_assoc]
      · have hmark' : ¬ mark <+: x :: (xs ++ c :: ys) := fun h =>
          hmark (prefix_of_prefix_append_cons hc (List.cons_ne_nil x xs) h)
        rw [if_neg (mt List.isPrefixOf_iff_prefix.mp hmark'),
          if_neg (mt List.isPrefixOf_iff_prefix.mp hmark), ih, Nat.zero_sub, List.cons_append]

/-- **Replacing across a boundary.** No mark lies across the front of a text that starts with a
character from outside the rest of the mark. -/
theorem replaceAll_append_cons (hc : c ∉ mark.tail) (xs ys : List Char) :
    replaceAll mark replacement (xs ++ c :: ys) =
      replaceAll mark replacement xs ++ replaceAll mark replacement (c :: ys) := by
  rw [replaceAll, replaceFrom_append_cons hc, Nat.zero_sub]
  rfl

theorem replaceAll_mark_append (hmark : mark ≠ []) (ys : List Char) :
    replaceAll mark replacement (mark ++ ys) = replacement ++ replaceAll mark replacement ys := by
  obtain ⟨d, more, rfl⟩ := List.exists_cons_of_ne_nil hmark
  have hprefix : (d :: more).isPrefixOf (d :: (more ++ ys)) :=
    List.isPrefixOf_iff_prefix.mpr (List.prefix_append (d :: more) ys)
  rw [List.cons_append, replaceAll, replaceFrom, if_pos hprefix, List.length_cons,
    Nat.add_sub_cancel, replaceFrom_eq_drop, List.drop_left]

/-- A character that no mark starts at stays. -/
theorem replaceAll_cons_of_not_leading {cs : List Char} (h : ¬ mark <+: c :: cs) :
    replaceAll mark replacement (c :: cs) = c :: replaceAll mark replacement cs := by
  rw [replaceAll, replaceFrom, if_neg (mt List.isPrefixOf_iff_prefix.mp h)]
  rfl

theorem replaceAll_cons_of_notMem (hmark : mark ≠ []) (hc : c ∉ mark) (cs : List Char) :
    replaceAll mark replacement (c :: cs) = c :: replaceAll mark replacement cs := by
  obtain ⟨d, more, rfl⟩ := List.exists_cons_of_ne_nil hmark
  refine replaceAll_cons_of_not_leading fun h => hc ?_
  rw [(List.cons_prefix_cons.mp h).1]
  exact List.mem_cons_self

/-- A text without some character of the mark stays. -/
theorem replaceAll_of_notMem (hc : c ∈ mark) {cs : List Char} (hcs : c ∉ cs) :
    replaceAll mark replacement cs = cs := by
  induction cs with
  | nil => rfl
  | cons d cs ih =>
    have hcs' : c ∉ cs := fun hmem => hcs (List.mem_cons_of_mem d hmem)
    rw [replaceAll_cons_of_not_leading fun h => hcs (h.subset hc), ih hcs']

/-- A single character is replaced one text at a time. -/
theorem replaceAll_singleton_append (xs ys : List Char) :
    replaceAll [c] replacement (xs ++ ys) =
      replaceAll [c] replacement xs ++ replaceAll [c] replacement ys := by
  cases ys with
  | nil => simp [replaceAll, replaceFrom]
  | cons y ys => exact replaceAll_append_cons List.not_mem_nil xs ys

end IndexedRecords.Text
