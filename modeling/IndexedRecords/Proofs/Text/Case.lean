import IndexedRecords.Text.Case

/-!
# Letter case

No letter has the dollar sign as its upper case, so a text starts with this sign exactly if its
upper case does. Words in upper case are thus told apart from paths, which start at the root.

A text in lower case stays when it is put in lower case, and no text becomes empty.
-/

namespace IndexedRecords.Text

theorem toNat_ofNat (n : Nat) : (Char.ofNat n).toNat = n ∨ (Char.ofNat n).toNat = 0 := by
  by_cases h : n.isValidChar
  · have hvalid : Char.ofNat n = Char.ofNatAux n h := dif_pos h
    exact .inl (congrArg Char.toNat hvalid)
  · have hinvalid : Char.ofNat n = '\x00' := dif_neg h
    exact .inr (congrArg Char.toNat hinvalid)

/-- The letters of a run stay above the dollar sign. -/
theorem dollar_lt_of_mem_upperRuns :
    ∀ run ∈ upperRuns, ('$'.toNat : Int) < run.1 + run.2.2.2 := by decide +kernel

/-- Several characters that stand for one letter start with no dollar sign. -/
theorem exists_of_mem_upperExpansions :
    ∀ e ∈ upperExpansions, ∃ n ∈ e.2.head?, Char.ofNat n ≠ '$' := by decide +kernel

theorem toUpper_eq_dollar {c : Char} (hc : c.toNat < 128) (h : c.toUpper = '$') : c = '$' := by
  have hascii : ∀ n < 128, (Char.ofNat n).toUpper = '$' → Char.ofNat n = '$' := by decide
  have hof := hascii c.toNat hc
  rw [Char.ofNat_toNat] at hof
  exact hof h

/-- The upper case of a character starts with the dollar sign only where the character is one. -/
theorem exists_upperChar_eq_cons (c : Char) :
    ∃ d ds, upperChar c = d :: ds ∧ (d = '$' → c = '$') := by
  rw [upperChar]
  split
  · next hc => exact ⟨_, [], rfl, toUpper_eq_dollar hc⟩
  · rw [shiftCase]
    split
    -- the tables of expansions and of runs are checked for the dollar sign as a whole
    · next n cs hfound =>
      obtain ⟨d, hd, hne⟩ := exists_of_mem_upperExpansions _ (List.mem_of_find?_eq_some hfound)
      obtain ⟨ds, rfl⟩ := List.head?_eq_some_iff.mp hd
      exact ⟨_, _, rfl, fun heq => absurd heq hne⟩
    · split
      · next first last step distance hfound =>
        have hrun : ('$'.toNat : Int) < first + distance :=
          dollar_lt_of_mem_upperRuns _ (List.mem_of_find?_eq_some hfound)
        have hfirst : first ≤ c.toNat := by
          have hin := List.find?_some hfound
          simp only [Bool.and_eq_true, decide_eq_true_eq] at hin
          exact hin.1.1
        refine ⟨_, [], rfl, fun heq => ?_⟩
        have hnat := toNat_ofNat (c.toNat + distance).toNat
        rw [heq] at hnat
        have hdollar : '$'.toNat = 36 := rfl
        omega
      · exact ⟨c, [], rfl, id⟩

/-- **The first character.** The upper case of a text starts with the dollar sign only where the
text does. -/
theorem head?_eq_dollar_of_upper {cs : List Char} (h : (upper cs).head? = some '$') :
    cs.head? = some '$' := by
  cases cs with
  | nil => cases h
  | cons c cs =>
    obtain ⟨d, ds, hupper, hdollar⟩ := exists_upperChar_eq_cons c
    rw [upper, List.flatMap_cons, hupper, List.cons_append, List.head?_cons] at h
    rw [List.head?_cons, hdollar (Option.some.inj h)]

/-! ### Lower case -/

theorem lowerFrom_eq_self {cs : List Char} (h : ∀ c ∈ cs, lowerChar c = [c])
    (passed : List Char) : lowerFrom passed cs = cs := by
  induction cs generalizing passed with
  | nil => rfl
  | cons c cs ih =>
    obtain ⟨hc, hcs⟩ := List.forall_mem_cons.mp h
    have hsigma : (c == 'Σ') = false := by
      refine beq_eq_false_iff_ne.mpr ?_
      rintro rfl
      exact absurd hc (by decide)
    rw [lowerFrom, hsigma, if_neg Bool.false_ne_true, hc, ih hcs, List.singleton_append]

/-- A text in lower case stays. -/
theorem lower_eq_self {cs : List Char} (h : ∀ c ∈ cs, lowerChar c = [c]) : lower cs = cs :=
  lowerFrom_eq_self h []

theorem lowerChar_ne_nil (c : Char) : lowerChar c ≠ [] := by
  have hexpansions : ∀ e ∈ lowerExpansions, e.2 ≠ [] := by decide
  rw [lowerChar]
  split
  · exact List.cons_ne_nil _ _
  · rw [shiftCase]
    split
    · next hfound =>
      exact mt List.map_eq_nil_iff.mp (hexpansions _ (List.mem_of_find?_eq_some hfound))
    · split <;> exact List.cons_ne_nil _ _

theorem lower_ne_nil {cs : List Char} (h : cs ≠ []) : lower cs ≠ [] := by
  obtain ⟨c, cs, rfl⟩ := List.exists_cons_of_ne_nil h
  rw [lower, lowerFrom]
  refine List.append_ne_nil_of_left_ne_nil ?_ _
  split
  · exact List.cons_ne_nil _ _
  · exact lowerChar_ne_nil c

end IndexedRecords.Text
