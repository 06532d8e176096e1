import IndexedRecords.Number.Whole
import Mathlib.Algebra.Group.Nat.Defs

/-!
# Digits of whole numbers
-/

namespace IndexedRecords

theorem wholeText_ne_nil (n : Int) : wholeText n ≠ [] := by
  simp [wholeText]

theorem eq_minus_or_isDigit_of_mem_wholeText {n : Int} {c : Char} (h : c ∈ wholeText n) :
    c = '-' ∨ c.isDigit = true := by
  rw [wholeText, List.mem_append] at h
  obtain hsign | hdigit := h
  · split at hsign
    · exact .inl (List.mem_singleton.mp hsign)
    · cases hsign
  · exact .inr (Nat.isDigit_of_mem_toDigits (by decide) (by decide) hdigit)

/-- A minus takes one more character than the digits. -/
theorem length_wholeText (n : Int) :
    (wholeText n).length = (Nat.toDigits 10 n.natAbs).length + if n < 0 then 1 else 0 := by
  rw [wholeText, List.length_append, Nat.add_comm]
  split <;> rfl

/-- A whole number of fewer digits than a limit is written within it, with a minus or without. -/
theorem length_wholeText_le {n : Int} {limit : Nat}
    (h : (Nat.toDigits 10 n.natAbs).length < limit) : (wholeText n).length ≤ limit := by
  rw [length_wholeText]
  split <;> omega

/-- The successor of a number has at most one more digit, and so have all smaller ones. -/
theorem length_toDigits_le {n m limit : Nat} (hm : m ≤ n + 1)
    (h : (Nat.toDigits 10 n).length < limit) : (Nat.toDigits 10 m).length ≤ limit := by
  have hpos : 0 < (Nat.toDigits 10 n).length := Nat.length_toDigits_pos
  obtain ⟨k, rfl⟩ : ∃ k, limit = k + 1 := ⟨limit - 1, by omega⟩
  have hn : n < 10 ^ k := (Nat.length_toDigits_le_iff (by decide) (by omega)).mp (by omega)
  refine (Nat.length_toDigits_le_iff (by decide) (by omega)).mpr ?_
  -- `n + 1` is at most `10 ^ k`, so there is room in one more digit
  rw [Nat.pow_succ]
  omega

/-- A number is at least the power of ten that has as many digits. -/
theorem pow_length_le {m : Nat} (hm : m ≠ 0) : 10 ^ ((Nat.toDigits 10 m).length - 1) ≤ m := by
  refine Nat.le_of_not_lt fun hlt => ?_
  have hlength : 0 < (Nat.toDigits 10 m).length := Nat.length_toDigits_pos
  by_cases hone : (Nat.toDigits 10 m).length - 1 = 0
  · rw [hone, Nat.pow_zero] at hlt
    omega
  · have hle := (Nat.length_toDigits_le_iff (show 1 < 10 by decide)
      (Nat.pos_of_ne_zero hone)).mpr hlt
    omega

end IndexedRecords
