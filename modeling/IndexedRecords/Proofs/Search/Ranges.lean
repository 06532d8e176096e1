import IndexedRecords.Proofs.Number.Layout
import IndexedRecords.Proofs.Search.Clauses

/-!
# Numbers in ranges

A range of a query has two bounds, and a parenthesis before a bound keeps the bound itself out. The
clause of a comparison with a number is a range that contains exactly the numbers for which the
comparison holds. On a leaf of whole numbers a strict bound moves on to the next whole number, so
that this is right for whole numbers only.

## Main statements

* `FieldTest.clause_compare_eq`: a comparison is rendered as a range.
* `FieldTest.contains_compareAtom_iff`: which numbers this range contains.
-/

namespace IndexedRecords

open Search Traversal

/-! ### Numbers -/

namespace Number

/-- Whether a number is neither an infinity nor no number. -/
def isFinite : Number → Bool
  | .int _ => true
  | .float x => !x.isSpecial

/-- The number that is shown, a floating one by its shortest decimal. -/
def value : Number → ℚ
  | .int n => n
  | .float (.finite negative units) => Binary64.decimal negative units
  | .float _ => 0

/-- A number in the text of a query. -/
def text : Number → List Char
  | .int n => wholeText n
  | .float x => x.text

/-- The number of digits that a whole number has in a text. -/
def digits : Number → Nat
  | .int n => (Nat.toDigits 10 n.natAbs).length
  | .float _ => 0

variable {x : Number}

/-- A finite number is read back from its text, exactly. -/
theorem value?_text (h : x.isFinite) : Numeral.value? x.text = some x.value := by
  cases x with
  | int n => exact Numeral.value?_wholeText n
  | float x =>
    cases x with
    | finite negative units => exact Numeral.value?_finite .query negative units
    | _ => cases h

theorem display_eq (h : x.digits ≤ Numeral.digitLimit) :
    x.display = .ok (String.ofList x.text) := by
  cases x with
  | int n => exact if_neg (Nat.not_lt.mpr h)
  | float x => rfl

end Number

/-! ### Bounds -/

namespace Search

/-- Whether a number lies on the inner side of a lower bound. -/
def isAbove : List Char → ℚ → Bool
  | '(' :: low, x => (Numeral.value? low).any (· < x)
  | low, x => low = "-inf".toList || (Numeral.value? low).any (· ≤ x)

/-- Whether a number lies on the inner side of an upper bound. -/
def isBelow : List Char → ℚ → Bool
  | '(' :: high, x => (Numeral.value? high).any (x < ·)
  | high, x => high = "+inf".toList || (Numeral.value? high).any (x ≤ ·)

/-- Whether a range contains a number. -/
def Atom.contains : Atom → ℚ → Bool
  | .range _ low high, x => isAbove low x && isBelow high x
  | .tag _ _, _ => false

variable {low high : List Char} {x y : ℚ}

/-- A lower bound by itself lets its own number in. -/
theorem isAbove_closed_iff (h : Numeral.value? low = some y) : isAbove low x ↔ y ≤ x := by
  unfold isAbove
  split
  · cases h
  · have hne : low ≠ "-inf".toList := by
      rintro rfl
      cases h
    rw [decide_eq_false hne, Bool.false_or, h, Option.any_some, decide_eq_true_eq]

/-- A lower bound after a parenthesis keeps its own number out. -/
theorem isAbove_open_iff (h : Numeral.value? low = some y) : isAbove ('(' :: low) x ↔ y < x := by
  rw [isAbove, h]
  simp

/-- An upper bound by itself lets its own number in. -/
theorem isBelow_closed_iff (h : Numeral.value? high = some y) : isBelow high x ↔ x ≤ y := by
  unfold isBelow
  split
  · cases h
  · have hne : high ≠ "+inf".toList := by
      rintro rfl
      cases h
    rw [decide_eq_false hne, Bool.false_or, h, Option.any_some, decide_eq_true_eq]

/-- An upper bound after a parenthesis keeps its own number out. -/
theorem isBelow_open_iff (h : Numeral.value? high = some y) : isBelow ('(' :: high) x ↔ x < y := by
  rw [isBelow, h]
  simp

theorem isAbove_unbounded (x : ℚ) : isAbove "-inf".toList x := by
  simp [isAbove]

theorem isBelow_unbounded (x : ℚ) : isBelow "+inf".toList x := by
  simp [isBelow]

end Search

/-! ### Operands -/

namespace Value

variable {v : Value} {y : Number} {field : String}

/-- A value with a number has it as its payload, which is no text. -/
theorem numericLiteral_eq (h : v.indexedNumber field = .ok y) :
    v.numericLiteral field = y.display.mapError SearchFault.value := by
  have hpayload : v.payload.indexedNumber field = .ok y ∧ ∀ s, v.payload.plain ≠ .text s := by
    cases v with
    | member _ _ _ w =>
      cases w with
      | member _ kind _ w' =>
        cases kind <;> cases w' <;> first | (cases h; done) | exact ⟨h, fun s hs => by cases hs⟩
      | _ => first | (cases h; done) | exact ⟨h, fun s hs => by cases hs⟩
    | _ => first | (cases h; done) | exact ⟨h, fun s hs => by cases hs⟩
  rw [numericLiteral]
  split
  · next s hs => exact absurd hs (hpayload.2 s)
  · rw [hpayload.1]
    rfl

end Value

/-! ### Comparisons -/

/-- Whether a number compares with another one as asked. -/
def Comparison.holds : Comparison → ℚ → ℚ → Bool
  | .equal, x, y => x = y
  | .notEqual, x, y => x ≠ y
  | .greater, x, y => y < x
  | .greaterEqual, x, y => y ≤ x
  | .less, x, y => x < y
  | .lessEqual, x, y => x ≤ y

namespace FieldTest

variable {l : Leaf} {v : Value} {y : Number} {x : ℚ}

/-- A strict bound, with the number next to it on a leaf of whole numbers. -/
def strictText (l : Leaf) (y : Number) (inward : Int) : List Char :=
  match y with
  | .int n => if l.integral then wholeText (n + inward) else '(' :: wholeText n
  | .float x => '(' :: x.text

theorem boundNumber_eq (hnumeric : l.type = .numeric)
    (hy : v.indexedNumber l.queryAlias = .ok y) : boundNumber l v = .ok y := by
  rw [boundNumber, if_pos hnumeric, hy]

/-- A number is an inclusive bound by its text, if it can be shown. -/
theorem closedBound_eq (hnumeric : l.type = .numeric) (hy : v.indexedNumber l.queryAlias = .ok y)
    (hdigits : y.digits ≤ Numeral.digitLimit) : closedBound l v = .ok (String.ofList y.text) := by
  rw [closedBound, boundNumber_eq hnumeric hy]
  change y.display.mapError SearchFault.value = _
  rw [Number.display_eq hdigits]
  rfl

/-- A number is an exclusive bound by a parenthesis before its text. On a leaf of whole numbers it
is the next whole number instead, which may have one more digit. -/
theorem openBound_eq (hnumeric : l.type = .numeric) (hy : v.indexedNumber l.queryAlias = .ok y)
    (hdigits : y.digits < Numeral.digitLimit) {inward : Int} (hinward : inward.natAbs ≤ 1) :
    openBound l v inward = .ok (String.ofList (strictText l y inward)) := by
  rw [openBound, boundNumber_eq hnumeric hy]
  cases y with
  | float x => exact congrArg Except.ok (String.toList_injective (by simp [strictText]))
  | int n =>
    rw [strictText]
    have hnext (m : Int) (hm : m.natAbs ≤ n.natAbs + 1) :
        shownInt m = .ok (String.ofList (wholeText m)) :=
      shownInt_of_natAbs_le hm hdigits
    cases hintegral : l.integral with
    | true =>
      change (shownInt (n + inward)).mapError SearchFault.value = _
      rw [hnext (n + inward) (by omega)]
      rfl
    | false =>
      change (do return "(" ++ (← (shownInt n).mapError SearchFault.value)) = _
      rw [hnext n (Nat.le_succ _)]
      exact congrArg Except.ok (String.toList_injective (by simp))

theorem equalClause_eq (hnumeric : l.type = .numeric) (hy : v.indexedNumber l.queryAlias = .ok y)
    (hdigits : y.digits ≤ Numeral.digitLimit) :
    equalClause l v = .ok (String.ofList (l.rangeAtom y.text y.text).text) := by
  have hliteral : v.queryLiteral l.type l.queryAlias = .ok (String.ofList y.text) := by
    rw [hnumeric]
    refine (Value.numericLiteral_eq hy).trans ?_
    rw [Number.display_eq hdigits]
    rfl
  rw [equalClause, hliteral]
  simp only [hnumeric]
  exact congrArg Except.ok (String.toList_injective (by simp [Leaf.rangeAtom, Atom.text]))

/-- A strict lower bound lets in exactly the greater numbers: on a leaf of whole numbers, those from
the next one on are all of these. -/
theorem isAbove_strictText_iff (hy : y.isFinite) (hx : l.integral → ∃ m : Int, x = m) :
    isAbove (strictText l y 1) x ↔ y.value < x := by
  unfold strictText
  cases y with
  | float z => exact isAbove_open_iff (Number.value?_text hy)
  | int n =>
    dsimp only
    split
    · next hintegral =>
      obtain ⟨m, rfl⟩ := hx hintegral
      rw [isAbove_closed_iff (Numeral.value?_wholeText (n + 1)), Number.value]
      norm_cast
    · exact isAbove_open_iff (Numeral.value?_wholeText n)

/-- A strict upper bound lets in exactly the smaller numbers. -/
theorem isBelow_strictText_iff (hy : y.isFinite) (hx : l.integral → ∃ m : Int, x = m) :
    isBelow (strictText l y (-1)) x ↔ x < y.value := by
  unfold strictText
  cases y with
  | float z => exact isBelow_open_iff (Number.value?_text hy)
  | int n =>
    dsimp only
    split
    · next hintegral =>
      obtain ⟨m, rfl⟩ := hx hintegral
      rw [isBelow_closed_iff (Numeral.value?_wholeText (n + -1)), Number.value]
      norm_cast
      omega
    · exact isBelow_open_iff (Numeral.value?_wholeText n)

/-- The bounds between which a comparison with a number looks. -/
def boundsOf (l : Leaf) (op : Comparison) (y : Number) : List Char × List Char :=
  match op with
  | .equal | .notEqual => (y.text, y.text)
  | .greater => (strictText l y 1, "+inf".toList)
  | .greaterEqual => (y.text, "+inf".toList)
  | .less => ("-inf".toList, strictText l y (-1))
  | .lessEqual => ("-inf".toList, y.text)

/-- The range of a comparison with a number. -/
def compareAtom (l : Leaf) (op : Comparison) (y : Number) : Atom :=
  l.rangeAtom (boundsOf l op y).1 (boundsOf l op y).2

/-- A comparison with a number is rendered as its range. -/
theorem clause_compare_eq {op : Comparison} (hop : op ≠ .notEqual) (hnumeric : l.type = .numeric)
    (hy : v.indexedNumber l.queryAlias = .ok y) (hdigits : y.digits < Numeral.digitLimit) :
    (compare op v).clause l = .ok (String.ofList (compareAtom l op y).text) := by
  have hrange (low high : List Char) : (pure (rangeClause l (String.ofList low)
      (String.ofList high)) : Except SearchFault String) =
        .ok (String.ofList (l.rangeAtom low high).text) :=
    congrArg Except.ok (String.toList_injective (by rw [toList_rangeClause, String.toList_ofList]))
  cases op with
  | equal => exact equalClause_eq hnumeric hy hdigits.le
  | notEqual => exact absurd rfl hop
  | greater =>
    rw [clause, openBound_eq hnumeric hy hdigits (by decide)]
    exact hrange _ "+inf".toList
  | greaterEqual =>
    rw [clause, closedBound_eq hnumeric hy hdigits.le]
    exact hrange _ "+inf".toList
  | less =>
    rw [clause, openBound_eq hnumeric hy hdigits (by decide)]
    exact hrange "-inf".toList _
  | lessEqual =>
    rw [clause, closedBound_eq hnumeric hy hdigits.le]
    exact hrange "-inf".toList _

/-- The range between a number and itself contains this number only. -/
theorem contains_equal_iff (hy : y.isFinite) :
    (compareAtom l .equal y).contains x ↔ x = y.value := by
  have hvalue := Number.value?_text hy
  rw [compareAtom, Leaf.rangeAtom, Atom.contains, Bool.and_eq_true, boundsOf,
    isAbove_closed_iff hvalue, isBelow_closed_iff hvalue, and_comm]
  exact le_antisymm_iff.symm

/-- **Ranges of comparisons.** The range of a comparison contains the numbers for which it holds,
among whole numbers if the leaf is one of whole numbers. -/
theorem contains_compareAtom_iff {op : Comparison} (hop : op ≠ .notEqual) (hy : y.isFinite)
    (hx : l.integral → ∃ m : Int, x = m) :
    (compareAtom l op y).contains x ↔ op.holds x y.value := by
  have hvalue := Number.value?_text hy
  have hsplit (op : Comparison) : (compareAtom l op y).contains x ↔
      isAbove (boundsOf l op y).1 x ∧ isBelow (boundsOf l op y).2 x := by
    rw [compareAtom, Leaf.rangeAtom, Atom.contains, Bool.and_eq_true]
  cases op with
  | equal => rw [contains_equal_iff hy, Comparison.holds, decide_eq_true_eq]
  | notEqual => exact absurd rfl hop
  | greater =>
    rw [hsplit, boundsOf, isAbove_strictText_iff hy hx, and_iff_left (isBelow_unbounded x),
      Comparison.holds, decide_eq_true_eq]
  | greaterEqual =>
    rw [hsplit, boundsOf, isAbove_closed_iff hvalue, and_iff_left (isBelow_unbounded x),
      Comparison.holds, decide_eq_true_eq]
  | less =>
    rw [hsplit, boundsOf, isBelow_strictText_iff hy hx, and_iff_right (isAbove_unbounded x),
      Comparison.holds, decide_eq_true_eq]
  | lessEqual =>
    rw [hsplit, boundsOf, isBelow_closed_iff hvalue, and_iff_right (isAbove_unbounded x),
      Comparison.holds, decide_eq_true_eq]

end FieldTest

end IndexedRecords
