import IndexedRecords.Proofs.Number.Whole
import IndexedRecords.Proofs.Search.Escaping
import IndexedRecords.Proofs.Search.Reading
import IndexedRecords.Proofs.Traversal
import IndexedRecords.Search.Predicate

/-!
# Clauses of single tests

A test of one leaf by equality, by order or by membership is rendered as a clause whose reading says
what the test asks for. The clause of an inequality negates the one of the equality, and the clause
of a membership among numbers is the disjunction of equalities. All of this relies on operands that
fit the leaf: texts without backslashes for a tag, whole numbers that can be shown for a number.

## Main statements

* `FieldTest.isRead_of_fits`: the clause of a test has a reading, which holds where the test does.
-/

namespace IndexedRecords

open Search Text Traversal

/-! ### What a test asks for -/

/-- A value as an atom shows it. -/
def Value.atomText (v : Value) : List Char :=
  match v.payload with
  | .text s => escapeTagChars s.toList
  | .int n => wholeText n
  | _ => []

/-- A value can be compared with a leaf. One digit is left for the neighbours of a number. -/
inductive Value.Fits (v : Value) (l : Leaf) : Prop where
  | tag {s : String} (type : l.type = .tag) (text : v.payload = .text s) (plain : '\\' ∉ s.toList)
  | numeric {n : Int} (type : l.type = .numeric) (whole : v.payload = .int n)
      (digits : (Nat.toDigits 10 n.natAbs).length < Numeral.digitLimit)

namespace Leaf

/-- The alias of a leaf is a plain word. -/
def HasPlainAlias (l : Leaf) : Prop := l.queryAlias ≠ "" ∧ l.queryAlias.toList.all isNameChar

/-- The range of a leaf between two written bounds. -/
def rangeAtom (l : Leaf) (low high : List Char) : Atom := .range l.queryAlias.toList low high

/-- The equality of a leaf and a value. -/
def equalAtom (l : Leaf) (v : Value) : Atom :=
  if l.type = .tag then .tag l.queryAlias.toList v.atomText
  else l.rangeAtom v.atomText v.atomText

/-- The clause that a leaf has a value: parentheses enclose a tag. -/
def equalText (l : Leaf) (v : Value) : List Char :=
  if l.type = .tag then '(' :: (l.equalAtom v).text ++ [')'] else (l.equalAtom v).text

end Leaf

namespace FieldTest

/-- A bound that does not belong to the range, as a range shows it. -/
def openText (l : Leaf) (v : Value) (inward : Int) : List Char :=
  match v.payload with
  | .int n => if l.integral then wholeText (n + inward) else '(' :: wholeText n
  | _ => []

/-- A bound that may be missing, as a range shows it. -/
def boundText (unbounded : List Char) : Value → List Char
  | .none => unbounded
  | v => v.atomText

/-- The operands of a test fit the leaf: tags have no order, and all options are of one kind. -/
def Fits (l : Leaf) : FieldTest → Prop
  | .compare op v => v.Fits l ∧ (l.type = .numeric ∨ op = .equal ∨ op = .notEqual)
  | .between low high =>
    l.type = .numeric ∧ (low = .none ∨ low.Fits l) ∧ (high = .none ∨ high.Fits l)
  | .oneOf options => options ≠ [] ∧ ∀ v ∈ options, v.Fits l
  | .within _ _ _ _ => False

/-- Whether a test of a leaf holds where the atoms are true or false as given. Distances are left
out. -/
def holds (truth : Atom → Bool) (l : Leaf) : FieldTest → Bool
  | .compare .equal v => truth (l.equalAtom v)
  | .compare .notEqual v => !truth (l.equalAtom v)
  | .compare .greater v => truth (l.rangeAtom (openText l v 1) "+inf".toList)
  | .compare .greaterEqual v => truth (l.rangeAtom v.atomText "+inf".toList)
  | .compare .less v => truth (l.rangeAtom "-inf".toList (openText l v (-1)))
  | .compare .lessEqual v => truth (l.rangeAtom "-inf".toList v.atomText)
  | .between low high =>
    truth (l.rangeAtom (boundText "-inf".toList low) (boundText "+inf".toList high))
  | .oneOf options =>
    if l.type = .tag then
      truth (.tag l.queryAlias.toList (['|'].intercalate (options.map Value.atomText)))
    else options.any fun v => truth (l.equalAtom v)
  | .within _ _ _ _ => false

end FieldTest

/-! ### Tags -/

namespace Search

/-- A character that is no backslash is checked by itself, and the rest after it. -/
theorem isTagContent_cons {c : Char} {cs : List Char} (h : c ≠ '\\') :
    isTagContent (c :: cs) = (c ≠ '\x7b' && c ≠ '\x7d' && isTagContent cs) := by
  rw [isTagContent]
  · simp [h]
  · intro _ _ heq
    exact absurd heq h

/-- Texts that may stand between the braces of a tag may be put together there: the escapes of the
first one end where it ends. -/
theorem isTagContent_append {cs ds : List Char} (hcs : isTagContent cs = true)
    (hds : isTagContent ds = true) : isTagContent (cs ++ ds) = true := by
  induction cs using isTagContent.induct with
  | case1 => exact hds
  | case2 c cs ih =>
    rw [isTagContent] at hcs
    rw [List.cons_append, List.cons_append, isTagContent]
    exact ih hcs
  | case3 c cs hne ih =>
    by_cases hslash : c = '\\'
    · subst hslash
      cases cs with
      | nil => cases hcs
      | cons d cs => exact absurd rfl (hne d cs rfl)
    · rw [isTagContent_cons hslash, Bool.and_eq_true] at hcs
      rw [List.cons_append, isTagContent_cons hslash, hcs.1, ih hcs.2]
      rfl

/-- A text without backslashes may stand between braces after escaping. -/
theorem isTagContent_escapeTagChars {cs : List Char} (h : '\\' ∉ cs) :
    isTagContent (escapeTagChars cs) = true := by
  induction cs with
  | nil => rfl
  | cons c cs ih =>
    have hc : c ≠ '\\' := (List.ne_of_not_mem_cons h).symm
    have hcs : '\\' ∉ cs := List.not_mem_of_not_mem_cons h
    by_cases hreserved : c ∈ reservedInTags
    · rw [escapeTagChars_cons_of_mem hreserved]
      exact ih hcs
    -- both braces are among the characters that are escaped
    · have hopen : c ≠ '\x7b' := by
        rintro rfl
        exact hreserved (by decide)
      have hclose : c ≠ '\x7d' := by
        rintro rfl
        exact hreserved (by decide)
      rw [escapeTagChars_cons_of_notMem hreserved, isTagContent_cons hc, ih hcs]
      simp [hopen, hclose]

/-- So may several of them with bars in between. -/
theorem isTagContent_intercalate {css : List (List Char)} (h : ∀ cs ∈ css, isTagContent cs = true) :
    isTagContent (['|'].intercalate css) = true := by
  induction css with
  | nil => rfl
  | cons cs css ih =>
    have hcs := h cs List.mem_cons_self
    cases css with
    | nil => rwa [List.intercalate_singleton]
    | cons ds css =>
      rw [List.intercalate_cons_cons]
      exact isTagContent_append (isTagContent_append hcs rfl)
        (ih fun cs hmem => h cs (List.mem_cons_of_mem _ hmem))

/-! ### Numbers -/

/-- A text can be a bound of a range. -/
def IsBound (cs : List Char) : Prop := cs ≠ [] ∧ cs.all isBoundChar

/-- A bound may be prefixed by any of its characters; that is how an exclusive bound is made. -/
theorem isBound_cons {c : Char} {cs : List Char} (hc : isBoundChar c = true) (h : IsBound cs) :
    IsBound (c :: cs) :=
  ⟨List.cons_ne_nil _ _, by rw [List.all_cons, hc, h.2]; rfl⟩

/-- A whole number is written as a bound, its sign included. -/
theorem isBound_wholeText (n : Int) : IsBound (wholeText n) := by
  refine ⟨wholeText_ne_nil n, List.all_eq_true.mpr fun c hc => ?_⟩
  rw [isBoundChar, Bool.and_eq_true, decide_eq_true_iff, decide_eq_true_iff]
  -- neither a space nor a bracket is a minus or a digit
  constructor <;>
  · rintro rfl
    obtain hminus | hdigit := eq_minus_or_isDigit_of_mem_wholeText hc
    · cases hminus
    · cases hdigit

end Search

/-- A number that is at most one farther from zero than another one is shown if the other one has
fewer digits than the limit. One more digit is still within the limit. -/
theorem shownInt_of_natAbs_le {n m : Int} (hm : m.natAbs ≤ n.natAbs + 1)
    (h : (Nat.toDigits 10 n.natAbs).length < Numeral.digitLimit) :
    shownInt m = .ok (String.ofList (wholeText m)) :=
  if_neg (Nat.not_lt.mpr (length_toDigits_le hm h))

/-! ### Literals -/

namespace Value

variable {l : Leaf} {v : Value} {n : Int} {s : String}

/-- Texts stand escaped in an atom, whatever they consist of. -/
theorem atomText_of_text (h : v.payload = .text s) : v.atomText = escapeTagChars s.toList := by
  rw [atomText, h]

/-- Whole numbers stand in an atom as they are written. -/
theorem atomText_of_int (h : v.payload = .int n) : v.atomText = wholeText n := by
  rw [atomText, h]

/-- A whole number counts as itself under a numeric field. -/
theorem indexedNumber_of_int (h : v.payload = .int n) (field : String) :
    v.indexedNumber field = .ok (.int n) := by
  rw [indexedNumber, h]
  rfl

/-- A whole number is put into a query as it is shown, if it can be shown. -/
theorem numericLiteral_of_int (h : v.payload = .int n) {field : String} {text : String}
    (hshown : shownInt n = .ok text) : v.numericLiteral field = .ok text := by
  rw [numericLiteral, h]
  simp only [plain, indexedNumber_of_int (show (Value.int n).payload = .int n from rfl)]
  change (shownInt n).mapError SearchFault.value = .ok text
  rw [hshown]
  rfl

/-- An operand that fits a leaf is written in a query as an atom shows it. -/
theorem Fits.queryLiteral (h : v.Fits l) :
    v.queryLiteral l.type l.queryAlias = .ok (String.ofList v.atomText) := by
  cases h with
  | tag type text _ =>
    rw [atomText_of_text text, type]
    simp only [Value.queryLiteral, plainLiteral, text]
    rfl
  | numeric type whole digits =>
    rw [atomText_of_int whole, type]
    exact numericLiteral_of_int whole (shownInt_of_natAbs_le (Nat.le_succ _) digits)

end Value

namespace Leaf

variable {l : Leaf} {v : Value}

theorem HasPlainAlias.ne_nil (hl : l.HasPlainAlias) : l.queryAlias.toList ≠ [] := fun hempty =>
  hl.1 (String.toList_eq_nil_iff.mp hempty)

/-- An atom of a tag can be read back if its field has a plain alias and its content is kept apart
from the braces. -/
theorem isProper_tag (hl : l.HasPlainAlias) {content : List Char}
    (hcontent : isTagContent content = true) :
    (Atom.tag l.queryAlias.toList content).isProper = true := by
  simp [Atom.isProper, hl.ne_nil, hl.2, hcontent]

/-- An atom of a range can be read back if its field has a plain alias and both ends are bounds. -/
theorem isProper_rangeAtom (hl : l.HasPlainAlias) {low high : List Char} (hlow : IsBound low)
    (hhigh : IsBound high) : (l.rangeAtom low high).isProper = true := by
  simp [rangeAtom, Atom.isProper, hl.ne_nil, hl.2, hlow.1, hlow.2, hhigh.1, hhigh.2]

end Leaf

namespace FieldTest

variable {l : Leaf} {v : Value}

/-! ### Bounds -/

/-- The clause of a range is the text of its atom. -/
theorem toList_rangeClause (l : Leaf) (low high : List Char) :
    (rangeClause l (String.ofList low) (String.ofList high)).toList =
      (l.rangeAtom low high).text := by
  simp [rangeClause, Leaf.rangeAtom, Atom.text]

/-- What fits a numeric leaf is a number of which the neighbours can be shown. -/
theorem exists_int_of_fits (hnumeric : l.type = .numeric) (h : v.Fits l) :
    ∃ n : Int, v.payload = .int n ∧
      ∀ m : Int, m.natAbs ≤ n.natAbs + 1 → shownInt m = .ok (String.ofList (wholeText m)) := by
  cases h with
  | tag type _ _ =>
    rw [hnumeric] at type
    cases type
  | @numeric n _ whole digits => exact ⟨n, whole, fun m hm => shownInt_of_natAbs_le hm digits⟩

/-- The number that a bound on a numeric field stands for. -/
theorem boundNumber_of_int (hnumeric : l.type = .numeric) {n : Int} (h : v.payload = .int n) :
    boundNumber l v = .ok (.int n) := by
  rw [boundNumber, if_pos hnumeric]
  exact Value.indexedNumber_of_int h l.queryAlias

/-- A value that fits a numeric field gives an inclusive bound, which is a bound in the grammar
too. -/
theorem closedBound_of_fits (hnumeric : l.type = .numeric) (h : v.Fits l) :
    closedBound l v = .ok (String.ofList v.atomText) ∧ IsBound v.atomText := by
  obtain ⟨n, hn, hshown⟩ := exists_int_of_fits hnumeric h
  rw [Value.atomText_of_int hn]
  refine ⟨?_, isBound_wholeText n⟩
  rw [closedBound, boundNumber_of_int hnumeric hn]
  change (shownInt n).mapError SearchFault.value = _
  rw [hshown n (Nat.le_succ _)]
  rfl

/-- A value that fits a numeric field gives an exclusive bound: the next whole number where only
whole numbers are stored, and otherwise a bound marked as open. -/
theorem openBound_of_fits (hnumeric : l.type = .numeric) (h : v.Fits l) {inward : Int}
    (hinward : inward.natAbs ≤ 1) :
    openBound l v inward = .ok (String.ofList (openText l v inward)) ∧
      IsBound (openText l v inward) := by
  obtain ⟨n, hn, hshown⟩ := exists_int_of_fits hnumeric h
  rw [openBound, boundNumber_of_int hnumeric hn, openText, hn]
  -- only a leaf of whole numbers moves on to the next number
  cases hintegral : l.integral with
  | true =>
    refine ⟨?_, isBound_wholeText _⟩
    change (shownInt (n + inward)).mapError SearchFault.value = _
    rw [hshown (n + inward) (by omega)]
    rfl
  | false =>
    refine ⟨?_, isBound_cons (by decide) (isBound_wholeText n)⟩
    change (do return "(" ++ (← (shownInt n).mapError SearchFault.value)) = _
    rw [hshown n (Nat.le_succ _)]
    exact congrArg Except.ok (String.toList_injective (by simp))

/-- An end of a range may be left out, and then it is infinite. -/
theorem optionalBound_of_fits (hnumeric : l.type = .numeric) (h : v = .none ∨ v.Fits l)
    {unbounded : List Char} (hunbounded : IsBound unbounded) :
    optionalBound l (String.ofList unbounded) v = .ok (String.ofList (boundText unbounded v)) ∧
      IsBound (boundText unbounded v) := by
  obtain rfl | h := h
  · exact ⟨rfl, hunbounded⟩
  · have hne : v ≠ .none := by
      rintro rfl
      cases h with
      | tag _ text _ => cases text
      | numeric _ whole _ => cases whole
    -- no value that fits is null, so that neither side takes the bound for missing
    have hbound : boundText unbounded v = v.atomText := by
      cases v <;> first | rfl | exact absurd rfl hne
    have hoptional : optionalBound l (String.ofList unbounded) v = closedBound l v := by
      cases v <;> first | rfl | exact absurd rfl hne
    rw [hbound, hoptional]
    exact closedBound_of_fits hnumeric h

/-! ### Clauses -/

/-- A value that fits a field gives a clause for being equal to it. -/
theorem equalClause_of_fits (h : v.Fits l) :
    equalClause l v = .ok (String.ofList (l.equalText v)) := by
  rw [equalClause, h.queryLiteral]
  cases h with
  | tag type _ _ =>
    simp only [type, Leaf.equalText, Leaf.equalAtom, if_true]
    exact congrArg Except.ok (String.toList_injective (by simp [Atom.text]))
  | numeric type _ _ =>
    have hne : l.type ≠ .tag := by simp [type]
    simp only [Leaf.equalText, Leaf.equalAtom, if_neg hne]
    simp only [type]
    exact congrArg Except.ok (String.toList_injective (by simp [Leaf.rangeAtom, Atom.text]))

/-- The clause for being equal to a value is read as its atom and as nothing else. -/
theorem reads_equalText (hl : l.HasPlainAlias) (h : v.Fits l) :
    Reads (.atom (l.equalAtom v)) (l.equalText v) := by
  cases h with
  | tag type text plain =>
    rw [Leaf.equalText, if_pos type, Leaf.equalAtom, if_pos type]
    refine .enclosed (Leaf.isProper_tag hl ?_)
    rw [Value.atomText_of_text text]
    exact isTagContent_escapeTagChars plain
  | numeric type whole _ =>
    have hne : l.type ≠ .tag := by simp [type]
    rw [Leaf.equalText, if_neg hne, Leaf.equalAtom, if_neg hne]
    refine .atom (Leaf.isProper_rangeAtom hl ?_ ?_) <;>
    · rw [Value.atomText_of_int whole]
      exact isBound_wholeText _

/-- A clause has a reading, which holds where the given test does. -/
def IsRead (l : Leaf) (t : FieldTest) : Prop :=
  ∃ s reading, t.clause l = .ok s ∧ Reads reading s.toList ∧
    ∀ truth, reading.holds truth = t.holds truth l

/-- A test that gives the clause of a range between bounds is read as that range. -/
theorem isRead_of_range (hl : l.HasPlainAlias) {t : FieldTest} {low high : List Char}
    (hclause : t.clause l = .ok (rangeClause l (String.ofList low) (String.ofList high)))
    (hlow : IsBound low) (hhigh : IsBound high)
    (hholds : ∀ truth, t.holds truth l = truth (l.rangeAtom low high)) : IsRead l t := by
  refine ⟨_, .atom (l.rangeAtom low high), hclause, ?_, fun truth => (hholds truth).symm⟩
  rw [toList_rangeClause]
  exact .atom (Leaf.isProper_rangeAtom hl hlow hhigh)

/-- Being equal to a value that fits is read as it is meant. -/
theorem isRead_equal (hl : l.HasPlainAlias) (h : v.Fits l) : IsRead l (.compare .equal v) := by
  refine ⟨_, .atom (l.equalAtom v), equalClause_of_fits h, ?_, fun _ => rfl⟩
  rw [String.toList_ofList]
  exact reads_equalText hl h

/-- Being different from a value that fits is read as the negation of the atom. -/
theorem isRead_notEqual (hl : l.HasPlainAlias) (h : v.Fits l) :
    IsRead l (.compare .notEqual v) := by
  refine ⟨"-" ++ String.ofList (l.equalText v), .negation (.atom (l.equalAtom v)), ?_, ?_,
    fun _ => rfl⟩
  · rw [clause, equalClause_of_fits h]
    rfl
  · have htext : ("-" ++ String.ofList (l.equalText v)).toList = '-' :: l.equalText v := by simp
    rw [htext]
    exact .negation (reads_equalText hl h)

theorem isBound_plusInf : IsBound "+inf".toList := by
  refine ⟨by simp, rfl⟩

theorem isBound_minusInf : IsBound "-inf".toList := by
  refine ⟨by simp, rfl⟩

/-- Every comparison of numbers is a range. -/
theorem isRead_compare (hl : l.HasPlainAlias) (hnumeric : l.type = .numeric) (h : v.Fits l)
    (op : Comparison) : IsRead l (.compare op v) := by
  obtain ⟨hclosed, hbound⟩ := closedBound_of_fits hnumeric h
  -- the equalities have clauses of their own, all others are half-open ranges
  cases op with
  | equal => exact isRead_equal hl h
  | notEqual => exact isRead_notEqual hl h
  | greater =>
    obtain ⟨hopen, hbound⟩ := openBound_of_fits hnumeric h (show (1 : Int).natAbs ≤ 1 by decide)
    refine isRead_of_range hl ?_ hbound isBound_plusInf fun _ => rfl
    rw [clause, hopen]
    rfl
  | greaterEqual =>
    refine isRead_of_range hl ?_ hbound isBound_plusInf fun _ => rfl
    rw [clause, hclosed]
    rfl
  | less =>
    obtain ⟨hopen, hbound⟩ := openBound_of_fits hnumeric h (show (-1 : Int).natAbs ≤ 1 by decide)
    refine isRead_of_range hl ?_ isBound_minusInf hbound fun _ => rfl
    rw [clause, hopen]
    rfl
  | lessEqual =>
    refine isRead_of_range hl ?_ isBound_minusInf hbound fun _ => rfl
    rw [clause, hclosed]
    rfl

/-- A test between two ends, each of which may be missing, is read as it is meant. -/
theorem isRead_between (hl : l.HasPlainAlias) (hnumeric : l.type = .numeric) {low high : Value}
    (hlow : low = .none ∨ low.Fits l) (hhigh : high = .none ∨ high.Fits l) :
    IsRead l (.between low high) := by
  obtain ⟨hlowText, hlow⟩ := optionalBound_of_fits hnumeric hlow isBound_minusInf
  obtain ⟨hhighText, hhigh⟩ := optionalBound_of_fits hnumeric hhigh isBound_plusInf
  refine isRead_of_range hl ?_ hlow hhigh fun _ => rfl
  rw [String.ofList_toList] at hlowText hhighText
  rw [clause, hlowText, hhighText]
  rfl

/-- Several tags share one atom. -/
theorem isRead_oneOf_tag (hl : l.HasPlainAlias) (htag : l.type = .tag) {options : List Value}
    (h : ∀ v ∈ options, v.Fits l) : IsRead l (.oneOf options) := by
  have hliterals : (options.mapM fun v => v.queryLiteral l.type l.queryAlias) =
      .ok (options.map fun v => String.ofList v.atomText) :=
    mapM_eq_ok_map fun v hv => (h v hv).queryLiteral
  have hcontent : isTagContent (['|'].intercalate (options.map Value.atomText)) = true := by
    refine isTagContent_intercalate fun cs hcs => ?_
    obtain ⟨v, hv, rfl⟩ := List.mem_map.mp hcs
    cases h v hv with
    | tag _ text plain =>
      rw [Value.atomText_of_text text]
      exact isTagContent_escapeTagChars plain
    | numeric type _ _ =>
      rw [htag] at type
      cases type
  let atom : Atom := .tag l.queryAlias.toList (['|'].intercalate (options.map Value.atomText))
  refine ⟨String.ofList atom.text, .atom atom, ?_, ?_, fun truth => ?_⟩
  · rw [clause, oneOfClause, if_pos htag, hliterals]
    exact congrArg Except.ok
      (String.toList_injective (by simp [atom, Atom.text, Function.comp_def]))
  · rw [String.toList_ofList]
    exact .atom (Leaf.isProper_tag hl hcontent)
  · rw [holds, if_pos htag, Reading.holds]

/-- Several numbers are alternatives, and a single one stands for itself. -/
theorem isRead_oneOf_numeric (hl : l.HasPlainAlias) (hnumeric : l.type = .numeric)
    {options : List Value} (hne : options ≠ []) (h : ∀ v ∈ options, v.Fits l) :
    IsRead l (.oneOf options) := by
  have htag : l.type ≠ .tag := by simp [hnumeric]
  have hclauses : options.mapM (equalClause l) =
      .ok (options.map fun v => String.ofList (l.equalText v)) :=
    mapM_eq_ok_map fun v hv => equalClause_of_fits (h v hv)
  have hholds : ∀ truth, (FieldTest.oneOf options).holds truth l =
      options.any fun v => truth (l.equalAtom v) := fun truth => by rw [holds, if_neg htag]
  -- several clauses stand in parentheses, a single one does not
  match options, hne with
  | [v], _ =>
    refine ⟨String.ofList (l.equalText v), .atom (l.equalAtom v), ?_, ?_, fun truth => ?_⟩
    · rw [clause, oneOfClause, if_neg htag, hclauses]
      rfl
    · rw [String.toList_ofList]
      exact reads_equalText hl (h v List.mem_cons_self)
    · rw [hholds]
      simp [Reading.holds]
  | v :: w :: others, _ =>
    let all := v :: w :: others
    let text := '(' :: [' ', '|', ' '].intercalate (all.map l.equalText) ++ [')']
    refine ⟨String.ofList text, .any (all.map fun v => .atom (l.equalAtom v)), ?_, ?_,
      fun truth => ?_⟩
    · rw [clause, oneOfClause, if_neg htag, hclauses]
      exact congrArg Except.ok (String.toList_injective (by simp [text, all, Function.comp_def]))
    · rw [String.toList_ofList]
      refine .any (by simp [all]) (by simp) fun p hp => ?_
      rw [List.zip_map', List.mem_map] at hp
      obtain ⟨v, hv, rfl⟩ := hp
      exact reads_equalText hl (h v hv)
    · rw [hholds, Reading.holds, Reading.someHolds_eq_any, List.any_map]
      rfl

/-- **Clauses.** The clause of a test that fits has a reading, which holds where the test does. -/
theorem isRead_of_fits (hl : l.HasPlainAlias) {t : FieldTest} (h : t.Fits l) : IsRead l t := by
  cases t with
  | compare op v =>
    obtain ⟨hv, hnumeric | rfl | rfl⟩ := h
    · exact isRead_compare hl hnumeric hv op
    · exact isRead_equal hl hv
    · exact isRead_notEqual hl hv
  | between low high => exact isRead_between hl h.1 h.2.1 h.2.2
  | oneOf options =>
    obtain ⟨hne, heach⟩ := h
    obtain ⟨v, hv⟩ := List.exists_mem_of_ne_nil options hne
    -- the first option tells of which type the leaf is
    cases heach v hv with
    | tag type _ _ => exact isRead_oneOf_tag hl type heach
    | numeric type _ _ => exact isRead_oneOf_numeric hl type hne heach
  | within longitude latitude radius unit => cases h

end FieldTest

end IndexedRecords
