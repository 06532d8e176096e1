import IndexedRecords.Proofs.Calendar.Moment
import IndexedRecords.Proofs.Schema.Nesting
import IndexedRecords.Proofs.Search.Ranges
import IndexedRecords.Proofs.Search.Rendering

/-!
# What ranges select

A comparison with a number, and a test that lies between two numbers, are rendered as a range. It
contains the numbers that the operator names, among whole numbers if the leaf is one of whole
numbers. A date stands for the seconds to its start, which grow with the days of the calendar, so
that a comparison with a date selects dates by their order in the calendar.

## Main statements

* `FieldTest.exists_range_compare`, `FieldTest.exists_range_between`: the ranges of single tests.
* `Expression.range_selects`: the numbers and the dates that an expression selects.
-/

namespace IndexedRecords

open Search Traversal

/-! ### Comparisons in any order -/

namespace Comparison

variable {α β : Type} [LinearOrder α] [LinearOrder β]

/-- Whether an item compares with another one as asked. -/
def Relates : Comparison → α → α → Prop
  | .equal, x, y => x = y
  | .notEqual, x, y => x ≠ y
  | .greater, x, y => y < x
  | .greaterEqual, x, y => y ≤ x
  | .less, x, y => x < y
  | .lessEqual, x, y => x ≤ y

/-- The comparison of a query and the order of numbers say the same. -/
theorem holds_iff_relates (op : Comparison) (x y : ℚ) : op.holds x y ↔ op.Relates x y := by
  cases op <;> exact decide_eq_true_iff

/-- Items compare like their images under what keeps their order. -/
theorem relates_map_iff {f : α → β} {s : Set α} (hf : StrictMonoOn f s) {x y : α} (hx : x ∈ s)
    (hy : y ∈ s) (op : Comparison) : op.Relates (f x) (f y) ↔ op.Relates x y := by
  cases op with
  | equal => exact hf.injOn.eq_iff hx hy
  | notEqual => exact (hf.injOn.eq_iff hx hy).not
  | greater => exact hf.lt_iff_lt hy hx
  | greaterEqual => exact hf.le_iff_le hy hx
  | less => exact hf.lt_iff_lt hx hy
  | lessEqual => exact hf.le_iff_le hx hy

end Comparison

/-! ### Operands -/

namespace Value

variable {v : Value} {x : ℚ}

/-- A value stands for a whole number: it is one, it is a member of an enumeration of whole numbers,
or it is a date, which stands for the seconds to its start. One digit is left for the neighbours of
a number. -/
inductive IsNumber : Value → ℚ → Prop where
  | int {n : Int} (short : (Nat.toDigits 10 n.natAbs).length < Numeral.digitLimit) :
      IsNumber (.int n) n
  | member {enumeration name : String} {n : Int}
      (short : (Nat.toDigits 10 n.natAbs).length < Numeral.digitLimit) :
      IsNumber (.member enumeration .whole name (.int n)) n
  | date {d : Date} (valid : d.Valid) : IsNumber (.date d) d.epochSeconds

/-- A value is a date. -/
inductive IsDate : Value → Date → Prop where
  | date {d : Date} (valid : d.Valid) : IsDate (.date d) d

/-- A value is the end of a range, which is open where there is none. -/
inductive IsEnd {α : Type} (reads : Value → α → Prop) : Value → Option α → Prop where
  | unbounded : IsEnd reads .none Option.none
  | bounded {v : Value} {a : α} (stands : reads v a) : IsEnd reads v (some a)

/-- A date counts as the seconds from the start of 1970 to its midnight. -/
theorem IsDate.isNumber {d : Date} (h : v.IsDate d) : v.IsNumber d.epochSeconds := by
  cases h with
  | date valid => exact .date valid

theorem IsDate.valid {d : Date} (h : v.IsDate d) : d.Valid := by
  cases h with
  | date valid => exact valid

/-- An end of a range may be read in other terms, as the number of a date. -/
theorem IsEnd.map {α β : Type} {reads : Value → α → Prop} {reads' : Value → β → Prop} {f : α → β}
    (hf : ∀ v a, reads v a → reads' v (f a)) {a : Option α} (h : IsEnd reads v a) :
    IsEnd reads' v (a.map f) := by
  cases h with
  | unbounded => exact .unbounded
  | bounded stands => exact .bounded (hf _ _ stands)

theorem IsEnd.reads_of_mem {α : Type} {reads : Value → α → Prop} {a : Option α} {y : α}
    (h : IsEnd reads v a) (hy : y ∈ a) : reads v y := by
  cases h with
  | unbounded => cases hy
  | bounded stands =>
    obtain rfl := Option.some.inj hy
    exact stands

/-- The number that a value stands for is the one of an index. -/
theorem IsNumber.exists_indexedNumber (h : v.IsNumber x) (field : String) :
    ∃ n : Int, v.indexedNumber field = .ok (.int n) ∧ x = n ∧
      (Number.int n).digits < Numeral.digitLimit := by
  cases h with
  | int short => exact ⟨_, rfl, rfl, short⟩
  | member short => exact ⟨_, rfl, rfl, short⟩
  | date valid =>
    refine ⟨_, rfl, rfl, Nat.lt_of_le_of_lt ?_ (show 12 < Numeral.digitLimit by decide)⟩
    exact (Nat.length_toDigits_le_iff (by decide) (by decide)).mpr valid.natAbs_epochSeconds_lt

end Value

namespace FieldTest

variable {l : Leaf} {v low high : Value} {x : ℚ} {a b : Option ℚ}

/-! ### Comparisons -/

/-- The range of a comparison contains the numbers for which it holds. -/
theorem exists_range_compare (hnumeric : l.type = .numeric) (hv : v.IsNumber x) {op : Comparison}
    (hop : op ≠ .notEqual) : ∃ lower upper,
      (compare op v).clause l = .ok (String.ofList (l.rangeAtom lower upper).text) ∧
      ∀ z : ℚ, (l.integral → ∃ n : Int, z = n) →
        ((l.rangeAtom lower upper).contains z ↔ op.Relates z x) := by
  obtain ⟨n, hn, rfl, hdigits⟩ := hv.exists_indexedNumber l.queryAlias
  refine ⟨_, _, clause_compare_eq hop hnumeric hn hdigits, fun z hz => ?_⟩
  rw [← Comparison.holds_iff_relates]
  exact contains_compareAtom_iff hop rfl hz

/-! ### Bounds on both sides -/

/-- The text of an end of a range: a word where it is open, and else its number. -/
inductive IsEndText (word : String) : Option ℚ → List Char → Prop where
  | unbounded : IsEndText word none word.toList
  | bounded (n : Int) : IsEndText word (some n) (wholeText n)

/-- An end of a range on a numeric field has a text, be it that of a number or that of an infinity
where the end is left out. -/
theorem exists_isEndText (hnumeric : l.type = .numeric) (h : v.IsEnd Value.IsNumber a)
    (word : String) :
    ∃ text, optionalBound l word v = .ok (String.ofList text) ∧ IsEndText word a text := by
  cases h with
  | unbounded => exact ⟨word.toList, by rw [optionalBound, String.ofList_toList], .unbounded⟩
  | @bounded _ y hy =>
    obtain ⟨n, hn, rfl, hdigits⟩ := hy.exists_indexedNumber l.queryAlias
    have hbound : optionalBound l word v = closedBound l v := by cases hy <;> rfl
    exact ⟨wholeText n, hbound.trans (closedBound_eq hnumeric hn hdigits.le), .bounded n⟩

/-- A lower end keeps out what is smaller, and keeps out nothing where it is missing. -/
theorem isAbove_iff_of_isEndText {text : List Char} (h : IsEndText "-inf" a text) (z : ℚ) :
    isAbove text z ↔ ∀ y ∈ a, y ≤ z := by
  cases h with
  | unbounded => exact iff_of_true (isAbove_unbounded z) nofun
  | bounded n =>
    rw [isAbove_closed_iff (Numeral.value?_wholeText n)]
    simp

/-- An upper end keeps out what is greater, and keeps out nothing where it is missing. -/
theorem isBelow_iff_of_isEndText {text : List Char} (h : IsEndText "+inf" a text) (z : ℚ) :
    isBelow text z ↔ ∀ y ∈ a, z ≤ y := by
  cases h with
  | unbounded => exact iff_of_true (isBelow_unbounded z) nofun
  | bounded n =>
    rw [isBelow_closed_iff (Numeral.value?_wholeText n)]
    simp

/-- The range between two ends contains the numbers between them. -/
theorem exists_range_between (hnumeric : l.type = .numeric)
    (hlow : low.IsEnd Value.IsNumber a) (hhigh : high.IsEnd Value.IsNumber b) :
    ∃ lower upper,
      (between low high).clause l = .ok (String.ofList (l.rangeAtom lower upper).text) ∧
      ∀ z : ℚ, (l.rangeAtom lower upper).contains z ↔ (∀ y ∈ a, y ≤ z) ∧ ∀ y ∈ b, z ≤ y := by
  obtain ⟨lower, hlower, hlowerText⟩ := exists_isEndText hnumeric hlow "-inf"
  obtain ⟨upper, hupper, hupperText⟩ := exists_isEndText hnumeric hhigh "+inf"
  refine ⟨lower, upper, ?_, fun z => ?_⟩
  · have htext : rangeClause l (String.ofList lower) (String.ofList upper) =
        String.ofList (l.rangeAtom lower upper).text :=
      String.toList_injective (by rw [toList_rangeClause, String.toList_ofList])
    rw [clause, hlower, hupper, ← htext]
    rfl
  · rw [Leaf.rangeAtom, Atom.contains, Bool.and_eq_true, isAbove_iff_of_isEndText hlowerText,
      isBelow_iff_of_isEndText hupperText]

end FieldTest

/-! ### Expressions -/

namespace Expression

/-- An expression compares what a reference leads to with items of an order, or asks whether it lies
between two of them. -/
inductive Asks {α : Type} [LinearOrder α] (reads : Value → α → Prop) (ref : Reference) :
    Expression → (α → Prop) → Prop where
  | compare {op : Comparison} {v : Value} {y : α} (ordered : op ≠ .notEqual) (operand : reads v y) :
      Asks reads ref (.compare op ref v) fun x => op.Relates x y
  | between {low high : Value} {a b : Option α} (lower : Value.IsEnd reads low a)
      (upper : Value.IsEnd reads high b) :
      Asks reads ref (.between ref low high) fun x => (∀ y ∈ a, y ≤ x) ∧ ∀ y ∈ b, x ≤ y

variable {c : Catalogue} {model : String} {ref : Reference} {l : Leaf} {e : Expression}

/-- Later dates have greater numbers, so that ranges of numbers select ranges of dates. -/
theorem strictMonoOn_seconds :
    StrictMonoOn (fun d : Date => (d.epochSeconds : ℚ)) {d | d.Valid} := by
  intro d h d' h' hlt
  exact Int.cast_lt.mpr (Date.epochSeconds_lt h h' hlt)

/-- An expression about dates is one about the seconds to their starts. -/
theorem Asks.exists_numbers {selects : Date → Prop} (h : e.Asks Value.IsDate ref selects) :
    ∃ numbers : ℚ → Prop, e.Asks Value.IsNumber ref numbers ∧
      ∀ d : Date, d.Valid → (numbers d.epochSeconds ↔ selects d) := by
  cases h with
  | @compare op v y ordered operand =>
    refine ⟨_, .compare ordered operand.isNumber, fun d hd => ?_⟩
    exact Comparison.relates_map_iff strictMonoOn_seconds hd operand.valid op
  | @between low high a b lower upper =>
    have hnumber (v : Value) (y : Date) (hy : v.IsDate y) : v.IsNumber (y.epochSeconds : ℚ) :=
      hy.isNumber
    refine ⟨_, .between (lower.map hnumber) (upper.map hnumber), fun d hd => ?_⟩
    have hlower (y : Date) (hy : y ∈ a) : (y.epochSeconds : ℚ) ≤ d.epochSeconds ↔ y ≤ d :=
      strictMonoOn_seconds.le_iff_le (lower.reads_of_mem hy).valid hd
    have hupper (y : Date) (hy : y ∈ b) : (d.epochSeconds : ℚ) ≤ y.epochSeconds ↔ d ≤ y :=
      strictMonoOn_seconds.le_iff_le hd (upper.reads_of_mem hy).valid
    simp only [Option.mem_map, forall_exists_index, and_imp, forall_apply_eq_imp_iff₂]
    exact and_congr (forall₂_congr hlower) (forall₂_congr hupper)

/-- The range of an expression about a numeric leaf contains the numbers that it selects. -/
theorem Asks.exists_range (hleads : ref.LeadsTo c model l) (hnumeric : l.type = .numeric)
    {selects : ℚ → Prop} (h : e.Asks Value.IsNumber ref selects) :
    ∃ p lower upper, e.build c = .ok p ∧
      p.render c = .ok (String.ofList (l.rangeAtom lower upper).text) ∧
      ∀ x : ℚ, (l.integral → ∃ n : Int, x = n) →
        ((l.rangeAtom lower upper).contains x ↔ selects x) := by
  obtain ⟨path, hpath, -, hl⟩ := hleads
  have hrender (t : FieldTest) : (Predicate.test path t).render c = t.clause l := by
    rw [Predicate.render, hl]
    rfl
  -- on a leaf of whole numbers strict bounds move, so only whole numbers are spoken of there
  cases h with
  | @compare op v y ordered operand =>
    obtain ⟨lower, upper, hclause, hcontains⟩ :=
      FieldTest.exists_range_compare hnumeric operand ordered
    refine ⟨.test path (.compare op v), lower, upper, ?_, ?_, hcontains⟩
    · rw [build, hpath]
      rfl
    · rw [hrender, hclause]
  | @between low high a b lowerEnd upperEnd =>
    obtain ⟨lower, upper, hclause, hcontains⟩ :=
      FieldTest.exists_range_between hnumeric lowerEnd upperEnd
    refine ⟨.test path (.between low high), lower, upper, ?_, ?_, fun x _ => hcontains x⟩
    · rw [build, hpath]
      rfl
    · rw [hrender, hclause]

/-- **Selections.** The range that an expression about a numeric leaf is rendered as contains
exactly the numbers that it selects, among whole numbers if the leaf is one of whole numbers; and an
expression about dates selects exactly the dates that lie in the calendar as it says. -/
theorem range_selects (hleads : ref.LeadsTo c model l) (hnumeric : l.type = .numeric) :
    (∀ e selects, Asks Value.IsNumber ref e selects → ∃ p lower upper, e.build c = .ok p ∧
      p.render c = .ok (String.ofList (l.rangeAtom lower upper).text) ∧
      ∀ x : ℚ, (l.integral → ∃ n : Int, x = n) →
        ((l.rangeAtom lower upper).contains x ↔ selects x)) ∧
    (∀ e selects, Asks Value.IsDate ref e selects → ∃ p lower upper, e.build c = .ok p ∧
      p.render c = .ok (String.ofList (l.rangeAtom lower upper).text) ∧
      ∀ d : Date, d.Valid → ((l.rangeAtom lower upper).contains d.epochSeconds ↔ selects d)) := by
  refine ⟨fun e selects h => h.exists_range hleads hnumeric, fun e selects h => ?_⟩
  obtain ⟨numbers, hnumbers, hdates⟩ := h.exists_numbers
  obtain ⟨p, lower, upper, hbuild, hrender, hcontains⟩ := hnumbers.exists_range hleads hnumeric
  refine ⟨p, lower, upper, hbuild, hrender, fun d hd => ?_⟩
  rw [hcontains _ fun _ => ⟨d.epochSeconds, rfl⟩]
  exact hdates d hd

/-- Concerts on a day, with a number of seats. -/
def concerts : Catalogue :=
  Catalogue.bases.declare ⟨"Concert", "JsonModel", none, none,
    [Schema.indexedField "day" (.scalar .date), Schema.indexedField "seats" (.scalar .int)]⟩

theorem leadsTo_day : Reference.LeadsTo concerts "Concert" ⟨"Concert", [.item "day"]⟩
    ⟨"day", "day", "$.day", .numeric, [], false⟩ :=
  ⟨⟨"Concert", ["day"]⟩, rfl, rfl, rfl⟩

/-- Concerts after the end of a February. -/
def laterConcerts : Expression :=
  .compare .greater ⟨"Concert", [.item "day"]⟩ (.date ⟨2024, 2, 29⟩)

theorem asks_laterConcerts : Asks Value.IsDate ⟨"Concert", [.item "day"]⟩ laterConcerts
    fun d => Comparison.greater.Relates d ⟨2024, 2, 29⟩ :=
  .compare (by decide) (.date ⟨by decide, by decide, by decide, by decide, by decide, by decide⟩)

theorem range_selects_laterConcerts :
    Reference.LeadsTo concerts "Concert" ⟨"Concert", [.item "day"]⟩
      ⟨"day", "day", "$.day", .numeric, [], false⟩ ∧
    ∃ p lower upper, laterConcerts.build concerts = .ok p ∧
      p.render concerts = .ok (String.ofList (Atom.range "day".toList lower upper).text) ∧
      ∀ d : Date, d.Valid →
        ((Atom.range "day".toList lower upper).contains d.epochSeconds ↔ ⟨2024, 2, 29⟩ < d) :=
  ⟨leadsTo_day, (range_selects leadsTo_day rfl).2 laterConcerts _ asks_laterConcerts⟩

example : (laterConcerts.build concerts >>= Predicate.render concerts) =
    .ok "@day:[(1709164800 +inf]" := by
  decide +kernel

end Expression

end IndexedRecords
