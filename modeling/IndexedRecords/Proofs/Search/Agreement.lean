import IndexedRecords.Proofs.Alike
import IndexedRecords.Proofs.Search.Selection

/-!
# Equalities and ranges of numbers

On a numeric leaf an equality is rendered as a range with one number at both ends. The number is
found in two ways: an equality refuses texts before it looks for a number, and a range does so
because a text has none (`Value.alike_numericLiteral`). Both come to the same literal, or to faults
of one class.

## Main statements

* `Expression.equality_agrees_with_ranges`: equality, membership and inclusive ranges agree.
-/

namespace IndexedRecords

open Traversal

/-! ### Literals -/

namespace Value

variable {v : Value}

/-- Whether a value is a member of an enumeration. -/
def IsMember (v : Value) : Prop :=
  ∃ enumeration kind name value, v = .member enumeration kind name value

theorem payload_eq_self (h : ¬ v.IsMember) : v.payload = v := by
  cases v with
  | member => exact absurd ⟨_, _, _, _, rfl⟩ h
  | _ => rfl

theorem plain_eq_self (h : ¬ v.IsMember) : v.plain = v := by
  cases v with
  | member => exact absurd ⟨_, _, _, _, rfl⟩ h
  | _ => rfl

/-- An equality finds the literal of a value as a range does, or both refuse the value for reasons
of one class. -/
theorem alike_numericLiteral (h : ¬ v.payload.IsMember) (field : String) :
    Alike SearchFault.classOf Eq (do (← v.indexedNumber field).display)
      (v.numericLiteral field) := by
  have hnumber : v.payload.indexedNumber field = v.indexedNumber field := by
    unfold indexedNumber
    rw [payload_eq_self h]
  rw [numericLiteral]
  split
  · next s htext =>
    -- a text has no number
    rw [plain_eq_self h] at htext
    have hfault : v.indexedNumber field =
        .error (.wrongType field .numeric (.numericValue "str")) := by
      unfold indexedNumber
      rw [htext]
      rfl
    rw [hfault]
    exact .error rfl
  · rw [hnumber]
    exact .refl _ _

end Value

/-! ### Clauses -/

namespace FieldTest

variable {l : Leaf} {v : Value} {n : String}

/-- A closed bound on a numeric field is the text of the number of its operand. -/
theorem closedBound_of_numeric (hnumeric : l.type = .numeric) :
    closedBound l v = (do (← v.indexedNumber l.queryAlias).display) := by
  rw [closedBound, boundNumber, if_pos hnumeric]

/-- Only null leaves out the end of a range. -/
theorem optionalBound_of_ne_none (h : v ≠ .none) (unbounded : String) :
    optionalBound l unbounded v = closedBound l v := by
  unfold optionalBound
  split
  · exact absurd rfl h
  · rfl

/-- An equality with a numeric leaf is a range with the literal at both ends. -/
theorem equalClause_of_numeric (hnumeric : l.type = .numeric) :
    equalClause l v = do
      let n ← v.numericLiteral l.queryAlias
      return rangeClause l n n := by
  rw [equalClause]
  simp only [hnumeric, Value.queryLiteral, rangeClause]

/-- Membership in a single value is rendered as being equal to it, without a disjunction. -/
theorem oneOfClause_singleton (hnumeric : l.type = .numeric) :
    oneOfClause l [v] = equalClause l v := by
  rw [oneOfClause, if_neg (by simp [hnumeric]), List.mapM_cons, List.mapM_nil]
  cases equalClause l v <;> rfl

end FieldTest

/-! ### Expressions -/

namespace Expression

variable {c : Catalogue} {model : String} {ref : Reference} {l : Leaf} {v options : Value}

/-- The text that an expression is rendered as. -/
def rendered (c : Catalogue) (e : Expression) : Except SearchFault String :=
  e.build c >>= Predicate.render c

/-- An expression that is built as one test is rendered as the clause of that test. -/
theorem rendered_of_build {e : Expression} {path : FieldPath} {t : FieldTest}
    (hbuild : e.build c = .ok (.test path t)) (hl : path.resolve c = .ok l) :
    e.rendered c = t.clause l := by
  rw [rendered, hbuild]
  change (path.resolve c >>= fun l => t.clause l) = _
  rw [hl]
  rfl

/-- A comparison is rendered as the clause on its leaf. -/
theorem rendered_compare (hleads : ref.LeadsTo c model l) (op : Comparison) (v : Value) :
    (compare op ref v).rendered c = (FieldTest.compare op v).clause l := by
  obtain ⟨path, hpath, -, hl⟩ := hleads
  refine rendered_of_build ?_ hl
  rw [build, hpath]
  rfl

/-- A test between two ends is rendered as the clause on its leaf. -/
theorem rendered_between (hleads : ref.LeadsTo c model l) (low high : Value) :
    (between ref low high).rendered c = (FieldTest.between low high).clause l := by
  obtain ⟨path, hpath, -, hl⟩ := hleads
  refine rendered_of_build ?_ hl
  rw [build, hpath]
  rfl

/-- A membership is rendered as the clause on its leaf, if there are options. -/
theorem rendered_oneOf (hleads : ref.LeadsTo c model l) {first : Value} {rest : List Value}
    (hitems : options.items = .ok (first :: rest)) :
    (oneOf ref options).rendered c = (FieldTest.oneOf (first :: rest)).clause l := by
  obtain ⟨path, hpath, -, hl⟩ := hleads
  refine rendered_of_build ?_ hl
  rw [build, hpath]
  change Predicate.isOneOf path options = _
  rw [Predicate.isOneOf, hitems]
  rfl

/-- The five expressions that ask a numeric field for one number, or for all up to it or from it. -/
def inclusive (ref : Reference) (v options : Value) : List Expression :=
  [compare .equal ref v, oneOf ref options, between ref v v, compare .greaterEqual ref v,
    compare .lessEqual ref v]

/-- **Equalities and ranges.** On a numeric leaf, an equality, the membership in a single value and
the range from a value to itself are rendered as one text, and the ranges from the value and up to
it have the same literal; or each of the five is refused, for reasons of one class. -/
theorem equality_agrees_with_ranges (hleads : ref.LeadsTo c model l) (hnumeric : l.type = .numeric)
    (hnone : v ≠ .none) (hmember : ¬ v.payload.IsMember) (hoptions : options.items = .ok [v]) :
    (∃ n, (inclusive ref v options).map (rendered c) =
      [.ok (FieldTest.rangeClause l n n), .ok (FieldTest.rangeClause l n n),
        .ok (FieldTest.rangeClause l n n), .ok (FieldTest.rangeClause l n "+inf"),
        .ok (FieldTest.rangeClause l "-inf" n)]) ∨
    ∃ k : FaultClass, ∀ e ∈ inclusive ref v options,
      ∃ fault, e.rendered c = .error fault ∧ fault.classOf = k := by
  have hequal := rendered_compare hleads .equal v
  have honeOf := rendered_oneOf hleads hoptions
  have hbetween := rendered_between hleads v v
  have hfrom := rendered_compare hleads .greaterEqual v
  have hupTo := rendered_compare hleads .lessEqual v
  simp only [FieldTest.clause, FieldTest.oneOfClause_singleton hnumeric,
    FieldTest.equalClause_of_numeric hnumeric, FieldTest.optionalBound_of_ne_none hnone,
    FieldTest.closedBound_of_numeric hnumeric] at hequal honeOf hbetween hfrom hupTo
  have halike := v.alike_numericLiteral hmember l.queryAlias
  -- an equality shows the literal of its operand, a range its number, and the two are alike
  generalize v.numericLiteral l.queryAlias = literal at halike hequal honeOf
  generalize (do (← v.indexedNumber l.queryAlias).display : Except SearchFault String) = bound
    at halike hbetween hfrom hupTo
  cases halike with
  | @ok n _ h =>
    subst h
    refine .inl ⟨n, ?_⟩
    simp only [inclusive, List.map_cons, List.map_nil, hequal, honeOf, hbetween, hfrom, hupTo]
    rfl
  | @error fault fault' h =>
    refine .inr ⟨fault.classOf, ?_⟩
    simp only [inclusive, List.forall_mem_cons, hequal, honeOf, hbetween, hfrom, hupTo]
    exact ⟨⟨fault', rfl, h.symm⟩, ⟨fault', rfl, h.symm⟩, ⟨fault, rfl, rfl⟩, ⟨fault, rfl, rfl⟩,
      ⟨fault, rfl, rfl⟩, List.forall_mem_nil _⟩

theorem equality_agrees_with_ranges_day :
    (∃ n, (inclusive ⟨"Concert", [.item "day"]⟩ (.date ⟨2024, 2, 29⟩)
        (.list [.date ⟨2024, 2, 29⟩])).map (rendered concerts) =
      [.ok (FieldTest.rangeClause ⟨"day", "day", "$.day", .numeric, [], false⟩ n n),
        .ok (FieldTest.rangeClause ⟨"day", "day", "$.day", .numeric, [], false⟩ n n),
        .ok (FieldTest.rangeClause ⟨"day", "day", "$.day", .numeric, [], false⟩ n n),
        .ok (FieldTest.rangeClause ⟨"day", "day", "$.day", .numeric, [], false⟩ n "+inf"),
        .ok (FieldTest.rangeClause ⟨"day", "day", "$.day", .numeric, [], false⟩ "-inf" n)]) ∨
    ∃ k : FaultClass, ∀ e ∈ inclusive ⟨"Concert", [.item "day"]⟩ (.date ⟨2024, 2, 29⟩)
        (.list [.date ⟨2024, 2, 29⟩]),
      ∃ fault, e.rendered concerts = .error fault ∧ fault.classOf = k :=
  equality_agrees_with_ranges leadsTo_day rfl nofun nofun rfl

example : (inclusive ⟨"Concert", [.item "day"]⟩ (.date ⟨2024, 2, 29⟩)
    (.list [.date ⟨2024, 2, 29⟩])).map (rendered concerts) =
      [.ok "@day:[1709164800 1709164800]", .ok "@day:[1709164800 1709164800]",
        .ok "@day:[1709164800 1709164800]", .ok "@day:[1709164800 +inf]",
        .ok "@day:[-inf 1709164800]"] := by
  decide +kernel

end Expression

end IndexedRecords
