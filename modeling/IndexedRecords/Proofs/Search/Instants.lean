import IndexedRecords.Proofs.Calendar.Instants
import IndexedRecords.Proofs.Search.Agreement

/-!
# Instants in queries

A query has nothing of a moment but its number of seconds. So two moments of one instant can take
each other's place in every operator on a field, and on a numeric leaf each operator is rendered
with this number.

## Main statements

* `Expression.rendered_eq_of_swaps`: moments of one instant are rendered as one text.
* `Expression.rendered_operators`: what the operators on a numeric leaf are rendered as.
-/

namespace IndexedRecords

variable {m m' : Moment} {v v' : Value}

/-! ### Operands -/

namespace Value

/-- A value, or one moment in the place of another one. -/
inductive Swaps (m m' : Moment) : Value → Value → Prop where
  | same (v : Value) : Swaps m m' v v
  | moment : Swaps m m' (.moment m) (.moment m')

/-- A moment and another one of the same instant stand for one number, whatever offsets they are
given in. -/
theorem indexedNumber_eq_of_swaps (h : m.SameInstant m') (hv : v.Swaps m m' v') (field : String) :
    v.indexedNumber field = v'.indexedNumber field := by
  cases hv with
  | same => rfl
  | moment => exact congrArg (fun x => Except.ok (Number.float x)) h.epochSeconds_eq

/-- A moment is written in a query as the text of its number. -/
theorem numericLiteral_moment (m : Moment) (field : String) :
    (moment m).numericLiteral field = .ok (String.ofList m.epochSeconds.text) := rfl

/-- A moment and another one of the same instant are written alike in a query. -/
theorem numericLiteral_eq_of_swaps (h : m.SameInstant m') (hv : v.Swaps m m' v') (field : String) :
    v.numericLiteral field = v'.numericLiteral field := by
  cases hv with
  | same => rfl
  | moment => rw [numericLiteral_moment, numericLiteral_moment, h.epochSeconds_eq]

/-- Only a numeric index takes moments; for any other one they are refused, whatever they are. -/
theorem queryLiteral_eq_of_swaps (h : m.SameInstant m') (hv : v.Swaps m m' v') (type : IndexType)
    (field : String) : v.queryLiteral type field = v'.queryLiteral type field := by
  cases type with
  | numeric => exact numericLiteral_eq_of_swaps h hv field
  | _ => cases hv <;> rfl

end Value

/-! ### Clauses -/

namespace FieldTest

variable {l : Leaf} {items items' : List Value}

/-- Being equal to a moment is rendered by its instant. -/
theorem equalClause_eq_of_swaps (h : m.SameInstant m') (hv : v.Swaps m m' v') :
    equalClause l v = equalClause l v' := by
  rw [equalClause, equalClause, Value.queryLiteral_eq_of_swaps h hv]

/-- A bound is the same number for a moment and another one of the same instant. -/
theorem boundNumber_eq_of_swaps (h : m.SameInstant m') (hv : v.Swaps m m' v') :
    boundNumber l v = boundNumber l v' := by
  rw [boundNumber, boundNumber, Value.indexedNumber_eq_of_swaps h hv]

theorem closedBound_eq_of_swaps (h : m.SameInstant m') (hv : v.Swaps m m' v') :
    closedBound l v = closedBound l v' := by
  rw [closedBound, closedBound, boundNumber_eq_of_swaps h hv]

theorem openBound_eq_of_swaps (h : m.SameInstant m') (hv : v.Swaps m m' v') (inward : Int) :
    openBound l v inward = openBound l v' inward := by
  rw [openBound, openBound, boundNumber_eq_of_swaps h hv]

theorem optionalBound_eq_of_swaps (h : m.SameInstant m') (hv : v.Swaps m m' v')
    (unbounded : String) : optionalBound l unbounded v = optionalBound l unbounded v' := by
  cases hv with
  | same => rfl
  | moment => exact closedBound_eq_of_swaps h .moment

theorem mapM_eq_of_swaps {f : Value → Except SearchFault String}
    (hitems : List.Forall₂ (Value.Swaps m m') items items')
    (hf : ∀ v v', v.Swaps m m' v' → f v = f v') : items.mapM f = items'.mapM f := by
  induction hitems with
  | nil => rfl
  | cons hv _ ih => rw [List.mapM_cons, List.mapM_cons, hf _ _ hv, ih]

/-- Membership among moments is rendered by their instants, item by item. -/
theorem oneOfClause_eq_of_swaps (h : m.SameInstant m')
    (hitems : List.Forall₂ (Value.Swaps m m') items items') :
    oneOfClause l items = oneOfClause l items' := by
  rw [oneOfClause, oneOfClause,
    mapM_eq_of_swaps hitems fun _ _ hv => Value.queryLiteral_eq_of_swaps h hv _ _,
    mapM_eq_of_swaps hitems fun _ _ hv => equalClause_eq_of_swaps h hv]

/-- Comparisons of every kind are rendered by instants. -/
theorem compare_eq_of_swaps (h : m.SameInstant m') (hv : v.Swaps m m' v') (op : Comparison) :
    (compare op v).clause l = (compare op v').clause l := by
  cases op <;>
    simp only [clause, equalClause_eq_of_swaps h hv, openBound_eq_of_swaps h hv,
      closedBound_eq_of_swaps h hv]

end FieldTest

/-! ### Expressions -/

namespace Expression

variable {c : Catalogue} {model : String} {ref : Reference} {l : Leaf} {e e' : Expression}

/-- An operator on a field, and the same operator with one moment in the place of another one among
its operands. -/
inductive Swaps (m m' : Moment) : Expression → Expression → Prop where
  | compare (op : Comparison) (ref : Reference) {v v' : Value} (operand : v.Swaps m m' v') :
      Swaps m m' (.compare op ref v) (.compare op ref v')
  | between (ref : Reference) {v v' w w' : Value} (low : v.Swaps m m' v') (high : w.Swaps m m' w') :
      Swaps m m' (.between ref v w) (.between ref v' w')
  | oneOf (ref : Reference) {options options' : Value} {items items' : List Value}
      (given : options.items = .ok items) (given' : options'.items = .ok items')
      (each : List.Forall₂ (Value.Swaps m m') items items') :
      Swaps m m' (.oneOf ref options) (.oneOf ref options')

/-- Tests of one field are rendered as one text if they have one clause on every leaf. -/
theorem rendered_congr {t t' : FieldTest} (h : ∀ l, t.clause l = t'.clause l)
    (he : e.build c = (do return .test (← ref.field c) t))
    (he' : e'.build c = (do return .test (← ref.field c) t')) : e.rendered c = e'.rendered c := by
  rw [rendered, rendered, he, he']
  cases ref.field c with
  | error fault => rfl
  | ok path =>
    change (path.resolve c >>= fun l => t.clause l) = path.resolve c >>= fun l => t'.clause l
    simp only [h]

theorem build_oneOf_cons {options first : Value} {rest : List Value}
    (hitems : options.items = .ok (first :: rest)) :
    (oneOf ref options).build c = (do return .test (← ref.field c) (.oneOf (first :: rest))) := by
  rw [build]
  simp only [Predicate.isOneOf, hitems]
  rfl

/-- **Instants in queries.** Moments of one instant in the place of each other are rendered as one
text, or refused for one reason. -/
theorem rendered_eq_of_swaps (h : m.SameInstant m') (he : e.Swaps m m' e') :
    e.rendered c = e'.rendered c := by
  cases he with
  | compare op ref operand =>
    exact rendered_congr (fun l => FieldTest.compare_eq_of_swaps h operand op) rfl rfl
  | between ref low high =>
    refine rendered_congr (fun l => ?_) rfl rfl
    simp only [FieldTest.clause, FieldTest.optionalBound_eq_of_swaps h low,
      FieldTest.optionalBound_eq_of_swaps h high]
  | oneOf ref given given' each =>
    cases each with
    | nil =>
      simp only [rendered, build, Predicate.isOneOf, given, given']
    | cons hfirst hrest =>
      refine rendered_congr ?_ (build_oneOf_cons given) (build_oneOf_cons given')
      exact fun l => FieldTest.oneOfClause_eq_of_swaps h (.cons hfirst hrest)

/-- The operators on a field, each with one value as its operand. -/
def operators (ref : Reference) (v : Value) : List Expression :=
  [compare .equal ref v, compare .notEqual ref v, compare .greater ref v,
    compare .greaterEqual ref v, compare .less ref v, compare .lessEqual ref v, between ref v v,
    oneOf ref (.list [v])]

/-- What the operators on a leaf are rendered as, given the literal of their operand. -/
def operatorTexts (l : Leaf) (n : String) : List String :=
  [FieldTest.rangeClause l n n, "-" ++ FieldTest.rangeClause l n n,
    FieldTest.rangeClause l ("(" ++ n) "+inf", FieldTest.rangeClause l n "+inf",
    FieldTest.rangeClause l "-inf" ("(" ++ n), FieldTest.rangeClause l "-inf" n,
    FieldTest.rangeClause l n n, FieldTest.rangeClause l n n]

/-- On a numeric leaf, each operator on a moment is rendered with the number of seconds to it. -/
theorem rendered_operators (hleads : ref.LeadsTo c model l) (hnumeric : l.type = .numeric)
    (m : Moment) : (operators ref (.moment m)).map (rendered c) =
      (operatorTexts l (String.ofList m.epochSeconds.text)).map .ok := by
  have hequal : FieldTest.equalClause l (.moment m) = .ok (FieldTest.rangeClause l
      (String.ofList m.epochSeconds.text) (String.ofList m.epochSeconds.text)) := by
    rw [FieldTest.equalClause_of_numeric hnumeric, Value.numericLiteral_moment]
    rfl
  have hnumber : FieldTest.boundNumber l (.moment m) = .ok (.float m.epochSeconds) := by
    rw [FieldTest.boundNumber, if_pos hnumeric]
    rfl
  have hclosed : FieldTest.closedBound l (.moment m) =
      .ok (String.ofList m.epochSeconds.text) := by
    rw [FieldTest.closedBound, hnumber]
    rfl
  -- a moment is not a whole number, so no strict bound moves on to a neighbour
  have hopen : ∀ inward, FieldTest.openBound l (.moment m) inward =
      .ok ("(" ++ String.ofList m.epochSeconds.text) := by
    intro inward
    rw [FieldTest.openBound, hnumber]
    rfl
  have hoptional : ∀ unbounded, FieldTest.optionalBound l unbounded (.moment m) =
      .ok (String.ofList m.epochSeconds.text) := fun _ => hclosed
  simp only [operators, List.map_cons, List.map_nil, rendered_compare hleads,
    rendered_between hleads,
    rendered_oneOf hleads (show (Value.list [.moment m]).items = _ from rfl),
    FieldTest.clause, FieldTest.oneOfClause_singleton hnumeric, hequal, hclosed, hopen, hoptional]
  rfl

end Expression

end IndexedRecords
