import IndexedRecords.Catalogue
import IndexedRecords.Proofs.Layers
import Mathlib.Tactic.Choose

/-!
# Values that belong to a shape

A record is valid if the value of each of its fields belongs to the shape of the field. A value
belongs to a shape if it is of the kind that the shape asks for, and whatever it holds belongs to
the shapes inside. A record belongs to every record type that it has fields for: the values of these
fields have to belong to the shapes that this type declares, whatever the record's own type declares
for them.

## Main statements

* `Belongs.unwrap`: a value of a shape is null or belongs to the shape under its outer layers.
-/

namespace IndexedRecords

/-- Whether a value is of a kind of single values. A truth value is a whole number as well, a moment
is a date, and a member of an enumeration of texts or of whole numbers is one of these. -/
def Scalar.holds : Scalar → Value → Bool
  | .int, .int _ | .int, .bool _ | .int, .member _ .whole _ _ => true
  | .text, .text _ | .text, .member _ .text _ _ => true
  | .date, .date _ | .date, .moment _ | .moment, .moment _ => true
  | .float, .float _ | .bool, .bool _ | .bytes, .bytes _ | .decimal, .decimal _ => true
  | .point, .point _ | .bare, _ => true
  | _, _ => false

namespace Generic

/-- The items of a value that holds items of one kind, if it is such a value as the head says. A
list counts as a deque as well, since it is written as one. -/
def items? : Generic → Value → Option (List Value)
  | .list, .list items | .mutableSequence, .list items => some items
  | .queue, .list items | .queue, .queue items | .iterable, .list items => some items
  | .sequence, .list items | .sequence, .tuple items | .sequence, .queue items => some items
  | .set, .set false items | .frozenSet, .set true items => some items
  | .abstractSet, .set true items => some items
  | _, _ => none

/-- The entries of a value that is such a map as the head says. -/
def entries? : Generic → Value → Option (List (Value × Value))
  | .map, .map entries | .abstractMap, .map entries => some entries
  | .mutableMap, .map entries | .orderedMap, .map entries => some entries
  | _, _ => none

theorem entries?_of_isSequence {head : Generic} (h : head.isSequence = true) (v : Value) :
    head.entries? v = none := by
  cases head <;> cases v <;> first | rfl | cases h

theorem items?_of_isMap {head : Generic} (h : head.isMap = true) (v : Value) :
    head.items? v = none := by
  cases head <;> cases v <;> first | rfl | cases h

theorem eq_map_of_entries? {head : Generic} {v : Value} {entries : List (Value × Value)}
    (h : head.entries? v = some entries) : v = .map entries := by
  unfold entries? at h
  split at h <;> cases h <;> rfl

/-- Whether a value is a container as the head says. -/
def holds (head : Generic) (v : Value) : Bool :=
  match head, v with
  | .tuple, .tuple _ => true
  | head, v => (head.items? v).isSome || (head.entries? v).isSome

end Generic

/-- A value belongs to a shape. -/
inductive Belongs (c : Catalogue) : Shape → Value → Prop where
  | scalar {s : Scalar} {v : Value} (kind : s.holds v) : Belongs c (.scalar s) v
  | nullType : Belongs c .nullType .none
  | nullValue : Belongs c .nullValue .none
  | any (v : Value) : Belongs c .any v
  | bare {head : Generic} {v : Value} (kind : head.holds v) : Belongs c (.bare head) v
  | record {name model : String} {r : RecordType} {fields : List (String × Value)}
      {value : Field → Value} (found : c.find? name = some r)
      (kind : model = name ∨ ∃ m, c.find? model = some m ∧ m.extends? name)
      (names : (fields.map Prod.fst).Nodup)
      (given : ∀ f ∈ r.fields, (f.name, value f) ∈ fields)
      (each : ∀ f ∈ r.fields, Belongs c f.shape (value f)) :
      Belongs c (.record name) (.record model fields)
  | enumeration {e : Enumeration} {member : String} {v : Value}
      (declared : (member, v) ∈ e.members) :
      Belongs c (.enumeration e) (.member e.name e.kind member v)
  | items {head : Generic} {older : Bool} {args : List Shape} {v : Value} {items : List Value}
      (kind : head.items? v = some items)
      (each : ∀ item ∈ items, Belongs c (args.headD .any) item) :
      Belongs c (.generic head older args) v
  | fixed {older : Bool} {args : List Shape} {items : List Value}
      (length : items.length = args.length)
      (each : ∀ p ∈ args.zip items, Belongs c p.1 p.2) :
      Belongs c (.generic .tuple older args) (.tuple items)
  | entries {head : Generic} {older : Bool} {args : List Shape} {v : Value}
      {entries : List (Value × Value)} (kind : head.entries? v = some entries)
      (keys : ∀ e ∈ entries, Belongs c (args.headD .any) e.1)
      (values : ∀ e ∈ entries, Belongs c (args.tail.headD .any) e.2) :
      Belongs c (.generic head older args) v
  | variadic {item : Shape} {items : List Value} (each : ∀ v ∈ items, Belongs c item v) :
      Belongs c (.variadic item) (.tuple items)
  | union {members : List Shape} {s : Shape} {v : Value} (mem : s ∈ members) (h : Belongs c s v) :
      Belongs c (.union members) v
  | literal {values : List Value} {v : Value} (mem : v ∈ values) : Belongs c (.literal values) v
  | annotated {inner : Shape} {markers : List Marker} {v : Value} (h : Belongs c inner v) :
      Belongs c (.annotated inner markers) v
  | renamed {name : String} {inner : Shape} {v : Value} (h : Belongs c inner v) :
      Belongs c (.renamed name inner) v

variable {c : Catalogue} {v : Value}

namespace Belongs

/-! ### Outer layers -/

theorem eq_none_of_isNullType {s : Shape} (hs : s.isNullType = true) (h : Belongs c s v) :
    v = .none := by
  cases h <;> first | rfl | cases hs

/-- A value of one of several shapes is null or belongs to the only one of them besides null. -/
theorem eq_none_or_of_isSole {members : List Shape} {s t : Shape} (hsole : Shape.IsSole members t)
    (hs : s ∈ members) (h : Belongs c s v) : v = .none ∨ Belongs c t v := by
  induction hsole with
  | skip null _ ih =>
    obtain rfl | hs := List.mem_cons.mp hs
    · exact .inl (h.eq_none_of_isNullType null)
    · exact ih hs
  | here _ null =>
    obtain rfl | hs := List.mem_cons.mp hs
    · exact .inr h
    · exact .inl (h.eq_none_of_isNullType (List.all_eq_true.mp null s hs))

/-- A value of a shape is null or belongs to what stands under annotations and null. -/
theorem unwrap {s t : Shape} (hlayers : Shape.Unwraps s t) (h : Belongs c s v) :
    v = .none ∨ Belongs c t v := by
  induction hlayers with
  | bare => exact .inr h
  | annotated _ ih =>
    cases h with
    | annotated h => exact ih h
  | union sole _ ih =>
    cases h with
    | union hmem h => exact (eq_none_or_of_isSole sole hmem h).elim .inl ih

end Belongs

/-! ### Records -/

/-- The fields of a record type have values that belong to them. -/
structure HasFields (c : Catalogue) (r : RecordType) (fields : List (String × Value)) : Prop where
  names : (fields.map Prod.fst).Nodup
  given : ∀ f ∈ r.fields, ∃ v, (f.name, v) ∈ fields ∧ Belongs c f.shape v

namespace Belongs

theorem hasFields {name : String} {r : RecordType} (hr : c.find? name = some r)
    (h : Belongs c (.record name) v) :
    ∃ model fields, v = .record model fields ∧ HasFields c r fields := by
  cases h with
  | @record _ model r' fields value found kind names given each =>
    obtain rfl := Option.some.inj (hr.symm.trans found)
    exact ⟨model, fields, rfl, names, fun f hf => ⟨value f, given f hf, each f hf⟩⟩

/-- A value of a shape that asks for a record is null or has the fields of that record type. -/
theorem eq_none_or_hasFields {shape : Shape} {name : String} {r : RecordType}
    (hshape : shape.unwrap = .record name) (hr : c.find? name = some r) (h : Belongs c shape v) :
    v = .none ∨ ∃ model fields, v = .record model fields ∧ HasFields c r fields := by
  refine (unwrap shape.unwraps h).imp_right fun h => ?_
  rw [hshape] at h
  exact h.hasFields hr

end Belongs

/-- A record whose type is the one asked for or extends it belongs there if it has its fields. -/
theorem HasFields.belongs {name model : String} {r : RecordType} {fields : List (String × Value)}
    (hr : c.find? name = some r)
    (hkind : model = name ∨ ∃ m, c.find? model = some m ∧ m.extends? name)
    (h : HasFields c r fields) : Belongs c (.record name) (.record model fields) := by
  choose! value hgiven hbelongs using h.given
  exact .record hr hkind h.names hgiven hbelongs

end IndexedRecords
