import IndexedRecords.Marker
import IndexedRecords.Schema.Fault
import IndexedRecords.Value.Fault

/-!
# Faults of searches

Why a predicate or a search cannot be built, or cannot be rendered.
-/

namespace IndexedRecords

/-- What a field or a value would have to be for an operator. -/
inductive Expectation where
  | tagForBool
  | tagOrTextForText
  | numericForDate
  | numericValue (kind : String)
  | literalValue (kind : String)
  | numericField
  | geoField
  deriving DecidableEq, Repr

/-- The wording of an expectation. -/
def Expectation.text : Expectation → String
  | .tagForBool => "tag for bool"
  | .tagOrTextForText => "tag or text for str"
  | .numericForDate => "numeric for date"
  | .numericValue kind => s!"numeric value, got {kind}"
  | .literalValue kind => s!"str, number, bool or date, got {kind}"
  | .numericField => "numeric"
  | .geoField => "geo"

/-- Why a predicate or a search cannot be built or rendered. -/
inductive SearchFault where
  | schema (fault : SchemaFault)
  | value (fault : ValueFault)
  | notIndexed (model shownField : String)
  | wrongType (field : String) (actual : IndexType) (expected : Expectation)
  | otherModel (expected actual : String)
  | noOptions (field : String)
  | negativeWindow
  | unknownUnit (shown : String)
  /-- a name is followed that no field can have, or that a record type has not -/
  | reservedName (name : String)
  /-- a name is followed from something that has neither fields nor such a property -/
  | noAttribute (kind name : String)
  | noKindAttribute (kind name : String)
  /-- a subscript of something that has none -/
  | notSubscriptable (kind : String)
  | kindNotSubscriptable (kind : String)
  | notGeneric (model : String)
  /-- a name as the subscript of a text or of several texts -/
  | textSubscript
  | tupleSubscript
  /-- something is called that cannot be -/
  | notCallable (kind : String)
  | notAReference
  /-- a combination of no predicates -/
  | nothingToCombine (function : String)
  deriving DecidableEq, Repr

/-- The wording of a fault. -/
def SearchFault.message : SearchFault → String
  | .schema fault => fault.message
  | .value fault => fault.message
  | .notIndexed model shownField => s!"Field {shownField} is not indexed on {model}"
  | .wrongType field actual expected =>
    s!"Invalid index type {actual.name} for field: {field}, expected: {expected.text}"
  | .otherModel expected actual => s!"Predicate for {actual} cannot be applied to {expected}"
  | .noOptions field => s!"Membership test on {field} needs at least one value"
  | .negativeWindow => "offset and count must be non-negative"
  | .unknownUnit shown => s!"{shown} is not a valid GeoUnit"
  | .reservedName name => name
  | .noAttribute kind name => s!"'{kind}' object has no attribute '{name}'"
  | .noKindAttribute kind name => s!"type object '{kind}' has no attribute '{name}'"
  | .notSubscriptable kind => s!"'{kind}' object is not subscriptable"
  | .kindNotSubscriptable kind => s!"type '{kind}' is not subscriptable"
  | .notGeneric model =>
    s!"<class '__main__.{model}'> cannot be parametrized " ++
      "because it does not inherit from typing.Generic"
  | .textSubscript => "string indices must be integers, not 'str'"
  | .tupleSubscript => "tuple indices must be integers or slices, not str"
  | .notCallable kind => s!"'{kind}' object is not callable"
  | .notAReference => "not a field reference"
  | .nothingToCombine function => s!"{function}() missing 1 required positional argument: 'first'"

instance : MonadLift (Except SchemaFault) (Except SearchFault) :=
  ⟨fun r => r.mapError .schema⟩

instance : MonadLift (Except ValueFault) (Except SearchFault) :=
  ⟨fun r => r.mapError .value⟩

end IndexedRecords
