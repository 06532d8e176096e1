import IndexedRecords.Record.Closeness
import IndexedRecords.Value.Fault

/-!
# Problems of records

A record that cannot be read is rejected with all its problems, each with its place and its kind.
Reading may need identifiers that no other record has, so it counts those it has made. It also keeps
how closely the values match, and how many fields of records are given, by which unions choose among
their members.
-/

namespace IndexedRecords

/-- A step to the place of a problem: a name or a position. -/
inductive Place where
  | key (name : String)
  | index (n : Int)
  deriving DecidableEq, Repr

/-- The kinds of problems. -/
inductive ProblemKind where
  | missing
  | jsonInvalid
  | jsonType
  | modelType
  | intType
  | intParsing
  | intParsingSize
  | intFromFloat
  | finiteNumber
  | floatType
  | floatParsing
  | boolType
  | boolParsing
  | stringType
  | stringUnicode
  | bytesType
  | decimalType
  | decimalParsing
  | datetimeType
  | datetimeParsing
  | datetimeFromDateParsing
  | dateType
  | dateParsing
  | dateFromDatetimeParsing
  | dateFromDatetimeInexact
  | listType
  | setType
  | frozenSetType
  | tupleType
  | tooLong
  | iterableType
  | mapType
  | unhashableItem
  | enum
  | literalError
  | noneRequired
  | valueError
  | complexType
  | instanceOf
  | sequenceText
  deriving DecidableEq, Repr

/-- The name of a kind of problems. -/
def ProblemKind.name : ProblemKind → String
  | .missing => "missing"
  | .jsonInvalid => "json_invalid"
  | .jsonType => "json_type"
  | .modelType => "model_type"
  | .intType => "int_type"
  | .intParsing => "int_parsing"
  | .intParsingSize => "int_parsing_size"
  | .intFromFloat => "int_from_float"
  | .finiteNumber => "finite_number"
  | .floatType => "float_type"
  | .floatParsing => "float_parsing"
  | .boolType => "bool_type"
  | .boolParsing => "bool_parsing"
  | .stringType => "string_type"
  | .stringUnicode => "string_unicode"
  | .bytesType => "bytes_type"
  | .decimalType => "decimal_type"
  | .decimalParsing => "decimal_parsing"
  | .datetimeType => "datetime_type"
  | .datetimeParsing => "datetime_parsing"
  | .datetimeFromDateParsing => "datetime_from_date_parsing"
  | .dateType => "date_type"
  | .dateParsing => "date_parsing"
  | .dateFromDatetimeParsing => "date_from_datetime_parsing"
  | .dateFromDatetimeInexact => "date_from_datetime_inexact"
  | .listType => "list_type"
  | .setType => "set_type"
  | .frozenSetType => "frozen_set_type"
  | .tupleType => "tuple_type"
  | .tooLong => "too_long"
  | .iterableType => "iterable_type"
  | .mapType => "dict_type"
  | .unhashableItem => "set_item_not_hashable"
  | .enum => "enum"
  | .literalError => "literal_error"
  | .noneRequired => "none_required"
  | .valueError => "value_error"
  | .complexType => "complex_type"
  | .instanceOf => "is_instance_of"
  | .sequenceText => "sequence_str"

/-- A problem and its place, from the outermost step to the innermost one. -/
structure Problem where
  place : List Place
  kind : ProblemKind
  deriving DecidableEq, Repr

/-- Why a record is not read: it has problems, or a fault ends the reading at once. -/
inductive Rejection where
  | problems (ps : List Problem)
  | fault (f : ValueFault)
  deriving DecidableEq, Repr

namespace Rejection

/-- A single problem at the place of the value itself. -/
def here (kind : ProblemKind) : Rejection := .problems [⟨[], kind⟩]

/-- A rejection seen from one step further out. -/
def under (steps : List Place) : Rejection → Rejection
  | .problems ps => .problems (ps.map fun p => { p with place := steps ++ p.place })
  | .fault f => .fault f

end Rejection

/-- How far a reading has come. -/
structure Progress where
  /-- the number of identifiers made so far -/
  ids : Nat
  /-- the loosest match so far -/
  closeness : Closeness
  /-- the number of fields given to records so far, once a record has been read from its fields -/
  given : Option Nat
  deriving DecidableEq, Repr

/-- The start of a reading after a number of identifiers. -/
def Progress.start (ids : Nat) : Progress := ⟨ids, .exact, none⟩

/-- Reading, with its progress. Identifiers are counted also where it fails. -/
abbrev Reading (α : Type) := ExceptT Rejection (StateM Progress) α

namespace Reading

/-- The identifier of a given number: its hexadecimal digits, padded to thirty-two. -/
def identifier (n : Nat) : String :=
  let digits := Nat.toDigits 16 n
  String.ofList (List.replicate (32 - digits.length) '0' ++ digits)

/-- An identifier that has not been used before. -/
def freshId : Reading String := fun p =>
  (.ok (identifier (p.ids + 1)), { p with ids := p.ids + 1 })

/-- A result that makes no progress. -/
def settled {α : Type} (r : Except Rejection α) : Reading α := fun p => (r, p)

/-- Notes how closely a value matches. -/
def loosen (c : Closeness) : Reading Unit := fun p =>
  (.ok (), { p with closeness := p.closeness.loosest c })

/-- Notes a number of fields that are given to a record. -/
def give (fields : Nat) : Reading Unit := fun p =>
  (.ok (), { p with given := some (p.given.getD 0 + fields) })

/-- Reads under a further step. -/
def under {α : Type} (steps : List Place) (r : Reading α) : Reading α := fun p =>
  match r p with
  | (.ok v, p) => (.ok v, p)
  | (.error e, p) => (.error (e.under steps), p)

/-- Reads only for the fault that may end the reading: whatever else comes of it, there is a problem
of the given kind. -/
def spoiled {α β : Type} (kind : ProblemKind) (r : Reading α) : Reading β := fun p =>
  match r p with
  | (.error (.fault f), p) => (.error (.fault f), p)
  | (_, p) => (.error (.here kind), p)

/-- Two results, or the problems of both readings in turn. A fault of the first one leaves the
second one out. -/
def both {α β : Type} (first : Reading α) (second : Reading β) : Reading (α × β) := fun p =>
  match first p with
  | (.error (.fault f), p) => (.error (.fault f), p)
  | (.ok a, p) =>
    match second p with
    | (.ok b, p) => (.ok (a, b), p)
    | (.error e, p) => (.error e, p)
  | (.error (.problems ps), p) =>
    match second p with
    | (.ok _, p) => (.error (.problems ps), p)
    | (.error (.problems qs), p) => (.error (.problems (ps ++ qs)), p)
    | (.error (.fault f), p) => (.error (.fault f), p)

/-- All results, or the problems of all readings in turn. -/
def all {α : Type} : List (Reading α) → Reading (List α)
  | [] => fun p => (.ok [], p)
  | r :: rest => fun p =>
    match both r (all rest) p with
    | (.ok (a, as), p) => (.ok (a :: as), p)
    | (.error e, p) => (.error e, p)

end Reading

end IndexedRecords
