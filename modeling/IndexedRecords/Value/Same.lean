import IndexedRecords.Value

/-!
# Equality of values

Two values are the same when they cannot be told apart by comparison: numbers of every kind by
their magnitude, members of an enumeration of texts or numbers as that text or number, moments
with an offset by their instant, sets and maps regardless of order.
-/

namespace IndexedRecords

/-- A number of any kind: no number, an infinity or a quotient. -/
inductive ExactNumber where
  | nan
  | infinite (negative : Bool)
  | ratio (num : Int) (den : Nat)
  deriving DecidableEq, Repr

namespace ExactNumber

/-- Whether two numbers are equal. No number is equal to nothing. -/
def same : ExactNumber → ExactNumber → Bool
  | .ratio n d, .ratio n' d' => n * d' == n' * d
  | .infinite a, .infinite b => a == b
  | _, _ => false

/-- A floating number as a quotient. -/
def ofBinary64 : Binary64 → ExactNumber
  | .nan => .nan
  | .infinite negative => .infinite negative
  | .finite negative units => .ratio (if negative then -(units : Int) else units) Binary64.one

/-- A decimal as a quotient. -/
def ofDecimal : Decimal → ExactNumber
  | .nan _ _ _ => .nan
  | .infinite negative => .infinite negative
  | .finite negative coefficient exponent =>
    let n : Int := if negative then -(coefficient : Int) else coefficient
    match exponent with
    | .ofNat e => .ratio (n * Nat.pow 10 e) 1
    | .negSucc e => .ratio n (Nat.pow 10 (e + 1))

end ExactNumber

/-- A number as a quotient. -/
def Number.exact : Number → ExactNumber
  | .int n => .ratio n 1
  | .float x => .ofBinary64 x

/-- Whether two moments are the same instant, or show the same time where neither has an offset. -/
def Moment.same (a b : Moment) : Bool :=
  a.offset.isSome == b.offset.isSome && a.epochMicroseconds == b.epochMicroseconds

namespace Value

/-- The number that a value is, if it is one. -/
def number? : Value → Option ExactNumber
  | .bool b => some (.ratio (if b then 1 else 0) 1)
  | .int n => some (.ratio n 1)
  | .float x => some (.ofBinary64 x)
  | .decimal d => some (.ofDecimal d)
  | _ => Option.none

/-- Whether two values that are no containers are the same. -/
def sameAtom (a b : Value) : Bool :=
  match a.number?, b.number? with
  | some x, some y => x.same y
  | _, _ =>
    match a, b with
    | .none, .none => true
    | .text s, .text t => s == t
    | .bytes s, .bytes t => s == t
    | .date s, .date t => s == t
    | .moment s, .moment t => s.same t
    | .point s, .point t =>
      s.longitude.exact.same t.longitude.exact && s.latitude.exact.same t.latitude.exact
    | .member e _ name _, .member e' _ name' _ => e == e' && name == name'
    | _, _ => false

mutual

/-- Whether two values are the same. -/
def same : Value → Value → Bool
  | .member e .plain name _, b => sameAtom (.member e .plain name .none) b
  | .member _ _ _ v, b => same v b.plain
  | .record model fields, b =>
    match b with
    | .record model' fields' =>
      model == model' && fields.length == fields'.length && sameFields fields fields'
    | _ => false
  | .list items, b =>
    match b with
    | .list items' => sameItems items items'
    | _ => false
  | .tuple items, b =>
    match b with
    | .tuple items' => sameItems items items'
    | _ => false
  | .queue items, b =>
    match b with
    | .queue items' => sameItems items items'
    | _ => false
  | .set _ items, b =>
    match b with
    | .set _ items' => items.length == items'.length && allAmong items items'
    | _ => false
  | .map entries, b =>
    match b with
    | .map entries' => entries.length == entries'.length && sameEntries entries entries'
    | _ => false
  | a, b => sameAtom a b.plain

/-- Whether two sequences hold the same values in the same order. -/
def sameItems : List Value → List Value → Bool
  | [], [] => true
  | a :: as, b :: bs => same a b && sameItems as bs
  | _, _ => false

/-- Whether each value of a list is the same as one of another list. -/
def allAmong : List Value → List Value → Bool
  | [], _ => true
  | a :: as, bs => bs.any (same a) && allAmong as bs

/-- Whether each field of a list has the same value in another list. -/
def sameFields : List (String × Value) → List (String × Value) → Bool
  | [], _ => true
  | (name, a) :: rest, fields =>
    (match fields.find? fun f => f.1 == name with
      | some (_, b) => same a b
      | Option.none => false) && sameFields rest fields

/-- Whether each entry of a list has a fellow of the same key and value in another list. -/
def sameEntries : List (Value × Value) → List (Value × Value) → Bool
  | [], _ => true
  | (key, a) :: rest, entries =>
    (entries.any fun (key', b) => same key key' && same a b) && sameEntries rest entries

end

end Value

end IndexedRecords
