import IndexedRecords.Value.Convert
import IndexedRecords.Value.Same

/-!
# Enumerations

An enumeration gives names to values. Two names of the same value denote one member, which carries
the first of them.
-/

namespace IndexedRecords

/-- A declared enumeration: its members with their values, in order. -/
structure Enumeration where
  name : String
  kind : EnumKind
  members : List (String × Value)

namespace Enumeration

/-- The value that a member gets: enumerations of texts and of whole numbers convert it. -/
def memberValue : EnumKind → Value → Except ValueFault Value
  | .plain, v => .ok v
  | .text, v => return .text (← v.display)
  | .whole, v => return .int (← v.toInt)

/-- Declares an enumeration. -/
def declare (name : String) (kind : EnumKind) (members : List (String × Value)) :
    Except ValueFault Enumeration := do
  let members ← members.mapM fun (member, v) => return (member, ← memberValue kind v)
  return ⟨name, kind, members⟩

/-- The member with a given value. -/
def ofValue? (e : Enumeration) (v : Value) : Option Value :=
  (e.members.find? fun m => m.2.same v).map fun (member, w) => .member e.name e.kind member w

/-- The member with a given name. -/
def ofName? (e : Enumeration) (member : String) : Option Value :=
  (e.members.find? fun m => m.1 = member).bind fun (_, v) => e.ofValue? v

/-- What the members stand for, each with its member. A further name of a member leads to the same
entry again. -/
def cases (e : Enumeration) : List (Value × Value) :=
  e.members.filterMap fun m => (e.ofName? m.1).map fun member => (member.payload, member)

end Enumeration

end IndexedRecords
