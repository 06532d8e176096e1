import IndexedRecords.Text.Cut
import IndexedRecords.Value.Convert

/-!
# Points

A point is read from a text of two numbers with a comma between them, or from a sequence of two
values that are numbers or read as such.
-/

namespace IndexedRecords

/-- The point that a value is or describes. -/
def Coordinates.ofValue (v : Value) : Except ValueFault Coordinates := do
  match v.plain with
  | .point p => return p
  | .text s =>
    match Text.splitAll ',' s.toList with
    | [longitude, latitude] =>
      let longitude ← Value.floatOfText (Text.quoted longitude) longitude
      let latitude ← Value.floatOfText (Text.quoted latitude) latitude
      return ⟨.float longitude, .float latitude⟩
    | _ => .error (.malformedPoint (← v.literal))
  | .list [longitude, latitude] | .tuple [longitude, latitude] =>
    return ⟨.float (← longitude.toFloat), .float (← latitude.toFloat)⟩
  | _ => .error (.unreadablePoint (← v.literal))

end IndexedRecords
