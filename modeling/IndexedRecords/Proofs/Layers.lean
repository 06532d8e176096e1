import IndexedRecords.Shape

/-!
# Layers around shapes

Annotations surround a shape, and so does a union in which every other member is null. Whatever
looks through such layers looks through them one by one: `Unwraps` says so, and a fact about shapes
that each layer keeps holds of a shape and of what stands under all of its layers (`unwraps`).
-/

namespace IndexedRecords.Shape

/-- A shape is the only one of several that is not the one of null. -/
inductive IsSole : List Shape → Shape → Prop where
  | skip {first s : Shape} {rest : List Shape} (null : first.isNullType) (h : IsSole rest s) :
      IsSole (first :: rest) s
  | here {s : Shape} {rest : List Shape} (nonnull : ¬ s.isNullType) (null : rest.all isNullType) :
      IsSole (s :: rest) s

/-- A shape has another one under some of its layers. -/
inductive Unwraps : Shape → Shape → Prop where
  | bare (s : Shape) : Unwraps s s
  | annotated {inner t : Shape} {markers : List Marker} (h : Unwraps inner t) :
      Unwraps (.annotated inner markers) t
  | union {members : List Shape} {s t : Shape} (sole : IsSole members s) (h : Unwraps s t) :
      Unwraps (.union members) t

mutual

/-- Every shape has its unwrapped one under its layers. -/
theorem unwraps : (s : Shape) → Unwraps s s.unwrap
  | .annotated inner _ => by
    rw [unwrap]
    exact .annotated (unwraps inner)
  | .union members => by
    rw [unwrap]
    split
    · next t ht =>
      obtain ⟨s, hsole, hs⟩ := exists_isSole members ht
      exact .union hsole hs
    · exact .bare _
  | .scalar _ | .nullType | .nullValue | .any | .bare _ | .record _ | .enumeration _
  | .generic _ _ _ | .variadic _ | .literal _ | .renamed _ _ => by
    rw [unwrap]
    · exact .bare _
    all_goals nofun

theorem exists_isSole : (members : List Shape) → {t : Shape} → unwrapSole members = some t →
    ∃ s, IsSole members s ∧ Unwraps s t
  | [], _, h => by cases h
  | first :: rest, t, h => by
    rw [unwrapSole] at h
    split at h
    · next hnull =>
      obtain ⟨s, hsole, hs⟩ := exists_isSole rest h
      exact ⟨s, .skip hnull hsole, hs⟩
    · next hsome =>
      split at h
      · next hnull =>
        obtain rfl := Option.some.inj h
        exact ⟨first, .here hsome hnull, unwraps first⟩
      · cases h

end

end IndexedRecords.Shape
