import IndexedRecords.Proofs.Layers
import IndexedRecords.Schema.Inference

/-!
# Wrapped shapes

A shape is wrapped by an annotation or by a union with null (`Wrapper`), around the whole of it or
around the items of its sequences and the values of its maps (`Rewraps`). The core of a shape is
what remains once the wrappers at all of these places are taken off. Wrapping keeps the core
(`Rewraps.core_eq`), and so does taking off the outer layers (`core_unwrap`).
-/

namespace IndexedRecords

theorem Generic.not_isSequence {head : Generic} (h : head.isMap) : ¬ head.isSequence := by
  cases head <;> simp_all [Generic.isSequence, Generic.isMap]

namespace Shape

/-! ### Unions of distinct members -/

/-- A list of shapes with one more, unless it holds the same one already. -/
def keepNew (kept : List Shape) (s : Shape) : List Shape :=
  if kept.any (same s) then kept else kept ++ [s]

/-- Some shapes without those that repeat an earlier one. -/
def distinctOf (shapes : List Shape) : List Shape := shapes.foldl keepNew []

/-- No shape of a list repeats an earlier one. -/
def AllDistinct (shapes : List Shape) : Prop :=
  shapes.Pairwise fun earlier s => same s earlier = false

/-- A shape as a field can have it: it is not null itself, and no member of a union repeats another
one. -/
structure Proper (s : Shape) : Prop where
  nonnull : s ≠ .nullValue
  distinct : ∀ members, s = .union members → AllDistinct members

theorem proper_generic (head : Generic) (older : Bool) (args : List Shape) :
    (generic head older args).Proper :=
  ⟨by simp, by simp⟩

theorem proper_variadic (item : Shape) : (variadic item).Proper :=
  ⟨by simp, by simp⟩

/-- Only the type of null is the same member of a union as the type of null: no other shape makes
null repeat. -/
theorem same_nullType_iff {s : Shape} : same .nullType s ↔ s = .nullType := by
  cases s <;> simp [same]

theorem isNullType_iff {s : Shape} : s.isNullType ↔ s = .nullType := by
  cases s <;> simp [isNullType]

theorem same_nullType_eq_false {s : Shape} (h : s.isNullType = false) :
    same s .nullType = false := by
  cases s <;> simp_all [same, isNullType]

/-- Adding a shape and then leaving out null comes to the same as leaving out null first. Null
itself is then not added at all, and no other shape is held back by it. -/
theorem filter_keepNew (kept : List Shape) (s : Shape) :
    (keepNew kept s).filter (!·.isNullType) =
      if s.isNullType then kept.filter (!·.isNullType)
      else keepNew (kept.filter (!·.isNullType)) s := by
  cases hs : s.isNullType with
  | true => unfold keepNew; split <;> simp [hs]
  | false =>
    -- only the null type repeats the null type
    have hany : (kept.filter (!·.isNullType)).any (same s) = kept.any (same s) := by
      rw [List.any_filter]
      congr 1
      funext t
      cases ht : t.isNullType with
      | true => simp [isNullType_iff.mp ht, same_nullType_eq_false hs]
      | false => simp
    unfold keepNew
    rw [hany]
    split <;> simp [hs]

/-- Null can be left out of a union before or after repeated members are dropped. -/
theorem filter_distinctOf (shapes : List Shape) :
    (distinctOf shapes).filter (!·.isNullType) = distinctOf (shapes.filter (!·.isNullType)) := by
  suffices h : ∀ kept, (shapes.foldl keepNew kept).filter (!·.isNullType) =
      (shapes.filter (!·.isNullType)).foldl keepNew (kept.filter (!·.isNullType)) from h []
  induction shapes with
  | nil => exact fun _ => rfl
  | cons s rest ih =>
    intro kept
    rw [List.foldl_cons, ih, filter_keepNew]
    cases hs : s.isNullType <;> simp [hs]

/-- A list stays without repetitions when a shape is put at its end, if none of the shapes before is
the same as it. -/
theorem allDistinct_concat {kept : List Shape} {s : Shape} :
    AllDistinct (kept ++ [s]) ↔ AllDistinct kept ∧ kept.any (same s) = false := by
  simp [AllDistinct, List.pairwise_append]

/-- Nothing is dropped from a list without repetitions. -/
theorem distinctOf_eq_self {shapes : List Shape} (h : AllDistinct shapes) :
    distinctOf shapes = shapes := by
  suffices hfold : ∀ kept, AllDistinct (kept ++ shapes) →
      shapes.foldl keepNew kept = kept ++ shapes from hfold [] h
  clear h
  induction shapes with
  | nil => exact fun kept _ => (List.append_nil kept).symm
  | cons s rest ih =>
    intro kept h
    rw [List.append_cons] at h ⊢
    have hnew : keepNew kept s = kept ++ [s] := by
      have hs := allDistinct_concat.mp (h.sublist (List.sublist_append_left _ _))
      rw [keepNew, hs.2, if_neg Bool.false_ne_true]
    rw [List.foldl_cons, hnew, ih _ h]

/-- No repetitions are left once each shape that repeats an earlier one is dropped. -/
theorem allDistinct_distinctOf (shapes : List Shape) : AllDistinct (distinctOf shapes) := by
  suffices h : ∀ kept, AllDistinct kept → AllDistinct (shapes.foldl keepNew kept) from
    h [] .nil
  induction shapes with
  | nil => exact fun _ h => h
  | cons s rest ih =>
    refine fun kept h => ih _ ?_
    unfold keepNew
    split
    · exact h
    · next hnew => exact allDistinct_concat.mpr ⟨h, by simpa using hnew⟩

/-- Null is kept when repeated members are dropped: what makes it repeat is null again. -/
theorem nullType_mem_distinctOf {shapes : List Shape} (h : .nullType ∈ shapes) :
    .nullType ∈ distinctOf shapes := by
  suffices hfold : ∀ kept : List Shape, .nullType ∈ kept ∨ .nullType ∈ shapes →
      .nullType ∈ shapes.foldl keepNew kept from hfold [] (.inr h)
  clear h
  induction shapes with
  | nil => exact fun _ h => h.resolve_right List.not_mem_nil
  | cons s rest ih =>
    refine fun kept h => ih _ ?_
    unfold keepNew
    rcases h with h | h
    · split <;> simp [h]
    · rcases List.mem_cons.mp h with rfl | h
      · split
        · next hany =>
          obtain ⟨t, ht, hsame⟩ := List.any_eq_true.mp hany
          exact .inl (same_nullType_iff.mp hsame ▸ ht)
        · simp
      · exact .inr h

/-- A union that is built is the only one of its members, or no member repeats another one. -/
theorem unionOf_cases (shapes : List Shape) :
    (∃ s, distinctOf (shapes.flatMap unionMembers) = [s] ∧ unionOf shapes = s) ∨
      unionOf shapes = .union (distinctOf (shapes.flatMap unionMembers)) := by
  unfold unionOf
  extract_lets members
  have hmembers : distinctOf (shapes.flatMap unionMembers) = members := rfl
  clear_value members
  rw [hmembers]
  split
  · next s => exact .inl ⟨s, rfl, rfl⟩
  · exact .inr rfl

/-! ### Wrappers -/

/-- A wrapper around a shape: markers, or null as one more member, last or first. -/
inductive Wrapper where
  | marked (markers : List Marker)
  | nullLast
  | nullFirst

/-- A shape in a wrapper. -/
def Wrapper.around : Wrapper → Shape → Shape
  | .marked markers, s => s.annotate markers
  | .nullLast, s => s.optional
  | .nullFirst, s => unionOf [.nullType, s]

/-- Whether the markers of a wrapped shape are still its own ones. -/
def Wrapper.isMarked : Wrapper → Bool
  | .marked _ => true
  | .nullLast | .nullFirst => false

/-- The markers that a shape carries itself. -/
def ownMarkers : Shape → List Marker
  | .annotated _ markers => markers
  | _ => []

/-- The marker that asks for a field to be indexed is the same with a wrapper around the shape of
the field: the wrapper has no such marker, and it covers none. -/
def Wrapper.KeepsMarker (s : Shape) : Wrapper → Prop
  | .marked markers => ∀ m ∈ markers, m.isIndexing = false
  | .nullLast | .nullFirst => ∀ m ∈ s.ownMarkers, m.isIndexing = false

/-- One shape is another one with wrappers: around the whole of it, or around the items of a
sequence or the values of a map that is reached through sequences, maps and wrappers only. Where
the outermost markers of the shape are those of a field, the marker that asks for an index stays. -/
inductive Rewraps : (outermost : Bool) → Shape → Shape → Prop
  | wrap {outermost : Bool} {s : Shape} (w : Wrapper) (proper : s.Proper)
      (marker : outermost → w.KeepsMarker s) : Rewraps outermost s (w.around s)
  | inside {outermost : Bool} {s t : Shape} (w : Wrapper)
      (h : Rewraps (outermost && w.isMarked) s t) : Rewraps outermost (w.around s) (w.around t)
  | item {outermost older : Bool} {head : Generic} {s t : Shape} (rest : List Shape)
      (kind : head.isSequence) (h : Rewraps false s t) :
      Rewraps outermost (.generic head older (s :: rest)) (.generic head older (t :: rest))
  | variadic {outermost : Bool} {s t : Shape} (h : Rewraps false s t) :
      Rewraps outermost (.variadic s) (.variadic t)
  | value {outermost older : Bool} {head : Generic} {s t : Shape} (key : Shape)
      (kind : head.isMap) (h : Rewraps false s t) :
      Rewraps outermost (.generic head older [key, s]) (.generic head older [key, t])
  | trans {outermost : Bool} {s t u : Shape} (h : Rewraps outermost s t)
      (h' : Rewraps outermost t u) : Rewraps outermost s u

/-! ### Cores -/

mutual

/-- A shape without its wrappers. A union of several members besides null, or of none, is as good as
any shape, and so is null as a member. -/
def core : Shape → Shape
  | .annotated inner _ => core inner
  | .union members => coreSole members
  | .generic head older args =>
    .generic head older
      (if head.isSequence then coreFirst args else if head.isMap then coreSecond args else args)
  | .variadic item => .variadic (core item)
  | .nullType => .any
  | s => s

/-- The core of the only member besides null. -/
def coreSole : List Shape → Shape
  | [] => .any
  | s :: rest =>
    if s.isNullType then coreSole rest else if rest.all isNullType then core s else .any

/-- The arguments of a sequence, with the core of its items. -/
def coreFirst : List Shape → List Shape
  | [] => []
  | item :: rest => core item :: rest

/-- The arguments of a map, with the core of its values. -/
def coreSecond : List Shape → List Shape
  | [key, value] => [key, core value]
  | args => args

end

/-- The core of a union with one member besides null is the core of that member, wherever null
stands. -/
theorem IsSole.coreSole_eq {members : List Shape} {s : Shape} (h : IsSole members s) :
    coreSole members = s.core := by
  induction h with
  | skip null _ ih => rw [coreSole, if_pos null, ih]
  | here nonnull null => rw [coreSole, if_neg nonnull, if_pos null]

/-- Taking off outer layers, annotations and unions with null, keeps the core. -/
theorem Unwraps.core_eq {s t : Shape} (h : Unwraps s t) : t.core = s.core := by
  induction h with
  | bare => rfl
  | annotated _ ih => rw [ih, core]
  | union sole _ ih => rw [ih, core, sole.coreSole_eq]

/-- The outer layers of a shape do not matter to its core. -/
theorem core_unwrap (s : Shape) : s.unwrap.core = s.core := s.unwraps.core_eq

/-- Null can be left out of the members of a union when its core is asked for. -/
theorem coreSole_filter (members : List Shape) :
    coreSole (members.filter (!·.isNullType)) = coreSole members := by
  induction members with
  | nil => rfl
  | cons s rest ih =>
    cases hs : s.isNullType with
    | true => rw [List.filter_cons_of_neg (by simp [hs]), ih, coreSole, if_pos hs]
    | false =>
      have hall : (rest.filter (!·.isNullType)).all isNullType = rest.all isNullType := by
        rw [Bool.eq_iff_iff, List.all_eq_true, List.all_eq_true]
        refine ⟨fun h t ht => ?_, fun h t ht => h t (List.mem_filter.mp ht).1⟩
        cases hnull : t.isNullType with
        | true => rfl
        | false => exact hnull.symm.trans (h t (List.mem_filter.mpr ⟨ht, by simp [hnull]⟩))
      rw [List.filter_cons_of_pos (by simp [hs]), coreSole, coreSole, hall, hs]
      rfl

/-- The core of a union that is built out of several shapes, be they unions themselves or not. -/
theorem core_unionOf (shapes : List Shape) :
    (unionOf shapes).core = coreSole (distinctOf (shapes.flatMap unionMembers)) := by
  rcases unionOf_cases shapes with ⟨s, hs, h⟩ | h
  · rw [h, hs, coreSole]
    split
    · next hnull => rw [isNullType_iff.mp hnull]; rfl
    · rfl
  · rw [h, core]

/-! ### Wrapping keeps the core -/

theorem settle_eq_self {s : Shape} (h : s ≠ .nullValue) : s.settle = s := by
  cases s <;> first | rfl | exact absurd rfl h

/-- A shape that a field can have brings no repeated members into a union. -/
theorem Proper.allDistinct_unionMembers {s : Shape} (h : s.Proper) :
    AllDistinct s.unionMembers := by
  unfold unionMembers
  split
  · exact h.distinct _ rfl
  · exact List.pairwise_singleton _ _

/-- A shape that a field can have brings members into a union whose core is its own. -/
theorem Proper.coreSole_unionMembers {s : Shape} (h : s.Proper) :
    coreSole s.unionMembers = s.core := by
  unfold unionMembers
  split
  · rfl
  · rw [settle_eq_self h.nonnull, coreSole]
    split
    · next hnull => rw [isNullType_iff.mp hnull]; rfl
    · rfl

/-- One more null member does not matter to the core of a union. -/
theorem Proper.core_unionOf {s : Shape} (h : s.Proper) {shapes : List Shape}
    (hmembers : (shapes.flatMap unionMembers).filter (!·.isNullType) =
      s.unionMembers.filter (!·.isNullType)) : (unionOf shapes).core = s.core := by
  rw [Shape.core_unionOf, ← coreSole_filter, filter_distinctOf, hmembers,
    distinctOf_eq_self (h.allDistinct_unionMembers.filter _), coreSole_filter,
    h.coreSole_unionMembers]

/-- A wrapper does not matter to the core of a shape. -/
theorem Proper.core_around {s : Shape} (h : s.Proper) (w : Wrapper) :
    (w.around s).core = s.core := by
  cases w with
  | marked markers =>
    show (s.annotate markers).core = s.core
    unfold annotate
    split
    · rfl
    · rw [settle_eq_self h.nonnull, core]
  | nullLast => exact h.core_unionOf (by simp [unionMembers, settle, isNullType])
  | nullFirst => exact h.core_unionOf (by simp [unionMembers, settle, isNullType])

/-! ### Wrapped shapes are proper -/

/-- A union with null is the type of null, or no member repeats another one. -/
theorem unionOf_nullType_cases {shapes : List Shape} (h : .nullType ∈ shapes) :
    unionOf shapes = .nullType ∨
      ∃ members, unionOf shapes = .union members ∧ AllDistinct members := by
  rcases unionOf_cases shapes with ⟨s, hs, hunion⟩ | hunion
  · have hnull : .nullType ∈ distinctOf (shapes.flatMap unionMembers) :=
      nullType_mem_distinctOf (List.mem_flatMap.mpr ⟨_, h, List.mem_singleton_self _⟩)
    rw [hs, List.mem_singleton] at hnull
    exact .inl (hunion.trans hnull.symm)
  · exact .inr ⟨_, hunion, allDistinct_distinctOf _⟩

/-- What a wrapper makes of a shape: an annotated shape, the type of null (of null and null), or a
union without repeated members. So a wrapped shape is proper, and it can be wrapped again. -/
theorem Wrapper.around_cases (w : Wrapper) (s : Shape) :
    (∃ inner markers, w.around s = .annotated inner markers) ∨ w.around s = .nullType ∨
      ∃ members, w.around s = .union members ∧ AllDistinct members := by
  cases w with
  | marked markers =>
    refine .inl ?_
    show ∃ inner ms, s.annotate markers = .annotated inner ms
    unfold annotate
    split <;> exact ⟨_, _, rfl⟩
  | nullLast => exact .inr (unionOf_nullType_cases (by simp))
  | nullFirst => exact .inr (unionOf_nullType_cases (by simp))

/-- A wrapped shape is a shape that a field can have. -/
theorem Wrapper.around_proper (w : Wrapper) (s : Shape) : (w.around s).Proper := by
  rcases w.around_cases s with ⟨_, _, h⟩ | h | ⟨members, h, hdistinct⟩
  · exact ⟨h ▸ nofun, fun _ h' => nomatch h.symm.trans h'⟩
  · exact ⟨h ▸ nofun, fun _ h' => nomatch h.symm.trans h'⟩
  · exact ⟨h ▸ nofun, fun _ h' => union.inj (h.symm.trans h') ▸ hdistinct⟩

/-- Both ends of a rewrapping are shapes that a field can have. -/
theorem Rewraps.proper {outermost : Bool} {s t : Shape} (h : Rewraps outermost s t) :
    s.Proper ∧ t.Proper := by
  induction h with
  | wrap w proper _ => exact ⟨proper, w.around_proper _⟩
  | inside w _ _ => exact ⟨w.around_proper _, w.around_proper _⟩
  | item | value => exact ⟨proper_generic _ _ _, proper_generic _ _ _⟩
  | variadic => exact ⟨proper_variadic _, proper_variadic _⟩
  | trans _ _ ih ih' => exact ⟨ih.1, ih'.2⟩

/-- Wrapping a shape keeps its core. -/
theorem Rewraps.core_eq {outermost : Bool} {s t : Shape} (h : Rewraps outermost s t) :
    t.core = s.core := by
  induction h with
  | wrap w proper _ => exact proper.core_around w
  | inside w h ih => rw [h.proper.1.core_around, h.proper.2.core_around, ih]
  | item rest kind _ ih => simp only [core, if_pos kind, coreFirst, ih]
  | variadic _ ih => simp only [core, ih]
  | value key kind _ ih =>
    simp only [core, if_neg (Generic.not_isSequence kind), if_pos kind, coreSecond, ih]
  | trans _ _ ih ih' => rw [ih', ih]

/-! ### Wrapping keeps the marker of a field -/

/-- The markers of an annotation come after those that the shape has already. -/
theorem ownMarkers_annotate (s : Shape) (markers : List Marker) :
    (s.annotate markers).ownMarkers = s.ownMarkers ++ markers := by
  cases s <;> rfl

/-- A union with null has no markers of its own: those of its members stay inside. -/
theorem ownMarkers_unionOf {shapes : List Shape} (h : .nullType ∈ shapes) :
    (unionOf shapes).ownMarkers = [] := by
  rcases unionOf_nullType_cases h with h | ⟨_, h, -⟩ <;> rw [h] <;> rfl

/-- The markers that a field sees after a wrapper: more of them around an annotation, none through a
union. -/
theorem ownMarkers_around (w : Wrapper) (s : Shape) :
    (w.around s).ownMarkers =
      match w with
      | .marked markers => s.ownMarkers ++ markers
      | .nullLast | .nullFirst => [] := by
  cases w with
  | marked markers => exact ownMarkers_annotate s markers
  | nullLast => exact ownMarkers_unionOf (by simp)
  | nullFirst => exact ownMarkers_unionOf (by simp)

/-- A wrapper that keeps the marker of a field adds none before it, and none where there was
none. -/
theorem Wrapper.KeepsMarker.find?_around {w : Wrapper} {s : Shape} (h : w.KeepsMarker s) :
    (w.around s).ownMarkers.find? Marker.isIndexing = s.ownMarkers.find? Marker.isIndexing := by
  have hnone : ∀ ms : List Marker, (∀ m ∈ ms, m.isIndexing = false) →
      ms.find? Marker.isIndexing = none := fun ms hms =>
    List.find?_eq_none.mpr fun m hm => by simp [hms m hm]
  rw [ownMarkers_around]
  cases w with
  | marked markers => rw [List.find?_append, hnone markers h, Option.or_none]
  | nullLast => exact (hnone _ h).symm
  | nullFirst => exact (hnone _ h).symm

/-- Wrapping the shape of a field keeps the marker that asks for it to be indexed. -/
theorem Rewraps.find?_ownMarkers {s t : Shape} (h : Rewraps true s t) :
    t.ownMarkers.find? Marker.isIndexing = s.ownMarkers.find? Marker.isIndexing := by
  generalize houtermost : true = outermost at h
  induction h with
  | wrap w _ marker => exact (marker houtermost.symm).find?_around
  | inside w _ ih =>
    rw [ownMarkers_around, ownMarkers_around]
    cases w with
    | marked markers =>
      rw [List.find?_append, List.find?_append, ih (by simp [houtermost, Wrapper.isMarked])]
    | nullLast | nullFirst => rfl
  | item | variadic | value => rfl
  | trans _ _ ih ih' => rw [ih' houtermost, ih houtermost]

/-! ### What the core tells -/

/-- Whether a shape has a layer that a core cannot have. -/
def isLayered : Shape → Bool
  | .annotated _ _ | .union _ => true
  | _ => false

mutual

/-- No annotation and no union is the outermost layer of a core. -/
theorem core_not_isLayered : (s : Shape) → s.core.isLayered = false
  | .annotated inner _ => by rw [core]; exact core_not_isLayered inner
  | .union members => by rw [core]; exact coreSole_not_isLayered members
  | .scalar _ | .nullType | .nullValue | .any | .bare _ | .record _ | .enumeration _
  | .generic _ _ _ | .variadic _ | .literal _ | .renamed _ _ => rfl

theorem coreSole_not_isLayered : (members : List Shape) → (coreSole members).isLayered = false
  | [] => rfl
  | s :: rest => by
    rw [coreSole]
    split
    · exact coreSole_not_isLayered rest
    · split
      · exact core_not_isLayered s
      · rfl

end

/-- There is nothing to take off a shape that has no outer layers. -/
theorem unwrap_of_not_isLayered {s : Shape} (h : s.isLayered = false) : s.unwrap = s := by
  cases s <;> first | rfl | cases h

/-- A core has no outer layers. -/
theorem unwrap_core (s : Shape) : s.core.unwrap = s.core :=
  unwrap_of_not_isLayered (core_not_isLayered s)

mutual

/-- A shape that keeps layers that cannot be taken off counts as any shape. -/
theorem core_eq_any : (s : Shape) → s.unwrap.isLayered → s.core = .any
  | .annotated inner _, h => by
    rw [unwrap] at h
    rw [core]
    exact core_eq_any inner h
  | .union members, h => by
    rw [core]
    refine coreSole_eq_any members fun t ht => ?_
    rwa [unwrap, ht] at h
  | .nullType, _ => rfl
  | .any, _ => rfl

theorem coreSole_eq_any : (members : List Shape) →
    (∀ t, unwrapSole members = some t → t.isLayered) → coreSole members = .any
  | [], _ => rfl
  | s :: rest, h => by
    rw [coreSole]
    rw [unwrapSole] at h
    split at h
    · next hnull =>
      rw [if_pos hnull]
      exact coreSole_eq_any rest h
    · next hnonnull =>
      rw [if_neg hnonnull]
      split at h
      · next hall =>
        rw [if_pos hall]
        exact core_eq_any s (h _ rfl)
      · next hall => rw [if_neg hall]

end

/-- What is read of a shape under its outer layers can be read of its core, if layers that cannot
be taken off say as little as `any` does. -/
theorem read_core {β : Type} {f g : Shape → β} (s : Shape)
    (hany : ∀ u : Shape, u.isLayered → u.core = .any → f .any = g u)
    (hread : ∀ u : Shape, u.isLayered = false → f u.core = g u) : f s.core = g s.unwrap := by
  cases h : s.unwrap.isLayered with
  | true =>
    have hcore := core_eq_any s h
    rw [hcore, hany _ h ((core_unwrap s).trans hcore)]
  | false => rw [← core_unwrap, hread _ h]

/-- Whether a shape is that of floating numbers, under its outer layers, is told by its core. -/
theorem isFloat_core (s : Shape) : s.core.isFloat = s.unwrap.isFloat :=
  read_core s (fun u hu _ => by cases u <;> first | rfl | cases hu)
    (fun u hu => by cases u <;> first | rfl | cases hu)

/-- Whether a shape is that of whole numbers, under its outer layers, is told by its core. -/
theorem isWhole_core (s : Shape) : s.core.isWhole = s.unwrap.isWhole :=
  read_core s (fun u hu _ => by cases u <;> first | rfl | cases hu)
    (fun u hu => by cases u <;> first | rfl | cases hu)

theorem core_eq_nullValue_iff (s : Shape) : s.core = .nullValue ↔ s.unwrap = .nullValue :=
  iff_of_eq <| read_core (f := (· = nullValue)) (g := (· = nullValue)) s
    (fun u hu _ => by cases u <;> simp_all [isLayered])
    (fun u hu => by cases u <;> simp_all [isLayered, core])

/-- What a shape says about its items as an argument, null said apart, is what its core says, with
the core of the items. -/
theorem argument?_core (s : Shape) : s.core.argument? = s.argument?.map core := by
  rw [argument?, argument?, unwrap_core]
  split
  · next h => rw [(core_eq_nullValue_iff s).mp h]; rfl
  · next h =>
    split
    · next h' => exact absurd ((core_eq_nullValue_iff s).mpr h') h
    · rw [Option.map_some, core_unwrap]

mutual

/-- The index type of a shape is that of its core. -/
theorem indexType_core : (s : Shape) → s.core.indexType = s.indexType
  | .annotated inner _ => by rw [core, indexType, indexType_core inner]
  | .union members => by rw [core, indexType, indexType_coreSole members]
  | .generic head older args => by
    rw [core, indexType, indexType]
    split
    · exact firstIndexType_coreFirst args
    · split
      · exact secondIndexType_coreSecond args
      · rfl
  | .variadic item => by
    rw [core, indexType, indexType, unwrap_core, isFloat_core, indexType_core item]
  | .scalar _ | .nullType | .nullValue | .any | .bare _ | .record _ | .enumeration _
  | .literal _ | .renamed _ _ => by simp only [core, indexType]

theorem indexType_coreSole : (members : List Shape) →
    (coreSole members).indexType = soleIndexType members
  | [] => by rw [coreSole, soleIndexType, indexType]; all_goals nofun
  | s :: rest => by
    rw [coreSole, soleIndexType]
    split
    · exact indexType_coreSole rest
    · split
      · exact indexType_core s
      · rw [indexType]; all_goals nofun

theorem firstIndexType_coreFirst : (args : List Shape) →
    firstIndexType (coreFirst args) = firstIndexType args
  | [] => rfl
  | item :: _ => by
    rw [coreFirst, firstIndexType, firstIndexType, unwrap_core, isFloat_core, indexType_core item]

theorem secondIndexType_coreSecond : (args : List Shape) →
    secondIndexType (coreSecond args) = secondIndexType args
  | [_, value] => by rw [coreSecond, secondIndexType, secondIndexType, indexType_core value]
  | [] | [_] | _ :: _ :: _ :: _ => rfl

end

end Shape

end IndexedRecords
