import IndexedRecords.Proofs.Record.Writing
import Mathlib.Tactic.Choose

/-!
# Dates in documents

Searchable records write a date or moment as seconds since 1970, so that an index can order it, but
only on its own or as an item of a sequence that holds nothing else. All other dates are written as
texts: those in sets, in sequences of sequences, and in sequences with a null among their items.

## Main statements

* `isNumeric_iff_of_writeField`: which values of a field that holds dates are written as numbers.
-/

namespace IndexedRecords

/-! ### Dates in values -/

/-- The shapes of the items of a sequence or set. -/
def Shape.itemShapes? : Shape → Option (List Shape)
  | .generic head _ (first :: rest) => if head.isSequence then some (first :: rest) else none
  | .variadic item => some [item]
  | _ => none

/-- Under its outer layers, a shape asks for dates or moments: on their own, or in sequences or sets
of such shapes. -/
inductive HoldsDates : Shape → Prop where
  | date {s : Shape} (asks : s.unwrap = .scalar .date) : HoldsDates s
  | moment {s : Shape} (asks : s.unwrap = .scalar .moment) : HoldsDates s
  | items {s : Shape} {shapes : List Shape} (asks : s.unwrap.itemShapes? = some shapes)
      (each : ∀ a ∈ shapes, HoldsDates a) : HoldsDates s

namespace Value

/-- Whether a value is a date or a moment. -/
def isDate : Value → Bool
  | .date _ | .moment _ => true
  | _ => false

/-- The items of a sequence or set. -/
def held? : Value → Option (List Value)
  | .list items | .tuple items | .queue items | .set _ items => some items
  | _ => Option.none

/-- A value is null, or a sequence or set of such values. -/
inductive IsBlank : Value → Prop where
  | none : IsBlank .none
  | items {v : Value} {items : List Value} (holds : v.held? = some items)
      (each : ∀ item ∈ items, IsBlank item) : IsBlank v

/-- A value is a date, or a sequence of dates and nothing else; or no date is anywhere in it. -/
inductive IsPlainDates : Value → Prop where
  | one {v : Value} (date : v.isDate) : IsPlainDates v
  | list {items : List Value} (dates : ∀ v ∈ items, v.isDate) : IsPlainDates (.list items)
  | tuple {items : List Value} (dates : ∀ v ∈ items, v.isDate) : IsPlainDates (.tuple items)
  | blank {v : Value} (h : IsBlank v) : IsPlainDates v

theorem isBlank_iff {v : Value} {items : List Value} (h : v.held? = some items) :
    v.IsBlank ↔ ∀ item ∈ items, item.IsBlank := by
  refine ⟨fun hblank => ?_, .items h⟩
  cases hblank with
  | none => cases h
  | items holds each =>
    cases h.symm.trans holds
    exact each

theorem held?_eq_none_of_isDate {v : Value} (h : v.isDate) : v.held? = Option.none := by
  unfold held?
  split <;> first | rfl | cases h

theorem not_isBlank_of_isDate {v : Value} (h : v.isDate) : ¬ v.IsBlank := by
  rintro (_ | ⟨holds, _⟩)
  · cases h
  · cases (held?_eq_none_of_isDate h).symm.trans holds

end Value

/-- A document is null, a number, or an array of such documents. -/
inductive Json.IsNumeric : Json → Prop where
  | null : IsNumeric .null
  | int (n : Int) : IsNumeric (.int n)
  | float (x : Binary64) : IsNumeric (.float x)
  | array {items : List Json} (each : ∀ j ∈ items, IsNumeric j) : IsNumeric (.array items)

theorem Json.isNumeric_array_iff {items : List Json} :
    (Json.array items).IsNumeric ↔ ∀ j ∈ items, j.IsNumeric :=
  ⟨fun h => by cases h with | array each => exact each, .array⟩

namespace Record

open Traversal

variable {c : Catalogue} {r : RecordType} {f : Field} {s : Shape} {v : Value} {j : Json}
  {items : List Value} {js : List Json}

/-! ### Dates that are written by their shapes -/

/-- Only what stands under the outer layers of a shape counts. -/
theorem isNumeric_iff_of_unwraps {t : Shape} (hlayers : Shape.Unwraps s t)
    (hnull : writeAs c (contentOf c .none) t .off = some .null) (hv : Belongs c s v)
    (hj : writer c v .off s = some j)
    (h : Belongs c t v → writeAs c (contentOf c v) t .off = some j → (j.IsNumeric ↔ v.IsBlank)) :
    j.IsNumeric ↔ v.IsBlank := by
  rw [writer_eq] at hj
  by_cases hne : v = .none
  · subst hne
    rw [writeAs_none_of_unwraps hlayers hnull] at hj
    cases hj
    exact iff_of_true .null .none
  · rw [writeAs_unwrap (by simpa using hne) .off hlayers] at hj
    exact h ((hv.unwrap hlayers).resolve_left hne) hj

/-- A single date is written as a text. -/
theorem isNumeric_iff_of_isDate {scalar : Scalar} (hdate : v.isDate)
    (hkind : scalar = .date ∨ scalar = .moment)
    (hj : writeAs c (contentOf c v) (.scalar scalar) .off = some j) :
    j.IsNumeric ↔ v.IsBlank := by
  have htext : ∃ text, j = .text text := by
    obtain rfl | rfl := hkind <;> cases v <;> cases hdate <;> cases hj <;> exact ⟨_, rfl⟩
  obtain ⟨text, rfl⟩ := htext
  exact iff_of_false nofun (Value.not_isBlank_of_isDate hdate)

theorem isDate_of_holds {scalar : Scalar} (hkind : scalar = .date ∨ scalar = .moment)
    (h : scalar.holds v = true) : v.isDate := by
  obtain rfl | rfl := hkind <;> cases v <;> first | rfl | exact nomatch h

/-- An array is numeric if its items are, and what it is written from is blank if its items are. -/
theorem isNumeric_array_iff (hholds : v.held? = some items)
    (h : List.Forall₂ (fun v j => Json.IsNumeric j ↔ v.IsBlank) items js) :
    (Json.array js).IsNumeric ↔ v.IsBlank := by
  rw [Json.isNumeric_array_iff, Value.isBlank_iff hholds]
  clear hholds
  induction h with
  | nil => exact iff_of_true nofun nofun
  | cons hj _ ih => rw [List.forall_mem_cons, List.forall_mem_cons, hj, ih]

theorem held?_of_items? {head : Generic} (h : head.items? v = some items) :
    v.held? = some items := by
  unfold Generic.items? at h
  split at h <;> cases h <;> rfl

theorem asksForParts_of_itemShapes? {shapes : List Shape} (h : s.itemShapes? = some shapes) :
    asksForParts s = true := by
  unfold Shape.itemShapes? at h
  split at h <;> first | rfl | cases h

/-- A sequence or set is written as an array, each item as one of the shapes of items. -/
theorem exists_array_of_writeAs {shapes : List Shape} (hs : s.itemShapes? = some shapes)
    (hv : Belongs c s v) (hj : writeAs c (contentOf c v) s .off = some j) :
    ∃ items js, v.held? = some items ∧ j = .array js ∧
      List.Forall₂ (fun v j => ∃ a ∈ shapes, Belongs c a v ∧ writer c v .off a = some j)
        items js := by
  unfold Shape.itemShapes? at hs
  split at hs
  · next head older first rest =>
    obtain ⟨kind, hs⟩ := Option.ite_none_right_eq_some.mp hs
    cases hs
    rw [writeAs] at hj
    cases hv with
    | @items _ _ _ _ items hitems hbelongs =>
      rw [writeGeneric_of_items? (by rw [contentOf_value]; exact hitems), items_contentOf hitems,
        writeItems_eq_some_iff] at hj
      obtain ⟨js, rfl, hjs⟩ := hj
      refine ⟨items, js, held?_of_items? hitems, rfl, ?_⟩
      have hall := (List.forall₂_and_left _ _).mpr ⟨hbelongs, hjs⟩
      exact hall.imp fun v j hw => ⟨first, List.mem_cons_self, hw⟩
    -- each item of a tuple of fixed length has a shape of its own, at the same place
    | @fixed _ _ items hlength hbelongs =>
      simp only [writeGeneric, contentOf_value, reduceCtorEq, false_and, if_false,
        Option.map_eq_some_iff] at hj
      obtain ⟨js, hjs, rfl⟩ := hj
      rw [contentOf, writers_eq_map] at hjs
      refine ⟨items, js, rfl, rfl, ?_⟩
      have hpairs := (List.forall₂_and_left _ _).mpr
        ⟨fun p hp => And.intro (List.of_mem_zip hp).1 (hbelongs p hp),
          forall₂_of_writeFixed hlength hjs⟩
      rw [← List.map_snd_zip (Nat.le_of_eq hlength), List.forall₂_map_left_iff]
      exact hpairs.imp fun p j h => ⟨p.1, h.1.1, h.1.2, h.2⟩
    | entries hentries _ _ =>
      rw [Generic.entries?_of_isSequence kind] at hentries
      cases hentries
  · next item =>
    cases hs
    cases hv with
    | @variadic _ items hbelongs =>
      simp only [writeAs, writeVariadic, contentOf_value] at hj
      rw [contentOf, writers_eq_map, writeItems_eq_some_iff] at hj
      obtain ⟨js, rfl, hjs⟩ := hj
      refine ⟨items, js, rfl, rfl, ?_⟩
      have hall := (List.forall₂_and_left _ _).mpr ⟨hbelongs, hjs⟩
      exact hall.imp fun v j hw => ⟨item, List.mem_cons_self, hw⟩
  · cases hs

/-- Where its shape decides, a value is written as numbers only if no date is in it. -/
theorem isNumeric_iff_of_writer (h : HoldsDates s) (hv : Belongs c s v)
    (hj : writer c v .off s = some j) : j.IsNumeric ↔ v.IsBlank := by
  induction h generalizing v j with
  | @date s asks =>
    refine isNumeric_iff_of_unwraps (asks ▸ s.unwraps) rfl hv hj fun hv hj => ?_
    cases hv with
    | scalar kind => exact isNumeric_iff_of_isDate (isDate_of_holds (.inl rfl) kind) (.inl rfl) hj
  | @moment s asks =>
    refine isNumeric_iff_of_unwraps (asks ▸ s.unwraps) rfl hv hj fun hv hj => ?_
    cases hv with
    | scalar kind => exact isNumeric_iff_of_isDate (isDate_of_holds (.inr rfl) kind) (.inr rfl) hj
  | @items s shapes asks each ih =>
    have hparts := asksForParts_of_itemShapes? asks
    refine isNumeric_iff_of_unwraps s.unwraps (writeAs_none_of_asksForParts rfl hparts) hv hj
      fun hv hj => ?_
    obtain ⟨items, js, hheld, rfl, hitems⟩ := exists_array_of_writeAs asks hv hj
    refine isNumeric_array_iff hheld (hitems.imp ?_)
    rintro v j ⟨a, ha, hbelongs, hwritten⟩
    exact ih a ha hbelongs hwritten

/-! ### Dates that are written as seconds -/

/-- What is written in seconds is a date, and what is written is a number. -/
theorem isNumeric_of_epochJson? (h : epochJson? v = some j) : v.isDate ∧ j.IsNumeric := by
  unfold epochJson? at h
  split at h
  · cases h
    exact ⟨rfl, .int _⟩
  · cases h
    exact ⟨rfl, .float _⟩
  · cases h

/-- Dates and moments are what can be written in seconds. -/
theorem isDate_iff_exists_epochJson? : v.isDate ↔ ∃ j, epochJson? v = some j := by
  refine ⟨fun h => ?_, fun ⟨j, hj⟩ => (isNumeric_of_epochJson? hj).1⟩
  cases v <;> first | exact ⟨_, rfl⟩ | cases h

/-- A sequence that is written in seconds holds dates only, and what is written is an array of
numbers. -/
theorem isNumeric_of_mapM_epochJson? (h : items.mapM epochJson? = some js) :
    (∀ v ∈ items, v.isDate) ∧ (Json.array js).IsNumeric := by
  rw [mapM_eq_some_iff] at h
  rw [Json.isNumeric_array_iff]
  induction h with
  | nil => exact ⟨nofun, nofun⟩
  | cons hj _ ih =>
    obtain ⟨hdate, hnumeric⟩ := isNumeric_of_epochJson? hj
    exact ⟨List.forall_mem_cons.mpr ⟨hdate, ih.1⟩, List.forall_mem_cons.mpr ⟨hnumeric, ih.2⟩⟩

theorem exists_mapM_epochJson? (h : ∀ v ∈ items, v.isDate) :
    ∃ js, items.mapM epochJson? = some js := by
  choose! epoch hepoch using fun v hv => isDate_iff_exists_epochJson?.mp (h v hv)
  refine ⟨items.map epoch, mapM_eq_some_iff.mpr ?_⟩
  exact List.forall₂_map_right_iff.mpr (List.forall₂_same.mpr hepoch)

/-- What is written as seconds is a date or a sequence of dates. -/
theorem isPlainDates_of_temporalJson? (h : temporalJson? v = some j) :
    v.IsPlainDates ∧ j.IsNumeric := by
  unfold temporalJson? at h
  split at h
  · obtain ⟨js, hjs, rfl⟩ := Option.map_eq_some_iff.mp h
    obtain ⟨hdates, hnumeric⟩ := isNumeric_of_mapM_epochJson? hjs
    exact ⟨.list hdates, hnumeric⟩
  · obtain ⟨js, hjs, rfl⟩ := Option.map_eq_some_iff.mp h
    obtain ⟨hdates, hnumeric⟩ := isNumeric_of_mapM_epochJson? hjs
    exact ⟨.tuple hdates, hnumeric⟩
  · obtain ⟨hdate, hnumeric⟩ := isNumeric_of_epochJson? h
    exact ⟨.one hdate, hnumeric⟩

/-- What is not written as seconds holds a date only where its shape decides. -/
theorem isBlank_of_temporalJson?_eq_none (h : temporalJson? v = none) (hv : v.IsPlainDates) :
    v.IsBlank := by
  cases hv with
  | one hdate =>
    obtain ⟨j, hj⟩ := isDate_iff_exists_epochJson?.mp hdate
    unfold temporalJson? at h
    split at h <;> first | cases hdate | exact nomatch hj.symm.trans h
  | @list items hdates =>
    cases items with
    | nil => exact .items rfl nofun
    | cons v items =>
      obtain ⟨js, hjs⟩ := exists_mapM_epochJson? hdates
      rw [temporalJson?, hjs] at h
      cases h
  | @tuple items hdates =>
    cases items with
    | nil => exact .items rfl nofun
    | cons v items =>
      obtain ⟨js, hjs⟩ := exists_mapM_epochJson? hdates
      rw [temporalJson?, hjs] at h
      cases h
  | blank hblank => exact hblank

/-- **Dates in documents.** A searchable record writes the value of a field of dates as numbers
exactly if it is a date, a sequence of dates and nothing else, or holds no date at all. -/
theorem isNumeric_iff_of_writeField (hr : r.isSearchable) (hshape : HoldsDates f.shape)
    (hv : Belongs c f.shape v) (hj : writeField .off r f v (writer c v) = some j) :
    j.IsNumeric ↔ v.IsPlainDates := by
  rw [writeField, if_pos hr] at hj
  split at hj
  · next epoch hepoch =>
    cases hj
    obtain ⟨hplain, hnumeric⟩ := isPlainDates_of_temporalJson? hepoch
    exact iff_of_true hnumeric hplain
  · next hepoch =>
    rw [isNumeric_iff_of_writer hshape hv hj]
    exact ⟨.blank, isBlank_of_temporalJson?_eq_none hepoch⟩

/-- What is written in seconds is a date by itself, or a sequence. -/
theorem isDate_or_array_of_temporalJson? (h : temporalJson? v = some j) :
    v.isDate ∨ ∃ js, j = .array js := by
  unfold temporalJson? at h
  split at h
  · obtain ⟨js, _, rfl⟩ := Option.map_eq_some_iff.mp h
    exact .inr ⟨js, rfl⟩
  · obtain ⟨js, _, rfl⟩ := Option.map_eq_some_iff.mp h
    exact .inr ⟨js, rfl⟩
  · exact .inl (isNumeric_of_epochJson? h).1

/-- A value of a shape with items is a sequence or a set, and so no date. -/
theorem not_isDate_of_itemShapes? {shapes : List Shape} (hs : s.itemShapes? = some shapes)
    (hv : Belongs c s v) : ¬ v.isDate := by
  intro hdate
  cases hv with
  | items kind _ =>
    cases (Value.held?_eq_none_of_isDate hdate).symm.trans (held?_of_items? kind)
  | entries kind _ _ =>
    cases Generic.eq_map_of_entries? kind
    cases hdate
  | fixed | variadic => cases hdate
  | _ => cases hs

/-- A field of sequences or sets is written as an array or as null. -/
theorem eq_null_or_array_of_writeField {shapes : List Shape}
    (hs : f.shape.unwrap.itemShapes? = some shapes) (hv : Belongs c f.shape v)
    (hj : writeField .off r f v (writer c v) = some j) : j = .null ∨ ∃ js, j = .array js := by
  by_cases hne : v = .none
  · subst hne
    rw [writeField_eq rfl, writer_eq,
      writeAs_none rfl .off f.shape.unwraps (asksForParts_of_itemShapes? hs)] at hj
    exact .inl (Option.some.inj hj).symm
  · have hbelongs := (hv.unwrap f.shape.unwraps).resolve_left hne
    right
    rw [writeField] at hj
    split at hj
    · next epoch hepoch =>
      cases hj
      obtain ⟨_, htemporal⟩ := Option.ite_none_right_eq_some.mp hepoch
      exact (isDate_or_array_of_temporalJson? htemporal).resolve_left
        (not_isDate_of_itemShapes? hs hbelongs)
    · rw [writer_eq, writeAs_unwrap (by simpa using hne) .off f.shape.unwraps] at hj
      obtain ⟨_, js, _, rfl, _⟩ := exists_array_of_writeAs hs hbelongs hj
      exact ⟨js, rfl⟩

end Record
end IndexedRecords
