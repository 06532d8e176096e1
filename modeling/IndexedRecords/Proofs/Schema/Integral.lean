import IndexedRecords.Proofs.Schema.Numbers

/-!
# Whole numbers under paths

A leaf of whole numbers moves a strict bound on to the next whole number, so that no other numbers
may be under its path. That a field holds whole numbers is read off its shape, and off the first
shape of items in a sequence. The path selects whole numbers and null only, if the items of the
field have no other shapes.

## Main statements

* `isWhole_of_integral_leaf`: what the path of a leaf of whole numbers selects, and which of it the
  ranges of comparisons contain.
-/

namespace IndexedRecords

/-- All items of a sequence or set of this shape, of fixed length or not, are whole numbers. -/
def Shape.isUnmixed (s : Shape) : Bool :=
  (s.unwrap.itemShapes?.getD []).all fun a => a.unwrap.isWhole

namespace Value

/-- Whether a value and the items that it holds stand for finite numbers, if for numbers at all. -/
def isFiniteThroughout (v : Value) : Bool := v.isFinite && (v.held?.getD []).all isFinite

end Value

namespace Record

open Traversal

variable {c : Catalogue} {r : RecordType} {f : Field} {s : Shape} {v : Value} {j : Json}

/-- No time is a whole number. -/
theorem timeless_of_isWhole (hs : s.unwrap.isWhole = true) (hv : Belongs c s v) :
    epochJson? v = none ∧ temporalJson? v = none := by
  obtain rfl | hbelongs := hv.unwrap s.unwraps
  · exact ⟨rfl, rfl⟩
  · obtain hint | ⟨e, henum, -⟩ := eq_int_or_enumeration_of_isWhole hs
    · rw [hint] at hbelongs
      cases hbelongs with
      | scalar kind => cases v <;> first | exact ⟨rfl, rfl⟩ | cases kind
    · rw [henum] at hbelongs
      cases hbelongs
      exact ⟨rfl, rfl⟩

/-- The items of a sequence or set belong to the shapes of items. -/
theorem exists_held_of_itemShapes? {shapes : List Shape} (hs : s.itemShapes? = some shapes)
    (hv : Belongs c s v) :
    ∃ items, v.held? = some items ∧ ∀ item ∈ items, ∃ a ∈ shapes, Belongs c a item := by
  unfold Shape.itemShapes? at hs
  split at hs
  · next head older first rest =>
    obtain ⟨kind, hs⟩ := Option.ite_none_right_eq_some.mp hs
    cases hs
    cases hv with
    | items hitems each =>
      exact ⟨_, held?_of_items? hitems, fun item hitem =>
        ⟨first, List.mem_cons_self, each item hitem⟩⟩
    | @fixed _ _ items hlength each =>
      refine ⟨items, rfl, fun item hitem => ?_⟩
      rw [← List.map_snd_zip (Nat.le_of_eq hlength)] at hitem
      obtain ⟨p, hp, rfl⟩ := List.mem_map.mp hitem
      exact ⟨p.1, (List.of_mem_zip hp).1, each p hp⟩
    -- a map has no items
    | entries hentries _ _ =>
      rw [Generic.entries?_of_isSequence kind] at hentries
      cases hentries
  · next item =>
    cases hs
    cases hv with
    | variadic each =>
      exact ⟨_, rfl, fun v hv => ⟨item, List.mem_cons_self, each v hv⟩⟩
  · cases hs

theorem temporalJson?_of_held? {items : List Value} (hheld : v.held? = some items)
    (h : ∀ item ∈ items, epochJson? item = none) : temporalJson? v = none := by
  obtain ⟨hlist, htuple⟩ := temporalJson?_of_items h
  unfold Value.held? at hheld
  split at hheld <;> cases hheld <;> first | exact hlist | exact htuple | rfl

/-- A sequence or set of whole numbers is written as an array of them. -/
theorem eq_null_or_isWhole_of_writeField {shapes : List Shape}
    (hs : f.shape.unwrap.itemShapes? = some shapes)
    (hwhole : ∀ a ∈ shapes, a.unwrap.isWhole = true) (hv : Belongs c f.shape v)
    (hfinite : v.isFiniteThroughout = true)
    (hj : writeField .off r f v (writer c v) = some j) :
    j = .null ∨ ∃ js, j = .array js ∧ ∀ i ∈ js, i.IsWhole := by
  by_cases hne : v = .none
  · subst hne
    rw [writeField_eq rfl, writer_eq,
      writeAs_none rfl .off f.shape.unwraps (asksForParts_of_itemShapes? hs)] at hj
    exact .inl (Option.some.inj hj).symm
  · have hbelongs := (hv.unwrap f.shape.unwraps).resolve_left hne
    obtain ⟨items, hheld, hitems⟩ := exists_held_of_itemShapes? hs hbelongs
    -- a sequence of whole numbers is not written as dates, not even an empty one
    have htimeless : temporalJson? v = none := by
      refine temporalJson?_of_held? hheld fun item hitem => ?_
      obtain ⟨a, ha, hitem⟩ := hitems item hitem
      exact (timeless_of_isWhole (hwhole a ha) hitem).1
    rw [writeField_eq htimeless, writer_unwrap hne] at hj
    obtain ⟨items', js, hheld', rfl, hjs⟩ := exists_array_of_writeAs hs hbelongs hj
    obtain rfl := Option.some.inj (hheld.symm.trans hheld')
    rw [Value.isFiniteThroughout, hheld, Bool.and_eq_true, Option.getD_some, List.all_eq_true]
      at hfinite
    refine .inr ⟨js, rfl, fun i hi => ?_⟩
    obtain ⟨item, hitem, a, ha, hitema, hi⟩ := exists_of_mem_left hjs.flip hi
    exact isWhole_of_writer (hwhole a ha) hitema (hfinite.2 item hitem) hi

end Record

namespace Schema

open Traversal Record

variable {c : Catalogue} {r : RecordType} {f : Field} {l : Leaf} {v : Value} {j : Json}

/-- A sequence of whole numbers has shapes of items. -/
theorem exists_itemShapes?_of_holding {item : Shape} (h : holding f = .sequence item)
    (hitem : item.isWhole = true) : ∃ shapes, f.shape.unwrap.itemShapes? = some shapes := by
  unfold holding Holding.ofShape at h
  split at h
  · next element helement =>
    obtain rfl := Holding.sequence.inj h
    unfold Shape.element? at helement
    split at helement
    · next head older args hshape =>
      split at helement
      · next hkind =>
        split at helement
        · cases helement
          cases hitem
        · next first rest =>
          exact ⟨first :: rest, by rw [hshape, Shape.itemShapes?, if_pos hkind]⟩
      · cases helement
    · next first hshape => exact ⟨[first], by rw [hshape]; rfl⟩
    · cases helement
  · split at h <;> cases h

/-- In the document of a field of whole numbers, the end of its path takes whole numbers only. -/
theorem isWhole_of_mem_taken {link : Link} (hwhole : holdsWhole link.field = true)
    (hnumeric : fieldIndexType link.field = .numeric)
    (hunmixed : link.field.shape.isUnmixed = true) (h : WrittenField c link.field v j)
    (hfinite : v.isFiniteThroughout = true) :
    ∀ i ∈ taken (chainSteps [link]) [j], i.IsWhole := by
  obtain ⟨r, hr, hbelongs, hj⟩ := h
  unfold holdsWhole at hwhole
  split at hwhole
  · next shape hholding =>
    -- a single value is what the path takes
    have hsteps : lastSteps link.field = [] := by
      rw [lastSteps, hholding]
    obtain rfl := eq_of_ofShape_eq_one hholding
    have htaken : taken (chainSteps [link]) [j] = [j] := by
      rw [chainSteps, hsteps]
      rfl
    rw [htaken, List.forall_mem_singleton]
    rw [writeField_eq (timeless_of_isWhole hwhole hbelongs).2] at hj
    rw [Value.isFiniteThroughout, Bool.and_eq_true] at hfinite
    exact isWhole_of_writer hwhole hbelongs hfinite.1 hj
  · next item hholding =>
    have hsteps : lastSteps link.field = [.items] := by
      simp only [lastSteps, hholding, hnumeric, reduceCtorEq, if_false]
    obtain ⟨shapes, hshapes⟩ := exists_itemShapes?_of_holding hholding hwhole
    rw [Shape.isUnmixed, hshapes, Option.getD_some, List.all_eq_true] at hunmixed
    obtain rfl | ⟨js, rfl, hjs⟩ :=
      eq_null_or_isWhole_of_writeField hshapes hunmixed hbelongs hfinite hj
    · rw [chainSteps, hsteps]
      exact fun _ hi => absurd hi List.not_mem_nil
    · have htaken : taken (chainSteps [link]) [.array js] = js := by
        rw [chainSteps, hsteps]
        exact List.append_nil js
      rw [htaken]
      exact hjs
  · cases hwhole

theorem isWhole_of_forall₂_writtenField {link : Link} (hwhole : holdsWhole link.field = true)
    (hnumeric : fieldIndexType link.field = .numeric)
    (hunmixed : link.field.shape.isUnmixed = true) {values : List Value} {found : List Json}
    (hfinite : ∀ v ∈ values, v.isFiniteThroughout = true)
    (h : List.Forall₂ (WrittenField c link.field) values found) :
    ∀ i ∈ taken (chainSteps [link]) found, i.IsWhole := by
  have hsplit : taken (chainSteps [link]) found =
      found.flatMap fun j => taken (chainSteps [link]) [j] := by
    have hflatten := taken_flatten (chainSteps [link]) (found.map fun j => [j])
    rw [← List.flatMap_def, List.flatMap_singleton', List.flatMap_map] at hflatten
    exact hflatten
  intro i hi
  rw [hsplit] at hi
  obtain ⟨j, hj, hi⟩ := List.mem_flatMap.mp hi
  obtain ⟨v, hv, hwritten⟩ := exists_of_mem_left h.flip hj
  exact isWhole_of_mem_taken hwhole hnumeric hunmixed hwritten (hfinite v hv) i hi

/-- **Whole numbers under paths.** In the stored text of a valid record, the path of a leaf of whole
numbers selects whole numbers and null only, if all items of its field have such a shape. Then the
range of each comparison with a number contains the selected numbers for which the comparison holds,
and no others. -/
theorem isWhole_of_integral_leaf {record : Record} {ls : List Leaf} {payload : String}
    (hr : c.find? record.model = some r) (hsearchable : r.isSearchable)
    (haddr : ∀ N, Relation.ReflTransGen (Nests c) r N → Navigable c N)
    (hvalid : Belongs c (.record record.model) record.toValue) (hcompile : compile c r = .ok ls)
    (hl : l ∈ ls) (hintegral : l.integral = true)
    (hpayload : Service.recordDocument c r record = .ok payload) :
    ∃ (chain : List Link) (path : List PathStep) (document : Outline) (selected : List Json),
      IndexedChain c r chain ∧ Describes chain l ∧
      PathStep.read? l.path.toList = some path ∧
      Outline.read? payload.toList = some document ∧
      document.select path = selected.map Json.outline ∧
      ∀ last ∈ chain.getLast?, last.field.shape.isUnmixed = true →
        (∀ v ∈ valuesAt chain record.fields, v.isFiniteThroughout = true) →
        ∀ j ∈ selected, j.IsWhole ∧
          ∀ token, j.outline.number? = some token → ∀ op ≠ .notEqual, ∀ operand y,
            operand.indexedNumber l.queryAlias = .ok y → y.isFinite →
            y.digits < Numeral.digitLimit → ∃ range : Search.Atom,
              (FieldTest.compare op operand).clause l = .ok (String.ofList range.text) ∧
              (range.contains token ↔ op.holds token y.value) := by
  obtain ⟨chain, path, document, found, hchain, hdepicts, hpath, hdocument, hselect, hfound⟩ :=
    exists_found_of_leaf hr hsearchable haddr hvalid hcompile hl hpayload
  refine ⟨chain, path, document, _, hchain, hdepicts.toDescribes, hpath, hdocument, hselect,
    fun last hlast hunmixed hfinite j hj => ?_⟩
  -- the field of the leaf holds whole numbers, and is indexed as such
  have hkind := hdepicts.integral_eq
  rw [Option.mem_def.mp hlast, Option.map_some, hintegral, Option.some.injEq, Bool.and_eq_true,
    decide_eq_true_eq] at hkind
  have htype := hdepicts.type_eq
  rw [Option.mem_def.mp hlast, Option.map_some, hkind.2, Option.some.injEq] at htype
  rw [taken_chainSteps hlast] at hj
  have hwhole := isWhole_of_forall₂_writtenField hkind.1 hkind.2 hunmixed hfinite
    (hfound last hlast) j hj
  refine ⟨hwhole, fun token htoken op hop operand y hy hyfinite hdigits => ?_⟩
  refine ⟨FieldTest.compareAtom l op y,
    FieldTest.clause_compare_eq hop htype.symm hy hdigits,
    FieldTest.contains_compareAtom_iff hop hyfinite fun _ => ?_⟩
  cases hwhole with
  | null => cases htoken
  | int n => exact ⟨n, Option.some.inj (htoken.symm.trans (Numeral.value?_wholeText n))⟩

/-- Readings of a meter: a number of them, and a number with an exact value. -/
def meters : Catalogue :=
  Catalogue.bases.declare ⟨"Meter", "JsonModel", none, none,
    [indexedField "counts" (.generic .list false [.union [.scalar .int, .nullType]]),
      indexedField "latest" (.generic .tuple false [.scalar .int, .scalar .float])]⟩

/-- Two and a half. -/
def twoAndHalf : Binary64 := .finite false (5 * 2 ^ 1073)

/-- A meter with a count of four and one that is missing, and with a latest value. -/
def meter : Record :=
  ⟨"Meter", [("id", .text "a"), ("counts", .list [.int 4, .none]),
    ("latest", .tuple [.int 1, .float twoAndHalf])]⟩

theorem meter_fields : meters.types[3].fields = [
    ⟨"id", .scalar .text, [.primaryKey none], none, none, none, .freshId⟩,
    indexedField "counts" (.generic .list false [.union [.scalar .int, .nullType]]),
    indexedField "latest" (.generic .tuple false [.scalar .int, .scalar .float])] := rfl

theorem flat_meter : ∀ f ∈ meters.types[3].fields, inner? meters f = none := by
  rw [meter_fields]
  simp only [List.forall_mem_cons]
  exact ⟨rfl, rfl, rfl, nofun⟩

theorem belongs_meter : Belongs meters (.record "Meter") meter.toValue := by
  refine HasFields.belongs (r := meters.types[3]) rfl (.inl rfl) ⟨by decide, ?_⟩
  rw [meter_fields]
  simp only [List.forall_mem_cons]
  refine ⟨⟨_, List.mem_cons_self, .scalar rfl⟩,
    ⟨_, List.mem_cons_of_mem _ List.mem_cons_self, .items rfl ?_⟩,
    ⟨_, List.mem_cons_of_mem _ (List.mem_cons_of_mem _ List.mem_cons_self), .fixed rfl ?_⟩, nofun⟩
  · simp only [List.forall_mem_cons]
    exact ⟨.union List.mem_cons_self (.scalar rfl),
      .union (List.mem_cons_of_mem _ List.mem_cons_self) .nullType, nofun⟩
  · simp only [List.zip_cons_cons, List.zip_nil_left, List.forall_mem_cons]
    exact ⟨.scalar rfl, .scalar rfl, nofun⟩

/-- The leaves of the schema of a meter. -/
def meterLeaves : List Leaf :=
  [⟨"id", "id", "$.id", .tag, [], false⟩, ⟨"counts", "counts", "$.counts[*]", .numeric, [], true⟩,
    ⟨"latest", "latest", "$.latest[*]", .numeric, [], true⟩]

theorem compile_meters : compile meters meters.types[3] = .ok meterLeaves := rfl

/-- The document of the meter. -/
def meterDocument : Json :=
  .object [("id", .text "a"), ("counts", .array [.int 4, .null]),
    ("latest", .array [.int 1, .float twoAndHalf])]

theorem recordDocument_meter : Service.recordDocument meters meters.types[3] meter =
    .ok (String.ofList meterDocument.write) := by
  have hdocument : toJson? meters meter.model meter.fields = some meterDocument := rfl
  rw [Service.recordDocument, hdocument]
  rfl

theorem isWhole_of_integral_leaf_meter :
    (Belongs meters (.record "Meter") meter.toValue ∧ meterLeaves[1].integral = true) ∧
    ∃ path document, ∃ selected : List Json, PathStep.read? "$.counts[*]".toList = some path ∧
      Outline.read? meterDocument.write = some document ∧
      document.select path = selected.map Json.outline ∧ ∀ j ∈ selected, j.IsWhole := by
  obtain ⟨chain, path, document, selected, hchain, hdescribes, hpath, hdocument, hselect, hwhole⟩ :=
    isWhole_of_integral_leaf (r := meters.types[3]) (l := meterLeaves[1]) rfl rfl
      (fun N => navigable_of_flat (by decide) (by decide) (by decide) flat_meter)
      belongs_meter compile_meters (List.getElem_mem _) rfl recordDocument_meter
  rw [String.toList_ofList] at hdocument
  -- the chain is the one field of that name
  obtain ⟨⟨position, field⟩, rfl, hmem⟩ := hchain.exists_singleton flat_meter
  have hname : field.name = "counts" := hdescribes.name_eq.symm
  obtain rfl : field =
      indexedField "counts" (.generic .list false [.union [.scalar .int, .nullType]]) := by
    rw [meter_fields] at hmem
    simp only [List.mem_cons, List.not_mem_nil, or_false] at hmem
    obtain rfl | rfl | rfl := hmem <;> first | rfl | exact absurd hname (by decide)
  exact ⟨⟨belongs_meter, rfl⟩, path, document, selected, hpath, hdocument, hselect,
    fun j hj => (hwhole _ rfl rfl (List.forall_mem_singleton.mpr rfl) j hj).1⟩

/-- The path of a leaf of whole numbers may select another number: that in the tuple of a meter. -/
theorem integral_path_selects_float :
    Belongs meters (.record "Meter") meter.toValue ∧ meterLeaves[2].integral = true ∧
    ∃ path, compile meters meters.types[3] = .ok meterLeaves ∧
      PathStep.read? meterLeaves[2].path.toList = some path ∧
      Service.recordDocument meters meters.types[3] meter =
        .ok (String.ofList meterDocument.write) ∧
      Outline.read? meterDocument.write = some meterDocument.outline ∧
      meterDocument.outline.select path = [Json.int 1, .float twoAndHalf].map Json.outline ∧
      ¬ (Json.float twoAndHalf).IsWhole :=
  ⟨belongs_meter, rfl, [.member "latest", .items], compile_meters, by decide,
    recordDocument_meter, Outline.read?_write _, rfl, nofun⟩

end Schema

end IndexedRecords
