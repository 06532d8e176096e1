import IndexedRecords.Proofs.Record.Dates
import IndexedRecords.Proofs.Schema.Paths

/-!
# Dates under paths

A leaf that ends in a field of dates is indexed as a number, so everything that its path selects in
a stored document ought to be one. It is, exactly if the values that the chain of the leaf leads to
are dates, sequences of dates and nothing else, or hold no dates (`isNumeric_iff_of_leaf`).

## Main statements

* `isNumeric_iff_of_leaf`: where the path of a leaf of dates selects numbers only.
-/

namespace IndexedRecords

/-- A shape of dates is indexed as a number. -/
theorem HoldsDates.indexType_eq {s : Shape} (h : HoldsDates s) : s.indexType = .numeric := by
  have hfloat {s : Shape} (h : HoldsDates s) : s.unwrap.isFloat = false := by
    cases h with
    | date asks | moment asks =>
      rw [asks]
      rfl
    | items asks _ =>
      unfold Shape.itemShapes? at asks
      split at asks
      · next hs => rw [hs]; rfl
      · next hs => rw [hs]; rfl
      · cases asks
  -- a sequence of floating numbers would be a vector, but dates are none
  induction h with
  | @date s asks | @moment s asks =>
    rw [← s.unwraps.indexType_eq, asks]
    rfl
  | @items s shapes asks each ih =>
    rw [← s.unwraps.indexType_eq]
    unfold Shape.itemShapes? at asks
    split at asks
    · next head older first rest hs =>
      obtain ⟨kind, hshapes⟩ := Option.ite_none_right_eq_some.mp asks
      cases hshapes
      have hfirst := hfloat (each first List.mem_cons_self)
      rw [hs, Shape.indexType, if_pos kind, Shape.firstIndexType, hfirst]
      exact ih first List.mem_cons_self
    · next item hs =>
      cases asks
      have hitem := hfloat (each item List.mem_cons_self)
      rw [hs, Shape.indexType, hitem]
      exact ih item List.mem_cons_self
    · cases asks

namespace Schema

open Traversal Record

variable {c : Catalogue} {r inner : RecordType} {f : Field} {v : Value} {j : Json}

/-! ### Values along a chain -/

/-- The values that a chain leads to in a record: those of the last field, one for each record that
the fields before it lead to. -/
def valuesAt : List Link → List (String × Value) → List Value
  | [], _ => []
  | [link], fields => (Store.lookup? fields link.field.name).toList
  | link :: next :: rest, fields =>
    let held := (Store.lookup? fields link.field.name).bind (heldBy link.field)
    (held.getD []).flatMap fun
      | .record _ fields => valuesAt (next :: rest) fields
      | _ => []

/-- A value of a searchable record belongs to the shape of its field, and is written as such. -/
def WrittenField (c : Catalogue) (f : Field) (v : Value) (j : Json) : Prop :=
  ∃ r : RecordType, r.isSearchable ∧ Belongs c f.shape v ∧
    writeField .off r f v (writer c v) = some j

/-- What is found in the records that a field holds are the documents of the values in them. -/
theorem forall₂_flatten {steps : List String} {rest : List Link} {parts : List Value}
    {docs : List Json} {founds : List (List Json)}
    (hparts : List.Forall₂ (Written c inner) parts docs)
    (hfounds : (parts.mapM fun
      | .none => some []
      | .record _ fields => walk heldBy c steps inner fields
      | _ => none) = some founds)
    (h : ∀ fields members found, HasFields c inner fields →
      writeFields .off inner (fieldWriters c fields) = some members →
      walk heldBy c steps inner fields = some found →
      List.Forall₂ (WrittenField c f) (valuesAt rest fields) found) :
    List.Forall₂ (WrittenField c f)
      (parts.flatMap fun
        | .record _ fields => valuesAt rest fields
        | _ => [])
      founds.flatten := by
  rw [mapM_eq_some_iff] at hfounds
  induction hparts generalizing founds with
  | nil =>
    cases hfounds
    exact .nil
  | @cons v d parts docs hwritten _ ih =>
    cases hfounds with
    | @cons _ found _ founds hfound hrest =>
      have hothers := ih hrest
      rw [List.flatMap_cons, List.flatten_cons]
      -- null holds no values and leads to no documents
      cases hwritten with
      | none =>
        cases hfound
        exact hothers
      | @record model fields members valid members_eq =>
        exact List.rel_append (h fields members found valid members_eq hfound) hothers

/-- What the name of a chain leads to are the documents of the values that the chain leads to. -/
theorem IndexedChain.forall₂_valuesAt {chain : List Link} {last : Link}
    (hchain : IndexedChain c r chain)
    (hlast : last ∈ chain.getLast?) (hr : r.isSearchable)
    (haddr : ∀ N, Relation.ReflTransGen (Nests c) r N → Navigable c N)
    {fields : List (String × Value)} {members : List (String × Json)} {found : List Json}
    (hfields : HasFields c r fields)
    (h : writeFields .off r (fieldWriters c fields) = some members)
    (hwalk : walk heldBy c (chain.map fun link => link.field.name) r fields = some found) :
    List.Forall₂ (WrittenField c last.field) (valuesAt chain fields) found := by
  -- the last field is written on its own, any other one holds the records that the rest is in
  induction hchain generalizing fields members found with
  | @last r link declared marked ends =>
    obtain rfl : link = last := Option.some.inj hlast
    have haddr := haddr r .refl
    have hmem := List.mem_of_getElem? declared
    obtain ⟨v, hv, hbelongs⟩ := hfields.given _ hmem
    obtain ⟨j, hj, -⟩ := exists_member haddr.names hmem hv h
    have hlookup := Store.lookup?_of_mem hfields.names hv
    rw [List.map_cons, List.map_nil, walk, field?_of_mem haddr.names hmem] at hwalk
    simp only [Option.bind_eq_bind, Option.bind_some, hlookup, hj, Option.pure_def,
      Option.some.injEq] at hwalk
    subst hwalk
    rw [valuesAt, hlookup]
    exact .cons ⟨r, hr, hbelongs, hj⟩ .nil
  | @cons r inner link rest declared marked held rest_chain ih =>
    have haddr' := haddr r .refl
    have hmem := List.mem_of_getElem? declared
    have hnests : Nests c r inner := ⟨_, hmem, marked, held⟩
    obtain ⟨v, hv, hbelongs⟩ := hfields.given _ hmem
    obtain ⟨j, hj, -⟩ := exists_member haddr'.names hmem hv h
    obtain ⟨parts, docs, hparts, hdocs, -⟩ :=
      shows_of_writeField (haddr'.unmixed _ hmem (by rw [held]; rfl)) held hbelongs hj
    have hlookup := Store.lookup?_of_mem hfields.names hv
    obtain ⟨next, rest, rfl⟩ := List.exists_cons_of_ne_nil rest_chain.ne_nil
    rw [List.map_cons, List.map_cons, walk, field?_of_mem haddr'.names hmem] at hwalk
    simp only [Option.bind_eq_bind, Option.bind_some, hlookup, held, hparts,
      Option.bind_eq_some_iff, Option.pure_def, Option.some.injEq] at hwalk
    obtain ⟨founds, hfounds, rfl⟩ := hwalk
    rw [valuesAt, hlookup, Option.bind_some, hparts, Option.getD_some]
    refine forall₂_flatten hdocs hfounds fun fields members found hvalid hwritten hwalk => ?_
    have hinner : inner.isSearchable := (recordType?_of_inner? held).2
    exact ih hlast hinner (fun N hN => haddr N (.head hnests hN)) hvalid hwritten hwalk

theorem forall₂_valuesAt {chain : List Link} {last : Link} (hchain : IndexedChain c r chain)
    (hlast : last ∈ chain.getLast?) (hr : r.isSearchable)
    (haddr : ∀ N, Relation.ReflTransGen (Nests c) r N → Addressable N)
    {fields : List (String × Value)} {members : List (String × Json)} {found : List Json}
    (hfields : HasFields c r fields)
    (h : writeFields .off r (fieldWriters c fields) = some members)
    (hwalk : walk heldBy c (chain.map fun link => link.field.name) r fields = some found) :
    List.Forall₂ (WrittenField c last.field) (valuesAt chain fields) found :=
  hchain.forall₂_valuesAt hlast hr (fun N hN => (haddr N hN).navigable) hfields h hwalk

/-- **Values under paths.** In the stored text of a valid record, the path of a leaf takes what it
selects from the documents of the values that the chain of the leaf leads to. -/
theorem exists_found_of_leaf {record : Record} {ls : List Leaf} {l : Leaf} {payload : String}
    (hr : c.find? record.model = some r) (hsearchable : r.isSearchable)
    (haddr : ∀ N, Relation.ReflTransGen (Nests c) r N → Navigable c N)
    (hvalid : Belongs c (.record record.model) record.toValue) (hcompile : compile c r = .ok ls)
    (hl : l ∈ ls) (hpayload : Service.recordDocument c r record = .ok payload) :
    ∃ (chain : List Link) (path : List PathStep) (document : Outline) (found : List Json),
      IndexedChain c r chain ∧ Depicts chain l ∧
      PathStep.read? l.path.toList = some path ∧
      Outline.read? payload.toList = some document ∧
      document.select path = (taken (chainSteps chain) found).map Json.outline ∧
      ∀ last ∈ chain.getLast?,
        List.Forall₂ (WrittenField c last.field) (valuesAt chain record.fields) found := by
  obtain ⟨chains, henum, hdescribes⟩ :=
    exists_depicted_of_leavesWithin (leaves_eq_of_compile_eq_ok hcompile)
  -- the leaf stands for a chain, which leads through the record as its path does through the
  -- document
  obtain ⟨chain, hmem, hdescribed⟩ := exists_of_mem_left hdescribes.flip hl
  have hchain := (henum.mem_iff chain).mp hmem
  obtain ⟨model, fields, hvalue, hfields⟩ := hvalid.hasFields hr
  obtain ⟨_, rfl⟩ := Value.record.inj hvalue
  obtain ⟨members, hmembers, hpayload⟩ := exists_members_of_recordDocument hr hpayload
  obtain ⟨found, hwalk, hselect⟩ := hchain.exists_walk haddr hfields hmembers
  refine ⟨chain, chainSteps chain, (Json.object members).outline, found, hchain, hdescribed, ?_, ?_,
    hselect, fun last hlast =>
      hchain.forall₂_valuesAt hlast hsearchable haddr hfields hmembers hwalk⟩
  · rw [hdescribed.path_eq, String.toList_append, chainPath_toList]
    exact PathStep.read?_text (hchain.isPlain haddr)
  · rw [hpayload, Outline.read?_write]

/-! ### What the path of a leaf of dates selects -/

theorem taken_chainSteps {chain : List Link} {last : Link} (hlast : last ∈ chain.getLast?) :
    taken (chainSteps chain) = taken (chainSteps [last]) := by
  induction chain with
  | nil => cases hlast
  | cons link rest ih =>
    cases rest with
    | nil =>
      obtain rfl : link = last := Option.some.inj hlast
      rfl
    | cons next rest =>
      rw [taken_chainSteps_cons link (List.cons_ne_nil _ _)]
      exact ih hlast

/-- A path that ends with all items of an array is one of a sequence or set. -/
theorem exists_itemShapes?_of_lastSteps (hshape : HoldsDates f.shape) (h : lastSteps f ≠ []) :
    ∃ shapes, f.shape.unwrap.itemShapes? = some shapes := by
  cases hshape with
  | items asks _ => exact ⟨_, asks⟩
  | date asks | moment asks =>
    refine absurd ?_ h
    rw [lastSteps, holding, asks]
    rfl

theorem isNumeric_taken_iff {link : Link} (hshape : HoldsDates link.field.shape)
    (h : WrittenField c link.field v j) :
    (∀ i ∈ taken (chainSteps [link]) [j], i.IsNumeric) ↔ v.IsPlainDates := by
  obtain ⟨r, hr, hbelongs, hj⟩ := h
  rw [← isNumeric_iff_of_writeField hr hshape hbelongs hj, taken]
  split
  · next hitems =>
    have hsteps : lastSteps link.field ≠ [] := by
      intro hnil
      rw [chainSteps, hnil] at hitems
      cases hitems
    obtain ⟨shapes, hshapes⟩ := exists_itemShapes?_of_lastSteps hshape hsteps
    obtain rfl | ⟨js, rfl⟩ := eq_null_or_array_of_writeField hshapes hbelongs hj
    · exact iff_of_true (fun _ hi => absurd hi List.not_mem_nil) .null
    · rw [List.flatMap_cons, List.flatMap_nil, List.append_nil, Json.isNumeric_array_iff]
  · exact List.forall_mem_singleton

theorem isNumeric_taken_iff_of_forall₂ {link : Link} (hshape : HoldsDates link.field.shape)
    {values : List Value} {found : List Json}
    (h : List.Forall₂ (WrittenField c link.field) values found) :
    (∀ i ∈ taken (chainSteps [link]) found, i.IsNumeric) ↔ ∀ v ∈ values, v.IsPlainDates := by
  induction h with
  | nil =>
    have htaken : taken (chainSteps [link]) [] = [] := taken_flatten _ []
    rw [htaken]
    exact iff_of_true nofun nofun
  | @cons v j values found hj _ ih =>
    have htaken : taken (chainSteps [link]) (j :: found) =
        taken (chainSteps [link]) [j] ++ taken (chainSteps [link]) found := by
      simpa using taken_flatten (chainSteps [link]) [[j], found]
    rw [htaken, List.forall_mem_append, List.forall_mem_cons, ih, isNumeric_taken_iff hshape hj]

/-- **Dates under paths.** In the stored text of a valid record, the path of a leaf selects the
documents of the values that the chain of the leaf leads to. If the chain ends in a field of dates,
which is indexed as a number, the path selects numbers only exactly if each of these values is
a date, a sequence of dates and nothing else, or holds no date at all. -/
theorem isNumeric_iff_of_leaf {record : Record} {ls : List Leaf} {l : Leaf} {payload : String}
    (hr : c.find? record.model = some r) (hsearchable : r.isSearchable)
    (haddr : ∀ N, Relation.ReflTransGen (Nests c) r N → Addressable N)
    (hvalid : Belongs c (.record record.model) record.toValue) (hcompile : compile c r = .ok ls)
    (hl : l ∈ ls) (hpayload : Service.recordDocument c r record = .ok payload) :
    ∃ (chain : List Link) (path : List PathStep) (document : Outline) (selected : List Json),
      IndexedChain c r chain ∧ Describes chain l ∧
      PathStep.read? l.path.toList = some path ∧
      Outline.read? payload.toList = some document ∧
      document.select path = selected.map Json.outline ∧
      ∀ last ∈ chain.getLast?, HoldsDates last.field.shape →
        ((∀ j ∈ selected, j.IsNumeric) ↔
          ∀ v ∈ valuesAt chain record.fields, v.IsPlainDates) := by
  obtain ⟨chains, henum, hdescribes⟩ :=
    exists_chains_of_leavesWithin (leaves_eq_of_compile_eq_ok hcompile)
  obtain ⟨chain, hmem, hdescribed⟩ := exists_of_mem_left hdescribes.flip hl
  have hchain := (henum.mem_iff chain).mp hmem
  obtain ⟨model, fields, hvalue, hfields⟩ := hvalid.hasFields hr
  obtain ⟨_, rfl⟩ := Value.record.inj hvalue
  obtain ⟨members, hmembers, hpayload⟩ := exists_members_of_recordDocument hr hpayload
  obtain ⟨found, hwalk, hselect⟩ := select_chain hchain haddr hfields hmembers
  refine ⟨chain, chainSteps chain, (Json.object members).outline, taken (chainSteps chain) found,
    hchain, hdescribed, ?_, ?_, hselect, fun last hlast hshape => ?_⟩
  · rw [hdescribed.path_eq, String.toList_append, chainPath_toList]
    exact PathStep.read?_text (isPlain_of_chain hchain haddr)
  · rw [hpayload, Outline.read?_write]
  · rw [taken_chainSteps hlast]
    exact isNumeric_taken_iff_of_forall₂ hshape
      (forall₂_valuesAt hchain hlast hsearchable haddr hfields hmembers hwalk)

/-- Events on days without an order, and on others in order. -/
def events : Catalogue :=
  Catalogue.bases.declare ⟨"Event", "JsonModel", none, none,
    [indexedField "days" (.generic .set false [.scalar .date]),
      indexedField "dates" (.generic .list false [.scalar .date])]⟩

/-- An event on the first of January 2024 and on the day after. -/
def event : Record :=
  ⟨"Event", [("id", .text "a"), ("days", .set false [.date ⟨2024, 1, 1⟩]),
    ("dates", .list [.date ⟨2024, 1, 2⟩])]⟩

theorem event_fields : events.types[3].fields = [
    ⟨"id", .scalar .text, [.primaryKey none], none, none, none, .freshId⟩,
    indexedField "days" (.generic .set false [.scalar .date]),
    indexedField "dates" (.generic .list false [.scalar .date])] := rfl

theorem addressable_events : ∀ r ∈ events.types, Addressable r := by
  have htypes : events.types =
      [.plainBase, .embeddedBase, .persistedBase, events.types[3]] := rfl
  rw [htypes]
  simp only [List.forall_mem_cons]
  refine ⟨?_, ?_, ?_, ?_, nofun⟩
  all_goals refine ⟨by decide, by decide, by decide, ?_⟩
  · nofun
  · nofun
  · simp [RecordType.persistedBase, Shape.unwrap]
  · simp [event_fields, indexedField, Field.declare, Shape.unwrap]

theorem belongs_event : Belongs events (.record "Event") event.toValue := by
  refine HasFields.belongs (r := events.types[3]) rfl (.inl rfl) ⟨by decide, ?_⟩
  rw [event_fields]
  simp only [List.forall_mem_cons]
  refine ⟨⟨_, List.mem_cons_self, .scalar rfl⟩,
    ⟨_, List.mem_cons_of_mem _ List.mem_cons_self, .items rfl ?_⟩,
    ⟨_, List.mem_cons_of_mem _ (List.mem_cons_of_mem _ List.mem_cons_self), .items rfl ?_⟩, nofun⟩
  · rw [List.forall_mem_singleton]
    exact .scalar rfl
  · rw [List.forall_mem_singleton]
    exact .scalar rfl

theorem compile_events : compile events events.types[3] = .ok [
    ⟨"id", "id", "$.id", .tag, [], false⟩, ⟨"days", "days", "$.days[*]", .numeric, [], false⟩,
    ⟨"dates", "dates", "$.dates[*]", .numeric, [], false⟩] := rfl

/-- The document of the event. -/
def eventDocument : Json :=
  .object [("id", .text "a"), ("days", .array [.text "2024-01-01"]),
    ("dates", .array [.int 1704153600])]

theorem recordDocument_event : Service.recordDocument events events.types[3] event =
    .ok (String.ofList eventDocument.write) := by
  have hdocument : toJson? events event.model event.fields = some eventDocument := rfl
  rw [Service.recordDocument, hdocument]
  rfl

/-- No field of an event holds records, so that its chains are single fields. -/
theorem eq_singleton_of_event {chain : List Link} {l : Leaf}
    (hchain : IndexedChain events events.types[3] chain) (hl : Describes chain l)
    (hname : l.name = "dates") : ∃ position, chain =
      [⟨position, indexedField "dates" (.generic .list false [.scalar .date])⟩] := by
  cases hchain with
  | @last _ link declared _ _ =>
    obtain ⟨position, field⟩ := link
    have hmem := List.mem_of_getElem? declared
    have hfield : field.name = "dates" := hl.name_eq.symm.trans hname
    rw [event_fields, List.mem_cons, List.mem_cons, List.mem_singleton] at hmem
    obtain rfl | rfl | rfl := hmem
    · exact absurd hfield (by decide)
    · exact absurd hfield (by decide)
    · exact ⟨position, rfl⟩
  | @cons _ inner link _ declared _ held _ =>
    have hmem := List.mem_of_getElem? declared
    rw [event_fields, List.mem_cons, List.mem_cons, List.mem_singleton] at hmem
    obtain heq | heq | heq := hmem <;>
    · rw [heq] at held
      cases held

theorem isNumeric_iff_of_leaf_event :
    Belongs events (.record "Event") event.toValue ∧
    ∃ (path : List PathStep) (document : Outline) (selected : List Json),
      PathStep.read? "$.dates[*]".toList = some path ∧
      document.select path = selected.map Json.outline ∧ ∀ j ∈ selected, j.IsNumeric := by
  obtain ⟨chain, path, document, selected, hchain, hdescribes, hpath, _, hselect, hiff⟩ :=
    isNumeric_iff_of_leaf (r := events.types[3]) rfl rfl
      (fun N hN => forall_of_nests addressable_events (List.getElem_mem _) hN)
      belongs_event compile_events (List.mem_of_getElem? (i := 2) rfl) recordDocument_event
  obtain ⟨position, rfl⟩ := eq_singleton_of_event hchain hdescribes rfl
  refine ⟨belongs_event, path, document, selected, hpath, hselect, (hiff _ rfl ?_).mpr ?_⟩
  · exact .items rfl (List.forall_mem_singleton.mpr (.date rfl))
  · have hvalues : valuesAt [⟨position, indexedField "dates" (.generic .list false
        [.scalar .date])⟩] event.fields = [.list [.date ⟨2024, 1, 2⟩]] := rfl
    rw [hvalues, List.forall_mem_singleton]
    exact .list (List.forall_mem_singleton.mpr rfl)

/-- The path of a leaf of numbers may select a text: the day in the set of an event. -/
theorem path_selects_text :
    Belongs events (.record "Event") event.toValue ∧
    ∃ ls l path payload document, compile events events.types[3] = .ok ls ∧ l ∈ ls ∧
      l.type = .numeric ∧ PathStep.read? l.path.toList = some path ∧
      Service.recordDocument events events.types[3] event = .ok payload ∧
      Outline.read? payload.toList = some document ∧
      document.select path = [(Json.text "2024-01-01").outline] := by
  have hselect : eventDocument.outline.select [.member "days", .items] =
      [(Json.text "2024-01-01").outline] := rfl
  refine ⟨belongs_event, _, _, [.member "days", .items], _, eventDocument.outline, compile_events,
    List.mem_of_getElem? (i := 1) rfl, rfl, by decide, recordDocument_event, ?_, hselect⟩
  rw [String.toList_ofList, Outline.read?_write]

end Schema

end IndexedRecords
