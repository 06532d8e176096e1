import IndexedRecords.Proofs.Record.Belonging
import IndexedRecords.Proofs.Tables
import IndexedRecords.Proofs.Traversal
import IndexedRecords.Record.Writer

/-!
# What records are written as

The layers around a shape do not matter to how a value other than null is written
(`writeAs_unwrap`), and null is written as null wherever a container is asked for (`writeAs_none`).
A record has one member for each field that its type asks for, and members of different names if the
fields are written under different names (`exists_member`, `nodup_members`).
-/

namespace IndexedRecords.Record

open Traversal

variable {c : Catalogue} {check : Check} {shape : Shape} {r : RecordType}

/-! ### Writers of values -/

/-- A value with the writers of what it holds. -/
def contentOf (c : Catalogue) (v : Value) : Content :=
  match v with
  | .member _ _ _ inner => ⟨v, [writer c inner], [], []⟩
  | .record _ fields => ⟨v, [], [], fieldWriters c fields⟩
  | .list items | .tuple items | .queue items | .set _ items => ⟨v, writers c items, [], []⟩
  | .map entries => ⟨v, [], entryWriters c entries, []⟩
  | v => ⟨v, [], [], []⟩

/-- A value is written through its content: itself, and the writers of what it holds. -/
theorem writer_eq (c : Catalogue) (v : Value) (check : Check) (shape : Shape) :
    writer c v check shape = writeAs c (contentOf c v) shape check := by
  cases v <;> rfl

@[simp] theorem contentOf_value (c : Catalogue) (v : Value) : (contentOf c v).value = v := by
  cases v <;> rfl

/-- Each item of several has its own writer. -/
theorem writers_eq_map (c : Catalogue) (items : List Value) :
    writers c items = items.map (writer c) := by
  induction items with
  | nil => rfl
  | cons v items ih => rw [writers, ih, List.map_cons]

/-- Each entry of several keeps its key and has a writer for its value. -/
theorem entryWriters_eq_map (c : Catalogue) (entries : List (Value × Value)) :
    entryWriters c entries = entries.map fun e => (e.1, writer c e.2) := by
  induction entries with
  | nil => rfl
  | cons e entries ih => rw [entryWriters, ih, List.map_cons]

/-- Each field of several keeps its name and its value, with a writer for the latter. -/
theorem fieldWriters_eq_map (c : Catalogue) (fields : List (String × Value)) :
    fieldWriters c fields = fields.map fun f => (f.1, f.2, writer c f.2) := by
  induction fields with
  | nil => rfl
  | cons f fields ih => rw [fieldWriters, ih, List.map_cons]

/-! ### Layers around a shape -/

/-- Where all members of a union only take null, there is nothing to try. -/
theorem writeEach_of_all_isNullType {content : Content} {members : List Shape}
    (h : members.all Shape.isNullType = true) : writeEach c content members = [] := by
  induction members with
  | nil => rw [writeEach]
  | cons s members ih =>
    rw [List.all_cons, Bool.and_eq_true] at h
    rw [writeEach, if_pos h.1, ih h.2]

/-- Where a union has one member besides null, this is the only one to try. -/
theorem writeEach_of_isSole {content : Content} {members : List Shape}
    (h : Shape.IsSole members shape) :
    writeEach c content members = [writeAs c content shape] := by
  induction h with
  | skip null _ ih => rw [writeEach, if_pos null, ih]
  | here nonnull null => rw [writeEach, if_neg nonnull, writeEach_of_all_isNullType null]

/-- A value other than null is written as the shape under annotations and null. -/
theorem writeAs_unwrap {content : Content} (hv : content.value ≠ .none) (check : Check)
    {s t : Shape} (h : Shape.Unwraps s t) :
    writeAs c content s check = writeAs c content t check := by
  induction h with
  | bare => rfl
  | annotated _ ih => rw [writeAs, ih]
  | union sole _ ih =>
    rw [writeAs, writeEach_of_isSole sole]
    split
    · next hnone _ => exact absurd hnone hv
    · next heq _ =>
      cases heq
      exact ih
    · next hne => exact absurd rfl (hne _)

/-! ### Null -/

/-- Whether a shape asks for a record or a container. -/
def asksForParts : Shape → Bool
  | .record _ | .generic _ _ _ | .variadic _ => true
  | _ => false

/-- Null is never a mismatch: it is written as null whatever is checked. -/
theorem byKindIf_none {content : Content} (hv : content.value = .none) (fits : Bool) :
    content.byKindIf fits c check = some .null := by
  have hforgives : check.forgives content.value = true := by
    rw [hv]
    cases check <;> rfl
  rw [Content.byKindIf, hforgives, Bool.or_true, if_pos rfl, Content.byKind, hv]

/-- A shape that asks for the parts of a value lets null pass. -/
theorem writeAs_none_of_asksForParts {content : Content} (hv : content.value = .none)
    (h : asksForParts shape = true) : writeAs c content shape check = some .null := by
  cases shape with
  | record name =>
    rw [writeAs]
    unfold writeRecord
    split
    · next hrecord _ => exact nomatch hv.symm.trans hrecord
    · next hmember => exact nomatch hv.symm.trans hmember
    · exact byKindIf_none hv false
  | generic head older args =>
    rw [writeAs]
    unfold writeGeneric
    rw [hv]
    cases head <;> first | exact byKindIf_none hv false | simp only [Content.byKind, hv]
  | variadic item =>
    rw [writeAs]
    unfold writeVariadic
    rw [hv]
    exact byKindIf_none hv false
  | _ => cases h

/-- The layers around a shape do not matter to null that is written as null. -/
theorem writeAs_none_of_unwraps {content : Content} {s t : Shape}
    (hlayers : Shape.Unwraps s t) (h : writeAs c content t check = some .null) :
    writeAs c content s check = some .null := by
  induction hlayers with
  | bare => exact h
  | annotated _ ih =>
    rw [writeAs]
    exact ih h
  | union sole _ ih =>
    rw [writeAs, writeEach_of_isSole sole]
    split
    · rfl
    · next heq _ =>
      cases heq
      exact ih h
    · next hne => exact absurd rfl (hne _)

/-- Null is written as null wherever a record or a container is asked for. -/
theorem writeAs_none {content : Content} (hv : content.value = .none) (check : Check)
    {s t : Shape} (hlayers : Shape.Unwraps s t) (h : asksForParts t = true) :
    writeAs c content s check = some .null :=
  writeAs_none_of_unwraps hlayers (writeAs_none_of_asksForParts hv h)

/-! ### Containers -/

/-- A container of items that is such a container as the head says is written item by item. -/
theorem writeGeneric_of_items? {content : Content} {head : Generic} {args : List Shape}
    {items : List Value} (h : head.items? content.value = some items) :
    writeGeneric c content check head args =
      writeItems check (args.headD .any) content.items := by
  unfold Generic.items? at h
  unfold writeGeneric
  split at h <;> simp_all

/-- A map that is such a map as the head says is written entry by entry. -/
theorem writeGeneric_of_entries? {content : Content} {head : Generic} {args : List Shape}
    {entries : List (Value × Value)} (h : head.entries? content.value = some entries) :
    writeGeneric c content check head args =
      writeEntries check (args.headD .any) (args.tail.headD .any) content.entries := by
  unfold Generic.entries? at h
  unfold writeGeneric
  split at h <;> simp_all

/-- The items of a container have their writers in its content. -/
theorem items_contentOf {head : Generic} {v : Value} {items : List Value}
    (h : head.items? v = some items) : (contentOf c v).items = items.map (writer c) := by
  rw [← writers_eq_map]
  unfold Generic.items? at h
  split at h <;> cases h <;> rfl

/-- The entries of a map have their writers in its content. -/
theorem entries_contentOf {head : Generic} {v : Value} {entries : List (Value × Value)}
    (h : head.entries? v = some entries) :
    (contentOf c v).entries = entries.map fun e => (e.1, writer c e.2) := by
  rw [← entryWriters_eq_map]
  unfold Generic.entries? at h
  split at h <;> cases h <;> rfl

/-- Items are written side by side as an array: all of them have to be written. -/
theorem writeItems_eq_some_iff {item : Shape} {items : List Value} {j : Json} :
    writeItems check item (items.map (writer c)) = some j ↔
      ∃ js, j = .array js ∧ List.Forall₂ (fun v j => writer c v check item = some j) items js := by
  rw [writeItems, Option.map_eq_some_iff]
  simp only [mapM_eq_some_iff, List.forall₂_map_left_iff]
  constructor
  · rintro ⟨js, hjs, rfl⟩
    exact ⟨js, rfl, hjs⟩
  · rintro ⟨js, rfl, hjs⟩
    exact ⟨js, hjs, rfl⟩

/-- Each item of a tuple is written as a shape of its own. -/
theorem forall₂_of_writeFixed {shapes : List Shape} {items : List Value} {js : List Json}
    (hlength : items.length = shapes.length)
    (h : writeFixed check shapes (items.map (writer c)) = some js) :
    List.Forall₂ (fun (p : Shape × Value) j => writer c p.2 check p.1 = some j)
      (shapes.zip items) js := by
  induction items generalizing shapes js with
  | nil =>
    obtain rfl := List.length_eq_zero_iff.mp hlength.symm
    rw [List.map_nil, writeFixed] at h
    cases h
    exact .nil
  | cons v items ih =>
    obtain ⟨s, shapes, rfl⟩ := List.exists_cons_of_length_eq_add_one hlength.symm
    simp only [List.map_cons, writeFixed, List.headD_cons, List.tail_cons, Option.bind_eq_bind,
      Option.bind_eq_some_iff, Option.pure_def, Option.some.injEq] at h
    obtain ⟨j, hj, rest, hrest, rfl⟩ := h
    exact .cons hj (ih (by simpa using hlength) hrest)

/-- Entries are written side by side as an object, where later members of a name replace earlier
ones. All keys and all values have to be written. -/
theorem writeEntries_eq_some_iff {key value : Shape} {entries : List (Value × Value)} {j : Json} :
    writeEntries check key value (entries.map fun e => (e.1, writer c e.2)) = some j ↔
      ∃ members, j = .object (Json.mergeMembers members) ∧
        List.Forall₂ (fun e (m : String × Json) =>
            nameAs key check e.1 = some m.1 ∧ writer c e.2 check value = some m.2)
          entries members := by
  simp only [writeEntries, Option.bind_eq_bind, Option.bind_eq_some_iff, Option.pure_def,
    Option.some.injEq, mapM_eq_some_iff, List.forall₂_map_left_iff]
  constructor
  · rintro ⟨members, hmembers, rfl⟩
    refine ⟨members, rfl, hmembers.imp ?_⟩
    rintro e m ⟨name, hname, j, hj, rfl⟩
    exact ⟨hname, hj⟩
  · rintro ⟨members, rfl, hmembers⟩
    refine ⟨members, hmembers.imp ?_, rfl⟩
    rintro e m ⟨hname, hj⟩
    exact ⟨m.1, hname, m.2, hj, rfl⟩

/-! ### Dates and moments -/

/-- A sequence is written in seconds only if all its items are dates or moments, and there are
some. -/
theorem temporalJson?_of_items {items : List Value} (h : ∀ v ∈ items, epochJson? v = none) :
    temporalJson? (.list items) = none ∧ temporalJson? (.tuple items) = none := by
  cases items with
  | nil => exact ⟨rfl, rfl⟩
  | cons v items =>
    have hmap : (v :: items).mapM epochJson? = none := by
      rw [List.mapM_cons, h v List.mem_cons_self]
      rfl
    simp only [temporalJson?, hmap, Option.map_none, and_self]

/-- So no container is written in seconds whose items are no dates or moments. -/
theorem temporalJson?_of_items? {head : Generic} {v : Value} {items : List Value}
    (hitems : head.items? v = some items) (h : ∀ v ∈ items, epochJson? v = none) :
    temporalJson? v = none := by
  obtain ⟨hlist, htuple⟩ := temporalJson?_of_items h
  unfold Generic.items? at hitems
  split at hitems <;> cases hitems <;> first | exact hlist | exact htuple | rfl

/-- What is no date, moment or sequence of these is written as its shape says. -/
theorem writeField_eq {f : Field} {v : Value} {w : Writer} (h : temporalJson? v = none) :
    writeField check r f v w = w check f.shape := by
  rw [writeField, h, ite_self]

/-- A record is no date. -/
theorem epochJson?_eq_none {name : String} {v : Value} (hshape : shape.unwrap = .record name)
    (hr : c.find? name = some r) (h : Belongs c shape v) : epochJson? v = none := by
  rcases h.eq_none_or_hasFields hshape hr with rfl | ⟨model, fields, rfl, _⟩ <;> rfl

/-! ### Records -/

/-- Fields with different names are found under their names. -/
theorem field?_of_mem {f : Field} (hnames : (r.fields.map Field.name).Nodup) (hf : f ∈ r.fields) :
    r.field? f.name = some f :=
  find?_of_mem hnames hf

/-- What is written of a record, field by field. -/
theorem writeFields_eq_some_iff {fields : List (String × Value)} {members : List (String × Json)} :
    writeFields check r (fieldWriters c fields) = some members ↔
      List.Forall₂ (fun (p : Field × Value) m =>
          m.1 = p.1.writtenKey ∧ writeField check r p.1 p.2 (writer c p.2) = some m.2)
        (fields.filterMap fun e => (r.field? e.1).map (·, e.2)) members := by
  -- names without a field are left out on both sides
  have hpairs : ((fieldWriters c fields).filterMap fun e =>
      (r.field? e.1).map fun f => (f, e.2.1, e.2.2)) =
      (fields.filterMap fun e => (r.field? e.1).map (·, e.2)).map
        fun p => (p.1, p.2, writer c p.2) := by
    rw [fieldWriters_eq_map, List.filterMap_map, List.map_filterMap]
    congr 1
    funext e
    simp only [Function.comp_apply, Option.map_map]
    rfl
  have hwritten : writeFields check r (fieldWriters c fields) =
      ((fields.filterMap fun e => (r.field? e.1).map (·, e.2)).map
        fun p => (p.1, p.2, writer c p.2)).mapM fun e : Field × Value × Writer => do
          return (e.1.writtenKey, ← writeField check r e.1 e.2.1 e.2.2) :=
    congrArg (List.mapM _) hpairs
  rw [hwritten, mapM_eq_some_iff, List.forall₂_map_left_iff]
  refine iff_of_eq (congrArg (fun R => List.Forall₂ R _ _) ?_)
  funext p m
  simp only [Option.pure_def, Option.bind_eq_bind, Option.bind_eq_some_iff, Option.some.injEq,
    Prod.ext_iff, eq_iff_iff]
  constructor
  · rintro ⟨j, hj, hkey, rfl⟩
    exact ⟨hkey.symm, hj⟩
  · rintro ⟨hkey, hj⟩
    exact ⟨m.2, hj, hkey.symm, rfl⟩

/-- A field that a type asks for has its member. -/
theorem exists_member {fields : List (String × Value)} {members : List (String × Json)} {f : Field}
    {v : Value} (hnames : (r.fields.map Field.name).Nodup) (hf : f ∈ r.fields)
    (hv : (f.name, v) ∈ fields)
    (h : writeFields check r (fieldWriters c fields) = some members) :
    ∃ j, writeField check r f v (writer c v) = some j ∧ (f.writtenKey, j) ∈ members := by
  have hmem : (f, v) ∈ fields.filterMap fun e => (r.field? e.1).map (·, e.2) :=
    List.mem_filterMap.mpr ⟨(f.name, v), hv, by rw [field?_of_mem hnames hf]; rfl⟩
  obtain ⟨⟨key, j⟩, hmember, rfl, hj⟩ := exists_of_mem_left (writeFields_eq_some_iff.mp h) hmem
  exact ⟨j, hj, hmember⟩

/-- The members of a record have different names if its fields are written under different names. -/
theorem nodup_members {fields : List (String × Value)} {members : List (String × Json)}
    (hkeys : (r.fields.map Field.writtenKey).Nodup) (hnames : (fields.map Prod.fst).Nodup)
    (h : writeFields check r (fieldWriters c fields) = some members) :
    (members.map Prod.fst).Nodup := by
  have hall := writeFields_eq_some_iff.mp h
  have hmap : members.map Prod.fst =
      (fields.filterMap fun e => (r.field? e.1).map (·, e.2)).map fun p => p.1.writtenKey := by
    refine (congrFun₂ List.forall₂_eq_eq_eq _ _).mp ?_
    rw [List.forall₂_map_left_iff, List.forall₂_map_right_iff]
    exact (hall.imp fun _ _ hp => hp.1).flip
  -- two fields under one name would be one field, which a record has once
  rw [hmap, List.Nodup, List.pairwise_map, List.pairwise_filterMap]
  rw [List.Nodup, List.pairwise_map] at hnames
  refine hnames.imp fun {a b} hab p hp q hq heq => hab ?_
  obtain ⟨f, hf, rfl⟩ := Option.map_eq_some_iff.mp hp
  obtain ⟨g, hg, rfl⟩ := Option.map_eq_some_iff.mp hq
  have hfname : f.name = a.1 := by simpa using List.find?_some hf
  have hgname : g.name = b.1 := by simpa using List.find?_some hg
  have hfg := List.inj_on_of_nodup_map hkeys (List.mem_of_find?_eq_some hf)
    (List.mem_of_find?_eq_some hg) heq
  rw [← hfname, ← hgname, hfg]

end IndexedRecords.Record
