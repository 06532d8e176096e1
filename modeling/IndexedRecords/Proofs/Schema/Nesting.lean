import IndexedRecords.Proofs.Schema.Flattening
import IndexedRecords.Proofs.Traversal
import IndexedRecords.Schema
import Mathlib.Logic.Relation

/-!
# Nested record types

What a marked field contributes to a schema. A field takes in the schema of a searchable record
type that it holds (`inner?`), under its own path; every other field contributes what does not
depend on any other record type. So a schema depends on the schemas of the record types that are
nested in it (`Nests`) and on nothing else.
-/

namespace IndexedRecords.Schema

open Traversal

variable {c : Catalogue} {nested nested' : RecordType → Except SchemaFault (List Leaf)}
  {owner : String} {f : Field} {m : Marker} {record : RecordType}

/-- What a field holds once annotations and null are taken off. -/
def holding (f : Field) : Holding := .ofShape f.shape.unwrap

/-- The searchable record type that a field holds: as its value, as the items of a sequence or as
the values of a map. -/
def inner? (c : Catalogue) (f : Field) : Option RecordType :=
  (recordType? c (holding f).shape).filter RecordType.isSearchable

/-- The path of what a field holds, seen from the record of the field. -/
def holdingPath (f : Field) : String := "$." ++ f.pathKey ++ (holding f).wildcard

/-- A marked field of one record type holds records of another one. -/
def Nests (c : Catalogue) (outer inner : RecordType) : Prop :=
  ∃ f ∈ outer.fields, f.indexing?.isSome ∧ inner? c f = some inner

/-- A field without aliases that has to be given, with the marker that asks for an index. -/
def indexedField (name : String) (shape : Shape) : Field :=
  .declare name shape [.plainIndex] none none none .required

/-- Such a field that is written under a key of its own. -/
def keyedField (name key : String) (shape : Shape) : Field :=
  .declare name shape [.plainIndex] none (some key) none .required

/-! ### Record types by name -/

/-- A record type that a shape names is the one that its own name leads to. -/
theorem find?_of_recordType? {shape : Shape} (h : recordType? c shape = some record) :
    c.find? record.name = some record := by
  unfold recordType? at h
  split at h
  · next name =>
    have hname : record.name = name := by
      simpa using List.find?_some h
    rw [hname, h]
  · cases h

/-- A nested record type is named by what the field holds, and there is something in it to
search. -/
theorem recordType?_of_inner? (h : inner? c f = some record) :
    recordType? c (holding f).shape = some record ∧ record.isSearchable = true := by
  simpa [inner?, Option.filter_eq_some_iff] using h

/-- A record type that a field takes in is the one of its name. -/
theorem find?_of_inner? (h : inner? c f = some record) : c.find? record.name = some record :=
  find?_of_recordType? (recordType?_of_inner? h).1

/-- A record type that is nested in another one is the one of its name. -/
theorem Nests.find? {outer inner : RecordType} (h : Nests c outer inner) :
    c.find? inner.name = some inner := by
  obtain ⟨_, _, _, hf⟩ := h
  exact find?_of_inner? hf

/-- What all record types of a catalogue are, those nested in one of them are. -/
theorem forall_of_nests {P : RecordType → Prop} {start last : RecordType}
    (h : ∀ r ∈ c.types, P r) (hstart : start ∈ c.types)
    (hlast : Relation.ReflTransGen (Nests c) start last) : P last := by
  induction hlast with
  | refl => exact h start hstart
  | tail _ hnests _ => exact h _ (List.mem_of_find?_eq_some hnests.find?)

/-! ### The part of one field -/

/-- A field that holds searchable records contributes their schema. -/
theorem nodeOf_of_inner? (h : inner? c f = some record) :
    nodeOf c nested owner f m = (do
      let _ ← statedType owner f.name m
      let inner ← nested record
      return some (.container f.name (aliasOfPath (holdingPath f)) (holdingPath f)
        (inner.map .leaf))) := by
  obtain ⟨hrecord, hsearch⟩ := recordType?_of_inner? h
  unfold holdingPath
  unfold holding at hrecord ⊢
  simp only [nodeOf]
  generalize Holding.ofShape f.shape.unwrap = held at *
  cases held <;> simp_all

/-- A field that holds no searchable records contributes the same whatever the schemas of other
record types are. -/
theorem nodeOf_of_inner?_eq_none (h : inner? c f = none) :
    nodeOf c nested owner f m = nodeOf c nested' owner f m := by
  have hplain : ∀ r, recordType? c (holding f).shape = some r → r.isSearchable = false := by
    simpa [inner?, Option.filter_eq_none_iff] using h
  unfold holding at hplain
  simp only [nodeOf]
  generalize Holding.ofShape f.shape.unwrap = held at *
  cases hr : recordType? c held.shape with
  | none => cases held <;> simp_all
  | some r => cases held <;> simp_all

/-! ### Faults of one field -/

/-- The index type that a marker states is never at fault for a cycle. Cycles come up in the schemas
of nested record types only. -/
theorem statedType_ne_cyclic (chain : List String) :
    statedType owner f.name m ≠ .error (.cyclic chain) := by
  unfold statedType
  split
  · nofun
  · split <;> nofun
  · nofun

/-- The options of a leaf are never at fault for a cycle. -/
theorem leafOptions_ne_cyclic {field : String} {type : IndexType} (chain : List String) :
    leafOptions owner field m type ≠ .error (.cyclic chain) := by
  intro h
  unfold leafOptions at h
  split at h <;> split at h <;> cases h

/-- A leaf of a field itself is never at fault for a cycle. -/
theorem leafOf_ne_cyclic {field path : String} {type : IndexType} {whole : Bool}
    (chain : List String) : leafOf owner field path m type whole ≠ .error (.cyclic chain) := by
  intro h
  rw [leafOf, bind_eq_error_iff] at h
  rcases h with h | ⟨_, _, ⟨⟩⟩
  exact leafOptions_ne_cyclic chain h

/-- A field that holds no searchable records is never refused because of a cycle. -/
theorem nodeOf_ne_cyclic (h : inner? c f = none) (chain : List String) :
    nodeOf c nested owner f m ≠ .error (.cyclic chain) := by
  have hplain : ∀ r, recordType? c (holding f).shape = some r → r.isSearchable = false := by
    simpa [inner?, Option.filter_eq_none_iff] using h
  unfold holding at hplain
  intro hnode
  simp only [nodeOf, bind_eq_error_iff] at hnode
  obtain hstated | ⟨stated, _, hnode⟩ := hnode
  · exact statedType_ne_cyclic chain hstated
  -- in none of the ways to hold something is another schema asked for
  generalize Holding.ofShape f.shape.unwrap = held at hplain hnode
  split at hnode
  · next r _ hr =>
    rw [hplain r hr, if_neg (by simp), bind_eq_error_iff] at hnode
    rcases hnode with hleaf | ⟨_, _, ⟨⟩⟩
    exact leafOf_ne_cyclic chain hleaf
  · cases hnode
  · next r _ hr =>
    rw [hplain r hr, if_neg (by simp)] at hnode
    cases hnode
  · rw [bind_eq_error_iff] at hnode
    rcases hnode with hleaf | ⟨_, _, ⟨⟩⟩
    exact leafOf_ne_cyclic chain hleaf
  · rw [bind_eq_error_iff] at hnode
    rcases hnode with hleaf | ⟨_, _, ⟨⟩⟩
    exact leafOf_ne_cyclic chain hleaf

/-! ### The leaves of one field -/

/-- A leaf of a record type that a field holds, seen from the record of the field. -/
def liftLeaf (f : Field) (l : Leaf) : Leaf :=
  l.under f.name (aliasOfPath (holdingPath f)) (holdingPath f)

/-- A field that holds a searchable record type contributes the leaves of that type, each lifted
through the field. The marker is checked first, though a nested field makes no use of the index type
it states. -/
theorem fieldLeaves_of_inner? (hm : f.indexing? = some m) (h : inner? c f = some record) :
    fieldLeaves c nested owner f = (do
      let _ ← statedType owner f.name m
      let inner ← nested record
      return inner.map (liftLeaf f)) := by
  simp only [fieldLeaves, hm, nodeOf_of_inner? h, bind_assoc, pure_bind, SchemaNode.flatten,
    SchemaNode.flattenAll_map_leaf]
  rfl

/-- What a field contributes depends on the schema of its nested record type only. -/
theorem fieldLeaves_congr
    (h : ∀ record, f.indexing?.isSome → inner? c f = some record → nested record = nested' record) :
    fieldLeaves c nested owner f = fieldLeaves c nested' owner f := by
  cases hm : f.indexing? with
  | none => simp only [fieldLeaves, hm]
  | some m =>
    cases hi : inner? c f with
    | none =>
      simp only [fieldLeaves, hm]
      rw [nodeOf_of_inner?_eq_none hi]
    | some record =>
      rw [fieldLeaves_of_inner? hm hi, fieldLeaves_of_inner? hm hi, h record (by simp [hm]) hi]

/-- Where more schemas of nested record types are known, a field still contributes what it did. -/
theorem fieldLeaves_mono {ls : List Leaf}
    (hnested : ∀ inner ls, nested inner = .ok ls → nested' inner = .ok ls)
    (h : fieldLeaves c nested owner f = .ok ls) : fieldLeaves c nested' owner f = .ok ls := by
  cases hm : f.indexing? with
  | none => simpa only [fieldLeaves, hm] using h
  | some m =>
    cases hi : inner? c f with
    | none =>
      simp only [fieldLeaves, hm] at h ⊢
      rwa [nodeOf_of_inner?_eq_none hi]
    | some record =>
      simp only [fieldLeaves_of_inner? hm hi, bind_eq_ok_iff] at h ⊢
      obtain ⟨stated, hstated, inner, hinner, hls⟩ := h
      exact ⟨stated, hstated, inner, hnested record inner hinner, hls⟩

/-- What a field contributes is refused because of a cycle only where a nested schema is. -/
theorem exists_of_fieldLeaves_eq_cyclic {chain : List String}
    (h : fieldLeaves c nested owner f = .error (.cyclic chain)) :
    ∃ record, f.indexing?.isSome ∧ inner? c f = some record ∧
      nested record = .error (.cyclic chain) := by
  cases hm : f.indexing? with
  | none =>
    rw [fieldLeaves, hm] at h
    cases h
  | some m =>
    cases hi : inner? c f with
    | none =>
      simp only [fieldLeaves, hm, bind_eq_error_iff] at h
      obtain hnode | ⟨node, _, h⟩ := h
      · exact absurd hnode (nodeOf_ne_cyclic hi chain)
      · cases node <;> cases h
    | some record =>
      simp only [fieldLeaves_of_inner? hm hi, bind_eq_error_iff] at h
      obtain hstated | ⟨_, _, hnested | ⟨_, _, ⟨⟩⟩⟩ := h
      · exact absurd hstated (statedType_ne_cyclic chain)
      · exact ⟨record, rfl, rfl, hnested⟩

/-- Where a field contributes the leaves of a nested record type, that type has a schema. -/
theorem exists_of_fieldLeaves_eq_ok {ls : List Leaf} (hm : f.indexing?.isSome)
    (hi : inner? c f = some record) (h : fieldLeaves c nested owner f = .ok ls) :
    ∃ inner, nested record = .ok inner ∧ ls = inner.map (liftLeaf f) := by
  obtain ⟨m, hm⟩ := Option.isSome_iff_exists.mp hm
  simp only [fieldLeaves_of_inner? hm hi, bind_eq_ok_iff, pure_eq_ok_iff] at h
  obtain ⟨_, _, inner, hnested, rfl⟩ := h
  exact ⟨inner, hnested, rfl⟩

/-! ### The leaves of one record type -/

/-- The leaves of a record type, given those of the record types nested in it. -/
def assembled (c : Catalogue) (nested : RecordType → Except SchemaFault (List Leaf))
    (record : RecordType) : Except SchemaFault (List Leaf) := do
  return (← record.fields.mapM (fieldLeaves c nested record.name)).flatten

/-- The leaves of a record type depend on the schemas of the record types nested in it only. -/
theorem assembled_congr (h : ∀ inner, Nests c record inner → nested inner = nested' inner) :
    assembled c nested record = assembled c nested' record := by
  rw [assembled, assembled, mapM_congr fun f hf =>
    fieldLeaves_congr fun inner hm hi => h inner ⟨f, hf, hm, hi⟩]

/-- Leaves stay as they are when more schemas of nested record types are known. -/
theorem assembled_mono {ls : List Leaf}
    (hnested : ∀ inner ls, nested inner = .ok ls → nested' inner = .ok ls)
    (h : assembled c nested record = .ok ls) : assembled c nested' record = .ok ls := by
  rw [assembled, bind_eq_ok_iff] at h ⊢
  obtain ⟨parts, hparts, hls⟩ := h
  refine ⟨parts, ?_, hls⟩
  rw [mapM_eq_ok_iff] at hparts ⊢
  exact hparts.imp fun f part hpart => fieldLeaves_mono hnested hpart

/-- A cycle that is reported for a record type has been reported for one that is nested in it. -/
theorem exists_of_assembled_eq_cyclic {chain : List String}
    (h : assembled c nested record = .error (.cyclic chain)) :
    ∃ inner, Nests c record inner ∧ nested inner = .error (.cyclic chain) := by
  simp only [assembled, bind_eq_error_iff] at h
  obtain h | ⟨_, _, ⟨⟩⟩ := h
  obtain ⟨f, hf, h⟩ := exists_of_mapM_eq_error h
  obtain ⟨inner, hm, hi, hnested⟩ := exists_of_fieldLeaves_eq_cyclic h
  exact ⟨inner, ⟨f, hf, hm, hi⟩, hnested⟩

/-- A record type has a schema only if all record types nested in it do. -/
theorem exists_of_assembled_eq_ok {ls : List Leaf} {inner : RecordType}
    (h : assembled c nested record = .ok ls) (hn : Nests c record inner) :
    ∃ innerLeaves, nested inner = .ok innerLeaves := by
  obtain ⟨f, hf, hm, hi⟩ := hn
  simp only [assembled, bind_eq_ok_iff] at h
  obtain ⟨parts, hparts, _⟩ := h
  obtain ⟨part, _, hpart⟩ := exists_of_mem_left (mapM_eq_ok_iff.mp hparts) hf
  obtain ⟨innerLeaves, hinner, _⟩ := exists_of_fieldLeaves_eq_ok hm hi hpart
  exact ⟨innerLeaves, hinner⟩

/-- One step of compiling a record type: the schemas of the record types nested in it are compiled
with one type more around them, and none of these may be among the types around it. -/
theorem leavesWithin_succ (bound : Nat) (enclosing : List String) :
    leavesWithin c (bound + 1) enclosing record = assembled c (fun inner =>
      if enclosing.contains inner.name then .error (.cyclic (enclosing ++ [inner.name]))
      else leavesWithin c bound (enclosing ++ [inner.name]) inner) record :=
  rfl

/-- Leaves that are found stay the same where more record types may be nested and fewer of them are
around. -/
theorem leavesWithin_mono {bound bound' : Nat} {enclosing enclosing' : List String} {ls : List Leaf}
    (hbound : bound ≤ bound') (henclosing : enclosing' ⊆ enclosing)
    (h : leavesWithin c bound enclosing record = .ok ls) :
    leavesWithin c bound' enclosing' record = .ok ls := by
  induction bound generalizing bound' enclosing enclosing' record ls with
  | zero => cases h
  | succ bound ih =>
    obtain ⟨bound', rfl⟩ : ∃ n, bound' = n + 1 := ⟨bound' - 1, by omega⟩
    rw [leavesWithin_succ] at h ⊢
    refine assembled_mono (fun inner ls hinner => ?_) h
    split at hinner
    · cases hinner
    · next hfresh =>
      have hfresh' : ¬ enclosing'.contains inner.name := by
        simp only [List.contains_iff_mem] at hfresh ⊢
        exact fun hmem => hfresh (henclosing hmem)
      rw [if_neg hfresh']
      refine ih (Nat.le_of_succ_le_succ hbound) ?_ hinner
      exact List.append_subset.mpr
        ⟨List.subset_append_of_subset_left _ henclosing, List.subset_append_right _ _⟩

/-! ### Whole schemas -/

/-- A schema that is compiled has the leaves that were found, all under different names. -/
theorem leaves_eq_of_compile_eq_ok {ls : List Leaf} (h : compile c record = .ok ls) :
    leaves c record = .ok ls := by
  rw [compile, bind_eq_ok_iff] at h
  obtain ⟨all, hall, h⟩ := h
  split at h
  · cases h
  · cases h
    exact hall

/-- Compiling reports a cycle exactly where looking for leaves does: the check for repeated names
comes after it. -/
theorem compile_eq_cyclic_iff {chain : List String} :
    compile c record = .error (.cyclic chain) ↔ leaves c record = .error (.cyclic chain) := by
  rw [compile, bind_eq_error_iff]
  refine ⟨?_, .inl⟩
  rintro (h | ⟨all, _, h⟩)
  · exact h
  · split at h <;> cases h

end IndexedRecords.Schema
