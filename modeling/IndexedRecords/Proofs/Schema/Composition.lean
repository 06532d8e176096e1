import IndexedRecords.Proofs.Schema.Clauses
import Mathlib.Data.List.Nodup

/-!
# Schemas of embedded record types

The schema of a record type is put together from those of the record types that its marked fields
hold. Each of these is compiled inside of others, with fewer record types left to nest, with all the
types around it refused, and without the check that aliases differ; it is nevertheless the schema
that the record type has on its own (`compile_of_leavesWithin`). The leaves of a field are that
schema, seen from the record of the field (`IsRooted`).

## Main statements

* `compile_composes`: the leaves of a field that holds records are the schema of their type.
-/

namespace IndexedRecords.Schema

open Traversal

variable {c : Catalogue} {nested : RecordType → Except SchemaFault (List Leaf)}
  {f : Field} {record inner : RecordType} {link : Link} {l : Leaf} {ls : List Leaf}

/-! ### Leaves seen from outside -/

/-- A leaf of the records that a field holds, on its own and seen from the record of the field. -/
structure IsRooted (f : Field) (own outer : Leaf) : Prop where
  name_eq : outer.name = f.name ++ "." ++ own.name
  alias_eq : outer.queryAlias = aliasOfPath (holdingPath f) ++ "__" ++ own.queryAlias
  path_eq : ∃ path, own.path = "$." ++ path ∧ outer.path = holdingPath f ++ "." ++ path
  type_eq : outer.type = own.type
  options_eq : outer.options = own.options
  integral_eq : outer.integral = own.integral

theorem exists_path_eq {chain : List Link} (hchain : chain ≠ []) (h : Describes chain l) :
    ∃ path, l.path = "$." ++ path := by
  obtain ⟨path, hpath⟩ := exists_chainPath_eq hchain
  refine ⟨path, ?_⟩
  rw [h.path_eq, hpath, ← String.append_assoc]
  rfl

/-- A leaf with an absolute path, lifted through a field, is the leaf below that field. -/
theorem isRooted_liftLeaf (hpath : ∃ path, l.path = "$." ++ path) :
    IsRooted f l (liftLeaf f l) where
  name_eq := rfl
  alias_eq := rfl
  path_eq := by
    obtain ⟨path, hpath⟩ := hpath
    exact ⟨path, hpath, liftLeaf_path hpath⟩
  type_eq := rfl
  options_eq := rfl
  integral_eq := rfl

/-- All leaves of a schema have absolute paths. -/
theorem exists_path_eq_of_mem {bound : Nat} {enclosing : List String}
    (h : leavesWithin c bound enclosing record = .ok ls) (hl : l ∈ ls) :
    ∃ path, l.path = "$." ++ path := by
  obtain ⟨chains, henum, hdescribes⟩ := exists_chains_of_leavesWithin h
  obtain ⟨chain, hchain, hdescribed⟩ := exists_of_mem_left hdescribes.flip hl
  exact exists_path_eq ((henum.mem_iff chain).mp hchain).ne_nil hdescribed

/-- The leaves of a nested schema, lifted through the field that holds it, are the leaves below that
field, in their order. -/
theorem forall₂_isRooted {bound : Nat} {enclosing : List String}
    (h : leavesWithin c bound enclosing record = .ok ls) :
    List.Forall₂ (IsRooted f) ls (ls.map (liftLeaf f)) := by
  rw [List.forall₂_map_right_iff, List.forall₂_same]
  exact fun l hl => isRooted_liftLeaf (exists_path_eq_of_mem h hl)

/-- Different leaves of a field come from leaves that are different on their own. -/
theorem nodup_aliases_of_map_liftLeaf
    (h : ((ls.map (liftLeaf f)).map Leaf.queryAlias).Nodup) :
    (ls.map Leaf.queryAlias).Nodup := by
  have hmap : (ls.map (liftLeaf f)).map Leaf.queryAlias =
      (ls.map Leaf.queryAlias).map (aliasOfPath (holdingPath f) ++ "__" ++ ·) := by
    simp only [List.map_map]
    rfl
  rw [hmap] at h
  exact List.Nodup.of_map _ h

/-! ### Schemas compiled inside of others -/

/-- The leaves that a record type has inside of others are those it has on its own. -/
theorem compile_of_leavesWithin {bound : Nat} {enclosing : List String}
    (hbound : bound ≤ c.types.length + 1) (hmem : record.name ∈ enclosing)
    (h : leavesWithin c bound enclosing record = .ok ls)
    (hnodup : (ls.map Leaf.queryAlias).Nodup) : compile c record = .ok ls := by
  have hown : [record.name] ⊆ enclosing := by simpa using hmem
  exact compile_eq_ok_of_nodup (leavesWithin_mono hbound hown h) hnodup

theorem exists_eq_append_cons {α : Type} {xs : List α} {i : Nat} {x : α} (h : xs[i]? = some x) :
    ∃ before after, xs = before ++ x :: after ∧ before.length = i := by
  obtain ⟨hlt, rfl⟩ := List.getElem?_eq_some_iff.mp h
  refine ⟨xs.take i, xs.drop (i + 1), ?_, List.length_take_of_le (Nat.le_of_lt hlt)⟩
  rw [List.getElem_cons_drop, List.take_append_drop]

/-- The fields before a field, the field itself and the fields after it contribute their leaves one
after the other. -/
theorem exists_of_assembled (hdeclared : record.fields[link.position]? = some link.field)
    (hnested : ∀ inner ls, nested inner = .ok ls → ListsFrom c Depicts inner (fun _ => True) ls)
    (h : assembled c nested record = .ok ls) :
    ∃ before part after, ls = before ++ part ++ after ∧
      fieldLeaves c nested record.name link.field = .ok part ∧
      ListsFrom c Depicts record (· < link.position) before ∧
      ListsFrom c Depicts record (· = link.position) part ∧
      ListsFrom c Depicts record (link.position < ·) after := by
  obtain ⟨early, late, hfields, hlength⟩ := exists_eq_append_cons hdeclared
  rw [assembled, hfields] at h
  simp only [List.mapM_append, List.mapM_cons, bind_assoc, bind_eq_ok_iff, pure_eq_ok_iff] at h
  obtain ⟨first, hfirst, part, hpart, rest, hrest, _, rfl, _, rfl, rfl⟩ := h
  rw [mapM_eq_ok_iff] at hfirst hrest
  have hfields_early : record.fields = [] ++ early ++ (link.field :: late) := hfields
  have hfields_late : record.fields = (early ++ [link.field]) ++ late ++ [] := by simp [hfields]
  have hearly := listsFrom_of_fields isCarried_depicts hfields_early hnested hfirst
  have hlate := listsFrom_of_fields isCarried_depicts hfields_late hnested hrest
  refine ⟨first.flatten, part, rest.flatten, by simp, hpart, hearly.congr fun i _ => ?_,
    listsFrom_of_fieldLeaves isCarried_depicts hdeclared hnested hpart, hlate.congr fun i hi => ?_⟩
  · simp [hlength]
  · simp only [hfields, List.length_append, List.length_cons] at hi
    simp only [List.length_append, List.length_singleton]
    omega

/-! ### Embedded record types -/

/-- The leaves of a record type are those of a field, which stand next to each other and are given
leaves seen from the record of the field, between those of the fields before and after it. -/
def EmbedsAt (c : Catalogue) (record : RecordType) (link : Link) (own ls : List Leaf) : Prop :=
  ∃ before part after, ls = before ++ part ++ after ∧
    List.Forall₂ (IsRooted link.field) own part ∧
    ListsFrom c Depicts record (· < link.position) before ∧
    ListsFrom c Depicts record (· = link.position) part ∧
    ListsFrom c Depicts record (link.position < ·) after

/-- Where a record type compiles, so does each record type that is nested in it, and its leaves
stand together among those of the whole. -/
theorem exists_embedsAt_of_compile (hdeclared : record.fields[link.position]? = some link.field)
    (hmarked : link.field.indexing?.isSome) (hinner : inner? c link.field = some inner)
    (h : compile c record = .ok ls) :
    ∃ own, compile c inner = .ok own ∧ EmbedsAt c record link own ls := by
  have hnodup := nodup_aliases_of_compile h
  have hleaves := leaves_eq_of_compile_eq_ok h
  rw [leaves, leavesWithin_succ] at hleaves
  obtain ⟨before, part, after, rfl, hpart, hlists⟩ :=
    exists_of_assembled hdeclared (fun _ _ hnested => by
      split at hnested
      · cases hnested
      · exact listsFrom_of_leavesWithin isCarried_depicts hnested) hleaves
  obtain ⟨own, hown, rfl⟩ := exists_of_fieldLeaves_eq_ok hmarked hinner hpart
  split at hown
  · cases hown
  · -- the aliases of the field differ inside of the whole schema, and so they do on their own
    have hsub : (own.map (liftLeaf link.field)).Sublist
        (before ++ own.map (liftLeaf link.field) ++ after) :=
      (List.sublist_append_right _ _).trans (List.sublist_append_left _ _)
    have hnodup_own := nodup_aliases_of_map_liftLeaf (hnodup.sublist (hsub.map _))
    have hcompile : compile c inner = .ok own :=
      compile_of_leavesWithin (Nat.le_succ _) (by simp) hown hnodup_own
    exact ⟨own, hcompile, before, _, after, rfl, forall₂_isRooted hown, hlists⟩

/-- **Composition.** The leaves of a marked field that holds records of an embedded type stand next
to each other, between those of the fields before and after it, and are the leaves that the embedded
type has on its own, in their order and seen from the record of the field. So a record type has no
schema where an embedded one has none. -/
theorem compile_composes (hdeclared : record.fields[link.position]? = some link.field)
    (hmarked : link.field.indexing?.isSome) (hinner : inner? c link.field = some inner) :
    (∀ ls, compile c record = .ok ls →
      ∃ own, compile c inner = .ok own ∧ EmbedsAt c record link own ls) ∧
    ∀ fault, compile c inner = .error fault → ∃ fault', compile c record = .error fault' := by
  refine ⟨fun ls => exists_embedsAt_of_compile hdeclared hmarked hinner, fun fault hfault => ?_⟩
  cases hcompile : compile c record with
  | error fault' => exact ⟨fault', rfl⟩
  | ok ls =>
    obtain ⟨own, hown, -⟩ := exists_embedsAt_of_compile hdeclared hmarked hinner hcompile
    exact nomatch hfault.symm.trans hown

/-- Shelves of labels, where two keys of a label have one alias. -/
def labels : Catalogue :=
  (Catalogue.bases.declare
    ⟨"Label", "EmbeddedJsonModel", none, none,
      [keyedField "front" "a.b" (.scalar .text), keyedField "back" "a__b" (.scalar .text)]⟩).declare
    ⟨"Shelf", "JsonModel", none, none,
      [indexedField "labels" (.generic .list false [.record "Label"])]⟩

theorem compile_composes_mailboxes :
    (∃ own ls, compile mailboxes mailboxes.types[3] = .ok own ∧
      compile mailboxes mailboxes.types[4] = .ok ls ∧
      EmbedsAt mailboxes mailboxes.types[4] ⟨1, mailboxes.types[4].fields[1]⟩ own ls) ∧
    ∃ fault, compile labels labels.types[4] = .error fault := by
  have hmailbox := @compile_composes mailboxes mailboxes.types[4] mailboxes.types[3]
    ⟨1, mailboxes.types[4].fields[1]⟩ rfl rfl rfl
  have hshelf := @compile_composes labels labels.types[4] labels.types[3]
    ⟨1, labels.types[4].fields[1]⟩ rfl rfl rfl
  obtain ⟨own, hown, hembeds⟩ := hmailbox.1 _ rfl
  exact ⟨⟨own, _, hown, rfl, hembeds⟩, hshelf.2 _ rfl⟩

end IndexedRecords.Schema
