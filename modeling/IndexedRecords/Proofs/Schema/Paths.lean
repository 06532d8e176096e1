import IndexedRecords.Proofs.Json.Path
import IndexedRecords.Proofs.Record.Writing
import IndexedRecords.Proofs.Schema.Chains
import IndexedRecords.Service.Documents
import Mathlib.Logic.Relation

/-!
# Paths of leaves in stored documents

The compiler makes the path of a leaf from the shapes of fields, and the writer makes a document
from the values in them; neither looks at the other. The two agree: the path of a leaf selects what
its dotted name leads to in the record (`walk`).

## Main statements

* `select_path_of_leaf`: in the stored text of a valid record, the path of a leaf selects the
  documents of the values that the name of the leaf leads to, in their order.
-/

namespace IndexedRecords.Schema

open Traversal Record

variable {c : Catalogue} {r inner : RecordType} {f : Field} {v : Value} {j : Json}

/-! ### Steps of the path of a chain -/

/-- The steps from a field to the values in it. -/
def Holding.steps : Holding → List PathStep
  | .one _ => []
  | .sequence _ => [.items]
  | .map _ => [.values]

/-- The steps after the last field of a chain. -/
def lastSteps (f : Field) : List PathStep :=
  match holding f with
  | .sequence _ => if fieldIndexType f = .vector then [] else [.items]
  | _ => []

/-- The steps of the path of a chain. -/
def chainSteps : List Link → List PathStep
  | [] => []
  | [link] => .member link.field.pathKey :: lastSteps link.field
  | link :: next :: rest =>
    .member link.field.pathKey :: ((holding link.field).steps ++ chainSteps (next :: rest))

/-- The path of a longer chain starts with the field of its first link and with how that field holds
its records. -/
theorem chainSteps_cons (link : Link) {rest : List Link} (h : rest ≠ []) :
    chainSteps (link :: rest) =
      .member link.field.pathKey :: ((holding link.field).steps ++ chainSteps rest) := by
  obtain ⟨next, rest, rfl⟩ := List.exists_cons_of_ne_nil h
  rw [chainSteps]

/-- A path starts with the name of a field. -/
theorem exists_chainSteps_eq_cons {chain : List Link} (h : chain ≠ []) :
    ∃ name rest, chainSteps chain = .member name :: rest := by
  obtain ⟨link, rest, rfl⟩ := List.exists_cons_of_ne_nil h
  cases rest with
  | nil => exact ⟨_, _, rfl⟩
  | cons next rest => exact ⟨_, _, rfl⟩

/-- The text that a way of holding records puts into a path is that of its steps. -/
theorem wildcard_toList (h : Holding) : h.wildcard.toList = h.steps.flatMap PathStep.text := by
  cases h <;> simp [Holding.wildcard, Holding.steps, PathStep.text, arrayWildcard, mapWildcard]

/-- The text at the end of a path is that of the steps after the last field. -/
theorem lastWildcard_toList (f : Field) :
    (lastWildcard f).toList = (lastSteps f).flatMap PathStep.text := by
  unfold lastWildcard lastSteps
  cases holding f with
  | one shape | map shape => simp
  | sequence item =>
    by_cases htype : fieldIndexType f = .vector <;> simp [htype, PathStep.text, arrayWildcard]

/-- The path of a chain is made of its steps. -/
theorem chainPath_toList : (chain : List Link) →
    (chainPath chain).toList = (chainSteps chain).flatMap PathStep.text
  | [] => rfl
  | [link] => by
    rw [chainPath, chainSteps, String.toList_append, String.toList_append, lastWildcard_toList]
    rfl
  | link :: next :: rest => by
    rw [chainPath, chainSteps, String.toList_append, String.toList_append, String.toList_append,
      wildcard_toList, chainPath_toList (next :: rest), List.flatMap_cons, List.flatMap_append]
    simp only [PathStep.text, List.append_assoc]
    rfl

/-! ### Addressable record types -/

/-- The documents of a record type can be addressed by plain paths: fields have different names,
they are written under different plain names, and the items of a tuple of fixed length have one
shape. -/
structure Addressable (r : RecordType) : Prop where
  names : (r.fields.map Field.name).Nodup
  keys : (r.fields.map Field.writtenKey).Nodup
  plain : ∀ f ∈ r.fields, PathStep.isName f.writtenKey = true
  unmixed : ∀ f ∈ r.fields, ∀ older args, f.shape.unwrap = .generic .tuple older args →
    ∀ a ∈ args, ∀ b ∈ args, a.unwrap = b.unwrap

/-- The paths of chains lead through the documents of a record type: its fields have different
names, they are written under different names, indexed ones under plain ones, and the items of a
tuple of records of fixed length have one shape. -/
structure Navigable (c : Catalogue) (r : RecordType) : Prop where
  names : (r.fields.map Field.name).Nodup
  keys : (r.fields.map Field.writtenKey).Nodup
  plain : ∀ f ∈ r.fields, f.indexing?.isSome → PathStep.isName f.writtenKey = true
  unmixed : ∀ f ∈ r.fields, (inner? c f).isSome → ∀ older args,
    f.shape.unwrap = .generic .tuple older args → ∀ a ∈ args, ∀ b ∈ args, a.unwrap = b.unwrap

/-- What is asked of all fields holds for those that are indexed and for those that hold records. -/
theorem Addressable.navigable (h : Addressable r) : Navigable c r where
  names := h.names
  keys := h.keys
  plain f hf _ := h.plain f hf
  unmixed f hf _ := h.unmixed f hf

/-! ### Record types without records inside -/

/-- A record type without records in its fields is navigable with all that is nested in it. -/
theorem navigable_of_flat {N : RecordType} (names : (r.fields.map Field.name).Nodup)
    (keys : (r.fields.map Field.writtenKey).Nodup)
    (plain : ∀ f ∈ r.fields, PathStep.isName f.writtenKey = true)
    (flat : ∀ f ∈ r.fields, inner? c f = none) (hN : Relation.ReflTransGen (Nests c) r N) :
    Navigable c N := by
  obtain rfl | ⟨inner, ⟨f, hf, -, held⟩, -⟩ := hN.cases_head
  · refine ⟨names, keys, fun f hf _ => plain f hf, fun f hf held => ?_⟩
    rw [flat f hf] at held
    cases held
  · rw [flat f hf] at held
    cases held

/-- The chains of a record type without records in its fields are single fields. -/
theorem IndexedChain.exists_singleton {chain : List Link} (hchain : IndexedChain c r chain)
    (flat : ∀ f ∈ r.fields, inner? c f = none) :
    ∃ link, chain = [link] ∧ link.field ∈ r.fields := by
  cases hchain with
  | last declared _ _ => exact ⟨_, rfl, List.mem_of_getElem? declared⟩
  | cons declared _ held _ =>
    rw [flat _ (List.mem_of_getElem? declared)] at held
    cases held

/-- A name that is not empty stands in the paths of a schema as it does in documents. -/
theorem pathKey_eq_writtenKey (h : PathStep.isName f.writtenKey = true) :
    f.pathKey = f.writtenKey := by
  have hne : f.writtenKey ≠ "" := by
    intro hempty
    rw [hempty] at h
    exact absurd h (by decide)
  unfold Field.pathKey
  unfold Field.writtenKey at hne ⊢
  cases hw : f.writtenAlias with
  | some key =>
    rw [hw] at hne
    simp_all
  | none =>
    cases hs : f.sharedAlias with
    | some key => simp_all
    | none => simp

/-- The path of a chain has plain names only, so that it is read back as it is written. Fields that
are not indexed, and nested types that no chain enters, may have other names. -/
theorem IndexedChain.isPlain {chain : List Link} (hchain : IndexedChain c r chain)
    (h : ∀ N, Relation.ReflTransGen (Nests c) r N → Navigable c N) :
    ∀ step ∈ chainSteps chain, step.IsPlain := by
  -- names of fields are the only steps that could fail to be plain
  have hkey : ∀ {r : RecordType} {link : Link}, Navigable c r →
      r.fields[link.position]? = some link.field → link.field.indexing?.isSome →
      (PathStep.member link.field.pathKey).IsPlain := by
    intro r link hr hdeclared hmarked
    have hplain := hr.plain _ (List.mem_of_getElem? hdeclared) hmarked
    rw [PathStep.IsPlain, pathKey_eq_writtenKey hplain]
    exact hplain
  induction hchain with
  | @last r link declared marked ends =>
    intro step hstep
    rcases List.mem_cons.mp hstep with rfl | hstep
    · exact hkey (h r .refl) declared marked
    · unfold lastSteps at hstep
      split at hstep
      · split at hstep
        · cases hstep
        · obtain rfl := List.mem_singleton.mp hstep
          trivial
      · cases hstep
  | @cons r inner link rest declared marked held rest_chain ih =>
    intro step hstep
    rw [chainSteps_cons link rest_chain.ne_nil] at hstep
    rcases List.mem_cons.mp hstep with rfl | hstep
    · exact hkey (h r .refl) declared marked
    · have hnests : Nests c r inner := ⟨_, List.mem_of_getElem? declared, marked, held⟩
      rcases List.mem_append.mp hstep with hstep | hstep
      · generalize holding link.field = held at hstep
        cases held with
        | one shape => cases hstep
        | sequence shape =>
          obtain rfl := List.mem_singleton.mp hstep
          trivial
        | map shape =>
          obtain rfl := List.mem_singleton.mp hstep
          trivial
      · exact ih (fun N hN => h N (.head hnests hN)) step hstep

theorem isPlain_of_chain {chain : List Link} (hchain : IndexedChain c r chain)
    (h : ∀ N, Relation.ReflTransGen (Nests c) r N → Addressable N) :
    ∀ step ∈ chainSteps chain, step.IsPlain :=
  hchain.isPlain fun N hN => (h N hN).navigable

/-! ### Walking through a record -/

/-- The shape of the keys of a map in a field. -/
def keyShape (f : Field) : Shape :=
  match f.shape.unwrap with
  | .generic _ _ args => args.headD .any
  | _ => .any

/-- The values in a field: the items of a sequence, the values of a map or the one value itself;
null holds nothing. -/
def partsOf : Value → List Value
  | .none => []
  | .list items | .tuple items | .queue items | .set _ items => items
  | .map entries => entries.map Prod.snd
  | v => [v]

/-- The values in a field that are written: of several entries of a map whose keys are written
alike, only the last one is, in the place of the first. -/
def heldBy (f : Field) : Value → Option (List Value)
  | .map entries => do
    let named ← entries.mapM fun (key, v) => do return (← nameAs (keyShape f) .off key, v)
    return partsOf (.map ((Store.tableOf named).map fun (name, v) => (.text name, v)))
  | v => some (partsOf v)

/-- What the steps of a dotted name lead to in a record of a type, where `held` gives the values in
a field: the documents that the last field is written as, one for each record that the steps before
it lead to. -/
def walk (held : Field → Value → Option (List Value)) (c : Catalogue) :
    List String → RecordType → List (String × Value) → Option (List Json)
  | [], _, _ => none
  | [step], r, fields => do
    let f ← r.field? step
    let v ← Store.lookup? fields step
    return [← writeField .off r f v (writer c v)]
  | step :: next :: rest, r, fields => do
    let f ← r.field? step
    let v ← Store.lookup? fields step
    let inner ← inner? c f
    let found ← (← held f v).mapM fun
      | .none => some []
      | .record _ fields => walk held c (next :: rest) inner fields
      | _ => none
    return found.flatten

/-! ### Fields that hold records -/

/-- The shapes, without outer layers, of fields that hold records, and how they hold them. -/
inductive RecordHolder (name : String) : Shape → Holding → Prop
  | one : RecordHolder name (.record name) (.one (.record name))
  | sequence {head : Generic} {older : Bool} {first : Shape} {rest : List Shape}
      (kind : head.isSequence) (item : first.unwrap = .record name) :
      RecordHolder name (.generic head older (first :: rest)) (.sequence (.record name))
  | variadic {first : Shape} (item : first.unwrap = .record name) :
      RecordHolder name (.variadic first) (.sequence (.record name))
  | map {head : Generic} {older : Bool} {key value : Shape}
      (kind : head.isMap) (item : value.unwrap = .record name) :
      RecordHolder name (.generic head older [key, value]) (.map (.record name))

/-- The argument of a generic shape counts without its outer layers. -/
theorem eq_of_argument? {s t : Shape} (h : s.argument? = some t) : s.unwrap = t := by
  unfold Shape.argument? at h
  split at h
  · cases h
  · exact Option.some.inj h

/-- A field whose content is records, as far as the schema sees it, holds them in one of four
ways. -/
theorem recordHolder_of_holding {name : String} {s : Shape}
    (h : (Holding.ofShape s).shape = .record name) : RecordHolder name s (Holding.ofShape s) := by
  unfold Holding.ofShape at h ⊢
  -- the schema looks for items first, then for values of a map, and else at the shape itself
  cases helement : s.element? with
  | some item =>
    rw [helement] at h
    obtain rfl : item = .record name := h
    unfold Shape.element? at helement
    split at helement
    · split at helement
      · next hkind =>
        split at helement
        · cases helement
        · exact .sequence hkind (eq_of_argument? helement)
      · cases helement
    · exact .variadic (eq_of_argument? helement)
    · cases helement
  | none =>
    rw [helement] at h
    dsimp only at h ⊢
    cases hvalue : s.mapValue? with
    | some value =>
      rw [hvalue] at h
      obtain rfl : value = .record name := h
      unfold Shape.mapValue? at hvalue
      split at hvalue
      · split at hvalue
        · next hkind =>
          split at hvalue
          · exact .map hkind (eq_of_argument? hvalue)
          · cases hvalue
        · cases hvalue
      · cases hvalue
    | none =>
      rw [hvalue] at h
      obtain rfl : s = .record name := h
      exact .one

/-- A field with a nested record type asks for records of a type with a name, in one of four
ways. -/
theorem recordHolder_of_inner? (h : inner? c f = some inner) :
    ∃ name, c.find? name = some inner ∧ RecordHolder name f.shape.unwrap (holding f) := by
  obtain ⟨hrecord, _⟩ := recordType?_of_inner? h
  unfold recordType? at hrecord
  split at hrecord
  · next name hname => exact ⟨name, hrecord, recordHolder_of_holding hname⟩
  · cases hrecord

/-- Records are not looked for by their own text but by that of their parts. -/
theorem RecordHolder.asksForParts {name : String} {s : Shape} {held : Holding}
    (h : RecordHolder name s held) : asksForParts s = true := by
  cases h <;> rfl

/-! ### Documents of the values in a field -/

/-- A value is null or a record with the fields of a type, and is written as such. -/
inductive Written (c : Catalogue) (inner : RecordType) : Value → Json → Prop
  | none : Written c inner .none .null
  | record {model : String} {fields : List (String × Value)} {members : List (String × Json)}
      (valid : HasFields c inner fields)
      (members_eq : writeFields .off inner (fieldWriters c fields) = some members) :
      Written c inner (.record model fields) (.object (Json.mergeMembers members))

/-- A valid value of a shape that asks for records is null or a record, and its document says
which. -/
theorem written_of_writer {s : Shape} {name : String} (hs : s.unwrap = .record name)
    (hname : c.find? name = some inner) (hv : Belongs c s v) (h : writer c v .off s = some j) :
    Written c inner v j := by
  rw [writer_eq] at h
  rcases hv.eq_none_or_hasFields hs hname with rfl | ⟨model, fields, rfl, hfields⟩
  · rw [writeAs_none (contentOf_value c _) .off s.unwraps (by rw [hs]; rfl)] at h
    obtain rfl := Option.some.inj h
    exact .none
  · rw [writeAs_unwrap (by simp) .off s.unwraps, hs, writeAs, writeRecord, contentOf_value,
      hname] at h
    simp only [matchesType, if_true, Option.bind_eq_bind, Option.bind_eq_some_iff, Option.pure_def,
      Option.some.injEq] at h
    obtain ⟨members, hmembers, rfl⟩ := h
    exact .record hfields hmembers

/-- The documents of valid items correspond to the items one by one. -/
theorem forall₂_written {s : Shape} {name : String} {items : List Value} {js : List Json}
    (hs : s.unwrap = .record name) (hname : c.find? name = some inner)
    (hv : ∀ v ∈ items, Belongs c s v)
    (h : List.Forall₂ (fun v j => writer c v .off s = some j) items js) :
    List.Forall₂ (Written c inner) items js :=
  List.forall₂_iff_zip.mpr ⟨h.length_eq, fun hmem =>
    written_of_writer hs hname (hv _ (List.of_mem_zip hmem).1) ((List.forall₂_iff_zip.mp h).2 hmem)⟩

/-- No path leads further from an atom: an atom has neither members nor items. -/
theorem select_word (cs : List Char) (step : PathStep) (rest : List PathStep) :
    (Outline.word cs).select (step :: rest) = [] := by
  cases step <;> rfl

/-- The document of a field shows the documents of the values in it, where its path says. -/
def Shows (c : Catalogue) (inner : RecordType) (f : Field) (held : Holding) (v : Value)
    (j : Json) : Prop :=
  ∃ parts docs, heldBy f v = some parts ∧ List.Forall₂ (Written c inner) parts docs ∧
    ∀ name rest, j.outline.select (held.steps ++ .member name :: rest) =
      docs.flatMap fun d => d.outline.select (.member name :: rest)

/-- Null in a field of records holds none, and its document has none, whichever way the field holds
records. -/
theorem shows_none (held : Holding) : Shows c inner f held .none .null := by
  refine ⟨[], [], rfl, .nil, fun name rest => ?_⟩
  cases held <;> exact select_word _ _ _

/-- A record that a field holds by itself is written in its place. -/
theorem shows_one (h : Written c inner v j) (hv : heldBy f v = some [v]) (shape : Shape) :
    Shows c inner f (.one shape) v j :=
  ⟨[v], [j], hv, .cons h .nil, fun name rest => by simp [Holding.steps]⟩

/-- The items of a sequence are written as the items of an array, where the wildcard of the path
finds them. -/
theorem shows_items {items : List Value} {js : List Json}
    (h : List.Forall₂ (Written c inner) items js) (hv : heldBy f v = some items) (shape : Shape) :
    Shows c inner f (.sequence shape) v (.array js) := by
  refine ⟨items, js, hv, h, fun name rest => ?_⟩
  rw [Json.outline, Json.outlines_eq_map, Holding.steps, List.cons_append, List.nil_append,
    Outline.select, Outline.children, List.flatMap_map]

/-- The values of a map are written as the members of an object, where the wildcard of the path
finds them. When two keys are written alike, the later value takes the place of the earlier one on
both sides. -/
theorem shows_values {entries : List (Value × Value)} {named : List (String × Value)}
    {members : List (String × Json)}
    (hnamed : (entries.mapM fun (key, v) => do return (← nameAs (keyShape f) .off key, v)) =
      some named)
    (h : List.Forall₂ (Store.SameKey (Written c inner)) named members) (shape : Shape) :
    Shows c inner f (.map shape) (.map entries) (.object (Json.mergeMembers members)) := by
  refine ⟨(Store.tableOf named).map Prod.snd, (Json.mergeMembers members).map Prod.snd, ?_, ?_,
    fun name rest => ?_⟩
  · rw [heldBy, hnamed]
    simp [partsOf]
  · rw [Json.mergeMembers_eq_tableOf, List.forall₂_map_left_iff, List.forall₂_map_right_iff]
    exact (Store.forall₂_tableOf h).imp fun _ _ hm => hm.2
  · rw [Json.outline, Json.memberOutlines_eq_map, Holding.steps, List.cons_append, List.nil_append,
      Outline.select, Outline.children, List.map_map, List.flatMap_map, List.flatMap_map]
    rfl

/-- The values in a field of sequences are the items that its writer goes through. -/
theorem heldBy_of_items? {head : Generic} {items : List Value} (h : head.items? v = some items) :
    heldBy f v = some items := by
  unfold Generic.items? at h
  split at h <;> cases h <;> rfl

/-- The entries of a map under the names of their keys correspond to its members. -/
theorem exists_named {key value : Shape} {name : String} {entries : List (Value × Value)}
    {members : List (String × Json)} (hs : value.unwrap = .record name)
    (hname : c.find? name = some inner) (hvalues : ∀ e ∈ entries, Belongs c value e.2)
    (h : List.Forall₂ (fun e (m : String × Json) =>
      nameAs key .off e.1 = some m.1 ∧ writer c e.2 .off value = some m.2) entries members) :
    ∃ named, (entries.mapM fun (k, v) => do return (← nameAs key .off k, v)) = some named ∧
      List.Forall₂ (Store.SameKey (Written c inner)) named members := by
  induction h with
  | nil => exact ⟨[], rfl, .nil⟩
  | @cons e m entries members hm _ ih =>
    obtain ⟨named, hnamed, hall⟩ := ih fun e he => hvalues e (List.mem_cons_of_mem _ he)
    obtain ⟨k, v⟩ := e
    refine ⟨(m.1, v) :: named, ?_, .cons ⟨rfl, ?_⟩ hall⟩
    · rw [List.mapM_cons, hnamed]
      dsimp only
      rw [hm.1]
      rfl
    · exact written_of_writer hs hname (hvalues (k, v) List.mem_cons_self) hm.2

/-- A tuple of fixed length, all of whose items ask for one record type. -/
theorem forall₂_written_fixed {args : List Shape} {name : String} {items : List Value}
    {js : List Json} (hs : ∀ a ∈ args, a.unwrap = .record name) (hname : c.find? name = some inner)
    (hlength : items.length = args.length) (hv : ∀ p ∈ args.zip items, Belongs c p.1 p.2)
    (h : writeFixed .off args (items.map (writer c)) = some js) :
    List.Forall₂ (Written c inner) items js := by
  have hpairs : List.Forall₂ (fun p j => Written c inner p.2 j) (args.zip items) js :=
    List.forall₂_iff_zip.mpr ⟨(forall₂_of_writeFixed hlength h).length_eq, fun {p j} hmem => by
      have hp := (List.of_mem_zip hmem).1
      exact written_of_writer (hs _ (List.of_mem_zip hp).1) hname (hv p hp)
        ((List.forall₂_iff_zip.mp (forall₂_of_writeFixed hlength h)).2 hmem)⟩
  have hitems : (args.zip items).map Prod.snd = items := by
    rw [List.map_snd_zip]
    omega
  rw [← hitems, List.forall₂_map_left_iff]
  exact hpairs

/-! ### Fields that hold records -/

/-- Several records in a container of one kind of items. -/
theorem shows_of_items {head : Generic} {older : Bool} {first : Shape} {rest : List Shape}
    {name : String} {items : List Value} (item : first.unwrap = .record name)
    (hname : c.find? name = some inner) (hitems : head.items? v = some items)
    (each : ∀ v ∈ items, Belongs c first v)
    (hwriter : writer c v .off f.shape =
      writeAs c (contentOf c v) (.generic head older (first :: rest)) .off)
    (h : writeField .off r f v (writer c v) = some j)
    (shape : Shape) : Shows c inner f (.sequence shape) v j := by
  have hepoch : ∀ v ∈ items, epochJson? v = none := fun v hv =>
    epochJson?_eq_none item hname (each v hv)
  rw [writeField_eq (temporalJson?_of_items? hitems hepoch), hwriter, writeAs,
    writeGeneric_of_items? (by rw [contentOf_value]; exact hitems), items_contentOf hitems,
    List.headD_cons, writeItems_eq_some_iff] at h
  obtain ⟨js, rfl, hjs⟩ := h
  exact shows_items (forall₂_written item hname each hjs) (heldBy_of_items? hitems) shape

/-- Several records in a tuple of fixed length. -/
theorem shows_of_fixed {older : Bool} {args : List Shape} {name : String} {items : List Value}
    (hargs : ∀ a ∈ args, a.unwrap = .record name) (hname : c.find? name = some inner)
    (hlength : items.length = args.length) (each : ∀ p ∈ args.zip items, Belongs c p.1 p.2)
    (hwriter : writer c (.tuple items) .off f.shape =
      writeAs c (contentOf c (.tuple items)) (.generic .tuple older args) .off)
    (h : writeField .off r f (.tuple items) (writer c (.tuple items)) = some j)
    (shape : Shape) : Shows c inner f (.sequence shape) (.tuple items) j := by
  have hepoch : ∀ v ∈ items, epochJson? v = none := by
    intro v hv
    have hmem : v ∈ (args.zip items).map Prod.snd := by
      rw [List.map_snd_zip (Nat.le_of_eq hlength)]
      exact hv
    obtain ⟨p, hp, rfl⟩ := List.mem_map.mp hmem
    exact epochJson?_eq_none (hargs _ (List.of_mem_zip hp).1) hname (each p hp)
  rw [writeField_eq (temporalJson?_of_items hepoch).2, hwriter, writeAs] at h
  simp only [writeGeneric, contentOf_value, reduceCtorEq, false_and, if_false,
    Option.map_eq_some_iff] at h
  obtain ⟨js, hjs, rfl⟩ := h
  rw [contentOf, writers_eq_map] at hjs
  exact shows_items (forall₂_written_fixed hargs hname hlength each hjs) rfl shape

/-- Several records in a tuple of any length. -/
theorem shows_of_variadic {first : Shape} {name : String} {items : List Value}
    (item : first.unwrap = .record name) (hname : c.find? name = some inner)
    (each : ∀ v ∈ items, Belongs c first v)
    (hwriter : writer c (.tuple items) .off f.shape =
      writeAs c (contentOf c (.tuple items)) (.variadic first) .off)
    (h : writeField .off r f (.tuple items) (writer c (.tuple items)) = some j)
    (shape : Shape) : Shows c inner f (.sequence shape) (.tuple items) j := by
  have hepoch : ∀ v ∈ items, epochJson? v = none := fun v hv =>
    epochJson?_eq_none item hname (each v hv)
  rw [writeField_eq (temporalJson?_of_items hepoch).2, hwriter, writeAs] at h
  simp only [writeVariadic, contentOf_value] at h
  rw [contentOf, writers_eq_map, writeItems_eq_some_iff] at h
  obtain ⟨js, rfl, hjs⟩ := h
  exact shows_items (forall₂_written item hname each hjs) rfl shape

/-- Records in a map. -/
theorem shows_of_entries {head : Generic} {older : Bool} {key value : Shape} {name : String}
    {entries : List (Value × Value)} (item : value.unwrap = .record name)
    (hname : c.find? name = some inner) (hkey : keyShape f = key)
    (hentries : head.entries? v = some entries)
    (values : ∀ e ∈ entries, Belongs c value e.2)
    (hwriter : writer c v .off f.shape =
      writeAs c (contentOf c v) (.generic head older [key, value]) .off)
    (h : writeField .off r f v (writer c v) = some j)
    (shape : Shape) : Shows c inner f (.map shape) v j := by
  obtain rfl := Generic.eq_map_of_entries? hentries
  rw [writeField_eq rfl, hwriter, writeAs,
    writeGeneric_of_entries? (by rw [contentOf_value]; exact hentries),
    entries_contentOf hentries, writeEntries_eq_some_iff] at h
  obtain ⟨members, rfl, hmembers⟩ := h
  obtain ⟨named, hnamed, hall⟩ := exists_named item hname values hmembers
  rw [← hkey] at hnamed
  exact shows_values hnamed hall shape

/-- **Fields that hold records.** The document of such a field shows the documents of the records
that the value of the field holds. -/
theorem shows_of_writeField (hmixed : ∀ older args, f.shape.unwrap = .generic .tuple older args →
      ∀ a ∈ args, ∀ b ∈ args, a.unwrap = b.unwrap)
    (hi : inner? c f = some inner) (hv : Belongs c f.shape v)
    (h : writeField .off r f v (writer c v) = some j) : Shows c inner f (holding f) v j := by
  obtain ⟨name, hname, hholder⟩ := recordHolder_of_inner? hi
  have hnone : v = .none → Shows c inner f (holding f) v j := by
    rintro rfl
    rw [writeField_eq rfl, writer_eq,
      writeAs_none rfl .off f.shape.unwraps hholder.asksForParts] at h
    obtain rfl := Option.some.inj h
    exact shows_none _
  rcases hv.unwrap f.shape.unwraps with rfl | hunwrap
  · exact hnone rfl
  by_cases hne : v = .none
  · exact hnone hne
  have hwriter : writer c v .off f.shape = writeAs c (contentOf c v) f.shape.unwrap .off := by
    rw [writer_eq, writeAs_unwrap (by simpa using hne) .off f.shape.unwraps]
  have hkey : ∀ head older args, f.shape.unwrap = .generic head older args →
      keyShape f = args.headD .any := by
    intro head older args hshape
    rw [keyShape, hshape]
  -- from here on only the shape under the outer layers counts
  generalize f.shape.unwrap = s at hholder hunwrap hwriter hmixed hkey
  generalize holding f = held at hholder ⊢
  cases hholder with
  | one =>
    obtain ⟨model, fields, rfl, hfields⟩ := hunwrap.hasFields hname
    rw [writeField_eq rfl, hwriter] at h
    -- the shape has no layers left, so the value is written as the record itself
    have hsole : (Shape.record name).unwrap = .record name := by
      rw [Shape.unwrap] <;> intros <;> contradiction
    have hw := written_of_writer hsole hname hunwrap (by rw [writer_eq]; exact h)
    exact shows_one hw rfl _
  | @sequence head older first rest kind item =>
    cases hunwrap with
    | items hitems each =>
      exact shows_of_items item hname hitems each hwriter h _
    | fixed hlength each =>
      have hargs : ∀ a ∈ first :: rest, a.unwrap = .record name := fun a ha =>
        (hmixed older _ rfl a ha first List.mem_cons_self).trans item
      exact shows_of_fixed hargs hname hlength each hwriter h _
    | entries hentries keys values =>
      rw [Generic.entries?_of_isSequence kind] at hentries
      cases hentries
  | @variadic first item =>
    cases hunwrap with
    | variadic each =>
      exact shows_of_variadic item hname each hwriter h _
  | @map head older key value kind item =>
    cases hunwrap with
    | items hitems each =>
      rw [Generic.items?_of_isMap kind] at hitems
      cases hitems
    | fixed => cases kind
    | entries hentries keys values =>
      exact shows_of_entries item hname (hkey head older _ rfl) hentries values hwriter h _

/-! ### Selecting along a chain -/

/-- The documents that a path takes from those that its name leads to: where the path ends with all
items of an array, the items of each of them. -/
def taken (path : List PathStep) (found : List Json) : List Json :=
  if path.getLast? = some .items then
    found.flatMap fun
      | .array items => items
      | _ => []
  else found

/-- Following a path from several starting points one by one. -/
theorem taken_flatten (path : List PathStep) (found : List (List Json)) :
    taken path found.flatten = found.flatMap (taken path) := by
  unfold taken
  split
  · induction found with
    | nil => rfl
    | cons js found ih =>
      rw [List.flatten_cons, List.flatMap_append, ih, List.flatMap_cons]
  · rw [List.flatMap_id']

/-- Nothing depends on the first link of a chain for what is taken at its end. -/
theorem taken_chainSteps_cons (link : Link) {rest : List Link} (h : rest ≠ []) :
    taken (chainSteps (link :: rest)) = taken (chainSteps rest) := by
  have hne : chainSteps rest ≠ [] := by
    obtain ⟨name, steps, hsteps⟩ := exists_chainSteps_eq_cons h
    rw [hsteps]
    exact List.cons_ne_nil _ _
  funext found
  unfold taken
  rw [chainSteps_cons link h, ← List.cons_append, List.getLast?_append_of_ne_nil _ hne]

/-- The member of a name is the only one that a step of that name selects. -/
theorem children_member {members : List (String × Json)} {key : String}
    (hkeys : (members.map Prod.fst).Nodup) (h : (key, j) ∈ members) :
    (Json.object members).outline.children (.member key) = [j.outline] := by
  rw [Json.outline, Json.memberOutlines_eq_map, Outline.children, List.filter_map]
  have hfilter := Store.filter_of_mem hkeys h
  simp only [Function.comp_def, hfilter, List.map_cons, List.map_nil]

/-- What the end of a path selects in a document: the items of an array where the last field is a
sequence, and otherwise the document itself. -/
theorem select_lastSteps (j : Json) (key : String) :
    j.outline.select (lastSteps f) =
      (taken (.member key :: lastSteps f) [j]).map Json.outline := by
  have hitems : j.outline.select [.items] = (taken [.member key, .items] [j]).map Json.outline := by
    have htaken : taken [.member key, .items] [j] =
        [j].flatMap fun | .array items => items | _ => [] := if_pos rfl
    rw [htaken, Outline.select]
    cases j with
    | array items =>
      rw [Json.outline, Outline.children, Json.outlines_eq_map]
      simp [Outline.select]
    | bool b => cases b <;> rfl
    | _ => rfl
  have hnone : j.outline.select [] = (taken [.member key] [j]).map Json.outline := rfl
  unfold lastSteps
  split
  · split
    · exact hnone
    · exact hitems
  · exact hnone

/-- The documents of the values in a field, searched one by one. -/
theorem exists_founds {steps : List String} {name : String} {path : List PathStep}
    {parts : List Value} {docs : List Json} (hkeys : (inner.fields.map Field.writtenKey).Nodup)
    (hwalk : ∀ fields members, HasFields c inner fields →
      writeFields .off inner (fieldWriters c fields) = some members →
      ∃ found, walk heldBy c steps inner fields = some found ∧
        (Json.object members).outline.select (.member name :: path) =
          (taken (.member name :: path) found).map Json.outline)
    (h : List.Forall₂ (Written c inner) parts docs) :
    ∃ founds, (parts.mapM fun
        | .none => some []
        | .record _ fields => walk heldBy c steps inner fields
        | _ => none) = some founds ∧
      (docs.flatMap fun d => d.outline.select (.member name :: path)) =
        (founds.flatMap (taken (.member name :: path))).map Json.outline := by
  induction h with
  | nil => exact ⟨[], rfl, rfl⟩
  | @cons v d parts docs hd _ ih =>
    obtain ⟨founds, hfounds, hselect⟩ := ih
    cases hd with
    -- neither the walk nor the path finds anything in null
    | none =>
      refine ⟨[] :: founds, by rw [List.mapM_cons, hfounds]; rfl, ?_⟩
      have htaken : taken (.member name :: path) [] = [] := by
        unfold taken
        split <;> rfl
      rw [List.flatMap_cons, List.flatMap_cons, hselect, htaken, Json.outline, select_word]
      rfl
    | @record model fields members valid members_eq =>
      obtain ⟨found, hfound, hsel⟩ := hwalk fields members valid members_eq
      refine ⟨found :: founds, by rw [List.mapM_cons, hfounds]; dsimp only; rw [hfound]; rfl, ?_⟩
      rw [List.flatMap_cons, List.flatMap_cons, hselect, List.map_append, ← hsel,
        Json.mergeMembers_eq_tableOf,
        Store.tableOf_of_nodup (nodup_members hkeys valid.names members_eq)]

/-- The path of a chain selects what its name leads to. -/
theorem IndexedChain.exists_walk {chain : List Link} (hchain : IndexedChain c r chain)
    (h : ∀ N, Relation.ReflTransGen (Nests c) r N → Navigable c N)
    {fields : List (String × Value)} {members : List (String × Json)}
    (hfields : HasFields c r fields)
    (hmembers : writeFields .off r (fieldWriters c fields) = some members) :
    ∃ found, walk heldBy c (chain.map fun link => link.field.name) r fields = some found ∧
      (Json.object members).outline.select (chainSteps chain) =
        (taken (chainSteps chain) found).map Json.outline := by
  -- the last field shows its own document, any other one those of the records in it
  induction hchain generalizing fields members with
  | @last r link declared marked ends =>
    have hr := h r .refl
    have hmem := List.mem_of_getElem? declared
    obtain ⟨v, hv, _⟩ := hfields.given _ hmem
    obtain ⟨j, hj, hmember⟩ := exists_member hr.names hmem hv hmembers
    refine ⟨[j], ?_, ?_⟩
    · rw [List.map_cons, List.map_nil, walk, field?_of_mem hr.names hmem]
      simp only [Option.bind_eq_bind, Option.bind_some, Store.lookup?_of_mem hfields.names hv, hj]
      rfl
    · rw [chainSteps, Outline.select, pathKey_eq_writtenKey (hr.plain _ hmem marked),
        children_member (nodup_members hr.keys hfields.names hmembers) hmember, List.flatMap_cons,
        List.flatMap_nil, List.append_nil]
      exact select_lastSteps j _
  | @cons r inner link rest declared marked held rest_chain ih =>
    have hr := h r .refl
    have hmem := List.mem_of_getElem? declared
    have hnests : Nests c r inner := ⟨_, hmem, marked, held⟩
    obtain ⟨v, hv, hbelongs⟩ := hfields.given _ hmem
    obtain ⟨j, hj, hmember⟩ := exists_member hr.names hmem hv hmembers
    obtain ⟨parts, docs, hparts, hdocs, hselect⟩ :=
      shows_of_writeField (hr.unmixed _ hmem (by rw [held]; rfl)) held hbelongs hj
    obtain ⟨name, path, hpath⟩ := exists_chainSteps_eq_cons rest_chain.ne_nil
    obtain ⟨founds, hfounds, hfound⟩ := exists_founds (h inner (.single hnests)).keys
      (fun fields members hfields hmembers => by
        have := ih (fun N hN => h N (.head hnests hN)) hfields hmembers
        rw [hpath] at this
        exact this) hdocs
    refine ⟨founds.flatten, ?_, ?_⟩
    · obtain ⟨next, rest, rfl⟩ := List.exists_cons_of_ne_nil rest_chain.ne_nil
      rw [List.map_cons] at hfounds
      rw [List.map_cons, List.map_cons, walk, field?_of_mem hr.names hmem]
      simp only [Option.bind_eq_bind, Option.bind_some, Store.lookup?_of_mem hfields.names hv, held,
        hparts, hfounds, Option.pure_def]
    · rw [taken_chainSteps_cons link rest_chain.ne_nil, taken_flatten,
        chainSteps_cons link rest_chain.ne_nil, Outline.select,
        pathKey_eq_writtenKey (hr.plain _ hmem marked),
        children_member (nodup_members hr.keys hfields.names hmembers) hmember, List.flatMap_cons,
        List.flatMap_nil, List.append_nil, hpath, hselect, hfound]

/-- The documents under the path of a chain are those that its dotted name leads to, record by
record and in their order. The induction goes along the chain, with the fields of any record in the
place of the root. -/
theorem select_chain {chain : List Link} (hchain : IndexedChain c r chain)
    (haddr : ∀ N, Relation.ReflTransGen (Nests c) r N → Addressable N)
    {fields : List (String × Value)} {members : List (String × Json)}
    (hfields : HasFields c r fields)
    (h : writeFields .off r (fieldWriters c fields) = some members) :
    ∃ found, walk heldBy c (chain.map fun link => link.field.name) r fields = some found ∧
      (Json.object members).outline.select (chainSteps chain) =
        (taken (chainSteps chain) found).map Json.outline :=
  hchain.exists_walk (fun N hN => (haddr N hN).navigable) hfields h

/-! ### Stored documents -/

/-- The payload that a record is saved as is the text of one object, with the members of its
fields. -/
theorem exists_members_of_recordDocument {type : RecordType} {record : Record} {payload : String}
    (hr : c.find? record.model = some r)
    (h : Service.recordDocument c type record = .ok payload) :
    ∃ members, writeFields .off r (fieldWriters c record.fields) = some members ∧
      payload.toList = (Json.object members).write := by
  unfold Service.recordDocument at h
  split at h
  · next document hdocument =>
    simp only [toJson?, hr, Option.bind_eq_bind, Option.bind_some, Option.bind_eq_some_iff,
      Option.pure_def, Option.some.injEq] at hdocument
    obtain ⟨members, hmembers, rfl⟩ := hdocument
    cases h
    exact ⟨members, hmembers, String.toList_ofList⟩
  · rw [bind_eq_ok_iff] at h
    obtain ⟨_, _, h⟩ := h
    cases h

/-- **Paths and documents agree.** In the stored text of a valid record, the path of each leaf of
its schema selects, in order, the documents of the values that the dotted name of the leaf leads to
in the record; a path that ends with all items of an array selects the items of these documents. -/
theorem select_path_of_leaf {record : Record} {ls : List Leaf} {l : Leaf} {payload : String}
    (hr : c.find? record.model = some r)
    (haddr : ∀ N, Relation.ReflTransGen (Nests c) r N → Addressable N)
    (hvalid : Belongs c (.record record.model) record.toValue) (hcompile : compile c r = .ok ls)
    (hl : l ∈ ls) (hpayload : Service.recordDocument c r record = .ok payload) :
    ∃ steps path document found, l.name = ".".intercalate steps ∧
      PathStep.read? l.path.toList = some path ∧
      Outline.read? payload.toList = some document ∧
      walk heldBy c steps r record.fields = some found ∧
      document.select path = (taken path found).map Json.outline := by
  obtain ⟨chains, henum, hdescribes⟩ :=
    exists_chains_of_leavesWithin (leaves_eq_of_compile_eq_ok hcompile)
  obtain ⟨chain, hmem, hdescribed⟩ := exists_of_mem_left hdescribes.flip hl
  have hchain := (henum.mem_iff chain).mp hmem
  obtain ⟨model, fields, hvalue, hfields⟩ := hvalid.hasFields hr
  obtain ⟨_, rfl⟩ := Value.record.inj hvalue
  obtain ⟨members, hmembers, hpayload⟩ := exists_members_of_recordDocument hr hpayload
  obtain ⟨found, hwalk, hselect⟩ := select_chain hchain haddr hfields hmembers
  refine ⟨_, chainSteps chain, (Json.object members).outline, found, hdescribed.name_eq, ?_, ?_,
    hwalk, hselect⟩
  · rw [hdescribed.path_eq, String.toList_append, chainPath_toList]
    exact PathStep.read?_text (isPlain_of_chain hchain haddr)
  · rw [hpayload, Outline.read?_write]

/-- Notebooks with notes under numbers or texts. -/
def notebooks : Catalogue :=
  (Catalogue.bases.declare
    ⟨"Note", "EmbeddedJsonModel", none, none,
      [indexedField "tags" (.generic .list false [.scalar .text])]⟩).declare
    ⟨"Notebook", "JsonModel", none, none,
      [indexedField "notes" (.generic .map false
        [.union [.scalar .int, .scalar .text], .optional (.record "Note")])]⟩

/-- A note under a number, another one under the text of that number, and a number without one. -/
def notebook : Record :=
  ⟨"Notebook", [("id", .text "a"), ("notes", .map [
    (.int 1, .record "Note" [("tags", .list [.text "old"])]),
    (.text "1", .record "Note" [("tags", .list [.text "new", .text "red"])]),
    (.int 2, .none)])]⟩

theorem note_fields : notebooks.types[3].fields =
    [indexedField "tags" (.generic .list false [.scalar .text])] := rfl

theorem notebook_fields : notebooks.types[4].fields = [
    ⟨"id", .scalar .text, [.primaryKey none], none, none, none, .freshId⟩,
    indexedField "notes" (.generic .map false
      [.union [.scalar .int, .scalar .text], .union [.record "Note", .nullType]])] := rfl

theorem addressable_notebooks : ∀ r ∈ notebooks.types, Addressable r := by
  have htypes : notebooks.types = [.plainBase, .embeddedBase, .persistedBase,
      notebooks.types[3], notebooks.types[4]] := rfl
  rw [htypes]
  simp only [List.forall_mem_cons]
  refine ⟨?_, ?_, ?_, ?_, ?_, nofun⟩
  all_goals refine ⟨by decide, by decide, by decide, ?_⟩
  · nofun
  · nofun
  · simp [RecordType.persistedBase, Shape.unwrap]
  · simp [note_fields, indexedField, Field.declare, Shape.unwrap]
  · simp [notebook_fields, indexedField, Field.declare, Shape.unwrap]

theorem belongs_note {tags : List Value} (h : ∀ v ∈ tags, Belongs notebooks (.scalar .text) v) :
    Belongs notebooks (.record "Note") (.record "Note" [("tags", .list tags)]) := by
  refine HasFields.belongs (r := notebooks.types[3]) rfl (.inl rfl) ⟨by simp, ?_⟩
  rw [note_fields, List.forall_mem_singleton]
  exact ⟨_, List.mem_cons_self, .items rfl h⟩

theorem belongs_notebook : Belongs notebooks (.record "Notebook") notebook.toValue := by
  refine HasFields.belongs (r := notebooks.types[4]) rfl (.inl rfl) ⟨by decide, ?_⟩
  rw [notebook_fields]
  simp only [List.forall_mem_cons]
  refine ⟨⟨_, List.mem_cons_self, .scalar rfl⟩,
    ⟨_, List.mem_cons_of_mem _ List.mem_cons_self, .entries rfl ?_ ?_⟩, nofun⟩
  · simp only [List.forall_mem_cons]
    have hint (n : Int) : Belongs notebooks (.union [.scalar .int, .scalar .text]) (.int n) :=
      .union List.mem_cons_self (.scalar rfl)
    exact ⟨hint 1, .union (List.mem_cons_of_mem _ List.mem_cons_self) (.scalar rfl), hint 2, nofun⟩
  · simp only [List.forall_mem_cons]
    refine ⟨.union List.mem_cons_self (belongs_note ?_),
      .union List.mem_cons_self (belongs_note ?_),
      .union (List.mem_cons_of_mem _ List.mem_cons_self) .nullType, nofun⟩
    · simp only [List.forall_mem_cons]
      exact ⟨.scalar rfl, nofun⟩
    · simp only [List.forall_mem_cons]
      exact ⟨.scalar rfl, .scalar rfl, nofun⟩

theorem compile_notebooks : compile notebooks notebooks.types[4] = .ok [
    ⟨"id", "id", "$.id", .tag, [], false⟩,
    ⟨"notes.tags", "notes__tags", "$.notes.*.tags[*]", .text, [], false⟩] := rfl

theorem toJson?_notebook : toJson? notebooks notebook.model notebook.fields = some (.object
    [("id", .text "a"), ("notes", .object [("1", .object [("tags",
      .array [.text "new", .text "red"])]), ("2", .null)])]) := rfl

theorem select_path_of_leaf_notebook :
    Belongs notebooks (.record "Notebook") notebook.toValue ∧
    ∃ payload, Service.recordDocument notebooks notebooks.types[4] notebook = .ok payload ∧
      ∃ steps path document found,
        "notes.tags" = ".".intercalate steps ∧
        PathStep.read? "$.notes.*.tags[*]".toList = some path ∧
        Outline.read? payload.toList = some document ∧
        walk heldBy notebooks steps notebooks.types[4] notebook.fields = some found ∧
        document.select path = (taken path found).map Json.outline := by
  refine ⟨belongs_notebook, _, rfl, ?_⟩
  exact select_path_of_leaf (r := notebooks.types[4]) rfl
    (fun N hN => forall_of_nests addressable_notebooks (List.getElem_mem _) hN)
    belongs_notebook compile_notebooks (List.mem_of_getElem? (i := 1) rfl) rfl

/-! ### Values that paths miss -/

/-- The path of some leaf does not select all values that the name of the leaf leads to. -/
def Misses (c : Catalogue) (r : RecordType) (record : Record) : Prop :=
  ∃ ls l payload steps path document found,
    compile c r = .ok ls ∧ l ∈ ls ∧ Service.recordDocument c r record = .ok payload ∧
    l.name = ".".intercalate steps ∧ PathStep.read? l.path.toList = some path ∧
    Outline.read? payload.toList = some document ∧
    walk (fun _ v => some (partsOf v)) c steps r record.fields = some found ∧
    document.select path ≠ (taken path found).map Json.outline

theorem misses_of_select_ne {record : Record} {document : Json} {ls : List Leaf} {l : Leaf}
    {steps : List String} {path : List PathStep} {found : List Json}
    (hcompile : compile c r = .ok ls) (hl : l ∈ ls)
    (hdocument : toJson? c record.model record.fields = some document)
    (hname : l.name = ".".intercalate steps) (hpath : PathStep.read? l.path.toList = some path)
    (hwalk : walk (fun _ v => some (partsOf v)) c steps r record.fields = some found)
    (hne : document.outline.select path ≠ (taken path found).map Json.outline) :
    Misses c r record := by
  refine ⟨ls, l, String.ofList document.write, steps, path, document.outline, found, hcompile, hl,
    ?_, hname, hpath, ?_, hwalk, hne⟩
  · rw [Service.recordDocument, hdocument]
    rfl
  · rw [String.toList_ofList, Outline.read?_write]

/-- Two notes are written under one name, so that only the later one is kept. -/
theorem misses_notebook : Misses notebooks notebooks.types[4] notebook := by
  have hname : "notes.tags" = ".".intercalate ["notes", "tags"] := by decide
  have hpath : PathStep.read? "$.notes.*.tags[*]".toList =
      some [.member "notes", .values, .member "tags", .items] := by decide
  have hwalk : walk (fun _ v => some (partsOf v)) notebooks ["notes", "tags"] notebooks.types[4]
      notebook.fields = some [.array [.text "old"], .array [.text "new", .text "red"]] := rfl
  refine misses_of_select_ne compile_notebooks (List.mem_of_getElem? (i := 1) rfl)
    toJson?_notebook hname hpath hwalk fun h => ?_
  exact absurd (congrArg List.length h) (by decide)

/-- Desks with a page of notes, which may be a card with one note in the place of several. -/
def desks : Catalogue :=
  (((Catalogue.bases.declare
    ⟨"Note", "EmbeddedJsonModel", none, none, [indexedField "n" (.scalar .int)]⟩).declare
    ⟨"Page", "EmbeddedJsonModel", none, none,
      [indexedField "notes" (.generic .list false [.record "Note"])]⟩).declare
    ⟨"Card", "Page", none, none, [indexedField "notes" (.record "Note")]⟩).declare
    ⟨"Desk", "JsonModel", none, none, [indexedField "page" (.record "Page")]⟩

/-- A card on a desk. -/
def desk : Record :=
  ⟨"Desk", [("id", .text "a"),
    ("page", .record "Card" [("notes", .record "Note" [("n", .int 1)])])]⟩

/-- A card is a page, but its note is no item of an array. -/
theorem misses_desk : Misses desks desks.types[6] desk := by
  have hcompile : compile desks desks.types[6] = .ok [
      ⟨"id", "id", "$.id", .tag, [], false⟩,
      ⟨"page.notes.n", "page__notes__n", "$.page.notes[*].n", .numeric, [], true⟩] := rfl
  have hdocument : toJson? desks desk.model desk.fields = some (.object
      [("id", .text "a"), ("page", .object [("notes", .object [("n", .int 1)])])]) := rfl
  have hname : "page.notes.n" = ".".intercalate ["page", "notes", "n"] := by decide
  have hpath : PathStep.read? "$.page.notes[*].n".toList =
      some [.member "page", .member "notes", .items, .member "n"] := by decide
  have hwalk : walk (fun _ v => some (partsOf v)) desks ["page", "notes", "n"] desks.types[6]
      desk.fields = some [.int 1] := rfl
  refine misses_of_select_ne hcompile (List.mem_of_getElem? (i := 1) rfl) hdocument hname hpath
    hwalk fun h => ?_
  exact absurd (congrArg List.length h) (by decide)

/-- Not all values of a valid record need to be found: the entries of a map whose keys are written
alike and the fields that a subtype declares anew can escape the paths of a schema. -/
theorem paths_miss_values :
    (Belongs notebooks (.record "Notebook") notebook.toValue ∧
      (∀ r ∈ notebooks.types, Addressable r) ∧ Misses notebooks notebooks.types[4] notebook) ∧
    Misses desks desks.types[6] desk :=
  ⟨⟨belongs_notebook, addressable_notebooks, misses_notebook⟩, misses_desk⟩

end IndexedRecords.Schema
