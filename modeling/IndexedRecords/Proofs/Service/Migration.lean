import IndexedRecords.Proofs.Schema.Clauses
import IndexedRecords.Proofs.Service.Reindexing

/-!
# Migrations

A migration creates the indexes of several record types anew, one after the other. It goes on after
a failure, so that what it leaves is made of what is left after each record type. A record type with
a schema declares one index (`declared?`), and a migration puts the declared indexes into the table
of indexes. Where no command fails, each of them takes the place of the index of its name.

## Main statements

* `endsWith_migrate`: what a migration answers and leaves, in terms of single record types.
* `migrated_eq`: what becomes of a single record type, in terms of the index that it declares.
* `migrate_establishes`: without failures, schemas become indexes, and nothing else changes.
-/

namespace IndexedRecords.Service

open Schema

variable {c : Catalogue} {r : RecordType} {types : List RecordType} {home : Home} {w : World}
  {s : Store} {e : String × StoredIndex}

/-! ### Runs -/

/-- What a migration of several record types gathers, and the indexes it leaves. A fault that is not
one of records and indexes ends it. -/
def migratedEach (c : Catalogue) : Store → List RecordType →
    Except Fault (List String × List Fault) × List (String × StoredIndex)
  | s, [] => (.ok ([], []), s.indexes)
  | s, r :: types =>
    match migrated c s r with
    | (.ok name, indexes) =>
      let (outcome, indexes) := migratedEach c { s with indexes } types
      (outcome.map fun (names, faults) => (name.toList ++ names, faults), indexes)
    | (.error fault, indexes) =>
      if fault.isOwn then
        let (outcome, indexes) := migratedEach c { s with indexes } types
        (outcome.map fun (names, faults) => (names, fault :: faults), indexes)
      else (.error fault, indexes)

variable {s₁ s₂ : Store} {outcome : Except Fault (List String × List Fault)}

/-- A migration that succeeds for a record type goes on with the next ones, and the name of the
index comes first. -/
theorem endsWith_migrateEach_cons_ok {name : Option String}
    (h : EndsWith (migrateOne c r) w (.ok name) s₁)
    (hrest : ∀ w', w'.endpoint = .store s₁ → EndsWith (migrateEach c types) w' outcome s₂) :
    EndsWith (migrateEach c (r :: types)) w
      (outcome.map fun (names, faults) => (name.toList ++ names, faults)) s₂ := by
  rw [migrateEach]
  refine EndsWith.bind (a := .ok name) ?_ fun w' h' => (hrest w' h').map _
  refine EndsWith.bind (a := .ok (.ok name)) (.caught ?_) fun w' h' => .pure h' _
  exact (h.map Except.ok).map Except.ok

/-- A migration goes on after a fault of records and indexes, which comes before the later ones. -/
theorem endsWith_migrateEach_cons_own {fault : Fault}
    (h : EndsWith (migrateOne c r) w (.error fault) s₁) (own : fault.isOwn)
    (hrest : ∀ w', w'.endpoint = .store s₁ → EndsWith (migrateEach c types) w' outcome s₂) :
    EndsWith (migrateEach c (r :: types)) w
      (outcome.map fun (names, faults) => (names, fault :: faults)) s₂ := by
  rw [migrateEach]
  refine EndsWith.bind (a := .error fault) ?_ fun w' h' => (hrest w' h').map _
  refine EndsWith.bind (a := .error (.error fault)) ?_ fun w' h' => .pure h' _
  refine .caught_error ((h.map Except.ok).map Except.ok) fun w' h' => ?_
  rw [if_pos own]
  exact .note_bind h' _ fun w'' h'' => .pure h'' _

/-- A migration stops at any other fault, and what it has gathered is lost. -/
theorem endsWith_migrateEach_cons_error {fault : Fault}
    (h : EndsWith (migrateOne c r) w (.error fault) s₁) (own : ¬ fault.isOwn) :
    EndsWith (migrateEach c (r :: types)) w (.error fault) s₁ := by
  rw [migrateEach]
  refine EndsWith.bind_error (EndsWith.bind_error ?_)
  refine .caught_error ((h.map Except.ok).map Except.ok) fun w' h' => ?_
  rw [if_neg own]
  exact .settled h' (.error fault)

/-- What a migration gathers and leaves can be computed from the store it starts with, since nothing
else in the world matters to it. -/
theorem endsWith_migrateEach (c : Catalogue) (types : List RecordType)
    (h : w.endpoint = .store s) :
    EndsWith (migrateEach c types) w (migratedEach c s types).1
      { s with indexes := (migratedEach c s types).2 } := by
  induction types generalizing w s with
  | nil => exact .pure h ([], [])
  | cons r types ih =>
    have hone := endsWith_migrateOne c r h
    rw [migratedEach]
    cases hmigrated : migrated c s r with
    | mk outcome indexes =>
      rw [hmigrated] at hone
      cases outcome with
      | ok name => exact endsWith_migrateEach_cons_ok hone fun w' h' => ih h'
      | error fault =>
        dsimp only
        by_cases own : fault.isOwn
        · rw [if_pos own]
          exact endsWith_migrateEach_cons_own hone own fun w' h' => ih h'
        · rw [if_neg own]
          exact endsWith_migrateEach_cons_error hone own

/-- How a migration reports what it has gathered: a single fault is reported as itself. -/
def report (names : List String) : List Fault → Except Fault (List String)
  | [] => .ok names
  | [fault] => .error fault
  | faults => .error (.migrationFailed faults)

/-- **Migrations.** What they answer and leave follows from what comes of each record type. -/
theorem endsWith_migrate (c : Catalogue) (types : List RecordType) (h : w.endpoint = .store s) :
    EndsWith (migrate c types) w
      ((migratedEach c s types).1.bind fun (names, faults) => report names faults)
      { s with indexes := (migratedEach c s types).2 } := by
  have heach := endsWith_migrateEach c types h
  rw [migrate]
  cases hmigrated : (migratedEach c s types).1 with
  | error fault =>
    rw [hmigrated] at heach
    exact heach.bind_error
  | ok gathered =>
    obtain ⟨names, faults⟩ := gathered
    rw [hmigrated] at heach
    refine heach.bind fun w' h' => ?_
    match faults with
    | [] => exact .pure h' names
    | [fault] => exact .settled h' (.error fault)
    | fault₁ :: fault₂ :: faults => exact .settled h' (.error _)

/-- What a migration of one record type answers, and what it leaves. -/
theorem endsWith_migrate_single (c : Catalogue) (r : RecordType) (h : w.endpoint = .store s) :
    EndsWith (migrate c [r]) w ((migrated c s r).1.map Option.toList)
      { s with indexes := (migrated c s r).2 } := by
  have hone := endsWith_migrate c [r] h
  rw [migratedEach] at hone
  cases hmigrated : migrated c s r with
  | mk outcome indexes =>
    rw [hmigrated] at hone
    cases outcome with
    | ok name =>
      change EndsWith _ w (.ok (name.toList ++ [])) _ at hone
      rwa [List.append_nil] at hone
    | error fault =>
      dsimp only at hone
      split at hone <;> exact hone

/-! ### Declarations -/

/-- The index that the schema of a record type declares, under its name, if there is anything to
declare. -/
def declared? (c : Catalogue) (r : RecordType) : Option (String × StoredIndex) :=
  if r.lineage ≠ .persisted then none
  else
    match compile c r, r.home with
    | .ok (l :: leaves), some home =>
      some (home.indexName, ⟨home.keyPrefix ++ ":", (l :: leaves).map Leaf.stored⟩)
    | _, _ => none

/-- The name of the index that a record type declares. -/
def indexName? (c : Catalogue) (r : RecordType) : Option String := (declared? c r).map Prod.fst

/-- What is wrong with the schema of a record type, if anything is. -/
def schemaFault? (c : Catalogue) (r : RecordType) : Option Fault :=
  if r.lineage ≠ .persisted then none
  else
    match compile c r with
    | .error fault => some (.schema fault)
    | .ok _ => none

/-- A record type that is persisted has a home, and options that are not taken for paths. -/
structure IsMigratable (c : Catalogue) (r : RecordType) : Prop where
  home : r.lineage = .persisted → r.home.isSome
  plain : r.lineage = .persisted → HasPlainMetrics c r

/-- What putting an entry anew into the table of indexes answers, and the indexes it leaves. -/
def renewed (s : Store) (e : String × StoredIndex) :
    Except Fault (Option String) × List (String × StoredIndex) :=
  match dropped s e.1 with
  | (.error fault, indexes) => (.error fault, indexes)
  | (.ok _, indexes) =>
    match refusal? s "FT.CREATE" with
    | some refusal => (.error (refusedAs (.indexFailed e.1 "FT.CREATE") refusal), indexes)
    | none => (.ok (some e.1), indexes ++ [e])

/-- Creating the index of a schema anew puts the stored form of its leaves into the table of
indexes. -/
theorem recreated_eq {leaves : List Leaf} (plain : HasPlainMetrics c r)
    (hcompile : compile c r = .ok leaves) (s : Store) (home : Home) :
    recreated s home leaves =
      renewed s (home.indexName, ⟨home.keyPrefix ++ ":", leaves.map Leaf.stored⟩) := by
  have hread : Store.readClauses [] none (leaves.flatMap Leaf.clause) =
      .ok (leaves.map Leaf.stored) := by
    refine Store.readClauses_clauses fun l hl => ⟨head?_path_of_compile hcompile hl, ?_⟩
    exact fun o ho => head?_ne_of_mem_options plain hcompile hl ho
  rw [recreated, renewed]
  dsimp only
  cases dropped s home.indexName with
  | mk outcome indexes =>
    cases outcome with
    | error fault => rfl
    | ok found =>
      dsimp only
      rw [created, hread]
      rfl

/-- **One record type.** It is left out, or its schema is at fault, or the index that it declares is
put anew into the table. -/
theorem migrated_eq (h : IsMigratable c r) (s : Store) :
    migrated c s r =
      match schemaFault? c r, declared? c r with
      | some fault, _ => (.error fault, s.indexes)
      | none, none => (.ok none, s.indexes)
      | none, some e => renewed s e := by
  rw [migrated, schemaFault?, declared?]
  by_cases skipped : r.lineage ≠ .persisted
  · rw [if_pos skipped, if_pos skipped, if_pos skipped]
  · rw [if_neg skipped, if_neg skipped, if_neg skipped]
    have persisted := not_not.mp skipped
    obtain ⟨home, hhome⟩ := Option.isSome_iff_exists.mp (h.home persisted)
    rw [hhome]
    cases hcompile : compile c r with
    | error fault => rfl
    | ok leaves =>
      cases leaves with
      | nil => rfl
      | cons l leaves => exact recreated_eq (h.plain persisted) hcompile s home

/-- A persisted record type with leaves declares an index of them. -/
theorem declared?_eq {leaves : List Leaf} (persisted : r.lineage = .persisted)
    (hhome : r.home = some home) (hcompile : compile c r = .ok leaves) (hleaves : leaves ≠ []) :
    declared? c r = some (home.indexName, ⟨home.keyPrefix ++ ":", leaves.map Leaf.stored⟩) := by
  rw [declared?, if_neg (not_not.mpr persisted), hcompile, hhome]
  cases leaves with
  | nil => exact absurd rfl hleaves
  | cons l leaves => rfl

/-- A record type that declares an index is persisted, and it has leaves. -/
theorem exists_of_declared? (h : declared? c r = some e) :
    r.lineage = .persisted ∧ r.home.map Home.indexName = some e.1 ∧
      ∃ leaves, compile c r = .ok leaves ∧ leaves ≠ [] := by
  rw [declared?] at h
  split at h
  · cases h
  · next persisted =>
    split at h
    · next hcompile hhome =>
      cases h
      exact ⟨not_not.mp persisted, by rw [hhome]; rfl, _, hcompile, List.cons_ne_nil _ _⟩
    · cases h

/-- Nothing is wrong with the schema of a record type that declares an index. -/
theorem schemaFault?_of_declared? (h : declared? c r = some e) : schemaFault? c r = none := by
  obtain ⟨persisted, -, leaves, hcompile, -⟩ := exists_of_declared? h
  rw [schemaFault?, if_neg (not_not.mpr persisted), hcompile]

/-- What is wrong with a schema does not end a migration. -/
theorem isOwn_of_schemaFault? {fault : Fault} (h : schemaFault? c r = some fault) :
    fault.isOwn := by
  rw [schemaFault?] at h
  split at h
  · cases h
  · split at h
    · cases h
      rfl
    · cases h

/-- A record type that declares no index changes none, and adds the fault of its schema if there is
one. -/
theorem migratedEach_cons_of_none (hr : IsMigratable c r) (hdeclared : declared? c r = none)
    (s : Store) (types : List RecordType) :
    migratedEach c s (r :: types) =
      ((migratedEach c s types).1.map fun (names, faults) =>
        (names, (schemaFault? c r).toList ++ faults), (migratedEach c s types).2) := by
  rw [migratedEach, migrated_eq hr, hdeclared]
  cases hfault : schemaFault? c r with
  | none => rfl
  | some fault =>
    dsimp only
    rw [if_pos (isOwn_of_schemaFault? hfault)]
    rfl

/-! ### Stores without failures -/

/-- A store without failures refuses no command. -/
theorem refusal?_eq_none (h : s.failures = []) (command : String) : refusal? s command = none := by
  rw [refusal?, h]
  rfl

/-- Without failures, a new index takes the place of an old one of its name. -/
theorem renewed_of_failures (h : s.failures = []) (e : String × StoredIndex) :
    renewed s e = (.ok (some e.1), Store.replace s.indexes e) := by
  have hdropped : dropped s e.1 =
      (.ok (Store.hasKey s.indexes e.1), Store.erase e.1 s.indexes) := by
    rw [dropped, refusal?_eq_none h, refusal?_eq_none h, ite_self]
  rw [renewed, hdropped, refusal?_eq_none h]
  rfl

/-- Without failures, a migration creates all declared indexes and gathers the faults of all
schemas, each in the order of the record types. -/
theorem migratedEach_of_failures (h : s.failures = []) (hm : ∀ r ∈ types, IsMigratable c r) :
    migratedEach c s types =
      (.ok (types.filterMap (indexName? c), types.filterMap (schemaFault? c)),
        (types.filterMap (declared? c)).foldl Store.replace s.indexes) := by
  induction types generalizing s with
  | nil => rfl
  | cons r types ih =>
    obtain ⟨hr, htypes⟩ := List.forall_mem_cons.mp hm
    cases hdeclared : declared? c r with
    | some e =>
      have hname : indexName? c r = some e.1 := by rw [indexName?, hdeclared]; rfl
      have hfault := schemaFault?_of_declared? hdeclared
      -- the rest of the migration finds the index of this record type in the table
      have hrest := ih (s := { s with indexes := Store.replace s.indexes e }) h htypes
      rw [migratedEach, migrated_eq hr, hfault, hdeclared]
      dsimp only
      rw [renewed_of_failures h]
      dsimp only
      rw [hrest, List.filterMap_cons_some hname, List.filterMap_cons_some hdeclared,
        List.filterMap_cons_none hfault]
      rfl
    | none =>
      have hname : indexName? c r = none := by rw [indexName?, hdeclared]; rfl
      rw [migratedEach_cons_of_none hr hdeclared, ih h htypes, List.filterMap_cons_none hname,
        List.filterMap_cons_none hdeclared]
      cases hfault : schemaFault? c r with
      | none => rw [List.filterMap_cons_none hfault]; rfl
      | some fault => rw [List.filterMap_cons_some hfault]; rfl

/-- Persisted record types with one name of their indexes are the same. -/
def HasOwnIndexes (types : List RecordType) : Prop :=
  ∀ r ∈ types, ∀ r' ∈ types, r.lineage = .persisted → r'.lineage = .persisted →
    r.home.map Home.indexName = r'.home.map Home.indexName → r = r'

/-- Record types whose index names are all different have indexes of their own. -/
theorem hasOwnIndexes_of_nodup (h : ((types.filter fun r => r.lineage = .persisted).map
    fun r => r.home.map Home.indexName).Nodup) : HasOwnIndexes types := by
  intro r hr r' hr' persisted persisted' hname
  refine List.inj_on_of_nodup_map h ?_ ?_ hname
  · exact List.mem_filter.mpr ⟨hr, decide_eq_true persisted⟩
  · exact List.mem_filter.mpr ⟨hr', decide_eq_true persisted'⟩

/-- What a migration of record types makes of a store. -/
structure IsEstablished (c : Catalogue) (types : List RecordType) (s s' : Store) : Prop where
  documents : s'.documents = s.documents
  /-- a schema becomes an index -/
  declared : ∀ r ∈ types, r.lineage = .persisted → ∀ home, r.home = some home →
    ∀ leaves, compile c r = .ok leaves → leaves ≠ [] →
      Store.lookup? s'.indexes home.indexName =
        some ⟨home.keyPrefix ++ ":", leaves.map Leaf.stored⟩
  /-- a record type without a schema keeps the index that it has -/
  kept : ∀ r ∈ types, r.lineage = .persisted → ∀ home, r.home = some home →
    (∀ leaves, compile c r = .ok leaves → leaves = []) →
      Store.lookup? s'.indexes home.indexName = Store.lookup? s.indexes home.indexName
  /-- all other indexes stay as they are, and in their order -/
  others : (s'.indexes.filter fun e => e.1 ∉ types.filterMap (indexName? c)) =
    s.indexes.filter fun e => e.1 ∉ types.filterMap (indexName? c)

/-- The names of declared indexes are the names that a migration reports. -/
theorem map_fst_declared? (c : Catalogue) (types : List RecordType) :
    (types.filterMap (declared? c)).map Prod.fst = types.filterMap (indexName? c) :=
  List.map_filterMap

/-- In place of the indexes of their names, a table takes the indexes that record types declare. -/
theorem isEstablished_replace (own : HasOwnIndexes types) (s : Store) :
    IsEstablished c types s { s with
      indexes := (types.filterMap (declared? c)).foldl Store.replace s.indexes } where
  documents := rfl
  declared := by
    intro r hr persisted home hhome leaves hcompile hleaves
    have hdeclared := declared?_eq persisted hhome hcompile hleaves
    refine Store.lookup?_foldl_replace_of_mem (List.mem_filterMap.mpr ⟨r, hr, hdeclared⟩) ?_ _
    -- whichever record type declares an index of this name, it is the same one
    intro e he hname
    obtain ⟨r', hr', hdeclared'⟩ := List.mem_filterMap.mp he
    obtain ⟨persisted', hname', -⟩ := exists_of_declared? hdeclared'
    have hsame : r' = r := own r' hr' r hr persisted' persisted (by rw [hname', hname, hhome]; rfl)
    rw [hsame, hdeclared] at hdeclared'
    exact (Option.some.inj hdeclared').symm
  kept := by
    intro r hr persisted home hhome hnone
    refine Store.lookup?_foldl_replace_of_notMem (fun hmem => ?_) _
    obtain ⟨e, he, hname⟩ := List.mem_map.mp hmem
    obtain ⟨r', hr', hdeclared⟩ := List.mem_filterMap.mp he
    obtain ⟨persisted', hname', leaves, hcompile, hleaves⟩ := exists_of_declared? hdeclared
    have hsame : r' = r := own r' hr' r hr persisted' persisted (by rw [hname', hname, hhome]; rfl)
    exact hleaves (hnone leaves (hsame ▸ hcompile))
  others := by
    rw [← map_fst_declared?]
    exact Store.filter_foldl_replace _ _

/-- **Migrations without failures.** They make indexes of schemas, leave everything else as it is,
and report the names of the indexes in order or the faults of schemas in order. -/
theorem migrate_establishes (h : Serves w s) (hm : ∀ r ∈ types, IsMigratable c r)
    (own : HasOwnIndexes types) :
    ∃ w' s', migrate c types w = (report (types.filterMap (indexName? c))
        (types.filterMap (schemaFault? c)), w') ∧ Serves w' s' ∧ IsEstablished c types s s' := by
  obtain ⟨w', hrun, hstore⟩ := endsWith_migrate c types h.store
  rw [migratedEach_of_failures h.failures hm] at hrun hstore
  exact ⟨w', _, hrun, ⟨hstore, h.failures⟩, isEstablished_replace own s⟩

/-- Books, and record types without a schema: one that is embedded, one whose schema is at fault and
one that has nothing to index. -/
def library : Catalogue :=
  (((Catalogue.bases.declare
    ⟨"Shelf", "EmbeddedJsonModel", none, none, [indexedField "code" (.scalar .text)]⟩).declare
    ⟨"Book", "JsonModel", none, none,
      [.declare "pages" (.scalar .int) [.index none true none "COSINE"] none none none .required,
        .declare "cover" (.generic .list false [.scalar .float])
          [.index (some (.known .vector)) false (some ⟨2, by decide⟩) "l2"] none none none
          .required,
        indexedField "shelf" (.record "Shelf")]⟩).declare
    ⟨"Tally", "JsonModel", none, none,
      [indexedField "counts" (.generic .map false [.scalar .text, .scalar .int])]⟩).declare
    ⟨"Draft", "JsonModel", none, none,
      [.declare "id" (.scalar .text) [] none none none .freshId]⟩

/-- A store with an index of books that is out of date. -/
def stock : Store :=
  { Store.empty with
    documents := [("book:a", "null")]
    indexes := [("idx:Tally", ⟨"tally:", []⟩), ("idx:Book", ⟨"book:", []⟩)] }

theorem compile_library : compile library library.types[4] = .ok [
    ⟨"id", "id", "$.id", .tag, [], false⟩,
    ⟨"pages", "pages", "$.pages", .numeric, ["SORTABLE"], true⟩,
    ⟨"cover", "cover", "$.cover", .vector,
      ["FLAT", "6", "TYPE", "FLOAT32", "DIM", "2", "DISTANCE_METRIC", "L2"], false⟩,
    ⟨"shelf.code", "shelf__code", "$.shelf.code", .text, [], false⟩] := rfl

theorem isMigratable_library : ∀ r ∈ library.types.drop 3, IsMigratable library r := by
  have hmarkers : ∀ r ∈ library.types, ∀ f ∈ r.fields, ∀ m ∈ f.markers, ∀ metric ∈ metric? m,
      metric.toList.head? ≠ some '$' := by decide
  have hhome : ∀ r ∈ library.types.drop 3, r.lineage = .persisted → r.home.isSome := by decide
  exact fun r hr => ⟨hhome r hr, fun _ => hasPlainMetrics_of_markers hmarkers
    (List.mem_of_mem_drop hr)⟩

theorem migrate_establishes_library :
    ∃ w' s', migrate library (library.types.drop 3) ⟨.store stock, [], [], 0⟩ =
        (.error (.schema (.scalarMap "Tally" "counts")), w') ∧ Serves w' s' ∧
      IsEstablished library (library.types.drop 3) stock s' :=
  migrate_establishes ⟨rfl, rfl⟩ isMigratable_library (hasOwnIndexes_of_nodup (by decide))

end IndexedRecords.Service
