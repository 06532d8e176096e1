import IndexedRecords.Proofs.Number.WholeFloat
import IndexedRecords.Proofs.Service.Attributes
import IndexedRecords.Proofs.Service.Migration

/-!
# Inspections

A store tells what an index is in flat arrays that alternate between names and values. The words
about an attribute are its path, its alias and its type, each after its name, and the word
`SORTABLE` where the attribute has this option. These words are read back as the attribute, whatever
its path and its alias are, since a value is never taken for a name.

## Main statements

* `endsWith_inspect`: an index that is in the store is inspected as it is.
* `inspect_migrate`: after a migration, the index of a record type is inspected as its schema.
-/

namespace IndexedRecords.Service

open Schema

variable {c : Catalogue} {r : RecordType} {home : Home} {w : World} {s : Store}

/-! ### Attributes -/

/-- What is to be read about an attribute. -/
def reported (a : StoredAttribute) : AttributeInfo :=
  ⟨a.path, a.queryAlias, a.type, a.options.contains "SORTABLE"⟩

/-- The words that a store says about an attribute. -/
def wordsOf (a : StoredAttribute) : List String :=
  ["identifier", a.path, "attribute", a.queryAlias, "type", a.type] ++
    if a.options.contains "SORTABLE" then ["SORTABLE"] else []

/-- What a store says about an attribute is a flat list of words. -/
theorem attributeInfo_eq (a : StoredAttribute) :
    Store.attributeInfo a = .list ((wordsOf a).map .text) := by
  rw [Store.attributeInfo, wordsOf]
  cases a.options.contains "SORTABLE" <;> rfl

/-- The groups of the words that a store says about an attribute. -/
def groupsOf (a : StoredAttribute) : List WordGroup :=
  [.option "identifier" a.path (by decide), .option "attribute" a.queryAlias (by decide),
      .option "type" a.type (by decide)] ++
    if a.options.contains "SORTABLE" then [.flag "SORTABLE" (by decide)] else []

/-- The words about an attribute fall into groups, an option with its value or a flag by itself. -/
theorem words_groupsOf (a : StoredAttribute) :
    (groupsOf a).flatMap WordGroup.words = wordsOf a := by
  rw [groupsOf, wordsOf]
  cases a.options.contains "SORTABLE" <;> rfl

/-- **Attributes.** What a store says about an attribute is read back. -/
theorem attributeOfWords_wordsOf (a : StoredAttribute) :
    attributeOfWords (wordsOf a) = reported a := by
  rw [← words_groupsOf, attributeOfWords_words, groupsOf, reported]
  cases a.options.contains "SORTABLE" <;> rfl

/-- What a store says about the attributes of an index is read back as these attributes, one for
each leaf of the schema. -/
theorem readAttributes_attributeInfo (attributes : List StoredAttribute) :
    readAttributes (.list (attributes.map Store.attributeInfo)) =
      .ok (attributes.map reported) := by
  change (attributes.map Store.attributeInfo).mapM (fun item => do
    return attributeOfWords (← readTexts item)) = .ok (attributes.map reported)
  rw [List.mapM_map]
  refine Traversal.mapM_eq_ok_map fun a _ => ?_
  have hwords : readTexts (.list ((wordsOf a).map .text)) = .ok (wordsOf a) :=
    (readTexts_map id (wordsOf a)).trans (congrArg Except.ok (List.map_id _))
  change (do return attributeOfWords (← readTexts (Store.attributeInfo a))) = _
  rw [attributeInfo_eq, hwords]
  exact congrArg Except.ok (attributeOfWords_wordsOf a)

/-! ### Counts -/

theorem toFloat_text {s : String} {x : Binary64} (h : Numeral.readFloat s.toList = some x) :
    Value.toFloat (.text s) = .ok x := by
  change Value.floatOfText _ s.toList = _
  rw [Value.floatOfText, h]

/-- A floating number that is not negative counts as its whole part. -/
theorem toInt_finite (units : Nat) :
    Value.toInt (.float (.finite false units)) = .ok (units / Binary64.one : Nat) := rfl

theorem readCount_text {s : String} {x : Binary64} (h : Value.toFloat (.text s) = .ok x) :
    readCount (.text s) = (Value.float x).toInt := by
  change (do (Value.float (← Value.toFloat (.text s))).toInt) = _
  rw [h]
  rfl

/-- The digits of a number below `2⁵³` are read as this number. -/
theorem readCount_toDigits {n : Nat} (hn : n < 2 ^ 53) :
    readCount (.text (String.ofList (Nat.toDigits 10 n))) = .ok n := by
  have hfloat : Value.toFloat (.text (String.ofList (Nat.toDigits 10 n))) =
      .ok (.finite false (n * Binary64.one)) := by
    refine toFloat_text ?_
    rw [String.toList_ofList, Numeral.readFloat_toDigits, Binary64.ofScientific_whole hn]
  rw [readCount_text hfloat, toInt_finite, Nat.mul_div_cancel _ Binary64.one_pos]

/-! ### Indexes -/

/-- Names and values in turn. -/
def flat (pairs : List (String × Value)) : List Value :=
  pairs.flatMap fun p => [.text p.1, p.2]

theorem length_flat (pairs : List (String × Value)) : (flat pairs).length = 2 * pairs.length := by
  induction pairs with
  | nil => rfl
  | cons p pairs ih =>
    rw [flat, List.flatMap_cons, List.length_append, ← flat, ih, List.length_cons]
    simp only [List.length_cons, List.length_nil]
    omega

/-- Names and values in turn are read back as pairs. -/
theorem pairUp_flat (pairs : List (String × Value)) : pairUp (flat pairs) = .ok pairs := by
  induction pairs with
  | nil => rfl
  | cons p pairs ih =>
    change (do
      let name ← (Value.text p.1).asText
      return (name, p.2) :: (← pairUp (flat pairs))) = _
    rw [ih]
    rfl

/-- Names and values in turn are read as pairs. -/
theorem readPairs_flat (pairs : List (String × Value)) :
    readPairs (.list (flat pairs)) = .ok pairs := by
  have heven : (flat pairs).length % 2 = 0 := by rw [length_flat, Nat.mul_mod_right]
  change (if (flat pairs).length % 2 = 0 then liftM (pairUp (flat pairs)) else _) = _
  rw [if_pos heven, pairUp_flat]
  rfl

/-- What a store says about the keys of an index. -/
def definitionPairs (index : StoredIndex) : List (String × Value) :=
  [("key_type", .text "JSON"), ("prefixes", .list [.text index.keyPrefix]),
    ("default_score", .text "1")]

/-- What a store says about an index. -/
def infoPairs (name : String) (index : StoredIndex) (count : Value) : List (String × Value) :=
  [("index_name", .text name), ("index_options", .list []),
    ("index_definition", .list (flat (definitionPairs index))),
    ("attributes", .list (index.attributes.map Store.attributeInfo)), ("num_docs", count)]

/-- What a store says about an index is read back as its name, its prefix, its attributes and its
number of documents. -/
theorem readInfo_infoPairs (name : String) (index : StoredIndex) {count : Value} {documents : Int}
    (hcount : readCount count = .ok documents) :
    readInfo name (.list (flat (infoPairs name index count))) =
      .ok ⟨name, some "JSON", [index.keyPrefix], index.attributes.map reported, documents⟩ := by
  have hattributes : lastValue? (infoPairs name index count) "attributes" =
      some (.list (index.attributes.map Store.attributeInfo)) := rfl
  have hdocuments : lastValue? (infoPairs name index count) "num_docs" = some count := rfl
  rw [readInfo]
  simp only [Traversal.bind_eq_ok_iff]
  refine ⟨_, readPairs_flat _, _, readPairs_flat (definitionPairs index), name, rfl, some "JSON",
    rfl, [index.keyPrefix], rfl, _, ?_, documents, ?_, rfl⟩
  · rw [hattributes, Option.getD_some, readAttributes_attributeInfo]
    rfl
  · rw [hdocuments, Option.getD_some, hcount]
    rfl

/-- A store answers with what it knows about an index, and with the number of documents under its
prefix. -/
theorem answer_info {name : String} {index : StoredIndex}
    (hindex : Store.lookup? s.indexes name = some index) :
    s.answer [.text "FT.INFO", .text name] = (.ok (.list (flat (infoPairs name index
      (.text (String.ofList (Nat.toDigits 10 (s.keysUnder index.keyPrefix).length)))))), s) := by
  rw [Store.answer, Store.indexInfo, hindex]
  rfl

/-- **Inspections.** An index of a store is inspected as it is. -/
theorem endsWith_inspect {name : String} {index : StoredIndex} (h : w.endpoint = .store s)
    (hinfo : refusal? s "FT.INFO" = none) (hindex : Store.lookup? s.indexes name = some index)
    (small : s.documents.length < 2 ^ 53) :
    EndsWith (inspect name) w (.ok ⟨name, some "JSON", [index.keyPrefix],
      index.attributes.map reported, (s.keysUnder index.keyPrefix).length⟩) s := by
  have hlength : (s.keysUnder index.keyPrefix).length < 2 ^ 53 := by
    refine Nat.lt_of_le_of_lt (List.length_filter_le _ _) ?_
    rwa [List.length_map]
  refine (endsWith_executeFor_of_answer h rfl hinfo _ (answer_info hindex)).bind fun w' h' => ?_
  rw [readInfo_infoPairs name index (readCount_toDigits hlength)]
  exact .settled h' (.ok _)

/-! ### After a migration -/

/-- What is to be read about a leaf. -/
def leafInfo (l : Leaf) : AttributeInfo :=
  ⟨l.path, l.queryAlias, l.type.keyword, l.options.contains "SORTABLE"⟩

/-- The number of documents under the keys of a record type. -/
def documentCount (s : Store) (home : Home) : Nat :=
  s.documents.countP fun e => (home.keyPrefix ++ ":").toList.isPrefixOf e.1.toList

/-- The documents under the prefix of an index are those of the record type. -/
theorem length_keysUnder (s : Store) (home : Home) :
    (s.keysUnder (home.keyPrefix ++ ":")).length = documentCount s home := by
  rw [Store.keysUnder, ← List.countP_eq_length_filter, List.countP_map]
  rfl

/-- **Inspections after migrations.** The index of a migrated record type is inspected as the schema
of the record type: each leaf is there under its alias, whatever its path and its alias are. -/
theorem inspect_migrate {leaves : List Leaf} (h : Serves w s) (persisted : r.lineage = .persisted)
    (hhome : r.home = some home) (plain : HasPlainMetrics c r) (hcompile : compile c r = .ok leaves)
    (hleaves : leaves ≠ []) (small : s.documents.length < 2 ^ 53) :
    ∃ w₁ w₂ info, migrate c [r] w = (.ok [home.indexName], w₁) ∧
      inspect home.indexName w₁ = (.ok info, w₂) ∧
      info = ⟨home.indexName, some "JSON", [home.keyPrefix ++ ":"], leaves.map leafInfo,
        documentCount s home⟩ ∧
      ∀ l ∈ leaves, info.find? l.queryAlias = some (leafInfo l) := by
  have hm : IsMigratable c r := ⟨fun _ => by rw [hhome]; rfl, fun _ => plain⟩
  have hdeclared := declared?_eq persisted hhome hcompile hleaves
  have hmigrated : migrated c s r = (.ok (some home.indexName), Store.replace s.indexes
      (home.indexName, ⟨home.keyPrefix ++ ":", leaves.map Leaf.stored⟩)) := by
    rw [migrated_eq hm, schemaFault?_of_declared? hdeclared, hdeclared]
    exact renewed_of_failures h.failures _
  obtain ⟨w₁, hrun₁, hstore₁⟩ := endsWith_migrate_single c r h.store
  rw [hmigrated] at hrun₁ hstore₁
  -- what the migration has left under the name of the index is what the inspection finds
  have hindex := (Store.lookup?_replace s.indexes
    (home.indexName, ⟨home.keyPrefix ++ ":", leaves.map Leaf.stored⟩) home.indexName).trans
    (if_pos rfl)
  obtain ⟨w₂, hrun₂, -⟩ :=
    endsWith_inspect hstore₁ (refusal?_eq_none h.failures "FT.INFO") hindex small
  have hattributes : (leaves.map Leaf.stored).map reported = leaves.map leafInfo := List.map_map
  have hcount : (s.keysUnder (home.keyPrefix ++ ":")).length = documentCount s home :=
    length_keysUnder s home
  refine ⟨w₁, w₂, _, hrun₁, ?_, rfl, fun l hl => ?_⟩
  · rw [hrun₂, ← hattributes, ← hcount]
    rfl
  · have haliases : ((leaves.map leafInfo).map AttributeInfo.queryAlias).Nodup := by
      rw [List.map_map]
      exact nodup_aliases_of_compile hcompile
    exact find?_of_mem haliases (List.mem_map_of_mem hl)

/-- The index of books, and the attribute of the shelf codes in it. -/
theorem inspect_migrate_library :
    ∃ w₁ w₂ info, migrate library [library.types[4]] ⟨.store stock, [], [], 0⟩ =
        (.ok ["idx:Book"], w₁) ∧
      inspect "idx:Book" w₁ = (.ok info, w₂) ∧ info.prefixes = ["book:"] ∧ info.documents = 1 ∧
      info.attributes.map AttributeInfo.sortable = [false, true, false, false] ∧
      info.find? "shelf__code" = some ⟨"$.shelf.code", "shelf__code", "TEXT", false⟩ := by
  have hserves : Serves ⟨.store stock, [], [], 0⟩ stock := ⟨rfl, rfl⟩
  have hhome : library.types[4].home = some ⟨"book", "idx:Book"⟩ := rfl
  have hm := isMigratable_library library.types[4] (List.mem_of_getElem? (i := 1) rfl)
  obtain ⟨w₁, w₂, info, hmigrate, hinspect, rfl, hfind⟩ :=
    inspect_migrate hserves rfl hhome (hm.plain rfl) compile_library (by decide) (by decide)
  exact ⟨w₁, w₂, _, hmigrate, hinspect, rfl, by decide, rfl,
    hfind _ (List.mem_of_getElem? (i := 3) rfl)⟩

end IndexedRecords.Service
