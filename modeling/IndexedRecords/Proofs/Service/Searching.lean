import IndexedRecords.Proofs.Service.Paging
import IndexedRecords.Proofs.Service.Rows
import IndexedRecords.Service.Searching

/-!
# Paging through searches

A search finds the documents under the prefix of its index, in the order of the store. Its window is
a part of them, so that windows of one size, one after the other, hold each document once. The
number of all documents leads every reply, whatever the window is.

## Main statements

* `acts_find`: the records in the window of a search.
* `acts_count`: the number of all records, for any predicate, window and order.
* `pages_of_searches`: the pages of a search for all records, its count and its first ten records.
-/

namespace IndexedRecords

/-! ### Windows of a store -/

namespace Store

variable {p : String} {s : Store} {index : StoredIndex}

/-- The keys under a prefix are those of the identifiers on its shelf. -/
theorem keysUnder_eq (p : String) (s : Store) :
    s.keysUnder (p ++ ":") = (shelfOf p s.documents).map fun e => keyOf p e.1 := by
  have hlead : (p ++ ":").toList = p.toList ++ [':'] := String.toList_append
  rw [← filter_keys, keysUnder]
  refine List.filter_congr fun key _ => ?_
  rw [hlead, isSome_idUnder?]

/-- The row of a document in a search reply: its key, and its text beside the name `$`. -/
def rowOf (p : String) (e : String × String) : Value × Value :=
  (.text (keyOf p e.1), .list [.text "$", .text e.2])

/-- A search on the index of a prefix finds the documents on its shelf, as far as they lie in its
window. -/
theorem answer_search {name : String} (hindex : lookup? s.indexes name = some index)
    (hlead : index.keyPrefix = p ++ ":") (hnodup : (s.documents.map Prod.fst).Nodup)
    (query : String) {args : List Argument} {offset count : Nat}
    (hwindow : searchWindow args = .ok ((offset : Int), (count : Int))) :
    s.answer (.text "FT.SEARCH" :: .text name :: .text query :: args) =
      (.ok (.list (.int (shelfOf p s.documents).length ::
        inTurn ((((shelfOf p s.documents).drop offset).take count).map (rowOf p)))), s) := by
  have hrow : ∀ e ∈ ((shelfOf p s.documents).drop offset).take count,
      [Value.text (keyOf p e.1), .list [.text "$",
        .text ((lookup? s.documents (keyOf p e.1)).getD "")]] = [(rowOf p e).1, (rowOf p e).2] := by
    intro e he
    have hmem : e ∈ shelfOf p s.documents := List.mem_of_mem_drop (List.mem_of_mem_take he)
    have hlookup : lookup? (shelfOf p s.documents) e.1 = some e.2 :=
      lookup?_of_mem (nodup_shelfOf p hnodup) hmem
    rw [← lookup?_shelfOf, hlookup, Option.getD_some, rowOf]
  rw [Store.answer, search, hindex]
  dsimp only
  rw [hwindow, hlead, keysUnder_eq]
  dsimp only
  rw [slice_eq, List.length_map, ← List.map_drop, ← List.map_take, List.flatMap_map,
    List.flatMap_congr hrow, inTurn, List.flatMap_map]

end Store

namespace Service

variable {c : Catalogue} {type : RecordType} {home : Home} {w : World} {s : Store}
  {index : StoredIndex} {records : List Value} {p : String}

/-! ### Decoding rows -/

/-- The records in several documents, and the number of identifiers that have been made by then. The
first document that is no record ends it. -/
def decodedAll (c : Catalogue) (type : RecordType) (keyPrefix : String) :
    List (String × String) → Nat → Except Fault (List Value) × Nat
  | [], made => (.ok [], made)
  | e :: documents, made =>
    match decoded c type (keyOf keyPrefix e.1) e.2 made with
    | (.error fault, made) => (.error fault, made)
    | (.ok record, made) =>
      let (records, made) := decodedAll c type keyPrefix documents made
      (records.map (record :: ·), made)

theorem decodedAll_cons_eq_ok_iff {e : String × String} {documents : List (String × String)}
    {ids made : Nat} :
    decodedAll c type p (e :: documents) ids = (.ok records, made) ↔
      ∃ record ids' rest, decoded c type (keyOf p e.1) e.2 ids = (.ok record, ids') ∧
        decodedAll c type p documents ids' = (.ok rest, made) ∧ records = record :: rest := by
  rw [decodedAll]
  constructor
  · intro h
    split at h
    · cases h
    · next record ids' hrecord =>
      cases hrest : decodedAll c type p documents ids' with
      | mk outcome made' =>
        rw [hrest] at h
        cases outcome <;> cases h
        exact ⟨record, ids', _, hrecord, hrest, rfl⟩
  · rintro ⟨record, ids', rest, hrecord, hrest, rfl⟩
    rw [hrecord]
    dsimp only
    rw [hrest]
    rfl

/-- Documents that are all decoded are decoded in two parts. -/
theorem exists_decodedAll_take {documents : List (String × String)} {ids made : Nat}
    (h : decodedAll c type p documents ids = (.ok records, made)) (n : Nat) :
    ∃ ids', decodedAll c type p (documents.take n) ids = (.ok (records.take n), ids') ∧
      decodedAll c type p (documents.drop n) ids' = (.ok (records.drop n), made) := by
  induction documents generalizing records ids n with
  | nil =>
    cases h
    simp only [List.take_nil, List.drop_nil]
    exact ⟨_, rfl, rfl⟩
  | cons e documents ih =>
    cases n with
    | zero => exact ⟨ids, rfl, h⟩
    | succ n =>
      obtain ⟨record, ids₁, rest, hrecord, hrest, rfl⟩ := decodedAll_cons_eq_ok_iff.mp h
      obtain ⟨ids', htake, hdrop⟩ := ih hrest n
      exact ⟨ids', decodedAll_cons_eq_ok_iff.mpr ⟨record, ids₁, _, hrecord, htake, rfl⟩, hdrop⟩

/-- Each document gives the record in its place. -/
theorem forall₂_of_decodedAll {documents : List (String × String)} {ids made : Nat}
    (h : decodedAll c type p documents ids = (.ok records, made)) :
    List.Forall₂ (fun e record => ∃ ids, (decoded c type (keyOf p e.1) e.2 ids).1 = .ok record)
      documents records := by
  induction documents generalizing records ids with
  | nil =>
    cases h
    exact .nil
  | cons e documents ih =>
    obtain ⟨record, ids', rest, hrecord, hrest, rfl⟩ := decodedAll_cons_eq_ok_iff.mp h
    exact .cons ⟨ids, by rw [hrecord]⟩ (ih hrest)

/-- The row of a stored document is decoded as the document. -/
theorem decodeRow_stored (c : Catalogue) (model key payload : String) :
    decodeRow c model (.text key) (.list [.text "$", .text payload]) =
      decodeDocument c model key (.text payload) := by
  have hdocument : rowDocument key (.list [.text "$", .text payload]) = .ok (.text payload) := by
    have hfields : (Value.list [.text "$", .text payload]).sequence? =
        some (inTurn [(.text "$", .text payload)]) := rfl
    rw [rowDocument_eq hfields]
    exact (findDocument_document rfl []).1 (.inl ⟨payload, rfl⟩)
  change (do
    let payload ← rowDocument key (.list [.text "$", .text payload])
    decodeDocument c model key payload : Service Value) = _
  rw [hdocument, lift_ok_bind]

theorem acts_decodeRows (c : Catalogue) (type : RecordType) (p : String) (h : Serves w s)
    (documents : List (String × String)) :
    Acts (decodeRows c type.name (inTurn (documents.map (Store.rowOf p)))) w s
      (decodedAll c type p documents w.ids).1 s.documents
      (decodedAll c type p documents w.ids).2 := by
  induction documents generalizing w with
  | nil => exact .settled h (.ok [])
  | cons e documents ih =>
    have hdecode := acts_decodeDocument c type h (keyOf p e.1) e.2
    rw [List.map_cons, inTurn_cons, decodeRows_cons, Store.rowOf, decodeRow_stored, decodedAll]
    cases hdecoded : decoded c type (keyOf p e.1) e.2 w.ids with
    | mk outcome made =>
      rw [hdecoded] at hdecode
      cases outcome with
      | error fault => exact hdecode.bind_error
      | ok record =>
        refine hdecode.bind fun w' h' hids => ?_
        have hrest := ih h'
        rw [hids] at hrest
        exact hrest.map (record :: ·)

/-! ### Searches -/

theorem acts_runSearch (h : Serves w s) {command : List Argument} {reply : Value}
    (hanswer : s.answer command = (.ok reply, s)) :
    Acts (runSearch command) w s (.ok reply) s.documents w.ids := by
  rw [runSearch]
  refine (Acts.note h _).bind fun w₁ h₁ hids₁ => ?_
  refine (Acts.send h₁ hanswer).bind fun w₂ h₂ hids₂ => ?_
  exact ⟨w₂, rfl, h₂, hids₂.trans hids₁⟩

theorem searchCommand_eq {search : Search} {query : String} {order : List Argument}
    (hhome : type.home = some home) (hquery : search.query c = .ok query)
    (horder : Search.sortArguments c search.sort = .ok order) (window : Option (Int × Int)) :
    searchCommand c type search window = .ok (.text "FT.SEARCH" :: .text home.indexName ::
      .text query :: (Search.windowArguments window ++ order)) := by
  rw [searchCommand, homeOf_eq hhome]
  change (liftM (search.commandWithin c home.indexName window) : Except Fault (List Argument)) = _
  rw [Search.commandWithin, hquery, horder]
  rfl

section

variable (persisted : type.lineage = .persisted) (hhome : type.home = some home) (h : Serves w s)
  (hnodup : (s.documents.map Prod.fst).Nodup)
  (hindex : Store.lookup? s.indexes home.indexName = some index)
  (hlead : index.keyPrefix = home.keyPrefix ++ ":")

include hhome h hnodup hindex hlead

/-- **Finding.** The documents in the window of a search are decoded. -/
theorem acts_find {search : Search} {query : String} {order : List Argument} {offset number : Nat}
    (hquery : search.query c = .ok query)
    (horder : Search.sortArguments c search.sort = .ok order)
    (hwindow : Store.searchWindow (Search.windowArguments search.window ++ order) =
      .ok ((offset : Int), (number : Int))) :
    Acts (find c type search) w s
      (decodedAll c type home.keyPrefix
        (((shelfOf home.keyPrefix s.documents).drop offset).take number) w.ids).1 s.documents
      (decodedAll c type home.keyPrefix
        (((shelfOf home.keyPrefix s.documents).drop offset).take number) w.ids).2 := by
  have hanswer := Store.answer_search hindex hlead hnodup query hwindow
  rw [find, searchCommand_eq hhome hquery horder, lift_ok_bind]
  refine (acts_runSearch h hanswer).bind fun w' h' hids => ?_
  rw [decodeSearch_eq rfl rfl, ← hids]
  exact acts_decodeRows c type home.keyPrefix h' _

/-- **Counting.** All documents are counted, whatever the predicate, the window and the order
are. -/
theorem acts_count {search : Search} {query : String} {order : List Argument}
    (hquery : search.query c = .ok query)
    (horder : Search.sortArguments c search.sort = .ok order) :
    Acts (count c type search) w s (.ok ((shelfOf home.keyPrefix s.documents).length : Int))
      s.documents w.ids := by
  have hwindow : Store.searchWindow (Search.windowArguments (some (0, 0)) ++ order) =
      .ok (((0 : Nat) : Int), ((0 : Nat) : Int)) := rfl
  have hanswer := Store.answer_search hindex hlead hnodup query hwindow
  rw [count, searchCommand_eq hhome hquery horder, lift_ok_bind]
  refine (acts_runSearch h hanswer).bind fun w' h' hids => ?_
  exact ⟨w', rfl, h', hids⟩

/-- The first ten documents are found without a window. -/
theorem acts_find_all :
    Acts (find c type (.all type.name)) w s
      (decodedAll c type home.keyPrefix ((shelfOf home.keyPrefix s.documents).take 10) w.ids).1
      s.documents
      (decodedAll c type home.keyPrefix ((shelfOf home.keyPrefix s.documents).take 10)
        w.ids).2 := by
  have hwindow : Store.searchWindow (Search.windowArguments (Search.all type.name).window ++ []) =
      .ok (((0 : Nat) : Int), ((10 : Nat) : Int)) := rfl
  exact acts_find hhome h hnodup hindex hlead rfl rfl hwindow

end

/-! ### Pages -/

/-- The records on a page of all records of a type. Pages have one size, and are numbered from
zero. -/
def page (c : Catalogue) (type : RecordType) (size number : Nat) : Service (List Value) := do
  let search ← (searchOf type : Except Fault Search)
  let search ← (search.limit ((number * size : Nat) : Int) size : Except SearchFault Search)
  find c type search

/-- The part of a list that lies on a page. -/
def pageOf {α : Type} (size : Nat) (items : List α) (number : Nat) : List α :=
  (items.drop (number * size)).take size

theorem pageOf_of_length_le {α : Type} {size number : Nat} {items : List α}
    (h : items.length ≤ number * size) : pageOf size items number = [] := by
  rw [pageOf, List.drop_eq_nil_of_le h, List.take_nil]

/-- The first pages hold the first items, each once and in order. -/
theorem flatten_pageOf {α : Type} (size : Nat) (items : List α) (n : Nat) :
    ((List.range n).map (pageOf size items)).flatten = items.take (n * size) := by
  induction n with
  | zero => rw [List.range_zero, Nat.zero_mul]; rfl
  | succ n ih =>
    rw [List.range_succ, List.map_append, List.flatten_append, ih, Nat.succ_mul, List.take_add]
    exact congrArg _ (List.append_nil _)

section

variable (persisted : type.lineage = .persisted) (hhome : type.home = some home)
  (hnodup : (s.documents.map Prod.fst).Nodup)
  (hindex : Store.lookup? s.indexes home.indexName = some index)
  (hlead : index.keyPrefix = home.keyPrefix ++ ":")

include persisted hhome hnodup hindex hlead

theorem acts_page (h : Serves w s) (size number : Nat) :
    Acts (page c type size number) w s
      (decodedAll c type home.keyPrefix
        (pageOf size (shelfOf home.keyPrefix s.documents) number) w.ids).1 s.documents
      (decodedAll c type home.keyPrefix
        (pageOf size (shelfOf home.keyPrefix s.documents) number) w.ids).2 := by
  have hsearch : searchOf type = .ok (.all type.name) := by
    rw [searchOf, requirePersisted_eq persisted]
    rfl
  have hlimit : (Search.all type.name).limit ((number * size : Nat) : Int) size =
      .ok { Search.all type.name with
        window := some (((number * size : Nat) : Int), (size : Int)) } :=
    if_neg (by omega)
  rw [page, hsearch, lift_ok_bind, hlimit]
  exact acts_find hhome h hnodup hindex hlead rfl rfl rfl

/-- Pages are read one after the other, from one on up to which all records have been read. -/
theorem exists_pages {made : Nat} (size : Nat) (n : Nat) {start : Nat} (h : Serves w s)
    (hdecode : decodedAll c type home.keyPrefix
      ((shelfOf home.keyPrefix s.documents).drop (start * size)) w.ids =
        (.ok (records.drop (start * size)), made)) :
    ∃ w', (List.range' start n).mapM (page c type size) w =
      (.ok ((List.range' start n).map (pageOf size records)), w') ∧ Serves w' s := by
  induction n generalizing w start with
  | zero => exact ⟨w, rfl, h⟩
  | succ n ih =>
    obtain ⟨ids', htake, hdrop⟩ := exists_decodedAll_take hdecode size
    obtain ⟨w₁, hpage, hserves, hids⟩ :=
      acts_page (c := c) persisted hhome hnodup hindex hlead h size start
    rw [pageOf, htake] at hpage hids
    obtain rfl : w₁.ids = ids' := hids
    rw [List.drop_drop, List.drop_drop, ← Nat.succ_mul] at hdrop
    obtain ⟨w₂, hrest, hserves'⟩ := ih hserves hdrop
    refine ⟨w₂, ?_, hserves'⟩
    rw [List.range'_succ, List.mapM_cons, bind_run hpage, bind_run hrest]
    rfl

/-- **Paging.** If all documents under the prefix of a type are records of it, then they are on the
pages of the search for all records, whatever the size of a page is: each once, in order, and none
on later pages. Any search over the type that can be rendered counts them all, and the search for
all records finds the first ten. -/
theorem pages_of_searches {made : Nat} (h : Serves w s)
    (hdecode : decodedAll c type home.keyPrefix (shelfOf home.keyPrefix s.documents) w.ids =
      (.ok records, made)) :
    List.Forall₂ (fun e record =>
        ∃ ids, (decoded c type (keyOf home.keyPrefix e.1) e.2 ids).1 = .ok record)
      (shelfOf home.keyPrefix s.documents) records ∧
    (∀ size n,
      (∃ w', (List.range n).mapM (page c type size) w =
        (.ok ((List.range n).map (pageOf size records)), w') ∧ Serves w' s) ∧
      (records.length ≤ n * size →
        ((List.range n).map (pageOf size records)).flatten = records) ∧
      (records.length ≤ n * size → pageOf size records n = [])) ∧
    (∀ search query order, search.query c = .ok query →
      Search.sortArguments c search.sort = .ok order →
      ∃ w', count c type search w = (.ok (records.length : Int), w') ∧ Serves w' s) ∧
    ∃ w', (do find c type (← (searchOf type : Except Fault Search)) : Service (List Value)) w =
      (.ok (records.take 10), w') ∧ Serves w' s := by
  have hrecords := forall₂_of_decodedAll hdecode
  refine ⟨hrecords, fun size n => ?_, fun search query order hquery horder => ?_, ?_⟩
  -- the first page starts at no offset, and each page is left off where the next one starts
  · have hdrop : decodedAll c type home.keyPrefix
        ((shelfOf home.keyPrefix s.documents).drop (0 * size)) w.ids =
          (.ok (records.drop (0 * size)), made) := by rwa [Nat.zero_mul]
    have hpages := exists_pages (c := c) persisted hhome hnodup hindex hlead size n h hdrop
    rw [← List.range_eq_range'] at hpages
    refine ⟨hpages, fun hall => ?_, pageOf_of_length_le⟩
    rw [flatten_pageOf, List.take_of_length_le hall]
  · obtain ⟨w', hcount, hserves, -⟩ :=
      acts_count (c := c) hhome h hnodup hindex hlead hquery horder
    exact ⟨w', by rw [hcount, hrecords.length_eq], hserves⟩
  · obtain ⟨ids', htake, -⟩ := exists_decodedAll_take hdecode 10
    obtain ⟨w', hfind, hserves, -⟩ := acts_find_all (c := c) hhome h hnodup hindex hlead
    have hsearch : searchOf type = .ok (.all type.name) := by
      rw [searchOf, requirePersisted_eq persisted]
      rfl
    refine ⟨w', ?_, hserves⟩
    rw [hsearch, lift_ok_bind, hfind, htake]

end

/-- An account of a given identifier, as a record and as a stored text. -/
def accountOf (id : String) : Value := .record "Account" [("id", .text id)]

def accountText (id : String) : String := String.ofList (Json.object [("pk", .text id)]).write

/-- Three accounts and one other document. -/
def bank : Store where
  documents := [("account:a", accountText "a"), ("accounts:x", "null"),
    ("account:b", accountText "b"), ("account:c", accountText "c")]
  indexes := [("idx:Account", ⟨"account:", []⟩)]
  failures := []
  closed := false

theorem decoded_of_ofDocument {key payload : String} {ids : Nat} {v : Value} {p : Progress}
    (h : Record.ofDocument c type.name (.text payload) (.start ids) = (.ok v, p)) :
    decoded c type key payload ids = (.ok v, p.ids) := by
  rw [decoded, h]

theorem decoded_account {id : String} (key : String) {ids : Nat}
    (hread : (Record.ofJson accounts "Account" (.object [("pk", .text id)]) (.start ids)).1 =
      .ok (accountOf id)) :
    decoded accounts accounts.types[3] key (accountText id) ids = (.ok (accountOf id),
      (Record.ofJson accounts "Account" (.object [("pk", .text id)]) (.start ids)).2.ids) := by
  have hreadable : (Json.object [("pk", .text id)]).Readable :=
    .object (List.nodup_singleton _) (List.forall_mem_singleton.mpr (.text id))
  have hnesting : (Json.object [("pk", .text "")]).nesting ≤ Json.nestingLimit := by decide
  have hdocument : Record.ofDocument accounts accounts.types[3].name (.text (accountText id))
      (.start ids) = (.ok (accountOf id), _) :=
    (congrFun (ofDocument_write hreadable hnesting "Account") _).trans (Prod.ext hread rfl)
  exact decoded_of_ofDocument hdocument

/-- Two pages of two accounts hold the three accounts, and a third page is empty. -/
theorem pages_of_searches_bank : ∃ w₁ w₂,
    (List.range 3).mapM (page accounts accounts.types[3] 2) ⟨.store bank, [], [], 0⟩ =
      (.ok [[accountOf "a", accountOf "b"], [accountOf "c"], []], w₁) ∧
    count accounts accounts.types[3] { Search.all "Account" with window := some (1, 1) }
      ⟨.store bank, [], [], 0⟩ = (.ok 3, w₂) := by
  have hdecode : decodedAll accounts accounts.types[3] "account"
      (shelfOf "account" bank.documents) 0 =
        (.ok [accountOf "a", accountOf "b", accountOf "c"], 0) := by
    have hshelf : shelfOf "account" bank.documents =
        [("a", accountText "a"), ("b", accountText "b"), ("c", accountText "c")] := rfl
    rw [hshelf]
    simp only [decodedAll_cons_eq_ok_iff]
    exact ⟨_, 0, _, decoded_account _ rfl, ⟨_, 0, _, decoded_account _ rfl,
      ⟨_, 0, _, decoded_account _ rfl, rfl, rfl⟩, rfl⟩, rfl⟩
  obtain ⟨-, hpages, hcount, -⟩ := pages_of_searches (w := ⟨.store bank, [], [], 0⟩) (s := bank)
    (show accounts.types[3].lineage = .persisted from rfl)
    (show accounts.types[3].home = some ⟨"account", "idx:Account"⟩ from rfl) (by decide)
    (show Store.lookup? bank.indexes "idx:Account" = some ⟨"account:", []⟩ from rfl) rfl ⟨rfl, rfl⟩
    hdecode
  obtain ⟨⟨w₁, hrun, -⟩, -⟩ := hpages 2 3
  obtain ⟨w₂, hrun', -⟩ := hcount { Search.all "Account" with window := some (1, 1) } "*" [] rfl rfl
  exact ⟨w₁, w₂, hrun, hrun'⟩

end Service

end IndexedRecords
