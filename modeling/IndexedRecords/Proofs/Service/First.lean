import IndexedRecords.Proofs.Search.Steps
import IndexedRecords.Proofs.Service.Searching

/-!
# The first record of a search

Running a search for its first record sends the command of the search with another window: from the
same offset on, but one record wide. Both windows start at one document, so that the first record is
the one at the head of what the search finds; but for a search whose own window is empty, which
finds nothing, the first record is still looked for.

## Main statements

* `Search.hasWindow_run`: the windows that steps build have no negative numbers.
* `Service.first_eq_head?`: the first record is the one at the head, unless the window is empty.
-/

namespace IndexedRecords

open Traversal

/-! ### Windows of searches -/

namespace Search

variable {c : Catalogue} {s next : Search} {step : Step}

/-- The window of a search has no negative numbers. -/
def HasWindow (s : Search) : Prop :=
  ∀ offset count, s.window = some (offset, count) → 0 ≤ offset ∧ 0 ≤ count

/-- A predicate that joins a search leaves its window. -/
theorem window_of_join {p : Predicate} (join : Predicate → Predicate → Except SearchFault Predicate)
    (h : (do
      p.checkModel s.model
      match s.predicate with
      | some earlier => return { s with predicate := some (← join earlier p) }
      | none => return { s with predicate := some p } : Except SearchFault Search) = .ok next) :
    next.window = s.window := by
  obtain ⟨_, _, h⟩ := bind_eq_ok_iff.mp h
  split at h
  · obtain ⟨_, _, h⟩ := bind_eq_ok_iff.mp h
    rw [← pure_eq_ok_iff.mp h]
  · rw [← pure_eq_ok_iff.mp h]

/-- The search for all records has no window yet, and so none with negative numbers. -/
theorem hasWindow_all (model : String) : (all model).HasWindow := fun _ _ h => nomatch h

/-- A step sets no window with negative numbers: such a step is refused. -/
theorem hasWindow_step (hs : s.HasWindow) (h : s.step c step = .ok next) : next.HasWindow := by
  cases step with
  | filter e =>
    obtain ⟨p, _, h⟩ := bind_eq_ok_iff.mp h
    obtain ⟨_, _, h⟩ := bind_eq_ok_iff.mp h
    rw [← pure_eq_ok_iff.mp h]
    exact hs
  | and e =>
    obtain ⟨p, _, h⟩ := bind_eq_ok_iff.mp h
    rw [HasWindow, window_of_join Predicate.and h]
    exact hs
  | or e =>
    obtain ⟨p, _, h⟩ := bind_eq_ok_iff.mp h
    rw [HasWindow, window_of_join Predicate.or h]
    exact hs
  -- the only step that sets a window, and it refuses negative numbers
  | limit offset count =>
    rw [Search.step, limit] at h
    split at h
    · cases h
    · next hnonneg =>
      cases h
      rintro _ _ ⟨⟩
      omega
  | sortBy field descending =>
    obtain ⟨referent, _, h⟩ := bind_eq_ok_iff.mp h
    obtain ⟨key, _, h⟩ := bind_eq_ok_iff.mp h
    rw [sortBy] at h
    split at h
    · cases h
      exact hs
    · cases h

/-- **Windows.** Steps build searches whose windows have no negative numbers. -/
theorem hasWindow_run (hs : s.HasWindow) (steps : List Step) : (s.run c steps).HasWindow := by
  induction steps generalizing s with
  | nil => exact hs
  | cons step steps ih =>
    refine ih (s := s.follow c step) ?_
    unfold follow
    split
    · next next h => exact hasWindow_step hs h
    · exact hs

/-- The number of documents before the window of a search, and the size of the window. -/
def extent (s : Search) : Nat × Nat :=
  match s.window with
  | some (offset, count) => (offset.toNat, count.toNat)
  | none => (0, 10)

/-- The word for a window does not stand among the arguments for an order, but for an alias after
which no number can follow. -/
theorem searchWindow_sortArguments {order : List Argument} {bounds : Int × Int}
    (horder : sortArguments c s.sort = .ok order) (h : Store.searchWindow order = .ok bounds) :
    bounds = (0, 10) := by
  generalize s.sort = sort at horder
  rcases sort with _ | ⟨field | model, descending⟩
  · cases horder
    cases h
    rfl
  · rw [sortArguments_some] at horder
    obtain ⟨leaf, _, horder⟩ := bind_eq_ok_iff.mp horder
    obtain rfl := pure_eq_ok_iff.mp horder
    have hdirection : (Argument.text (if descending then "DESC" else "ASC")) ≠ .text "LIMIT" := by
      cases descending <;> decide
    by_cases halias : leaf.queryAlias = "LIMIT"
    · rw [halias] at h
      cases descending <;> cases h
    · simp [Store.searchWindow, halias, hdirection] at h
      exact h.symm
  · cases horder

/-- The window that the arguments of a search say is its own. -/
theorem searchWindow_eq_extent {order : List Argument} {bounds : Int × Int} (hs : s.HasWindow)
    (horder : sortArguments c s.sort = .ok order)
    (h : Store.searchWindow (windowArguments s.window ++ order) = .ok bounds) :
    bounds = ((s.extent.1 : Int), (s.extent.2 : Int)) := by
  unfold extent
  cases hwindow : s.window with
  | none =>
    rw [hwindow] at h
    exact searchWindow_sortArguments horder h
  | some window =>
    obtain ⟨offset, count⟩ := window
    obtain ⟨hoffset, hcount⟩ := hs offset count hwindow
    rw [hwindow] at h
    cases h
    simp only [Int.toNat_of_nonneg hoffset, Int.toNat_of_nonneg hcount]

end Search

/-! ### Replies of a store -/

namespace Store

/-- The row of the document under a key. -/
def rowAt (s : Store) (key : String) : Value × Value :=
  (.text key, .list [.text "$", .text ((lookup? s.documents key).getD "")])

/-- The rows in a window of what an index finds. -/
def rowsWithin (s : Store) (index : StoredIndex) (offset count : Nat) : List (Value × Value) :=
  (((s.keysUnder index.keyPrefix).drop offset).take count).map s.rowAt

variable {s : Store} {name query : String} {args : List Argument} {index : StoredIndex}

/-- A store answers a search with the number of all documents it finds, and with the rows of those
in the window. -/
theorem search_eq {offset count : Nat} (hindex : lookup? s.indexes name = some index)
    (hwindow : searchWindow args = .ok ((offset : Int), (count : Int))) :
    s.search name args = (.ok (.list (.int (s.keysUnder index.keyPrefix).length ::
      inTurn (s.rowsWithin index offset count))), s) := by
  rw [search, hindex]
  dsimp only
  rw [hwindow]
  dsimp only
  rw [slice_eq, rowsWithin, inTurn, List.flatMap_map]
  rfl

/-- The error with which a store answers all searches, if it is to. -/
def searchFailure? (s : Store) : Option Refusal :=
  lookup? s.failures (String.ofList (Text.upper "FT.SEARCH".toList))

/-- A store that is set to fail searches refuses all of them, and any other one answers. -/
theorem execute_search (s : Store) (name query : String) (args : List Argument) :
    s.execute (.text "FT.SEARCH" :: .text name :: .text query :: args) =
      match s.searchFailure? with
      | some r => (.error (.refused r), s)
      | none => s.search name args :=
  rfl

/-- A search that has a reply is one on an index, and its window can be read. -/
theorem exists_of_execute_search {reply : Value} {s' : Store}
    (h : s.execute (.text "FT.SEARCH" :: .text name :: .text query :: args) = (.ok reply, s')) :
    s.searchFailure? = none ∧ ∃ index bounds, lookup? s.indexes name = some index ∧
      searchWindow args = .ok bounds := by
  rw [execute_search] at h
  split at h
  · cases h
  · next hserved =>
    refine ⟨hserved, ?_⟩
    rw [search] at h
    split at h
    · cases h
    · next index hindex =>
      split at h
      · cases h
      · next bounds hwindow => exact ⟨index, _, hindex, hwindow⟩

end Store

namespace Service

variable {α β : Type} {c : Catalogue} {type : RecordType} {search : Search} {w w' w₁ : World}
  {s : Store} {home : Home} {query : String} {order : List Argument} {index : StoredIndex}
  {records : List Value}

/-! ### Runs that succeed -/

/-- Rows that are all decoded give their records. -/
theorem rowsYield_of_decodeRows {model : String} {rows : List (Value × Value)}
    (h : decodeRows c model (inTurn rows) w = (.ok records, w')) :
    ∃ made, RowsYield c model w.ids rows records made := by
  obtain ⟨records', made, hrows⟩ | ⟨before, row, after, _, _, fault, made, rfl, hbefore, hrow⟩ :=
    exists_rowsYield c model w.ids rows
  · rw [decodeRows_of_rowsYield hrows rfl] at h
    cases h
    exact ⟨made, hrows⟩
  · rw [decodeRows_of_fault hbefore hrow rfl] at h
    cases h

/-- The first rows give the first records. Fewer identifiers may have been made by then. -/
theorem RowsYield.take {model : String} {rows : List (Value × Value)} {ids made : Nat}
    (h : RowsYield c model ids rows records made) (n : Nat) :
    ∃ made', RowsYield c model ids (rows.take n) (records.take n) made' := by
  induction h generalizing n with
  | nil ids => exact ⟨ids, by simpa using .nil ids⟩
  | cons row _ ih =>
    cases n with
    | zero => exact ⟨_, .nil _⟩
    | succ n =>
      obtain ⟨made', hrest⟩ := ih n
      exact ⟨made', .cons row hrest⟩

/-! ### Searches in a window -/

/-- The records in a window of a search, which need not be its own. -/
def searched (c : Catalogue) (type : RecordType) (search : Search) (window : Option (Int × Int)) :
    Service (List Value) := do
  let command ← (searchCommand c type search window : Except Fault (List Argument))
  decodeSearch c type.name (← runSearch command)

/-- The first record is looked for with the command of a search for one record, from the same offset
on. -/
theorem first_eq (c : Catalogue) (type : RecordType) (search : Search) :
    first c type search = do
      let records ← searched c type search (some ((search.window.map Prod.fst).getD 0, 1))
      return records.head? := by
  simp only [first, searched, bind_assoc]

/-- The command of a search can be made, and the store answers searches on its index. -/
structure Searchable (c : Catalogue) (type : RecordType) (search : Search) (s : Store) (home : Home)
    (query : String) (order : List Argument) (index : StoredIndex) : Prop where
  home_eq : type.home = some home
  query_eq : search.query c = .ok query
  order_eq : Search.sortArguments c search.sort = .ok order
  served : s.searchFailure? = none
  index_eq : Store.lookup? s.indexes home.indexName = some index

/-- A search that can be sent has a home, a query and an order, none of which depends on the
window. -/
theorem exists_of_searchCommand {window : Option (Int × Int)} {command : List Argument}
    (h : searchCommand c type search window = .ok command) :
    ∃ home query order, type.home = some home ∧ search.query c = .ok query ∧
      Search.sortArguments c search.sort = .ok order := by
  rw [searchCommand, bind_eq_ok_iff] at h
  obtain ⟨home, hhome, h⟩ := h
  rw [homeOf] at hhome
  split at hhome
  · next home' hhome' =>
    cases hquery : search.query c with
    | error fault =>
      simp only [Search.commandWithin, hquery] at h
      cases h
    | ok query =>
      cases horder : Search.sortArguments c search.sort with
      | error fault =>
        simp only [Search.commandWithin, hquery, horder] at h
        cases h
      | ok order => exact ⟨home', query, order, hhome', rfl, rfl⟩
  · cases hhome

theorem runSearch_of_execute {command : List Argument} {reply : Value}
    (hstore : w.endpoint = .store s) (h : s.execute command = (.ok reply, s)) :
    ∃ w₁ : World, w₁.ids = w.ids ∧ runSearch command w = (.ok reply, w₁) := by
  let noted : World :=
    { w with log := w.log ++ [.searching (shownWord command 1) (shownWord command 2)] }
  have hsend : send command noted =
      (.ok (.ok reply), { noted with endpoint := .store s, sent := w.sent ++ [command] }) := by
    rw [send, show noted.endpoint = .store s from hstore, Endpoint.execute, h]
  refine ⟨{ noted with endpoint := .store s, sent := w.sent ++ [command] }, rfl, ?_⟩
  rw [runSearch, bind_run (show note _ w = (.ok (), noted) from rfl), bind_run hsend]
  rfl

theorem exists_execute_of_runSearch {command : List Argument} {reply : Value}
    (hstore : w.endpoint = .store s) (h : runSearch command w = (.ok reply, w')) :
    ∃ s', s.execute command = (.ok reply, s') := by
  rw [runSearch] at h
  obtain ⟨_, w₁, hnote, h⟩ := exists_of_bind_run h
  obtain ⟨outcome, w₂, hsend, h⟩ := exists_of_bind_run h
  cases hnote
  cases hexecute : s.execute command with
  | mk answer s' =>
    rw [send, hstore, Endpoint.execute, hexecute] at hsend
    cases hsend
    rcases outcome with (r | fault) | reply'
    · dsimp only at h
      split at h <;> cases h
    · cases h
    · cases h
      exact ⟨s', rfl⟩

/-- A search that has records can be made. -/
theorem exists_searchable {window : Option (Int × Int)} (hstore : w.endpoint = .store s)
    (h : searched c type search window w = (.ok records, w')) :
    ∃ home query order index bounds, Searchable c type search s home query order index ∧
      Store.searchWindow (Search.windowArguments window ++ order) = .ok bounds := by
  obtain ⟨command, hcommand, h⟩ := exists_of_lift_bind_run h
  obtain ⟨reply, w₁, hrun, -⟩ := exists_of_bind_run h
  obtain ⟨home, query, order, hhome, hquery, horder⟩ := exists_of_searchCommand hcommand
  rw [searchCommand_eq hhome hquery horder] at hcommand
  cases hcommand
  obtain ⟨s', hexecute⟩ := exists_execute_of_runSearch hstore hrun
  obtain ⟨hserved, index, bounds, hindex, hwindow⟩ := Store.exists_of_execute_search hexecute
  exact ⟨home, query, order, index, bounds, ⟨hhome, hquery, horder, hserved, hindex⟩, hwindow⟩

/-- A search decodes the rows in its window. -/
theorem searched_run (h : Searchable c type search s home query order index)
    (hstore : w.endpoint = .store s) {window : Option (Int × Int)} {offset count : Nat}
    (hwindow : Store.searchWindow (Search.windowArguments window ++ order) =
      .ok ((offset : Int), (count : Int))) :
    ∃ w₁ : World, w₁.ids = w.ids ∧ searched c type search window w =
      decodeRows c type.name (inTurn (s.rowsWithin index offset count)) w₁ := by
  have hexecute : s.execute (.text "FT.SEARCH" :: .text home.indexName :: .text query ::
      (Search.windowArguments window ++ order)) =
        (.ok (.list (.int (s.keysUnder index.keyPrefix).length ::
          inTurn (s.rowsWithin index offset count))), s) := by
    rw [Store.execute_search, h.served]
    exact Store.search_eq h.index_eq hwindow
  obtain ⟨w₁, hids, hrun⟩ := runSearch_of_execute hstore hexecute
  refine ⟨w₁, hids, ?_⟩
  rw [searched, searchCommand_eq h.home_eq h.query_eq h.order_eq, lift_ok_bind, bind_run hrun,
    decodeSearch_eq rfl rfl]

/-! ### The first record -/

/-- What the search for a first record decodes: the row at the offset, if there is one. -/
theorem first_run (h : Searchable c type search s home query order index) (hs : search.HasWindow)
    (hstore : w.endpoint = .store s) :
    ∃ w₁ : World, w₁.ids = w.ids ∧ searched c type search
        (some ((search.window.map Prod.fst).getD 0, 1)) w =
      decodeRows c type.name (inTurn (s.rowsWithin index search.extent.1 1)) w₁ := by
  have hoffset : (search.window.map Prod.fst).getD 0 = (search.extent.1 : Int) := by
    unfold Search.extent
    rcases hwindow : search.window with _ | ⟨offset, count⟩
    · rfl
    · exact (Int.toNat_of_nonneg (hs offset count hwindow).1).symm
  rw [hoffset]
  exact searched_run h hstore rfl

/-- Where the only row in a window of size one gives a record, it is the first one; where there is
no row, there is none. -/
theorem first_of_rowsYield {made : Nat} (h : Searchable c type search s home query order index)
    (hs : search.HasWindow) (hstore : w.endpoint = .store s)
    (hrows : RowsYield c type.name w.ids (s.rowsWithin index search.extent.1 1) records made) :
    ∃ w', first c type search w = (.ok records.head?, w') := by
  obtain ⟨w₁, hids, hrun⟩ := first_run h hs hstore
  rw [decodeRows_of_rowsYield hrows hids] at hrun
  exact ⟨_, by rw [first_eq, bind_run hrun]; rfl⟩

/-- What a search finds are the records of the rows in its own window. -/
theorem exists_of_find (hs : search.HasWindow) (hstore : w.endpoint = .store s)
    (h : find c type search w = (.ok records, w')) :
    ∃ home query order index made, Searchable c type search s home query order index ∧
      RowsYield c type.name w.ids (s.rowsWithin index search.extent.1 search.extent.2) records
        made := by
  have hsearched : searched c type search search.window w = (.ok records, w') := h
  obtain ⟨home, query, order, index, bounds, hsearchable, hwindow⟩ :=
    exists_searchable hstore hsearched
  rw [Search.searchWindow_eq_extent hs hsearchable.order_eq hwindow] at hwindow
  obtain ⟨w₁, hids, hrun⟩ := searched_run hsearchable hstore hwindow
  rw [hrun] at hsearched
  obtain ⟨made, hrows⟩ := rowsYield_of_decodeRows hsearched
  exact ⟨home, query, order, index, made, hsearchable, hids ▸ hrows⟩

/-- There is no first record where no document stands at the offset, and only there. -/
theorem first_eq_none_iff (h : Searchable c type search s home query order index)
    (hs : search.HasWindow) (hstore : w.endpoint = .store s) :
    (∃ w', first c type search w = (.ok none, w')) ↔
      (s.keysUnder index.keyPrefix).length ≤ search.extent.1 := by
  have hempty : s.rowsWithin index search.extent.1 1 = [] ↔
      (s.keysUnder index.keyPrefix).length ≤ search.extent.1 := by
    rw [Store.rowsWithin, List.map_eq_nil_iff, List.take_eq_nil_iff, List.drop_eq_nil_iff]
    exact or_iff_right Nat.one_ne_zero
  -- no record is found only where there is no row: a row gives a record or a fault
  rw [← hempty]
  constructor
  · rintro ⟨w', hfirst⟩
    rw [first_eq] at hfirst
    obtain ⟨found, w₁, hfound, hhead⟩ := exists_of_bind_run hfirst
    obtain ⟨w₂, -, hrun⟩ := first_run h hs hstore
    rw [hrun] at hfound
    obtain ⟨made, hrows⟩ := rowsYield_of_decodeRows hfound
    have hnil : found = [] := by
      cases found with
      | nil => rfl
      | cons => cases hhead
    subst hnil
    generalize s.rowsWithin index search.extent.1 1 = rows at hrows
    cases hrows
    rfl
  · intro hnil
    have hrows : RowsYield c type.name w.ids (s.rowsWithin index search.extent.1 1) [] w.ids :=
      hnil ▸ .nil _
    exact first_of_rowsYield h hs hstore hrows

/-- **First records.** Whatever steps build a search, and whatever a store holds: where running the
search gives records, asking for its first record gives the one at their head, and none if there are
no records; but for a search whose window is empty, which has no records and yet a first one, if a
document stands at the offset of the window. -/
theorem first_eq_head? {steps : List Search.Step}
    (hsearch : search = (Search.all type.name).run c steps) (hstore : w.endpoint = .store s)
    (hstore' : w'.endpoint = .store s) (hids : w'.ids = w.ids)
    (hfind : find c type search w = (.ok records, w₁)) :
    (search.extent.2 ≠ 0 → ∃ w₂, first c type search w' = (.ok records.head?, w₂)) ∧
      (search.extent.2 = 0 → records = [] ∧
        ∃ home index, type.home = some home ∧
          Store.lookup? s.indexes home.indexName = some index ∧
          ((∃ w₂, first c type search w' = (.ok none, w₂)) ↔
            (s.keysUnder index.keyPrefix).length ≤ search.extent.1)) := by
  have hs : search.HasWindow := by
    rw [hsearch]
    exact Search.hasWindow_run (Search.hasWindow_all _) steps
  obtain ⟨home, query, order, index, made, hsearchable, hrows⟩ := exists_of_find hs hstore hfind
  refine ⟨fun hsize => ?_, fun hsize => ⟨?_, home, index, hsearchable.home_eq,
    hsearchable.index_eq, first_eq_none_iff hsearchable hs hstore'⟩⟩
  · obtain ⟨made', hfirst⟩ := hrows.take 1
    -- both windows start at the same document, so the first row is the same
    have hrow : (s.rowsWithin index search.extent.1 search.extent.2).take 1 =
        s.rowsWithin index search.extent.1 1 := by
      rw [Store.rowsWithin, Store.rowsWithin, ← List.map_take, List.take_take,
        Nat.min_eq_left (Nat.one_le_iff_ne_zero.mpr hsize)]
    rw [hrow, ← hids] at hfirst
    obtain ⟨w₂, hrun⟩ := first_of_rowsYield hsearchable hs hstore' hfirst
    refine ⟨w₂, hrun.trans ?_⟩
    cases records <;> rfl
  · rw [hsize] at hrows
    rw [Store.rowsWithin, List.take_zero, List.map_nil] at hrows
    cases hrows
    rfl

/-- The row of a stored document has its text as the document. -/
theorem hasDocument_rowAt {key payload : String}
    (h : Store.lookup? s.documents key = some payload) :
    HasDocument (s.rowAt key).1 (s.rowAt key).2 key (.text payload) := by
  refine ⟨rfl, [], .text "$", [], nofun, rfl, ?_⟩
  rw [Store.rowAt, h]
  rfl

/-- The row of a document that is decoded gives its record. -/
theorem rowYields_of_decoded {key payload : String} {ids made : Nat} {record : Value}
    (hstored : Store.lookup? s.documents key = some payload)
    (h : decoded c type key payload ids = (.ok record, made)) :
    RowYields c type.name ids (s.rowAt key).1 (s.rowAt key).2 (.ok record) made := by
  rw [decoded] at h
  split at h
  · next hread =>
    cases h
    exact .record (hasDocument_rowAt hstored) (.inl ⟨payload, rfl⟩) hread
  · cases h
  · cases h

/-- The search for all accounts but the first one. -/
def laterAccounts : Search := (Search.all "Account").run accounts [.limit 1 10]

/-- The search for accounts in an empty window. -/
def noAccounts : Search := (Search.all "Account").run accounts [.limit 0 0]

theorem first_eq_head?_bank : ∃ w₁ w₂,
    find accounts accounts.types[3] laterAccounts ⟨.store bank, [], [], 0⟩ =
      (.ok [accountOf "b", accountOf "c"], w₁) ∧
    first accounts accounts.types[3] laterAccounts ⟨.store bank, [], [], 0⟩ =
      (.ok (some (accountOf "b")), w₂) := by
  have hdecode : decodedAll accounts accounts.types[3] "account"
      (((shelfOf "account" bank.documents).drop 1).take 10) 0 =
        (.ok [accountOf "b", accountOf "c"], 0) := by
    have hshelf : ((shelfOf "account" bank.documents).drop 1).take 10 =
        [("b", accountText "b"), ("c", accountText "c")] := rfl
    rw [hshelf]
    simp only [decodedAll_cons_eq_ok_iff]
    exact ⟨_, 0, _, decoded_account _ rfl, ⟨_, 0, _, decoded_account _ rfl, rfl, rfl⟩, rfl⟩
  have hwindow : Store.searchWindow (Search.windowArguments laterAccounts.window ++ []) =
      .ok (((1 : Nat) : Int), ((10 : Nat) : Int)) := rfl
  obtain ⟨w₁, hfind, -⟩ := acts_find (w := ⟨.store bank, [], [], 0⟩)
    (show accounts.types[3].home = some ⟨"account", "idx:Account"⟩ from rfl) ⟨rfl, rfl⟩ (by decide)
    (show Store.lookup? bank.indexes "idx:Account" = some ⟨"account:", []⟩ from rfl) rfl
    (show laterAccounts.query accounts = .ok "*" from rfl) rfl hwindow
  rw [hdecode] at hfind
  obtain ⟨w₂, hfirst⟩ := (first_eq_head? (w := ⟨.store bank, [], [], 0⟩)
    (show laterAccounts = (Search.all accounts.types[3].name).run accounts [.limit 1 10] from rfl)
    rfl (show World.endpoint ⟨.store bank, [], [], 0⟩ = _ from rfl) rfl hfind).1 (by decide)
  exact ⟨w₁, w₂, hfind, hfirst⟩

/-- A search with an empty window finds nothing, and yet has a first record. -/
theorem first_of_empty_window : ∃ w₁ w₂,
    find accounts accounts.types[3] noAccounts ⟨.store bank, [], [], 0⟩ = (.ok [], w₁) ∧
    first accounts accounts.types[3] noAccounts ⟨.store bank, [], [], 0⟩ =
      (.ok (some (accountOf "a")), w₂) := by
  have hwindow : Store.searchWindow (Search.windowArguments noAccounts.window ++ []) =
      .ok (((0 : Nat) : Int), ((0 : Nat) : Int)) := rfl
  obtain ⟨w₁, hfind, -⟩ := acts_find (w := ⟨.store bank, [], [], 0⟩)
    (show accounts.types[3].home = some ⟨"account", "idx:Account"⟩ from rfl) ⟨rfl, rfl⟩ (by decide)
    (show Store.lookup? bank.indexes "idx:Account" = some ⟨"account:", []⟩ from rfl) rfl
    (show noAccounts.query accounts = .ok "*" from rfl) rfl hwindow
  have hsearchable : Searchable accounts accounts.types[3] noAccounts bank
      ⟨"account", "idx:Account"⟩ "*" [] ⟨"account:", []⟩ := ⟨rfl, rfl, rfl, rfl, rfl⟩
  have hrow : RowYields accounts accounts.types[3].name 0 (bank.rowAt "account:a").1
      (bank.rowAt "account:a").2 (.ok (accountOf "a")) 0 :=
    rowYields_of_decoded rfl (decoded_account "account:a" rfl)
  obtain ⟨w₂, hfirst⟩ := first_of_rowsYield hsearchable
    (Search.hasWindow_run (Search.hasWindow_all _) _) (w := ⟨.store bank, [], [], 0⟩) rfl
    (.cons hrow (.nil 0))
  exact ⟨w₁, w₂, hfind, hfirst⟩

end Service

end IndexedRecords
