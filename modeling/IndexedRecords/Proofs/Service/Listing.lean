import IndexedRecords.Proofs.Service.Inspection
import IndexedRecords.Proofs.Service.Searching

/-!
# Listings and indexes

The keys of a type are listed by a pattern made of its prefix, while an index compares its prefix
with the keys as it is. Both come to the same documents, in every store, if and only if the prefix
has no wildcard: the characters of the prefix are not escaped in the pattern.

## Main statements

* `exists_listsAll`: for a prefix without wildcards, a listing holds what is stored and indexed.
* `listsAll_iff`: listings are right in every store if and only if the prefix has no wildcard.
* `listIds_bracket`: a document that is stored and not listed.
-/

namespace IndexedRecords

namespace Store

variable {p : String} {s : Store} {index : StoredIndex} {name : String}

/-- A search on the index of a prefix counts the documents on its shelf, whatever the query and the
window are. -/
theorem exists_answer_search (hindex : lookup? s.indexes name = some index)
    (hlead : index.keyPrefix = p ++ ":") (query : String) {args : List Argument}
    {window : Int × Int} (hwindow : searchWindow args = .ok window) :
    ∃ rows, s.answer (.text "FT.SEARCH" :: .text name :: .text query :: args) =
      (.ok (.list (.int (shelfOf p s.documents).length :: rows)), s) := by
  rw [Store.answer, search, hindex]
  dsimp only
  rw [hwindow, hlead, keysUnder_eq, List.length_map]
  exact ⟨_, rfl⟩

end Store

namespace Service

variable {c : Catalogue} {environment : List (String × String)} {type : RecordType} {home : Home}
  {w : World} {s : Store} {p : String} {batch : Nat}

/-- Some identifiers are those of the documents under the prefix of a type: a listing ends and
answers them, each of them once, indexes of the prefix count as many, and each has a document that
is got. -/
structure ListsAll (c : Catalogue) (environment : List (String × String)) (type : RecordType)
    (home : Home) (w : World) (s : Store) (batch : Nat) (ids : List String) : Prop where
  listed : Acts (listIds environment type (some batch)) w s (.ok ids) s.documents w.ids
  /-- no bound on the number of pages cuts the listing short -/
  ends : ∃ w', ∀ bound, s.documents.length < bound →
    scanFrom (home.keyPrefix ++ ":") batch bound 0 [] w = (.ok ids, w')
  nodup : ids.Nodup
  stored : ∀ id, id ∈ ids ↔ keyOf home.keyPrefix id ∈ s.documents.map Prod.fst
  searched : ∀ name index, Store.lookup? s.indexes name = some index →
    index.keyPrefix = home.keyPrefix ++ ":" →
    ∀ query args window, Store.searchWindow args = .ok window →
      ∃ rows, s.answer (.text "FT.SEARCH" :: .text name :: .text query :: args) =
        (.ok (.list (.int ids.length :: rows)), s)
  informed : ∀ name index, Store.lookup? s.indexes name = some index →
    index.keyPrefix = home.keyPrefix ++ ":" →
    s.answer [.text "FT.INFO", .text name] = (.ok (.list (flat (infoPairs name index
      (.text (String.ofList (Nat.toDigits 10 ids.length)))))), s)
  found : ∀ id ∈ ids, ∃ payload, Acts (get c type (.text id)) w s
    ((decoded c type (keyOf home.keyPrefix id) payload w.ids).1.map some) s.documents
    (decoded c type (keyOf home.keyPrefix id) payload w.ids).2

/-- A store with one document, and the world that it serves. -/
def single (key : String) : Store := ⟨[(key, "{}")], [], [], false⟩

def singleWorld (key : String) : World := ⟨.store (single key), [], [], 0⟩

theorem serves_singleWorld (key : String) : Serves (singleWorld key) (single key) := ⟨rfl, rfl⟩

/-- The identifier that a listing makes of a key. -/
def listedId (p key : String) : String :=
  String.ofList (Text.stripLead (p ++ ":").toList key.toList)

/-! ### Prefixes without wildcards -/

/-- The identifiers on a shelf are those with a document under their key. -/
theorem mem_map_shelfOf_iff {id : String} {documents : List (String × String)} :
    id ∈ (shelfOf p documents).map Prod.fst ↔ keyOf p id ∈ documents.map Prod.fst := by
  have hkeys : keyOf p id ∈ (documents.map Prod.fst).filter (fun key => (idUnder? p key).isSome) ↔
      keyOf p id ∈ ((shelfOf p documents).map Prod.fst).map (keyOf p) := by
    rw [filter_keys, List.map_map]
    rfl
  rw [mem_map_keyOf, List.mem_filter, idUnder?_keyOf] at hkeys
  exact hkeys.symm.trans (and_iff_left rfl)

section

variable (persisted : type.lineage = .persisted) (hhome : type.home = some home)

include persisted hhome

/-- **Listings.** For a prefix without wildcards, a listing holds the identifiers of all documents
that are stored under the prefix and found by its indexes. -/
theorem exists_listsAll (hp : Glob.hasWildcard home.keyPrefix.toList = false) (h : Serves w s)
    (hnodup : (s.documents.map Prod.fst).Nodup)
    (few : s.documents.length ≤ 10 ^ Numeral.digitLimit) (positive : 0 < batch) :
    ∃ ids, ListsAll c environment type home w s batch ids := by
  obtain ⟨ids, hids⟩ : ∃ ids, (shelfOf home.keyPrefix s.documents).map Prod.fst = ids := ⟨_, rfl⟩
  have hlength : (shelfOf home.keyPrefix s.documents).length = ids.length := by
    rw [← hids, List.length_map]
  have hle : ids.length ≤ s.documents.length := hlength ▸ length_shelfOf_le _ _
  have hlisted : listed batch ids = .ok ids := listed_of_length_le (hle.trans few) batch
  refine ⟨ids, ?_, ?_, hids ▸ nodup_shelfOf _ hnodup, fun id => hids ▸ mem_map_shelfOf_iff, ?_, ?_,
    ?_⟩
  -- all at once, page by page, by a search, by the index, and one by one
  · have hlist := acts_listIds persisted hhome hp h hnodup positive environment
    rwa [hids, hlisted] at hlist
  · obtain ⟨w', hpages, -⟩ := exists_scanFrom hp h hnodup positive
      (hids.trans (List.nil_append ids).symm) (Nat.dvd_zero batch) zero_lt_longest
    rw [List.nil_append, hlisted] at hpages
    exact ⟨w', fun bound hbound => hpages bound (Nat.lt_of_le_of_lt hle hbound)⟩
  · intro name index hindex hlead query args window hwindow
    rw [← hlength]
    exact Store.exists_answer_search hindex hlead query hwindow
  · intro name index hindex hlead
    rw [answer_info hindex, hlead, Store.keysUnder_eq, List.length_map, hlength]
  · intro id hid
    obtain ⟨e, he, rfl⟩ := List.mem_map.mp (hids ▸ hid)
    have hlookup : Store.lookup? s.documents (keyOf home.keyPrefix e.1) = some e.2 := by
      rw [← lookup?_shelfOf]
      exact Store.lookup?_of_mem (nodup_shelfOf _ hnodup) he
    have hget := acts_get (c := c) persisted hhome h (show shownId (.text e.1) = .ok e.1 from rfl)
    rw [hlookup] at hget
    exact ⟨e.2, hget⟩

/-! ### Stores with one document -/

/-- Where at most one key matches, its identifier is listed. -/
theorem exists_listIds_single (environment : List (String × String)) (h : Serves w s)
    (hone : (Store.matched home.keyPrefix s.documents).length ≤ 1) :
    ∃ w', listIds environment type (some 1) w =
      (.ok ((Store.matched home.keyPrefix s.documents).map (listedId home.keyPrefix)), w') := by
  have hnext : Store.nextStart 0 1 (Store.matched home.keyPrefix s.documents).length = 0 :=
    if_neg (by omega)
  have hscan := Store.answer_scan home.keyPrefix s 0 1
  rw [hnext, shownInt_natCast, if_pos zero_lt_longest, List.drop_zero,
    List.take_of_length_le hone] at hscan
  obtain ⟨w', hpage, -⟩ := Acts.execute h hscan
  have hadd : addIds (home.keyPrefix ++ ":") []
      ((Store.matched home.keyPrefix s.documents).map .text) =
      .ok ((Store.matched home.keyPrefix s.documents).map (listedId home.keyPrefix)) := by
    generalize Store.matched home.keyPrefix s.documents = keys at hone
    match keys with
    | [] => rfl
    | [key] => rfl
    | _ :: _ :: _ => exact absurd hone (by simp)
  refine ⟨w', ?_⟩
  have hlist := listIds_eq persisted hhome h Nat.zero_lt_one environment
  exact hlist.trans (scanFrom_succ hpage (readPage_eq zero_lt_longest _) hadd)

/-- A listing that is right for every store with one document comes from a prefix without
wildcards. -/
theorem hasWildcard_eq_false_of_listsAll
    (h : ∀ key, ∃ ids, ListsAll c environment type home (singleWorld key) (single key) 1 ids) :
    Glob.hasWildcard home.keyPrefix.toList = false := by
  refine (Glob.matchesStart_iff _).mp fun cs => ?_
  obtain ⟨key, hkey⟩ : ∃ key, String.ofList cs = key := ⟨_, rfl⟩
  obtain rfl : key.toList = cs := by rw [← hkey, String.toList_ofList]
  -- a store with one document tells whether the pattern matches its key
  obtain ⟨ids, hids⟩ := h key
  have hone : (Store.matched home.keyPrefix (single key).documents).length ≤ 1 :=
    List.length_filter_le _ _
  obtain ⟨w₁, hlist, -⟩ := hids.listed
  obtain ⟨w₂, hlist'⟩ :=
    exists_listIds_single persisted hhome environment (serves_singleWorld key) hone
  obtain rfl := Except.ok.inj (Prod.mk.inj (hlist.symm.trans hlist')).1
  have hstored := hids.stored
  simp only [single, List.map_cons, List.map_nil, List.mem_singleton] at hstored
  rw [← isSome_idUnder?]
  -- what is matched is listed, and what is listed is stored under the prefix; the other way round
  -- too
  cases hmatch : Glob.matchesAll (Glob.parse (home.keyPrefix.toList ++ [':', '*'])) key.toList with
  | true =>
    have hmatched : Store.matched home.keyPrefix [(key, "{}")] = [key] :=
      List.filter_cons_of_pos hmatch
    have hown := (hstored (listedId home.keyPrefix key)).mp (by
      rw [hmatched]
      exact List.mem_singleton_self _)
    rw [← hown, idUnder?_keyOf]
    rfl
  | false =>
    have hmatched : Store.matched home.keyPrefix [(key, "{}")] = [] :=
      List.filter_cons_of_neg (by simp [hmatch])
    cases hid : idUnder? home.keyPrefix key with
    | none => rfl
    | some id =>
      have hmem := (hstored id).mpr (idUnder?_eq_some_iff.mp hid).symm
      rw [hmatched] at hmem
      exact absurd hmem List.not_mem_nil

/-- **Listings and indexes.** In every store, for every size of the pages, a listing ends and holds
the identifiers of the documents under the prefix of the type, each of them once, as many as the
indexes of the prefix count, and each with a document, if and only if the prefix has no wildcard.
More documents than there are numerals make pages whose position cannot be told. -/
theorem listsAll_iff :
    (∀ w s batch, Serves w s → (s.documents.map Prod.fst).Nodup →
      s.documents.length ≤ 10 ^ Numeral.digitLimit → 0 < batch →
      ∃ ids, ListsAll c environment type home w s batch ids) ↔
    Glob.hasWildcard home.keyPrefix.toList = false := by
  constructor
  · intro h
    exact hasWildcard_eq_false_of_listsAll persisted hhome fun key =>
      h _ _ 1 (serves_singleWorld key) (List.nodup_singleton key) zero_lt_longest Nat.zero_lt_one
  · intro hp w s batch h hnodup few positive
    exact exists_listsAll persisted hhome hp h hnodup few positive

end

/-- Users whose keys have a bracket in their prefix that is never closed. -/
def openUsers : Catalogue :=
  Catalogue.bases.declare ⟨"User", "JsonModel", some "user[1", none, []⟩

/-- Two such users and one other document. -/
def openStore : Store :=
  ⟨[("user[1:a", "{}"), ("user1:b", "{}"), ("user[1:*", "{}")], [("idx:User", ⟨"user[1:", []⟩)], [],
    false⟩

theorem listsAll_iff_openUsers : openUsers.types[3].lineage = .persisted ∧
    openUsers.types[3].home = some ⟨"user[1", "idx:User"⟩ ∧
    ∃ ids, ListsAll openUsers [] openUsers.types[3] ⟨"user[1", "idx:User"⟩
      ⟨.store openStore, [], [], 0⟩ openStore 1 ids := by
  have hfew : 3 ≤ 10 ^ Numeral.digitLimit :=
    Nat.le_trans (show 3 ≤ 10 ^ 1 by decide) (Nat.pow_le_pow_right (by decide) (by decide))
  have hhome : openUsers.types[3].home = some ⟨"user[1", "idx:User"⟩ := rfl
  exact ⟨rfl, rfl, (listsAll_iff rfl hhome).mpr (by decide) _ _ 1 ⟨rfl, rfl⟩ (by decide) hfew
    Nat.zero_lt_one⟩

/-- Users whose keys have a bracket in their prefix that stands for one character. -/
def bracketUsers : Catalogue :=
  Catalogue.bases.declare ⟨"User", "JsonModel", some "user[1]", none, []⟩

/-- The document of a user that is stored under its key, and not listed. -/
theorem listIds_bracket : bracketUsers.types[3].lineage = .persisted ∧
    bracketUsers.types[3].home = some ⟨"user[1]", "idx:User"⟩ ∧
    Serves (singleWorld "user[1]:a") (single "user[1]:a") ∧
    keyOf "user[1]" "a" ∈ (single "user[1]:a").documents.map Prod.fst ∧
    ∃ w', listIds [] bracketUsers.types[3] (some 1) (singleWorld "user[1]:a") = (.ok [], w') := by
  have hmatched : Store.matched "user[1]" (single "user[1]:a").documents = [] := by decide
  have hhome : bracketUsers.types[3].home = some ⟨"user[1]", "idx:User"⟩ := rfl
  have hlist := exists_listIds_single rfl hhome [] (serves_singleWorld "user[1]:a")
    (List.length_filter_le _ _)
  rw [hmatched] at hlist
  exact ⟨rfl, rfl, serves_singleWorld _, by decide, hlist⟩

end Service

end IndexedRecords
