import IndexedRecords.Proofs.Service.Keys
import IndexedRecords.Proofs.Service.Paging

/-!
# One shelf for each type

The records of all types are stored in one table of documents. Where the prefixes of the types are
different, and no prefix has a character that separates keys or stands for others in a pattern, the
services answer as if each type had a table of its own, in which payloads stand under identifiers in
the order in which these came. What is done with one type changes no answer about another one.

The counter of fresh identifiers is the one thing that types share: a record that is loaded without
its identifier gets the next one.

## Main statements

* `mirrors`: what one operation answers, and what it leaves on the shelves.
* `answers_run`: the answers to all operations are those of the shelves.
-/

namespace IndexedRecords.Service

/-! ### Operations -/

/-- What is asked of the records of one type. -/
inductive Operation where
  | save (r : Record)
  | get (id : Value)
  | delete (id : Value)
  | deleteMany (ids : List Value)
  /-- a number of keys is asked for at once -/
  | allIds (batch : Nat) (positive : 0 < batch)

/-- What an operation answers. -/
inductive Answer where
  | key (key : String)
  | record (r : Option Value)
  | count (n : Int)
  | ids (ids : List String)

namespace Operation

/-- Does what is asked. -/
def perform (c : Catalogue) (environment : List (String × String)) (type : RecordType) :
    Operation → Service Answer
  | .save r => return .key (← Service.save c type r)
  | .get id => return .record (← Service.get c type id)
  | .delete id => return .count (← Service.delete type id)
  | .deleteMany ids => return .count (← Service.deleteMany type ids)
  | .allIds batch _ => return .ids (← listIds environment type (some batch))

/-- The shelf of a type after an operation. What fails changes nothing. -/
def leaves (c : Catalogue) (type : RecordType) (shelf : Shelf) : Operation → Shelf
  | .save r =>
    match filing c type r with
    | .ok (id, payload) => shelf.put id payload
    | .error _ => shelf
  | .delete id =>
    match shownId id with
    | .ok id => shelf.take [id]
    | .error _ => shelf
  | .deleteMany ids =>
    match ids.mapM shownId with
    | .ok ids => shelf.take ids
    | .error _ => shelf
  | .get _ | .allIds _ _ => shelf

/-- What a shelf answers to an operation, and the number of identifiers that have been made by
then. -/
def answer (c : Catalogue) (type : RecordType) (home : Home) (shelf : Shelf) (made : Nat) :
    Operation → Except Fault Answer × Nat
  | .save r => ((filing c type r).map fun (id, _) => .key (keyOf home.keyPrefix id), made)
  | .get id =>
    match shownId id with
    | .ok id =>
      let (found, made) := fetched c type (keyOf home.keyPrefix id) made (shelf.payload? id)
      (found.map .record, made)
    | .error fault => (.error fault, made)
  | .delete id => ((shownId id).map fun id => .count (shelf.among [id]).length, made)
  | .deleteMany ids =>
    ((ids.mapM shownId).map fun ids => .count (shelf.among ids).length, made)
  | .allIds batch _ => ((listed batch shelf.ids).map .ids, made)

end Operation

/-- Types of persisted records whose keys can be told apart. -/
structure Family (ι : Type) where
  type : ι → RecordType
  home : ι → Home
  persisted : ∀ i, (type i).lineage = .persisted
  stored : ∀ i, (type i).home = some (home i)
  distinct : ∀ i j, i ≠ j → (home i).keyPrefix ≠ (home j).keyPrefix
  plain : ∀ i, IsPlainPrefix (home i).keyPrefix

variable {ι : Type} [DecidableEq ι]

/-- The shelf of a type after some operations, of which only those on this type count. -/
def shelfAfter (c : Catalogue) (F : Family ι) (history : List (ι × Operation)) (i : ι) : Shelf :=
  ((history.filter fun step => step.1 = i).map Prod.snd).foldl (Operation.leaves c (F.type i))
    .empty

/-- The answers of the shelves to operations that come after some others. -/
def expected (c : Catalogue) (F : Family ι) : (history : List (ι × Operation)) → (made : Nat) →
    List (ι × Operation) → List (Except Fault Answer)
  | _, _, [] => []
  | history, made, (i, operation) :: rest =>
    let (answer, made) :=
      operation.answer c (F.type i) (F.home i) (shelfAfter c F history i) made
    answer :: expected c F (history ++ [(i, operation)]) made rest

/-- The answers of the services to operations, one after the other. -/
def run (c : Catalogue) (environment : List (String × String)) (F : Family ι) :
    List (ι × Operation) → World → List (Except Fault Answer)
  | [], _ => []
  | (i, operation) :: rest, w =>
    let (answer, w) := operation.perform c environment (F.type i) w
    answer :: run c environment F rest w

/-! ### One operation -/

variable {c : Catalogue} {environment : List (String × String)} {type : RecordType}
  {home : Home} {w : World} {s : Store} {shelf : Shelf}

/-- A store without failures has a shelf under a prefix. -/
structure HasShelf (keyPrefix : String) (w : World) (s : Store) (shelf : Shelf) : Prop where
  serves : Serves w s
  nodup : (s.documents.map Prod.fst).Nodup
  own : shelfOf keyPrefix s.documents = shelf.documents

/-- The documents that are found under the keys of some identifiers are those on the shelf. -/
theorem HasShelf.foundCount_eq (h : HasShelf home.keyPrefix w s shelf) (ids : List String) :
    foundCount home s.documents ids = (shelf.among ids).length := by
  rw [foundCount, countP_mem_map_keyOf, h.own, Shelf.length_among]

/-- An operation is answered as by a shelf, and changes nothing but this shelf. -/
def Mirrors (c : Catalogue) (environment : List (String × String)) (type : RecordType)
    (home : Home) (w : World) (s : Store) (shelf : Shelf) (operation : Operation) : Prop :=
  ∃ documents, Acts (operation.perform c environment type) w s
      (operation.answer c type home shelf w.ids).1 documents
      (operation.answer c type home shelf w.ids).2 ∧
    ChangesShelf home.keyPrefix s.documents documents (operation.leaves c type shelf)

section

variable (persisted : type.lineage = .persisted) (hhome : type.home = some home)
  (plain : IsPlainPrefix home.keyPrefix) (h : HasShelf home.keyPrefix w s shelf)

include persisted hhome h

include plain in
/-- Saving a record puts its payload on the shelf, and no other shelf changes. -/
theorem mirrors_save (r : Record) : Mirrors c environment type home w s shelf (.save r) := by
  have hsave := (acts_save (c := c) (r := r) persisted hhome h.serves).map Answer.key
  rw [Mirrors, Operation.perform, Operation.answer, Operation.leaves]
  cases hfiling : filing c type r with
  | error fault =>
    rw [hfiling] at hsave
    exact ⟨_, hsave, changesShelf_refl h.nodup h.own⟩
  | ok filed =>
    obtain ⟨id, payload⟩ := filed
    rw [hfiling] at hsave
    exact ⟨_, hsave, changesShelf_put plain.colon_notMem h.nodup h.own id payload⟩

/-- Getting a record reads its payload off the shelf. -/
theorem mirrors_get (v : Value) : Mirrors c environment type home w s shelf (.get v) := by
  rw [Mirrors, Operation.perform, Operation.answer, Operation.leaves]
  cases hid : shownId v with
  | error fault =>
    have hget := (acts_get_error (c := c) persisted hhome h.serves hid).map Answer.record
    exact ⟨_, hget, changesShelf_refl h.nodup h.own⟩
  | ok id =>
    have hget := (acts_get (c := c) persisted hhome h.serves hid).map Answer.record
    rw [← lookup?_shelfOf, h.own] at hget
    exact ⟨_, hget, changesShelf_refl h.nodup h.own⟩

include plain in
/-- Deleting a record takes its payload off the shelf. -/
theorem mirrors_delete (v : Value) : Mirrors c environment type home w s shelf (.delete v) := by
  rw [Mirrors, Operation.perform, Operation.answer, Operation.leaves]
  cases hid : shownId v with
  | error fault =>
    have hdelete := (acts_delete_error persisted hhome h.serves hid).map Answer.count
    exact ⟨_, hdelete, changesShelf_refl h.nodup h.own⟩
  | ok id =>
    have hdelete := (acts_delete persisted hhome h.serves h.nodup hid).map Answer.count
    rw [h.foundCount_eq] at hdelete
    exact ⟨_, hdelete, changesShelf_take plain.colon_notMem h.nodup h.own [id]⟩

include plain in
/-- Deleting records takes their payloads off the shelf. -/
theorem mirrors_deleteMany (vs : List Value) :
    Mirrors c environment type home w s shelf (.deleteMany vs) := by
  rw [Mirrors, Operation.perform, Operation.answer, Operation.leaves]
  cases hids : vs.mapM shownId with
  | error fault =>
    have hdelete := (acts_deleteMany_error persisted hhome h.serves hids).map Answer.count
    exact ⟨_, hdelete, changesShelf_refl h.nodup h.own⟩
  | ok ids =>
    have hdelete := (acts_deleteMany persisted hhome h.serves h.nodup hids).map Answer.count
    rw [h.foundCount_eq] at hdelete
    exact ⟨_, hdelete, changesShelf_take plain.colon_notMem h.nodup h.own ids⟩

include plain in
/-- Listing identifiers page by page gives those on the shelf. -/
theorem mirrors_allIds {batch : Nat} (positive : 0 < batch) :
    Mirrors c environment type home w s shelf (.allIds batch positive) := by
  have hlist :=
    (acts_listIds persisted hhome plain.hasWildcard_eq_false h.serves h.nodup positive
      environment).map Answer.ids
  rw [h.own] at hlist
  exact ⟨_, hlist, changesShelf_refl h.nodup h.own⟩

include plain in
/-- **One operation.** It is answered as by the shelf of its type, and changes this shelf only. -/
theorem mirrors (operation : Operation) :
    Mirrors c environment type home w s shelf operation := by
  cases operation with
  | save r => exact mirrors_save persisted hhome plain h r
  | get v => exact mirrors_get persisted hhome h v
  | delete v => exact mirrors_delete persisted hhome plain h v
  | deleteMany vs => exact mirrors_deleteMany persisted hhome plain h vs
  | allIds batch positive => exact mirrors_allIds persisted hhome plain h positive

end

/-! ### All operations -/

variable {F : Family ι} {history : List (ι × Operation)}

/-- One more operation changes the shelf of its own type, and leaves those of the others. -/
theorem shelfAfter_append (i j : ι) (operation : Operation) :
    shelfAfter c F (history ++ [(i, operation)]) j =
      if i = j then operation.leaves c (F.type j) (shelfAfter c F history j)
      else shelfAfter c F history j := by
  rw [shelfAfter, List.filter_append, List.map_append, List.foldl_append]
  by_cases h : i = j
  · rw [if_pos h, List.filter_cons_of_pos (by simpa using h)]
    rfl
  · rw [if_neg h, List.filter_cons_of_neg (by simpa using h)]
    rfl

/-- A store has the documents of some operations on its shelves. -/
structure Stocks (c : Catalogue) (F : Family ι) (s : Store) (history : List (ι × Operation)) :
    Prop where
  nodup : (s.documents.map Prod.fst).Nodup
  shelves : ∀ i, shelfOf (F.home i).keyPrefix s.documents = (shelfAfter c F history i).documents

theorem stocks_nil (h : s.documents = []) : Stocks c F s [] where
  nodup := by rw [h]; exact .nil
  shelves i := by rw [h]; rfl

/-- An operation on one type leaves the shelves of all types as they are to be. -/
theorem Stocks.append (h : Stocks c F s history) {i : ι} {operation : Operation}
    {documents : List (String × String)}
    (hchanges : ChangesShelf (F.home i).keyPrefix s.documents documents
      (operation.leaves c (F.type i) (shelfAfter c F history i))) :
    Stocks c F { s with documents } (history ++ [(i, operation)]) where
  nodup := hchanges.nodup
  shelves j := by
    rw [shelfAfter_append]
    by_cases hij : i = j
    · subst hij
      rw [if_pos rfl]
      exact hchanges.own
    · rw [if_neg hij, ← h.shelves j]
      exact hchanges.others _ (F.plain j).colon_notMem (F.distinct j i (Ne.symm hij))

/-- The answers of a run are those that the shelves give, operation by operation. The induction goes
along the steps, with the history of the operations before them. -/
theorem run_eq_expected (h : Serves w s) (hs : Stocks c F s history)
    (steps : List (ι × Operation)) :
    run c environment F steps w = expected c F history w.ids steps := by
  induction steps generalizing w s history with
  | nil => rfl
  | cons step steps ih =>
    obtain ⟨i, operation⟩ := step
    obtain ⟨documents, ⟨w', hrun, hserves, hids⟩, hchanges⟩ :
        Mirrors c environment (F.type i) (F.home i) w s (shelfAfter c F history i) operation :=
      mirrors (F.persisted i) (F.stored i) (F.plain i) ⟨h, hs.nodup, hs.shelves i⟩ operation
    rw [run, expected, hrun]
    dsimp only
    rw [ih hserves (hs.append hchanges), hids]

/-- Accounts, and drafts whose prefix starts with that of the accounts. -/
def desk : Catalogue :=
  accounts.declare ⟨"Draft", "JsonModel", some "account-draft", none,
    [.declare "id" (.scalar .text) [.primaryKey none] none none none .freshId]⟩

/-- The types of accounts and drafts. -/
def deskFamily : Family Bool where
  type isDraft := if isDraft then desk.types[4] else desk.types[3]
  home isDraft :=
    if isDraft then ⟨"account-draft", "idx:Draft"⟩ else ⟨"account", "idx:Account"⟩
  persisted := by decide
  stored := by decide
  distinct := by decide
  plain := by decide

/-- A draft. -/
def draft (id : String) : Record := ⟨"Draft", [("id", .text id)]⟩

theorem filing_draft (id : String) (readable : (Json.object [("id", .text id)]).Readable) :
    filing desk desk.types[4] (draft id) =
      .ok (id, String.ofList (Json.object [("id", .text id)]).write) :=
  filing_of_readable rfl readable rfl

end IndexedRecords.Service
