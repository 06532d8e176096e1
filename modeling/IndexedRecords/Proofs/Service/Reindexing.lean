import IndexedRecords.Proofs.Service.Running
import IndexedRecords.Proofs.Store.Indexes
import IndexedRecords.Proofs.Traversal
import IndexedRecords.Service.Indexes

/-!
# One record type of a migration

To create the index of a record type anew takes up to three commands, each of which may fail. What
comes of it is said here without any commands: `migrated` gives the answer and the indexes that are
left, for every store, whatever commands are set to fail and whatever the schema of the record type
is.

## Main statements

* `endsWith_drop`: what dropping an index does.
* `endsWith_migrateOne`: what migrating one record type does.
-/

namespace IndexedRecords.Service

open Schema

variable {α β : Type} {c : Catalogue} {r : RecordType} {home : Home} {w : World} {s : Store}

/-! ### Steps -/

/-- A handler has nothing to do with a service that succeeds. -/
theorem tryCatch_run {m : Service α} {handle : Fault → Service α} {a : α} {w' : World}
    (h : m w = (.ok a, w')) : (tryCatch m handle : Service α) w = (.ok a, w') := by
  simp only [tryCatch, tryCatchThe, MonadExceptOf.tryCatch, ExceptT.tryCatch, ExceptT.mk, bind,
    StateT.bind, h]
  rfl

/-- A handler starts in the world that the failure has left, so that what was done before it stays
done. -/
theorem tryCatch_run_error {m : Service α} {handle : Fault → Service α} {fault : Fault}
    {w' : World} (h : m w = (.error fault, w')) :
    (tryCatch m handle : Service α) w = handle fault w' := by
  simp only [tryCatch, tryCatchThe, MonadExceptOf.tryCatch, ExceptT.tryCatch, ExceptT.mk, bind,
    StateT.bind, h]

/-- A service gives an answer and leaves a store. -/
def EndsWith (m : Service α) (w : World) (answer : Except Fault α) (s : Store) : Prop :=
  ∃ w', m w = (answer, w') ∧ w'.endpoint = .store s

namespace EndsWith

variable {m : Service α} {f : α → Service β} {s₁ s₂ : Store} {answer : Except Fault β}

/-- What needs no store leaves it as it is. -/
theorem settled (h : w.endpoint = .store s) (outcome : Except Fault α) :
    EndsWith (settled outcome) w outcome s :=
  ⟨w, rfl, h⟩

/-- Two services in turn: the second one starts with the store that the first one leaves. -/
theorem bind {a : α} (h : EndsWith m w (.ok a) s₁)
    (hf : ∀ w', w'.endpoint = .store s₁ → EndsWith (f a) w' answer s₂) :
    EndsWith (m >>= f) w answer s₂ := by
  obtain ⟨w', hrun, hstore⟩ := h
  obtain ⟨w'', hrun', hstore'⟩ := hf w' hstore
  exact ⟨w'', (bind_run hrun).trans hrun', hstore'⟩

/-- Nothing happens after a service that fails. -/
theorem bind_error {fault : Fault} (h : EndsWith m w (.error fault) s₁) :
    EndsWith (m >>= f) w (.error fault) s₁ := by
  obtain ⟨w', hrun, hstore⟩ := h
  exact ⟨w', bind_run_error hrun, hstore⟩

/-- A value at hand leaves the store as it is. -/
theorem pure (h : w.endpoint = .store s) (a : α) : EndsWith (pure a) w (.ok a) s :=
  ⟨w, rfl, h⟩

/-- What is made of a result without effects. -/
theorem map {answer : Except Fault α} (h : EndsWith m w answer s) (f : α → β) :
    EndsWith (do return f (← m)) w (answer.map f) s := by
  cases answer with
  | error fault => exact h.bind_error
  | ok a => exact h.bind fun w' h' => .pure h' (f a)

/-- A handler leaves the answer and the store of a service that succeeds. -/
theorem caught {handle : Fault → Service α} {a : α} (h : EndsWith m w (.ok a) s) :
    EndsWith (tryCatch m handle) w (.ok a) s := by
  obtain ⟨w', hrun, hstore⟩ := h
  exact ⟨w', tryCatch_run hrun, hstore⟩

/-- A handler takes over with the store that the failure has left. -/
theorem caught_error {handle : Fault → Service α} {answer : Except Fault α} {fault : Fault}
    (h : EndsWith m w (.error fault) s₁)
    (hhandle : ∀ w', w'.endpoint = .store s₁ → EndsWith (handle fault) w' answer s₂) :
    EndsWith (tryCatch m handle) w answer s₂ := by
  obtain ⟨w', hrun, hstore⟩ := h
  obtain ⟨w'', hrun', hstore'⟩ := hhandle w' hstore
  exact ⟨w'', (tryCatch_run_error hrun).trans hrun', hstore'⟩

/-- A note in the log leaves the store as it is. -/
theorem note_bind {m : Service α} {answer : Except Fault α} (h : w.endpoint = .store s₁)
    (e : LogEvent) (hm : ∀ w', w'.endpoint = .store s₁ → EndsWith m w' answer s₂) :
    EndsWith (note e >>= fun _ => m) w answer s₂ := by
  have hnote : EndsWith (note e) w (.ok ()) s₁ := ⟨_, rfl, h⟩
  exact hnote.bind hm

end EndsWith

/-! ### Commands -/

/-- What the refusal of a command becomes. -/
def refusedAs (refused : Refusal → Fault) (r : Refusal) : Fault :=
  if r.kind = .foreign then .refused r else refused r

/-- What a command that has no reply becomes. -/
def commandFault (refused : Refusal → Fault) : CommandFault → Fault
  | .refused r => refusedAs refused r
  | .value fault => .value fault

/-- A command that is executed for a purpose leaves what the store makes of it, and its refusal is
reported in terms of that purpose. -/
theorem endsWith_executeFor (h : w.endpoint = .store s) {command : List Argument}
    {outcome : Except CommandFault Value} {s' : Store}
    (hexecute : s.execute command = (outcome, s'))
    (refused : Refusal → Fault) :
    EndsWith (executeFor refused command) w (outcome.mapError (commandFault refused)) s' := by
  have hsend : send command w =
      (.ok outcome, { w with endpoint := .store s', sent := w.sent ++ [command] }) := by
    rw [send, h, Endpoint.execute, hexecute]
  refine ⟨{ w with endpoint := .store s', sent := w.sent ++ [command] }, ?_, rfl⟩
  rw [executeFor, bind_run hsend]
  rcases outcome with (_ | _) | _ <;> rfl

/-- The failure that is set for a command. -/
def refusal? (s : Store) (command : String) : Option Refusal := Store.lookup? s.failures command

/-- A store refuses a command that is set to fail, without looking at its arguments, and answers any
other one. -/
theorem execute_eq {name : String} (hname : String.ofList (Text.upper name.toList) = name)
    (args : List Argument) : s.execute (.text name :: args) =
      match refusal? s name with
      | some r => (.error (.refused r), s)
      | none => s.answer (.text name :: args) := by
  have hupper : String.ofList (Text.upper
      (((Argument.text name :: args).head?.map Store.wordOf).getD "").toList) = name := hname
  rw [Store.execute, hupper]
  rfl

/-- A command that fails changes nothing. -/
theorem endsWith_executeFor_of_refusal (h : w.endpoint = .store s) {name : String}
    (hname : String.ofList (Text.upper name.toList) = name) {refusal : Refusal}
    (hrefusal : refusal? s name = some refusal) (refused : Refusal → Fault) (args : List Argument) :
    EndsWith (executeFor refused (.text name :: args)) w
      (.error (refusedAs refused refusal)) s := by
  have hexecute := execute_eq (s := s) hname args
  rw [hrefusal] at hexecute
  exact endsWith_executeFor h hexecute refused

/-- A command that does not fail is answered. -/
theorem endsWith_executeFor_of_answer (h : w.endpoint = .store s) {name : String}
    (hname : String.ofList (Text.upper name.toList) = name) (hrefusal : refusal? s name = none)
    (refused : Refusal → Fault) {args : List Argument} {outcome : Except CommandFault Value}
    {s' : Store} (hanswer : s.answer (.text name :: args) = (outcome, s')) :
    EndsWith (executeFor refused (.text name :: args)) w
      (outcome.mapError (commandFault refused)) s' := by
  have hexecute := execute_eq (s := s) hname args
  rw [hrefusal, hanswer] at hexecute
  exact endsWith_executeFor h hexecute refused

/-! ### Listing and dropping -/

/-- Texts in a reply are read back as they are. -/
theorem readTexts_map (f : α → String) (items : List α) :
    readTexts (.list (items.map fun a => .text (f a))) = .ok (items.map f) := by
  change (items.map fun a => Value.text (f a)).mapM Value.asText = .ok (items.map f)
  rw [List.mapM_map]
  exact Traversal.mapM_eq_ok_map fun _ _ => rfl

/-- A store that may list its indexes gives the names of all of them. -/
theorem endsWith_listIndexes (h : w.endpoint = .store s)
    (hlist : refusal? s "FT._LIST" = none) :
    EndsWith listIndexes w (.ok (s.indexes.map Prod.fst)) s := by
  rw [listIndexes]
  have hanswer : s.answer [.text "FT._LIST"] =
      (.ok (.list (s.indexes.map fun e => .text e.1)), s) := rfl
  refine (endsWith_executeFor_of_answer h rfl hlist _ hanswer).bind fun w' h' => ?_
  have hread := readTexts_map Prod.fst s.indexes
  generalize s.indexes = indexes at hread ⊢
  cases indexes with
  | nil => exact .settled h' (.ok [])
  | cons e indexes =>
    have htruthy : (Value.list ((e :: indexes).map fun e => .text e.1)).isTruthy = true := rfl
    rw [if_pos htruthy, hread]
    exact .settled h' (.ok _)

/-- What dropping an index answers, and the indexes it leaves. -/
def dropped (s : Store) (name : String) : Except Fault Bool × List (String × StoredIndex) :=
  match refusal? s "FT._LIST" with
  | some refusal => (.error (refusedAs (.indexFailed "*" "FT._LIST") refusal), s.indexes)
  | none =>
    match if Store.hasKey s.indexes name then refusal? s "FT.DROPINDEX" else none with
    | some refusal => (.error (refusedAs (.indexFailed name "FT.DROPINDEX") refusal), s.indexes)
    | none => (.ok (Store.hasKey s.indexes name), Store.erase name s.indexes)

/-- **Dropping.** An index that is listed is taken, unless a command fails. -/
theorem endsWith_drop (hhome : r.home = some home) (h : w.endpoint = .store s) :
    EndsWith (drop r) w (dropped s home.indexName).1
      { s with indexes := (dropped s home.indexName).2 } := by
  rw [drop, homeOf_eq hhome, lift_ok_bind, dropped]
  cases hlist : refusal? s "FT._LIST" with
  | some refusal =>
    have hrefused := endsWith_executeFor_of_refusal h rfl hlist (.indexFailed "*" "FT._LIST") []
    have hlisted : EndsWith listIndexes w (.error (refusedAs (.indexFailed "*" "FT._LIST") refusal))
        s := hrefused.bind_error
    exact hlisted.bind_error
  | none =>
    refine (endsWith_listIndexes h hlist).bind fun w' h' => ?_
    have hlisted : (s.indexes.map Prod.fst).contains home.indexName =
        Store.hasKey s.indexes home.indexName := by
      rw [Bool.eq_iff_iff, Store.hasKey_iff, List.contains_iff_mem]
    rw [hlisted]
    -- an index that is not listed is left alone, so that no command can fail
    cases hkey : Store.hasKey s.indexes home.indexName with
    | false =>
      have hmissing : home.indexName ∉ s.indexes.map Prod.fst := by
        rw [← Store.hasKey_iff, hkey]
        exact Bool.false_ne_true
      have herase := Store.erase_of_notMem hmissing
      simp only [Bool.false_eq_true, if_false, herase]
      exact .settled h' (.ok false)
    | true =>
      simp only [if_true]
      cases hdrop : refusal? s "FT.DROPINDEX" with
      | some refusal =>
        have hrefused := endsWith_executeFor_of_refusal h' rfl hdrop
          (.indexFailed home.indexName "FT.DROPINDEX") [.text home.indexName]
        exact hrefused.bind_error
      | none =>
        have hanswer : s.answer [.text "FT.DROPINDEX", .text home.indexName] =
            (.ok (.text "OK"), { s with indexes := Store.erase home.indexName s.indexes }) := by
          rw [Store.answer, Store.dropIndex, if_pos hkey]
        have hdropped := endsWith_executeFor_of_answer h' rfl hdrop
          (.indexFailed home.indexName "FT.DROPINDEX") hanswer
        refine hdropped.bind fun w'' h'' => .note_bind h'' _ fun w''' h''' => ?_
        exact .settled h''' (.ok true)

/-! ### Creating -/

/-- What creating the index of a record type answers, and the indexes it leaves. -/
def created (s : Store) (home : Home) (leaves : List Leaf) :
    Except Fault (Option String) × List (String × StoredIndex) :=
  match refusal? s "FT.CREATE" with
  | some refusal =>
    (.error (refusedAs (.indexFailed home.indexName "FT.CREATE") refusal), s.indexes)
  | none =>
    match Store.readClauses [] none (leaves.flatMap Leaf.clause) with
    | .error fault =>
      (.error (commandFault (.indexFailed home.indexName "FT.CREATE") fault), s.indexes)
    | .ok attributes =>
      (.ok (some home.indexName),
        s.indexes ++ [(home.indexName, ⟨home.keyPrefix ++ ":", attributes⟩)])

/-- The command that creates an index whose leaves are known. -/
def creation (home : Home) (leaves : List Leaf) : List Argument :=
  [.text "FT.CREATE", .text home.indexName, .text "ON", .text "JSON", .text "PREFIX", .int 1,
    .text (home.keyPrefix ++ ":"), .text "SCHEMA"] ++ (leaves.flatMap Leaf.clause).map .text

/-- The command for a record type with a home and a schema says what to index, and under which
prefix. -/
theorem createCommand_eq {leaves : List Leaf} (hhome : r.home = some home)
    (hcompile : compile c r = .ok leaves) : createCommand c r = .ok (creation home leaves) := by
  rw [createCommand, homeOf_eq hhome, hcompile]
  rfl

/-- The words of a creation after the name of the index. -/
theorem answer_creation (s : Store) (home : Home) (leaves : List Leaf) :
    s.answer (creation home leaves) = s.createIndex home.indexName
      (Store.declaration home.keyPrefix (leaves.flatMap Leaf.clause)) := by
  have hwords : ((leaves.flatMap Leaf.clause).map Argument.text).map Store.wordOf =
      leaves.flatMap Leaf.clause := by
    rw [List.map_map]
    exact List.map_id _
  have hanswer : s.answer (creation home leaves) = s.createIndex home.indexName
      (Store.declaration home.keyPrefix
        (((leaves.flatMap Leaf.clause).map Argument.text).map Store.wordOf)) := rfl
  rw [hanswer, hwords]

/-- Creating an index under a new name adds it to the table, unless the command is refused. -/
theorem endsWith_create {leaves : List Leaf} (h : w.endpoint = .store s)
    (hname : home.indexName ∉ s.indexes.map Prod.fst) :
    EndsWith (do
        let _ ← executeFor (.indexFailed home.indexName "FT.CREATE") (creation home leaves)
        note (.indexCreated home.indexName leaves.length)
        return some home.indexName) w (created s home leaves).1
      { s with indexes := (created s home leaves).2 } := by
  rw [created]
  cases hcreate : refusal? s "FT.CREATE" with
  | some refusal =>
    exact (endsWith_executeFor_of_refusal h rfl hcreate _ _).bind_error
  | none =>
    have hanswer := (answer_creation s home leaves).trans (Store.createIndex_eq hname _ _)
    cases hread : Store.readClauses [] none (leaves.flatMap Leaf.clause) with
    | error fault =>
      rw [hread] at hanswer
      exact (endsWith_executeFor_of_answer h rfl hcreate _ hanswer).bind_error
    | ok attributes =>
      rw [hread] at hanswer
      refine (endsWith_executeFor_of_answer h rfl hcreate _ hanswer).bind fun w' h' => ?_
      exact .note_bind h' _ fun w'' h'' => .settled h'' (.ok _)

/-! ### Migrating -/

/-- What dropping and creating the index of a record type with some leaves answers, and the indexes
it leaves. -/
def recreated (s : Store) (home : Home) (leaves : List Leaf) :
    Except Fault (Option String) × List (String × StoredIndex) :=
  match dropped s home.indexName with
  | (.error fault, indexes) => (.error fault, indexes)
  | (.ok _, indexes) => created { s with indexes } home leaves

/-- What migrating a record type answers, and the indexes it leaves. -/
def migrated (c : Catalogue) (s : Store) (r : RecordType) :
    Except Fault (Option String) × List (String × StoredIndex) :=
  if r.lineage ≠ .persisted then (.ok none, s.indexes)
  else
    match compile c r, r.home with
    | .error fault, _ => (.error (.schema fault), s.indexes)
    | .ok [], _ => (.ok none, s.indexes)
    | .ok _, none => (.error (.noProperty "index_name"), s.indexes)
    | .ok leaves, some home => recreated s home leaves

/-- An index that has been dropped is erased from the table, whether it was there or not. -/
theorem erase_of_dropped {name : String} {found : Bool} {indexes : List (String × StoredIndex)}
    (h : dropped s name = (.ok found, indexes)) : indexes = Store.erase name s.indexes := by
  rw [dropped] at h
  split at h
  · cases h
  · split at h
    · cases h
    · cases h
      rfl

/-- **Migrating one record type.** Whatever it is and whatever commands fail, what comes of its
migration is what `migrated` says. -/
theorem endsWith_migrateOne (c : Catalogue) (r : RecordType) (h : w.endpoint = .store s) :
    EndsWith (migrateOne c r) w (migrated c s r).1 { s with indexes := (migrated c s r).2 } := by
  rw [migrateOne, migrated]
  by_cases skipped : r.lineage ≠ .persisted
  · rw [if_pos skipped, if_pos skipped]
    exact .note_bind h _ fun w' h' => .settled h' (.ok none)
  rw [if_neg skipped, if_neg skipped]
  cases hcompile : compile c r with
  | error fault => exact .settled h (.error (.schema fault))
  | ok leaves =>
    cases leaves with
    | nil => exact .note_bind h _ fun w' h' => .settled h' (.ok none)
    | cons first leaves =>
      change EndsWith (do
        let _ ← drop r
        let home ← (homeOf r "index_name" : Except Fault Home)
        let command ← (createCommand c r : Except Fault (List Argument))
        let _ ← executeFor (.indexFailed home.indexName "FT.CREATE") command
        note (.indexCreated home.indexName (first :: leaves).length)
        return some home.indexName) w _ _
      -- without a home the index has no name, and dropping it fails at once
      cases hhome : r.home with
      | none =>
        have hnone : homeOf r "index_name" = .error (.noProperty "index_name") := by
          rw [homeOf, hhome]
        have hdrop : EndsWith (drop r) w (.error (.noProperty "index_name")) s := by
          rw [drop, hnone]
          exact .settled h (.error _)
        exact hdrop.bind_error
      | some home =>
        have hdrop := endsWith_drop hhome h
        dsimp only
        rw [recreated]
        cases hdropped : dropped s home.indexName with
        | mk outcome indexes =>
          rw [hdropped] at hdrop
          cases outcome with
          | error fault => exact hdrop.bind_error
          | ok found =>
            refine hdrop.bind fun w' h' => ?_
            rw [homeOf_eq hhome, lift_ok_bind, createCommand_eq hhome hcompile, lift_ok_bind]
            refine endsWith_create h' ?_
            rw [erase_of_dropped hdropped]
            exact Store.notMem_erase _ _

end IndexedRecords.Service
