import IndexedRecords.Proofs.Service.Migration

/-!
# Migrations on stores that refuse commands

Any of the three commands of a migration may be set to fail. Which of them are decides what becomes
of the entry of every declared index: it is left as it is, or erased, or added where there is none
of its name, or replaced (`reindexed_cases`). To do any of this twice is the same as to do it once.

## Main statements

* `migrate_idempotent`: a second migration changes nothing, whatever commands fail.
* `eq_or_erased_of_migrate_error`: what a failed migration of one record type leaves.
-/

namespace IndexedRecords.Service

open Schema

variable {c : Catalogue} {r : RecordType} {types : List RecordType} {home : Home} {w : World}
  {s : Store} {e : String × StoredIndex}

/-! ### Repeated migrations -/

/-- The failures that are set for commands are errors of stores. -/
def FailsAsStore (s : Store) : Prop := ∀ f ∈ s.failures, f.2.kind ≠ .foreign

instance (s : Store) : Decidable (FailsAsStore s) :=
  inferInstanceAs (Decidable (∀ f ∈ s.failures, f.2.kind ≠ .foreign))

theorem refusedAs_of_refusal? {command : String} {refusal : Refusal} (hs : FailsAsStore s)
    (h : refusal? s command = some refusal) (refused : Refusal → Fault) :
    refusedAs refused refusal = refused refusal := by
  obtain ⟨f, hf, rfl⟩ := Option.map_eq_some_iff.mp h
  exact if_neg (hs f (List.mem_of_find?_eq_some hf))

theorem isOwn_of_dropped {name : String} {fault : Fault} (hs : FailsAsStore s)
    (h : (dropped s name).1 = .error fault) : fault.isOwn := by
  rw [dropped] at h
  split at h
  · next hrefusal =>
    rw [refusedAs_of_refusal? hs hrefusal] at h
    cases h
    rfl
  · split at h
    · next hrefusal =>
      split at hrefusal
      · rw [refusedAs_of_refusal? hs hrefusal] at h
        cases h
        rfl
      · cases hrefusal
    · cases h

theorem isOwn_of_renewed {fault : Fault} (hs : FailsAsStore s)
    (h : (renewed s e).1 = .error fault) : fault.isOwn := by
  rw [renewed] at h
  split at h
  · next hdropped =>
    cases h
    exact isOwn_of_dropped hs (congrArg Prod.fst hdropped)
  · split at h
    · next hrefusal =>
      rw [refusedAs_of_refusal? hs hrefusal] at h
      cases h
      rfl
    · cases h

/-- The indexes that are left of some others when an entry is put anew into them. -/
def reindexed (s : Store) (indexes : List (String × StoredIndex)) (e : String × StoredIndex) :
    List (String × StoredIndex) :=
  (renewed { s with indexes } e).2

/-- Where all faults are those of records and indexes, a migration tries every record type. -/
theorem indexes_migratedEach (hs : FailsAsStore s) (hm : ∀ r ∈ types, IsMigratable c r) :
    (migratedEach c s types).2 =
      (types.filterMap (declared? c)).foldl (reindexed s) s.indexes := by
  induction types generalizing s with
  | nil => rfl
  | cons r types ih =>
    obtain ⟨hr, htypes⟩ := List.forall_mem_cons.mp hm
    cases hdeclared : declared? c r with
    | some e =>
      rw [migratedEach, migrated_eq hr, schemaFault?_of_declared? hdeclared, hdeclared,
        List.filterMap_cons_some hdeclared, List.foldl_cons]
      dsimp only
      cases hrenewed : renewed s e with
      | mk outcome indexes =>
        have hindexes : reindexed s s.indexes e = indexes := congrArg Prod.snd hrenewed
        have hrest := ih (s := { s with indexes }) hs htypes
        rw [hindexes]
        -- a failure of the store is passed over as well, with what it has left of the indexes
        cases outcome with
        | ok name => exact hrest
        | error fault =>
          have own := isOwn_of_renewed hs (congrArg Prod.fst hrenewed)
          dsimp only
          rw [if_pos own]
          exact hrest
    | none =>
      rw [migratedEach_cons_of_none hr hdeclared, List.filterMap_cons_none hdeclared]
      exact ih hs htypes

/-- An entry stays if the store lists no indexes, or does not drop the one that is in its way. -/
theorem reindexed_eq (s : Store) (indexes : List (String × StoredIndex))
    (e : String × StoredIndex) : reindexed s indexes e =
      if (refusal? s "FT._LIST").isSome then indexes
      else if Store.hasKey indexes e.1 ∧ (refusal? s "FT.DROPINDEX").isSome then indexes
      else if (refusal? s "FT.CREATE").isSome then Store.erase e.1 indexes
      else Store.replace indexes e := by
  have hrefusal : refusal? { s with indexes } = refusal? s := rfl
  rw [reindexed, renewed, dropped, hrefusal]
  cases refusal? s "FT._LIST" with
  | some refusal => rfl
  | none =>
    by_cases hkey : Store.hasKey indexes e.1
    · cases refusal? s "FT.DROPINDEX" <;> cases refusal? s "FT.CREATE" <;>
        simp [hkey, Store.replace]
    · cases refusal? s "FT.CREATE" <;> simp [hkey, Store.replace]

/-- Which commands fail decides what becomes of every entry. -/
theorem reindexed_cases (s : Store) :
    (reindexed s = fun indexes _ => indexes) ∨
      (reindexed s = fun indexes e => Store.erase e.1 indexes) ∨
      reindexed s = Store.complete ∨ reindexed s = Store.replace := by
  by_cases hlist : (refusal? s "FT._LIST").isSome
  -- a migration gets no further than the list of indexes
  · refine .inl (funext fun indexes => funext fun e => ?_)
    rw [reindexed_eq, if_pos hlist]
  by_cases hdrop : (refusal? s "FT.DROPINDEX").isSome
  -- an index that is there is in the way of another one of its name
  · have hkept (indexes : List (String × StoredIndex)) (e : String × StoredIndex) :
        reindexed s indexes e = if Store.hasKey indexes e.1 then indexes
          else if (refusal? s "FT.CREATE").isSome then indexes else indexes ++ [e] := by
      rw [reindexed_eq, if_neg hlist]
      by_cases hkey : Store.hasKey indexes e.1
      · rw [if_pos ⟨hkey, hdrop⟩, if_pos hkey]
      · rw [if_neg (mt And.left hkey), if_neg hkey, Store.replace,
          Store.erase_of_notMem (mt Store.hasKey_iff.mpr hkey)]
    by_cases hcreate : (refusal? s "FT.CREATE").isSome
    · refine .inl (funext fun indexes => funext fun e => ?_)
      rw [hkept, if_pos hcreate, ite_self]
    · refine .inr (.inr (.inl (funext fun indexes => funext fun e => ?_)))
      rw [hkept, if_neg hcreate, Store.complete]
  by_cases hcreate : (refusal? s "FT.CREATE").isSome
  -- what is dropped is not created again
  · refine .inr (.inl (funext fun indexes => funext fun e => ?_))
    rw [reindexed_eq, if_neg hlist, if_neg (mt And.right hdrop), if_pos hcreate]
  · refine .inr (.inr (.inr (funext fun indexes => funext fun e => ?_)))
    rw [reindexed_eq, if_neg hlist, if_neg (mt And.right hdrop), if_neg hcreate]

/-- Putting entries anew into a table twice is the same as doing so once, whatever commands fail. -/
theorem foldl_reindexed_twice (s : Store) (indexes entries : List (String × StoredIndex)) :
    entries.foldl (reindexed s) (entries.foldl (reindexed s) indexes) =
      entries.foldl (reindexed s) indexes := by
  obtain h | h | h | h := reindexed_cases s <;> rw [h]
  · exact List.foldl_fixed _
  · exact Store.foldl_erase_twice indexes entries
  · exact Store.foldl_complete_twice indexes entries
  · exact Store.foldl_replace_twice indexes entries

theorem indexes_migratedEach_twice (hs : FailsAsStore s) (hm : ∀ r ∈ types, IsMigratable c r) :
    (migratedEach c { s with indexes := (migratedEach c s types).2 } types).2 =
      (migratedEach c s types).2 := by
  have hagain := indexes_migratedEach (s := { s with indexes := (migratedEach c s types).2 }) hs hm
  rw [hagain, indexes_migratedEach hs hm]
  exact foldl_reindexed_twice s s.indexes _

/-- **Repeated migrations.** Whatever commands of a store fail, a second migration leaves the store
as the first one does. Where none fails, it also ends as the first one does. -/
theorem migrate_idempotent (h : w.endpoint = .store s) (hs : FailsAsStore s)
    (hm : ∀ r ∈ types, IsMigratable c r) :
    ∃ outcome₁ outcome₂ w₁ w₂ s', migrate c types w = (outcome₁, w₁) ∧
      migrate c types w₁ = (outcome₂, w₂) ∧ w₁.endpoint = .store s' ∧ w₂.endpoint = .store s' ∧
      s'.documents = s.documents ∧ (s.failures = [] → outcome₂ = outcome₁) := by
  obtain ⟨w₁, hrun₁, hstore₁⟩ := endsWith_migrate c types h
  obtain ⟨w₂, hrun₂, hstore₂⟩ := endsWith_migrate c types hstore₁
  refine ⟨_, _, w₁, w₂, _, hrun₁, hrun₂, hstore₁, ?_, rfl, fun hnone => ?_⟩
  · rw [hstore₂, indexes_migratedEach_twice hs hm]
  · have hagain := migratedEach_of_failures
      (s := { s with indexes := (migratedEach c s types).2 }) hnone hm
    rw [hagain, migratedEach_of_failures hnone hm]

/-- A store that does not drop indexes. -/
def lockedStock : Store := stock.fail "ft.dropindex" ⟨.response, "locked"⟩

/-- A record type may be migrated twice at once, and schemas may be at fault. -/
theorem migrate_idempotent_library :
    ∃ outcome₁ outcome₂ w₁ w₂ s',
      migrate library [library.types[4], library.types[5], library.types[4]]
        ⟨.store lockedStock, [], [], 0⟩ = (outcome₁, w₁) ∧
      migrate library [library.types[4], library.types[5], library.types[4]] w₁ =
        (outcome₂, w₂) ∧
      w₁.endpoint = .store s' ∧ w₂.endpoint = .store s' ∧
      s'.documents = lockedStock.documents ∧ (lockedStock.failures = [] → outcome₂ = outcome₁) := by
  have hbook := isMigratable_library library.types[4] (List.mem_of_getElem? (i := 1) rfl)
  have htally := isMigratable_library library.types[5] (List.mem_of_getElem? (i := 2) rfl)
  refine migrate_idempotent rfl (by decide) ?_
  simp only [List.forall_mem_cons]
  exact ⟨hbook, htally, hbook, nofun⟩

/-! ### Failed migrations -/

theorem refusedAs_of_isOwn {refused : Refusal → Fault} {refusal : Refusal}
    (own : (refusedAs refused refusal).isOwn) : refusedAs refused refusal = refused refusal := by
  refine if_neg fun foreign => ?_
  rw [refusedAs, if_pos foreign] at own
  exact absurd own Bool.false_ne_true

theorem refusedAs_ne {command command' : String} (h : command ≠ command') (name name' : String)
    (refusal refusal' : Refusal) :
    refusedAs (.indexFailed name command) refusal ≠ .indexFailed name' command' refusal' := by
  rw [refusedAs]
  split
  · exact nofun
  · exact fun heq => h (Fault.indexFailed.inj heq).2.1

/-- Where an index cannot be dropped, all indexes are left. -/
theorem dropped_eq_error {name : String} {fault : Fault} {indexes : List (String × StoredIndex)}
    (h : dropped s name = (.error fault, indexes)) :
    indexes = s.indexes ∧ ∀ name' refusal, fault ≠ .indexFailed name' "FT.CREATE" refusal := by
  rw [dropped] at h
  split at h
  · cases h
    exact ⟨rfl, fun name' refusal => refusedAs_ne (by decide) _ name' _ refusal⟩
  · split at h
    · cases h
      exact ⟨rfl, fun name' refusal => refusedAs_ne (by decide) _ name' _ refusal⟩
    · cases h

/-- Where an index cannot be created, all others are left. -/
theorem created_eq_error {leaves : List Leaf} {fault : Fault}
    {indexes : List (String × StoredIndex)} (h : created s home leaves = (.error fault, indexes))
    (own : fault.isOwn) :
    indexes = s.indexes ∧ ∃ refusal, fault = .indexFailed home.indexName "FT.CREATE" refusal := by
  rw [created] at h
  split at h
  · cases h
    exact ⟨rfl, _, refusedAs_of_isOwn own⟩
  · split at h
    · next failure _ =>
      cases h
      cases failure with
      | refused refusal => exact ⟨rfl, refusal, refusedAs_of_isOwn own⟩
      | value fault => cases own
    · cases h

theorem migrated_eq_error {fault : Fault} {indexes : List (String × StoredIndex)}
    (h : migrated c s r = (.error fault, indexes)) (own : fault.isOwn) :
    (indexes = s.indexes ∧ ∀ name refusal, fault ≠ .indexFailed name "FT.CREATE" refusal) ∨
      ∃ home refusal, r.home = some home ∧
        fault = .indexFailed home.indexName "FT.CREATE" refusal ∧
        indexes = Store.erase home.indexName s.indexes := by
  rw [migrated] at h
  split at h
  · cases h
  · split at h
    · cases h
      exact .inl ⟨rfl, fun _ _ heq => Fault.noConfusion heq⟩
    · cases h
    · cases h
      cases own
    -- a failure to drop leaves the indexes, a failure to create leaves them without the old one
    · next home _ hhome =>
      rw [recreated] at h
      split at h
      · next hdropped =>
        cases h
        exact .inl (dropped_eq_error hdropped)
      · next hdropped =>
        obtain ⟨hindexes, refusal, hfault⟩ := created_eq_error h own
        refine .inr ⟨_, refusal, hhome, hfault, hindexes.trans ?_⟩
        exact erase_of_dropped hdropped

/-- **Failed migrations.** A migration of a record type that fails leaves the store as it was,
unless the index that it has dropped cannot be created: then this index is gone. -/
theorem eq_or_erased_of_migrate_error {w' : World} {fault : Fault} (h : w.endpoint = .store s)
    (hrun : migrate c [r] w = (.error fault, w')) (own : fault.isOwn) :
    ∃ s', w'.endpoint = .store s' ∧
      ((s' = s ∧ ∀ name refusal, fault ≠ .indexFailed name "FT.CREATE" refusal) ∨
        ∃ home refusal, r.home = some home ∧
          fault = .indexFailed home.indexName "FT.CREATE" refusal ∧
          s' = { s with indexes := Store.erase home.indexName s.indexes }) := by
  obtain ⟨w'', hrun', hstore⟩ := endsWith_migrate_single c r h
  rw [hrun] at hrun'
  obtain ⟨houtcome, rfl⟩ := Prod.mk.inj hrun'
  refine ⟨_, hstore, ?_⟩
  cases hmigrated : migrated c s r with
  | mk outcome indexes =>
    rw [hmigrated] at houtcome
    cases outcome with
    | ok name => cases houtcome
    | error fault' =>
      cases houtcome
      obtain ⟨rfl, hfault⟩ | ⟨home, refusal, hhome, hfault, rfl⟩ := migrated_eq_error hmigrated own
      · exact .inl ⟨rfl, hfault⟩
      · exact .inr ⟨home, refusal, hhome, hfault, rfl⟩

/-- A store that does not create indexes. -/
def closedStock : Store := stock.fail "ft.create" ⟨.response, "Unknown argument"⟩

/-- What happens to books in a store that does not create indexes. -/
theorem endsWith_migrate_closedStock :
    EndsWith (migrate library [library.types[4]]) ⟨.store closedStock, [], [], 0⟩
      (.error (.indexFailed "idx:Book" "FT.CREATE" ⟨.response, "Unknown argument"⟩))
      { closedStock with indexes := [("idx:Tally", ⟨"tally:", []⟩)] } := by
  have hmigrated : migrated library closedStock library.types[4] =
      (.error (.indexFailed "idx:Book" "FT.CREATE" ⟨.response, "Unknown argument"⟩),
        [("idx:Tally", ⟨"tally:", []⟩)]) := rfl
  have hone := endsWith_migrate_single library library.types[4]
    (w := ⟨.store closedStock, [], [], 0⟩) rfl
  rw [hmigrated] at hone
  exact hone

theorem eq_or_erased_of_migrate_error_library :
    ∃ w' fault, migrate library [library.types[4]] ⟨.store closedStock, [], [], 0⟩ =
        (.error fault, w') ∧ fault.isOwn ∧ ∃ s', w'.endpoint = .store s' ∧
      ((s' = closedStock ∧ ∀ name refusal, fault ≠ .indexFailed name "FT.CREATE" refusal) ∨
        ∃ home refusal, library.types[4].home = some home ∧
          fault = .indexFailed home.indexName "FT.CREATE" refusal ∧
          s' = { closedStock with
            indexes := Store.erase home.indexName closedStock.indexes }) := by
  obtain ⟨w', hrun, -⟩ := endsWith_migrate_closedStock
  exact ⟨w', _, hrun, rfl, eq_or_erased_of_migrate_error rfl hrun rfl⟩

/-- An index that is there before a migration may not be there after it has failed. -/
theorem migrate_error_loses_index :
    ∃ w' fault s', FailsAsStore closedStock ∧ library.types[4].lineage = .persisted ∧
      library.types[4].home = some ⟨"book", "idx:Book"⟩ ∧
      migrate library [library.types[4]] ⟨.store closedStock, [], [], 0⟩ = (.error fault, w') ∧
      fault.isOwn ∧ w'.endpoint = .store s' ∧
      Store.lookup? closedStock.indexes "idx:Book" = some ⟨"book:", []⟩ ∧
      Store.lookup? s'.indexes "idx:Book" = none := by
  obtain ⟨w', hrun, hstore⟩ := endsWith_migrate_closedStock
  exact ⟨w', _, _, by decide, rfl, rfl, hrun, rfl, hstore, by decide, by decide⟩

end IndexedRecords.Service
