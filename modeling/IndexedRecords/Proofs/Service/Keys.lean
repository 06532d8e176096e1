import IndexedRecords.Proofs.Record.Identifiers
import IndexedRecords.Proofs.Service.Documents

/-!
# Keys of records that are loaded

A record that is saved and loaded again has the key that it was saved under, if its identifier is
looked up where it is written, and lasts. Saving it once more then overwrites the one document and
adds none. The other fields may be written and read as anything, as long as the record is loaded at
all.

## Main statements

* `key_get_save`: a loaded record writes back to the key it came from.
* `key_get_save_elsewhere`: an identifier that is not looked up where it is written.
-/

namespace IndexedRecords.Service

open Record Traversal

variable {c : Catalogue} {type : RecordType} {home : Home} {r : Record} {w w₁ w₂ w₃ : World}
  {s : Store} {f : Field} {v loaded : Value} {id key payload : String}

/-- What is filed of a record is its identifier, and its document as a text. -/
theorem exists_of_filing {id' : String} (found : c.find? r.model = some type)
    (hid : r.primaryKey type = .ok id) (h : filing c type r = .ok (id', payload)) :
    id' = id ∧ ∃ members, writeFields .off type (fieldWriters c r.fields) = some members ∧
      payload = String.ofList (Json.object members).write := by
  cases hpayload : recordDocument c type r with
  | error fault =>
    rw [filing, hpayload] at h
    cases h
  | ok payload' =>
    rw [filing_eq hpayload hid] at h
    split at h
    · cases h
    · cases h
      rw [recordDocument, Record.toJson?, found, Option.bind_eq_bind, Option.bind_some] at hpayload
      cases hmembers : writeFields .off type (fieldWriters c r.fields) with
      | none =>
        rw [hmembers, hid] at hpayload
        cases hpayload
      | some members =>
        rw [hmembers] at hpayload
        cases hpayload
        exact ⟨rfl, members, rfl, rfl⟩

/-- What is loaded from the text of an object is read from its members. -/
theorem exists_of_decoded {members : List (String × Json)} {ids : Nat}
    (h : (decoded c type key (String.ofList (Json.object members).write) ids).1 = .ok loaded) :
    ∃ read p, List.Forall₂ Json.ReadAs members read ∧
      (ofJson c type.name (.object (Json.mergeMembers read)) p).1 = .ok loaded := by
  have hdocument : (ofDocument c type.name (.text (String.ofList (Json.object members).write))
      (.start ids)).1 = .ok loaded := by
    rw [decoded] at h
    split at h
    · next hread =>
      cases h
      rw [hread]
    · cases h
    · cases h
  rw [ofDocument, documentText] at hdocument
  simp only [Value.plain, String.toList_ofList] at hdocument
  obtain ⟨cs, hcs, p, hread⟩ := exists_of_bind hdocument
  obtain rfl : (Json.object members).write = cs := Except.ok.inj hcs
  -- a text that is not read as JSON gives no record
  cases hdoc : Json.read? (Json.object members).write with
  | none =>
    rw [hdoc] at hread
    cases hread
  | some j =>
    rw [hdoc] at hread
    obtain ⟨read, rfl, hmembers⟩ := Json.exists_members_of_read? hdoc
    exact ⟨read, p, hmembers, hread⟩

/-- What saving a record successfully leaves: its text under its key. -/
theorem exists_of_save (persisted : type.lineage = .persisted) (hhome : type.home = some home)
    (h : Serves w s) (hsave : save c type r w = (.ok key, w₁)) :
    ∃ id payload, filing c type r = .ok (id, payload) ∧ key = keyOf home.keyPrefix id ∧
      Serves w₁ { s with documents := Store.insert key payload s.documents } := by
  obtain ⟨w', hrun, hserves, -⟩ := acts_save (c := c) (r := r) persisted hhome h
  rw [hsave] at hrun
  obtain ⟨hanswer, rfl⟩ := Prod.mk.inj hrun
  cases hfiling : filing c type r with
  | error fault =>
    rw [hfiling] at hanswer
    cases hanswer
  | ok filed =>
    obtain ⟨id, payload⟩ := filed
    rw [hfiling] at hanswer hserves
    obtain rfl := Except.ok.inj hanswer
    exact ⟨id, payload, rfl, rfl, hserves⟩

/-- Getting a record successfully decodes the text under its key, and leaves the store as it is. -/
theorem exists_of_get (persisted : type.lineage = .persisted) (hhome : type.home = some home)
    (h : Serves w s)
    (hlookup : Store.lookup? s.documents (keyOf home.keyPrefix id) = some payload)
    (hget : get c type (.text id) w = (.ok (some loaded), w₁)) :
    ∃ ids, (decoded c type (keyOf home.keyPrefix id) payload ids).1 = .ok loaded ∧ Serves w₁ s := by
  have hshown : shownId (.text id) = .ok id := rfl
  obtain ⟨w', hrun, hserves, -⟩ := acts_get (c := c) persisted hhome h hshown
  rw [hget] at hrun
  obtain ⟨hanswer, rfl⟩ := Prod.mk.inj hrun
  refine ⟨w.ids, ?_, hserves⟩
  rw [hlookup, fetched] at hanswer
  generalize decoded c type (keyOf home.keyPrefix id) payload w.ids = outcome at hanswer ⊢
  obtain ⟨_ | _, _⟩ := outcome
  · cases hanswer
  · cases hanswer
    rfl

/-- Saving a record whose key is there writes to this key only, or nowhere. -/
theorem overwrites_save (persisted : type.lineage = .persisted) (hhome : type.home = some home)
    (found : c.find? r.model = some type) (h : Serves w s) (hid : r.primaryKey type = .ok id)
    (hkey : keyOf home.keyPrefix id ∈ s.documents.map Prod.fst) {outcome : Except Fault String}
    (hsave : save c type r w = (outcome, w₁)) :
    ∃ s', Serves w₁ s' ∧ s'.documents.map Prod.fst = s.documents.map Prod.fst ∧
      (∀ other, other ≠ keyOf home.keyPrefix id →
        Store.lookup? s'.documents other = Store.lookup? s.documents other) ∧
      ∀ key, outcome = .ok key → key = keyOf home.keyPrefix id := by
  obtain ⟨w', hrun, hserves, -⟩ := acts_save (c := c) (r := r) persisted hhome h
  rw [hsave] at hrun
  obtain ⟨rfl, rfl⟩ := Prod.mk.inj hrun
  cases hfiling : filing c type r with
  | error fault =>
    rw [hfiling] at hserves
    exact ⟨s, hserves, rfl, fun _ _ => rfl, nofun⟩
  | ok filed =>
    obtain ⟨id', payload⟩ := filed
    obtain ⟨rfl, -⟩ := exists_of_filing found hid hfiling
    rw [hfiling] at hserves
    refine ⟨_, hserves, Store.map_fst_insert_of_mem payload hkey, fun other hother => ?_, ?_⟩
    · exact (Store.lookup?_insert_eq _ payload s.documents).trans (if_neg (Ne.symm hother))
    · intro key heq
      exact (Except.ok.inj heq).symm

/-- **Keys of loaded records.** A record with an identifier that lasts, in a field that is looked up
where it is written, is saved and loaded. The loaded record has the same identifier and key, and
saving it overwrites the document under this key and adds none. -/
theorem key_get_save (found : c.find? r.model = some type) (persisted : type.lineage = .persisted)
    (hhome : type.home = some home) (names : (type.fields.map Field.name).Nodup)
    (valid : Belongs c (.record type.name) r.toValue) (hf : f ∈ type.fields)
    (hkey : type.primaryKeyField = f.name) (own : type.FindsOwn f) (hv : (f.name, v) ∈ r.fields)
    (lasts : Lasts c f.shape v) (known : asksForId type f v.payload = false) (h : Serves w s)
    (hid : r.primaryKey type = .ok id) (hsave : save c type r w = (.ok key, w₁))
    (hget : get c type (.text id) w₁ = (.ok (some loaded), w₂)) :
    ∃ r' s', loaded = r'.toValue ∧ r'.model = r.model ∧ identify type r' = .ok (id, key) ∧
      Serves w₂ s' ∧ ∀ outcome w₃, save c type r' w₂ = (outcome, w₃) →
        ∃ s'', Serves w₃ s'' ∧ s''.documents.map Prod.fst = s'.documents.map Prod.fst ∧
          (∀ other, other ≠ key →
            Store.lookup? s''.documents other = Store.lookup? s'.documents other) ∧
          ∀ key', outcome = .ok key' → key' = key := by
  have hmodel : type.name = r.model := name_of_find? found
  have hsearchable : type.isSearchable = true := by
    rw [RecordType.isSearchable, persisted]
    rfl
  have hnames : (r.fields.map Prod.fst).Nodup := by
    obtain ⟨_, _, heq, hfields⟩ := valid.hasFields (hmodel ▸ found)
    cases heq
    exact hfields.names
  -- what is stored under the key is the document of the record
  obtain ⟨id', payload, hfiling, rfl, hserves₁⟩ := exists_of_save persisted hhome h hsave
  obtain ⟨rfl, members, hmembers, rfl⟩ := exists_of_filing found hid hfiling
  obtain ⟨ids, hdecoded, hserves₂⟩ :=
    exists_of_get persisted hhome hserves₁ (Store.lookup?_insert _ _ _) hget
  -- so the identifier is read from the member that it was written as
  obtain ⟨read, p, hread, hloaded⟩ := exists_of_decoded hdecoded
  obtain ⟨fields', rfl, hprimary⟩ := primaryKey_of_ofJson (hmodel ▸ found) hsearchable names hf hkey
    own hnames hv lasts known hmembers hread hloaded
  have hprimary' : Record.primaryKey ⟨type.name, fields'⟩ type = .ok id' := by
    have hvalue : r.get? f.name = some v := Store.lookup?_of_mem hnames hv
    rw [hprimary, ← hid, primaryKey, hkey, hvalue]
    rfl
  refine ⟨⟨type.name, fields'⟩, _, rfl, hmodel, ?_, hserves₂, fun outcome w₃ hsave' => ?_⟩
  · rw [identify_eq persisted hhome, hprimary']
    rfl
  · exact overwrites_save persisted hhome (hmodel ▸ found) hserves₂ hprimary'
      (Store.mem_map_fst_of_lookup? (Store.lookup?_insert _ _ _)) hsave'

/-- A record with a readable document is saved and loaded as what this document is read as. -/
theorem exists_save_get {document : Json} (persisted : type.lineage = .persisted)
    (hhome : type.home = some home) (hid : r.primaryKey type = .ok id)
    (hdocument : Record.toJson? c r.model r.fields = some document) (readable : document.Readable)
    (nesting : document.nesting ≤ Json.nestingLimit) (h : Serves w s)
    (hread : ∀ p, (ofJson c type.name document p).1 = .ok loaded) :
    ∃ w₁ w₂, save c type r w = (.ok (keyOf home.keyPrefix id), w₁) ∧
      get c type (.text id) w₁ = (.ok (some loaded), w₂) ∧
      Serves w₂ { s with documents :=
        (Store.insert (keyOf home.keyPrefix id) (String.ofList document.write) s.documents) } := by
  obtain ⟨w₁, hsave, hserves, -⟩ := acts_save (c := c) (r := r) persisted hhome h
  rw [filing_of_readable hdocument readable hid] at hsave hserves
  obtain ⟨w', hget⟩ := exists_get_eq (c := c) persisted hhome readable nesting hserves.store
    hserves.failures (Store.lookup?_insert _ _ _)
  obtain ⟨w₂, hrun⟩ := exists_reading (hread (.start w'.ids))
  have hshown : shownId (.text id) = .ok id := rfl
  obtain ⟨w₂', hget', hserves', -⟩ := acts_get (c := c) persisted hhome hserves hshown
  obtain ⟨-, rfl⟩ := Prod.mk.inj ((hget.trans hrun).symm.trans hget')
  exact ⟨w₁, w₂, hsave, hget.trans hrun, hserves'⟩

/-- Accounts whose identifier stands under another name in documents. -/
def accounts : Catalogue :=
  Catalogue.bases.declare ⟨"Account", "JsonModel", none, none,
    [.declare "id" (.scalar .text) [.primaryKey none] (some "pk") none none .freshId]⟩

/-- An account. -/
def account : Record := ⟨"Account", [("id", .text "a")]⟩

theorem serves_freshWorld : Serves freshWorld .empty := ⟨rfl, rfl⟩

theorem readable_pk : (Json.object [("pk", .text "a")]).Readable :=
  .object (by decide) (List.forall_mem_singleton.mpr (.text "a"))

theorem belongs_account : Belongs accounts (.record "Account") account.toValue :=
  HasFields.belongs (r := accounts.types[3]) rfl (.inl rfl)
    ⟨by decide, List.forall_mem_singleton.mpr ⟨_, List.mem_cons_self, .scalar rfl⟩⟩

theorem findsOwn_account : accounts.types[3].FindsOwn
    ⟨"id", .scalar .text, [.primaryKey none], some "pk", none, none, .freshId⟩ :=
  ⟨List.forall_mem_singleton.mpr fun _ => rfl, .inl rfl⟩

theorem key_get_save_account :
    ∃ w₁ w₂ r' s', save accounts accounts.types[3] account freshWorld = (.ok "account:a", w₁) ∧
      get accounts accounts.types[3] (.text "a") w₁ = (.ok (some r'.toValue), w₂) ∧
      identify accounts.types[3] r' = .ok ("a", "account:a") ∧ Serves w₂ s' ∧
      ∀ outcome w₃, save accounts accounts.types[3] r' w₂ = (outcome, w₃) →
        ∃ s'', Serves w₃ s'' ∧ s''.documents.map Prod.fst = s'.documents.map Prod.fst := by
  have hhome : accounts.types[3].home = some ⟨"account", "idx:Account"⟩ := rfl
  have hfields : accounts.types[3].fields =
      [⟨"id", .scalar .text, [.primaryKey none], some "pk", none, none, .freshId⟩] := rfl
  have hread : ∀ p, (ofJson accounts "Account" (.object [("pk", .text "a")]) p).1 =
      .ok account.toValue := fun _ => rfl
  obtain ⟨w₁, w₂, hsave, hget, -⟩ := exists_save_get (r := account) rfl hhome
    (show _ = Except.ok "a" from rfl) rfl readable_pk (by decide) serves_freshWorld hread
  obtain ⟨r', s', hloaded, -, hidentify, hserves, hagain⟩ := key_get_save
    (show accounts.find? account.model = some accounts.types[3] from rfl) rfl hhome (by decide)
    belongs_account (by rw [hfields]; exact List.mem_singleton_self _) rfl findsOwn_account
    List.mem_cons_self (.text "a") rfl serves_freshWorld rfl hsave hget
  refine ⟨w₁, w₂, r', s', hsave, hloaded ▸ hget, hidentify, hserves, fun outcome w₃ hsave' => ?_⟩
  obtain ⟨s'', hserves'', hkeys, -⟩ := hagain outcome w₃ hsave'
  exact ⟨s'', hserves'', hkeys⟩

/-! ### Identifiers that are looked up elsewhere -/

/-- Users whose identifier is written under another name than the one it is looked up under. -/
def users : Catalogue :=
  Catalogue.bases.declare ⟨"User", "JsonModel", none, none,
    [.declare "id" (.scalar .text) [.primaryKey none] none (some "pk") none (.value (.text "x"))]⟩

/-- A user with an identifier of its own. -/
def user : Record := ⟨"User", [("id", .text "a")]⟩

theorem belongs_user : Belongs users (.record "User") user.toValue :=
  HasFields.belongs (r := users.types[3]) rfl (.inl rfl)
    ⟨by decide, List.forall_mem_singleton.mpr ⟨_, List.mem_cons_self, .scalar rfl⟩⟩

/-- A valid record whose identifier is not looked up where it is written: it is loaded with another
identifier, and then saved beside the document that it came from. -/
theorem key_get_save_elsewhere : Belongs users (.record "User") user.toValue ∧
    user.primaryKey users.types[3] = .ok "a" ∧ ∃ w₁ w₂ w₃ loaded s₃,
      save users users.types[3] user freshWorld = (.ok "user:a", w₁) ∧
      get users users.types[3] (.text "a") w₁ = (.ok (some (Record.toValue loaded)), w₂) ∧
      identify users.types[3] loaded = .ok ("x", "user:x") ∧
      save users users.types[3] loaded w₂ = (.ok "user:x", w₃) ∧ Serves w₃ s₃ ∧
      s₃.documents.map Prod.fst = ["user:a", "user:x"] := by
  have hhome : users.types[3].home = some ⟨"user", "idx:User"⟩ := rfl
  have hreadable : (Json.object [("pk", .text "x")]).Readable :=
    .object (by decide) (List.forall_mem_singleton.mpr (.text "x"))
  have hread : ∀ p, (ofJson users "User" (.object [("pk", .text "a")]) p).1 =
      .ok (.record "User" [("id", .text "x")]) := fun _ => rfl
  obtain ⟨w₁, w₂, hsave, hget, hserves⟩ := exists_save_get (r := user) rfl hhome
    (show _ = Except.ok "a" from rfl) rfl readable_pk (by decide) serves_freshWorld hread
  obtain ⟨w₃, hsave', hserves', -⟩ := acts_save (c := users) (r := ⟨"User", [("id", .text "x")]⟩)
    (show users.types[3].lineage = .persisted from rfl) hhome hserves
  have hfiling : filing users users.types[3] ⟨"User", [("id", .text "x")]⟩ =
      .ok ("x", String.ofList (Json.object [("pk", .text "x")]).write) :=
    filing_of_readable rfl hreadable rfl
  rw [hfiling] at hsave' hserves'
  exact ⟨belongs_user, rfl, w₁, w₂, w₃, ⟨"User", [("id", .text "x")]⟩, _, hsave, hget, rfl, hsave',
    hserves', rfl⟩

end IndexedRecords.Service
