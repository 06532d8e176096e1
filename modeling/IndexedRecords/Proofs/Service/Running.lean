import IndexedRecords.Proofs.Store.Deleting
import IndexedRecords.Proofs.Store.Numerals
import IndexedRecords.Service.Documents

/-!
# Services on a store without failures

What saving, getting and deleting records do to a store without failures, whatever the records are:
saving puts a text under a key or is refused as a whole, getting reads the text under a key and
changes nothing, and deleting takes the texts under some keys.

## Main statements

* `acts_save`, `acts_get`, `acts_delete`, `acts_deleteMany`: what the services answer, and what they
  leave.
-/

namespace IndexedRecords

/-- A store without failures answers every command. -/
theorem Store.execute_of_failures {s : Store} (h : s.failures = []) (command : List Argument) :
    s.execute command = s.answer command := by
  rw [execute, h]
  rfl

namespace Service

variable {α β : Type} {c : Catalogue} {type : RecordType} {home : Home} {r : Record} {w : World}
  {s : Store}

/-- The endpoint is a store without failures. -/
structure Serves (w : World) (s : Store) : Prop where
  store : w.endpoint = .store s
  failures : s.failures = []

/-- A service gives an answer, leaves a store with given documents, and counts the identifiers that
have been made. -/
def Acts (m : Service α) (w : World) (s : Store) (answer : Except Fault α)
    (documents : List (String × String)) (ids : Nat) : Prop :=
  ∃ w', m w = (answer, w') ∧ Serves w' { s with documents } ∧ w'.ids = ids

/-! ### Steps -/

/-- Where the first of two steps succeeds, the second one runs on its result and in the world it
leaves. -/
theorem bind_run {m : Service α} {f : α → Service β} {a : α} {w' : World}
    (h : m w = (.ok a, w')) : (m >>= f) w = f a w' := by
  change ExceptT.bindCont f (m w).1 (m w).2 = _
  rw [h]
  rfl

/-- Where the first of two steps fails, the second one does not run. -/
theorem bind_run_error {m : Service α} {f : α → Service β} {e : Fault} {w' : World}
    (h : m w = (.error e, w')) : (m >>= f) w = (.error e, w') := by
  change ExceptT.bindCont f (m w).1 (m w).2 = _
  rw [h]
  rfl

/-- What needs no store comes before a step without any trace in the world. -/
theorem lift_ok_bind (a : α) (f : α → Service β) :
    ((liftM (Except.ok a : Except Fault α) : Service α) >>= f) = f a := rfl

/-- Where two steps in turn succeed, each of them does. -/
theorem exists_of_bind_run {w' : World} {m : Service α} {f : α → Service β} {b : β}
    (h : (m >>= f) w = (.ok b, w')) : ∃ a w₁, m w = (.ok a, w₁) ∧ f a w₁ = (.ok b, w') := by
  cases hm : m w with
  | mk outcome w₁ =>
    cases outcome with
    | error fault =>
      rw [bind_run_error hm] at h
      cases h
    | ok a =>
      rw [bind_run hm] at h
      exact ⟨a, w₁, rfl, h⟩

/-- A step that has been run had the value that it was waiting for. -/
theorem exists_of_lift_bind_run {w' : World} {x : Except Fault α} {f : α → Service β} {b : β}
    (h : ((liftM x : Service α) >>= f) w = (.ok b, w')) :
    ∃ a, x = .ok a ∧ f a w = (.ok b, w') := by
  cases x with
  | error fault => cases h
  | ok a => exact ⟨a, rfl, h⟩

variable {answer : Except Fault β} {documents documents' : List (String × String)} {ids ids' : Nat}

namespace Acts

/-- A result that needs no state. -/
theorem settled (h : Serves w s) (outcome : Except Fault α) :
    Acts (settled outcome) w s outcome s.documents w.ids :=
  ⟨w, rfl, h, rfl⟩

/-- After a step that succeeds comes what follows from its result. -/
theorem bind {m : Service α} {f : α → Service β} {a : α} (h : Acts m w s (.ok a) documents ids)
    (hf : ∀ w', Serves w' { s with documents } → w'.ids = ids →
      Acts (f a) w' { s with documents } answer documents' ids') :
    Acts (m >>= f) w s answer documents' ids' := by
  obtain ⟨w', hrun, hserves, hids⟩ := h
  obtain ⟨w'', hrun', hserves', hids'⟩ := hf w' hserves hids
  exact ⟨w'', (bind_run hrun).trans hrun', hserves', hids'⟩

/-- Nothing comes after a step that fails. -/
theorem bind_error {m : Service α} {f : α → Service β} {fault : Fault}
    (h : Acts m w s (.error fault) documents ids) :
    Acts (m >>= f) w s (.error fault) documents ids := by
  obtain ⟨w', hrun, hserves, hids⟩ := h
  exact ⟨w', bind_run_error hrun, hserves, hids⟩

/-- What is made of a result without effects. -/
theorem map {m : Service α} {outcome : Except Fault α} (h : Acts m w s outcome documents ids)
    (f : α → β) : Acts (do return f (← m)) w s (outcome.map f) documents ids := by
  cases outcome with
  | error fault => exact h.bind_error
  | ok a => exact h.bind fun w' h' hids => ⟨w', rfl, h', hids⟩

/-- A note in the log changes nothing else. -/
theorem note (h : Serves w s) (e : LogEvent) :
    Acts (note e) w s (.ok ()) s.documents w.ids :=
  ⟨_, rfl, ⟨h.store, h.failures⟩, rfl⟩

/-- A command is sent to the store. -/
theorem send (h : Serves w s) {command : List Argument} {reply : Except CommandFault Value}
    (hanswer : s.answer command = (reply, { s with documents })) :
    Acts (send command) w s (.ok reply) documents w.ids := by
  refine ⟨{ w with endpoint := .store { s with documents }, sent := w.sent ++ [command] }, ?_,
    ⟨rfl, h.failures⟩, rfl⟩
  rw [Service.send, h.store, Endpoint.execute, Store.execute_of_failures h.failures, hanswer]

/-- A command is answered by the store. -/
theorem execute (h : Serves w s) {command : List Argument} {reply : Except CommandFault Value}
    (hanswer : s.answer command = (reply, { s with documents })) :
    Acts (execute command) w s (reply.mapError .ofCommand) documents w.ids := by
  refine (send h hanswer).bind fun w' h' hids => ?_
  cases reply with
  | error fault => exact ⟨w', rfl, h', hids⟩
  | ok reply => exact ⟨w', rfl, h', hids⟩

end Acts

/-- Records of a persisted type may be saved. -/
theorem requirePersistedRecord_eq (persisted : type.lineage = .persisted) (property : String) :
    requirePersistedRecord type property = .ok () := if_pos persisted

/-- A persisted type may be asked for its keys. -/
theorem requirePersisted_eq (persisted : type.lineage = .persisted) (property : String) :
    requirePersisted type property = .ok () := if_pos persisted

/-- The home of a record type that has one is found. -/
theorem homeOf_eq (hhome : type.home = some home) (property : String) :
    homeOf type property = .ok home := by rw [homeOf, hhome]

/-! ### Saving -/

/-- The identifier of a record and the text that is stored of it, or why none is. -/
def filing (c : Catalogue) (type : RecordType) (r : Record) : Except Fault (String × String) := do
  let payload ← recordDocument c type r
  let id ← (r.primaryKey type).mapError .value
  match Store.longNumeral? false false 0 payload.toList with
  | some digits => .error (.value (.tooManyDigits (some digits)))
  | none => return (id, payload)

/-- A payload is filed under the identifier of its record, unless it holds a number too long for the
store. -/
theorem filing_eq {payload id : String} (hpayload : recordDocument c type r = .ok payload)
    (hid : r.primaryKey type = .ok id) : filing c type r =
      match Store.longNumeral? false false 0 payload.toList with
      | some digits => .error (.value (.tooManyDigits (some digits)))
      | none => .ok (id, payload) := by
  rw [filing, hpayload, hid]
  rfl

/-- A record with a readable document is filed. -/
theorem filing_of_readable {id : String} {document : Json}
    (hdocument : Record.toJson? c r.model r.fields = some document) (readable : document.Readable)
    (hid : r.primaryKey type = .ok id) :
    filing c type r = .ok (id, String.ofList document.write) := by
  have hpayload : recordDocument c type r = .ok (String.ofList document.write) := by
    rw [recordDocument, hdocument]
    rfl
  rw [filing_eq hpayload hid, String.toList_ofList, Store.longNumeral?_write readable]

/-- Documents with one more under the key of an identifier, if there is one to store. -/
def filed (home : Home) (documents : List (String × String)) :
    Except Fault (String × String) → List (String × String)
  | .ok (id, payload) => Store.insert (keyOf home.keyPrefix id) payload documents
  | .error _ => documents

/-- A record is identified by its primary key and by the key that is made of it. -/
theorem identify_eq (persisted : type.lineage = .persisted) (hhome : type.home = some home) :
    identify type r = ((r.primaryKey type).mapError .value).map fun id =>
      (id, keyOf home.keyPrefix id) := by
  rw [identify, requirePersistedRecord_eq persisted, homeOf_eq hhome]
  cases r.primaryKey type <;> rfl

/-- The answer of a store to a text that is put under a key. A text with a number of too many digits
is refused as a whole, and the store stays as it is. -/
theorem answer_set (s : Store) (key payload : String) :
    s.answer [.text "JSON.SET", .text key, .text "$", .text payload] =
      match Store.longNumeral? false false 0 payload.toList with
      | some digits => (.error (.value (.tooManyDigits (some digits))), s)
      | none =>
        (.ok (.text "OK"), { s with documents := Store.insert key payload s.documents }) := by
  change s.setDocument key "$" payload = _
  exact if_neg (by decide)

/-- **Saving.** A record that can be stored is put under its key, and any other one changes
nothing. -/
theorem acts_save (persisted : type.lineage = .persisted) (hhome : type.home = some home)
    (h : Serves w s) :
    Acts (save c type r) w s ((filing c type r).map fun (id, _) => keyOf home.keyPrefix id)
      (filed home s.documents (filing c type r)) w.ids := by
  rw [save, requirePersistedRecord_eq persisted, identify_eq persisted hhome, lift_ok_bind]
  cases hpayload : recordDocument c type r with
  | error fault =>
    have hfiling : filing c type r = .error fault := by
      rw [filing, hpayload]
      rfl
    rw [hfiling]
    exact .settled h (.error fault)
  | ok payload =>
    rw [lift_ok_bind]
    cases hid : r.primaryKey type with
    | error fault =>
      have hfiling : filing c type r = .error (.value fault) := by
        rw [filing, hpayload, hid]
        rfl
      rw [hfiling]
      exact .settled h (.error (.value fault))
    | ok id =>
      change Acts (execute _ >>= fun _ => pure (keyOf home.keyPrefix id)) w s _ _ _
      have hset := answer_set s (keyOf home.keyPrefix id) payload
      -- the store refuses the text of a number that is too long for it, and then keeps what it has
      cases hdigits : Store.longNumeral? false false 0 payload.toList with
      | some digits =>
        rw [hdigits] at hset
        rw [filing_eq hpayload hid, hdigits]
        exact (Acts.execute h hset).bind_error
      | none =>
        rw [hdigits] at hset
        rw [filing_eq hpayload hid, hdigits]
        refine (Acts.execute h hset).bind fun w' h' hids => ?_
        exact ⟨w', rfl, h', hids⟩

/-! ### Getting -/

/-- The text of an identifier. -/
def shownId (id : Value) : Except Fault String := id.display.mapError .value

/-- The record in a stored text, and the number of identifiers that have been made by then. -/
def decoded (c : Catalogue) (type : RecordType) (key payload : String) (ids : Nat) :
    Except Fault Value × Nat :=
  match Record.ofDocument c type.name (.text payload) (.start ids) with
  | (.ok v, p) => (.ok v, p.ids)
  | (.error (.problems ps), p) => (.error (.undecodable type.name key ps), p.ids)
  | (.error (.fault f), p) => (.error (.value f), p.ids)

/-- The key of an identifier is its text after the prefix of the record type; an identifier without
a text has none. -/
theorem makeKey_eq (persisted : type.lineage = .persisted) (hhome : type.home = some home)
    (id : Value) : makeKey type id = (shownId id).map (keyOf home.keyPrefix) := by
  rw [makeKey, requirePersisted_eq persisted, homeOf_eq hhome, shownId]
  cases id.display <;> rfl

/-- Decoding a text changes no document. It may use up identifiers, for records that come without
one. -/
theorem acts_decodeDocument (c : Catalogue) (type : RecordType) (h : Serves w s)
    (key payload : String) :
    Acts (decodeDocument c type.name key (.text payload)) w s (decoded c type key payload w.ids).1
      s.documents (decoded c type key payload w.ids).2 := by
  refine ⟨{ w with ids := (decoded c type key payload w.ids).2 }, ?_, ⟨h.store, h.failures⟩, rfl⟩
  rw [decodeDocument, reading, decoded]
  cases Record.ofDocument c type.name (.text payload) (.start w.ids) with
  | mk outcome p => rcases outcome with (_ | _) | _ <;> rfl

/-- What is got from the text under a key, if there is one. -/
def fetched (c : Catalogue) (type : RecordType) (key : String) (ids : Nat) :
    Option String → Except Fault (Option Value) × Nat
  | none => (.ok none, ids)
  | some payload =>
    ((decoded c type key payload ids).1.map some, (decoded c type key payload ids).2)

/-- **Getting.** The text under the key of an identifier is decoded, if there is one. -/
theorem acts_get (persisted : type.lineage = .persisted) (hhome : type.home = some home)
    (h : Serves w s) {v : Value} {id : String} (hid : shownId v = .ok id) :
    Acts (get c type v) w s
      (fetched c type (keyOf home.keyPrefix id) w.ids
        (Store.lookup? s.documents (keyOf home.keyPrefix id))).1 s.documents
      (fetched c type (keyOf home.keyPrefix id) w.ids
        (Store.lookup? s.documents (keyOf home.keyPrefix id))).2 := by
  have hkey : makeKey type v = .ok (keyOf home.keyPrefix id) := by
    rw [makeKey_eq persisted hhome, hid]
    rfl
  rw [get, requirePersisted_eq persisted, lift_ok_bind, hkey, lift_ok_bind]
  generalize keyOf home.keyPrefix id = key
  have hget : s.answer [.text "JSON.GET", .text key] =
      (.ok (((Store.lookup? s.documents key).map Value.text).getD .none), s) := by
    rw [Store.answer, Store.getDocument]
    cases Store.lookup? s.documents key <;> rfl
  refine (Acts.execute h hget).bind fun w' h' hids => ?_
  cases Store.lookup? s.documents key with
  | none => exact ⟨w', rfl, h', hids⟩
  | some payload =>
    -- reading the text has made no identifiers, so decoding starts from those made before
    rw [← hids]
    change Acts (decodeDocument c type.name key (.text payload) >>= fun v => pure (some v))
      w' s _ _ _
    have hdecode := acts_decodeDocument c type h' key payload
    rw [fetched]
    generalize decoded c type key payload w'.ids = outcome at hdecode ⊢
    obtain ⟨outcome, ids⟩ := outcome
    cases outcome with
    | error fault => exact hdecode.bind_error
    | ok v => exact hdecode.bind fun w'' h'' hids' => ⟨w'', rfl, h'', hids'⟩

/-- An identifier without a text is refused before anything is read. -/
theorem acts_get_error (persisted : type.lineage = .persisted) (hhome : type.home = some home)
    (h : Serves w s) {v : Value} {fault : Fault} (hid : shownId v = .error fault) :
    Acts (get c type v) w s (.error fault) s.documents w.ids := by
  rw [get, requirePersisted_eq persisted, lift_ok_bind, makeKey_eq persisted hhome, hid]
  exact .settled h (.error fault)

/-! ### Deleting -/

/-- How many documents there are under the keys of some identifiers. -/
def foundCount (home : Home) (documents : List (String × String)) (ids : List String) : Nat :=
  documents.countP fun e => e.1 ∈ ids.map (keyOf home.keyPrefix)

/-- Documents without those under the keys of some identifiers. -/
def without (home : Home) (documents : List (String × String)) (ids : List String) :
    List (String × String) :=
  documents.filter fun e => e.1 ∉ ids.map (keyOf home.keyPrefix)

/-- A command that deletes documents answers how many there were. -/
theorem acts_execute_delete (h : Serves w s) (hnodup : (s.documents.map Prod.fst).Nodup)
    {command : List Argument} {ids : List String}
    (hanswer : s.answer command = s.deleteDocuments 0 (ids.map (keyOf home.keyPrefix))) :
    Acts (do (← execute command).toInt) w s (.ok (foundCount home s.documents ids))
      (without home s.documents ids) w.ids := by
  rw [Store.deleteDocuments_eq s 0 _ hnodup, Nat.zero_add] at hanswer
  exact (Acts.execute h hanswer).bind fun w' h' hids => ⟨w', rfl, h', hids⟩

/-- **Deleting a record.** The text under the key of the identifier is gone, and the answer counts
it if it was there. All other documents stay. -/
theorem acts_delete (persisted : type.lineage = .persisted) (hhome : type.home = some home)
    (h : Serves w s) (hnodup : (s.documents.map Prod.fst).Nodup) {v : Value} {id : String}
    (hid : shownId v = .ok id) :
    Acts (delete type v) w s (.ok (foundCount home s.documents [id]))
      (without home s.documents [id]) w.ids := by
  rw [delete, makeKey_eq persisted hhome, hid]
  exact acts_execute_delete h hnodup rfl

/-- An identifier without a text is refused before anything is deleted. -/
theorem acts_delete_error (persisted : type.lineage = .persisted) (hhome : type.home = some home)
    (h : Serves w s) {v : Value} {fault : Fault} (hid : shownId v = .error fault) :
    Acts (delete type v) w s (.error fault) s.documents w.ids := by
  rw [delete, makeKey_eq persisted hhome, hid]
  exact .settled h (.error fault)

/-- The keys of several identifiers are made one by one, and the first one without a text is
reported. -/
theorem mapM_makeKey (persisted : type.lineage = .persisted) (hhome : type.home = some home)
    (vs : List Value) :
    vs.mapM (makeKey type) = (vs.mapM shownId).map (List.map (keyOf home.keyPrefix)) := by
  induction vs with
  | nil => rfl
  | cons v vs ih =>
    rw [List.mapM_cons, List.mapM_cons, ih, makeKey_eq persisted hhome]
    cases shownId v with
    | error fault => rfl
    | ok id => cases vs.mapM shownId <;> rfl

/-- **Deleting several records.** The texts under all of their keys are gone at once, and the answer
counts those that were there, each of them once. -/
theorem acts_deleteMany (persisted : type.lineage = .persisted) (hhome : type.home = some home)
    (h : Serves w s) (hnodup : (s.documents.map Prod.fst).Nodup) {vs : List Value}
    {ids : List String} (hids : vs.mapM shownId = .ok ids) :
    Acts (deleteMany type vs) w s (.ok (foundCount home s.documents ids))
      (without home s.documents ids) w.ids := by
  rw [deleteMany, requirePersisted_eq persisted, lift_ok_bind]
  cases vs with
  | nil =>
    obtain rfl : [] = ids := Except.ok.inj hids
    have hcount : foundCount home s.documents [] = 0 := by simp [foundCount]
    have hall : without home s.documents [] = s.documents := by simp [without]
    rw [hcount, hall]
    exact .settled h (.ok 0)
  | cons v vs =>
    rw [mapM_makeKey persisted hhome, hids]
    refine acts_execute_delete h hnodup ?_
    change s.deleteDocuments 0 (((ids.map _).map Argument.text).map Store.wordOf) = _
    rw [List.map_map]
    exact congrArg _ (List.map_id _)

/-- One identifier without a text is enough for nothing to be deleted. -/
theorem acts_deleteMany_error (persisted : type.lineage = .persisted)
    (hhome : type.home = some home) (h : Serves w s) {vs : List Value} {fault : Fault}
    (hids : vs.mapM shownId = .error fault) :
    Acts (deleteMany type vs) w s (.error fault) s.documents w.ids := by
  rw [deleteMany, requirePersisted_eq persisted, lift_ok_bind]
  cases vs with
  | nil => cases hids
  | cons v vs =>
    rw [mapM_makeKey persisted hhome, hids]
    exact .settled h (.error fault)

end Service

end IndexedRecords
