import IndexedRecords.Proofs.Service.Keys

/-!
# Rows of search replies

A search reply has a count at its head, and then a key and an array of fields for each row. Each row
is decoded by itself: it gives a record, or a fault that ends the decoding of the whole reply. What
a row gives is said by a relation (`RowYields`), one case for each way in which a row is well formed
or not; the decoder gives what the relation says, and so its answers follow from those of the rows.

## Main statements

* `decodeRow_of_rowYields`, `exists_rowYields`: one row is decoded to what it gives, and gives
  something.
* `decodeSearch_iff`: the replies that have records, these records, and the faults of the others.
-/

namespace IndexedRecords

/-! ### Pairs in turn -/

/-- The first and the second parts of pairs in turn. -/
def inTurn {α : Type} (pairs : List (α × α)) : List α := pairs.flatMap fun p => [p.1, p.2]

section

variable {α : Type} {items : List α}

theorem inTurn_cons (p : α × α) (pairs : List (α × α)) :
    inTurn (p :: pairs) = p.1 :: p.2 :: inTurn pairs := rfl

/-- Pairs in turn may be put together list by list. -/
theorem inTurn_append (pairs pairs' : List (α × α)) :
    inTurn (pairs ++ pairs') = inTurn pairs ++ inTurn pairs' := List.flatMap_append

/-- Pairs in turn have an even number of items, which is how the decoder knows them. -/
theorem length_inTurn (pairs : List (α × α)) : (inTurn pairs).length = 2 * pairs.length := by
  induction pairs with
  | nil => rfl
  | cons p pairs ih =>
    rw [inTurn_cons, List.length_cons, List.length_cons, ih, List.length_cons, Nat.mul_succ]

/-- A list of even length holds pairs in turn. -/
theorem exists_inTurn : (items : List α) → items.length % 2 = 0 → ∃ pairs, items = inTurn pairs
  | [], _ => ⟨[], rfl⟩
  | [_], h => by cases h
  | first :: second :: rest, h => by
    rw [List.length_cons, List.length_cons, Nat.add_assoc, Nat.add_mod_right] at h
    obtain ⟨pairs, rfl⟩ := exists_inTurn rest h
    exact ⟨(first, second) :: pairs, rfl⟩

end

namespace Service

variable {c : Catalogue} {model key : String} {w w' : World} {ids made : Nat}
  {keyItem fields document name item : Value} {pairs before after : List (Value × Value)}

/-! ### Rows -/

/-- A name that is not the one of the document. -/
def IsOther (name : Value) : Prop := ∃ text, name.asText = .ok text ∧ text ≠ "$"

/-- A value that is a text or bytes. -/
def IsTextual (v : Value) : Prop := (∃ s, v.plain = .text s) ∨ ∃ content, v.plain = .bytes content

/-- A row has a key and, beside the first name `$` among its fields, a value. -/
structure HasDocument (keyItem fields : Value) (key : String) (document : Value) : Prop where
  key : keyItem.asText = .ok key
  fields : ∃ before name after, (∀ p ∈ before, IsOther p.1) ∧ name.asText = .ok "$" ∧
    fields.sequence? = some (inTurn (before ++ (name, document) :: after))

/-- What a row gives after a number of identifiers: a record, or a fault of its own. -/
inductive RowYields (c : Catalogue) (model : String) (ids : Nat) (keyItem fields : Value) :
    Except Fault Value → Nat → Prop where
  | record {key : String} {document record : Value} {p : Progress}
      (row : HasDocument keyItem fields key document) (textual : IsTextual document)
      (valid : Record.ofDocument c model document (.start ids) = (.ok record, p)) :
      RowYields c model ids keyItem fields (.ok record) p.ids
  | invalid {key : String} {document : Value} {problems : List Problem} {p : Progress}
      (row : HasDocument keyItem fields key document) (textual : IsTextual document)
      (invalid : Record.ofDocument c model document (.start ids) =
        (.error (.problems problems), p)) :
      RowYields c model ids keyItem fields (.error (.undecodable model key problems)) p.ids
  | broken {key : String} {document : Value} {fault : ValueFault} {p : Progress}
      (row : HasDocument keyItem fields key document) (textual : IsTextual document)
      (broken : Record.ofDocument c model document (.start ids) = (.error (.fault fault), p)) :
      RowYields c model ids keyItem fields (.error (.value fault)) p.ids
  | notText {key : String} {document : Value} (row : HasDocument keyItem fields key document)
      (textual : ¬ IsTextual document) :
      RowYields c model ids keyItem fields (.error (.reply (.documentNotText key))) ids
  | noDocument {key : String} {pairs : List (Value × Value)} (shown : keyItem.asText = .ok key)
      (paired : fields.sequence? = some (inTurn pairs)) (others : ∀ p ∈ pairs, IsOther p.1) :
      RowYields c model ids keyItem fields (.error (.reply (.noDocument key))) ids
  | notPaired {key : String} (shown : keyItem.asText = .ok key)
      (unpaired : ∀ pairs, fields.sequence? ≠ some (inTurn pairs)) :
      RowYields c model ids keyItem fields (.error (.reply (.fieldsNotPaired key))) ids
  | keyWithoutText {fault : ValueFault} (shown : keyItem.asText = .error fault) :
      RowYields c model ids keyItem fields (.error (.value fault)) ids
  | nameWithoutText {key : String} {before after : List (Value × Value)} {name item : Value}
      {fault : ValueFault} (shown : keyItem.asText = .ok key)
      (paired : fields.sequence? = some (inTurn (before ++ (name, item) :: after)))
      (others : ∀ p ∈ before, IsOther p.1) (unshown : name.asText = .error fault) :
      RowYields c model ids keyItem fields (.error (.value fault)) ids

/-- Rows give records, one each, from a number of identifiers on. -/
inductive RowsYield (c : Catalogue) (model : String) :
    Nat → List (Value × Value) → List Value → Nat → Prop where
  | nil (ids : Nat) : RowsYield c model ids [] [] ids
  | cons {ids ids' made : Nat} {keyItem fields record : Value} {rows : List (Value × Value)}
      {records : List Value} (row : RowYields c model ids keyItem fields (.ok record) ids')
      (rest : RowsYield c model ids' rows records made) :
      RowsYield c model ids ((keyItem, fields) :: rows) (record :: records) made

/-! ### The document of a row -/

theorem lift_ok {α β : Type} (a : α) (f : α → Except Fault β) :
    ((liftM (Except.ok a : Except ValueFault α) : Except Fault α) >>= f) = f a := rfl

/-- A name that is not the one of the document is passed over, together with its value. -/
theorem findDocument_other (h : IsOther name) (rest : List Value) :
    findDocument key (name :: item :: rest) = findDocument key rest := by
  obtain ⟨text, htext, hne⟩ := h
  rw [findDocument, htext]
  exact if_neg hne

/-- All names before that of the document are passed over. -/
theorem findDocument_others (h : ∀ p ∈ before, IsOther p.1) (rest : List Value) :
    findDocument key (inTurn before ++ rest) = findDocument key rest := by
  induction before with
  | nil => rfl
  | cons p before ih =>
    obtain ⟨hp, hbefore⟩ := List.forall_mem_cons.mp h
    rw [inTurn_cons, List.cons_append, List.cons_append, findDocument_other hp, ih hbefore]

/-- Beside the first name `$` stands the document, if it is textual. -/
theorem findDocument_document (h : name.asText = .ok "$") (rest : List Value) :
    (IsTextual document → findDocument key (name :: document :: rest) = .ok document) ∧
      (¬ IsTextual document → findDocument key (name :: document :: rest) =
        .error (.reply (.documentNotText key))) := by
  rw [findDocument, h, lift_ok, if_pos rfl]
  constructor
  · rintro (⟨s, hs⟩ | ⟨content, hs⟩) <;> simp only [hs] <;> rfl
  · intro hnot
    split
    · next s hs => exact absurd (.inl ⟨s, hs⟩) hnot
    · next content hs => exact absurd (.inr ⟨content, hs⟩) hnot
    · rfl

/-- A name without a text ends the search for the document, even if the document would follow. -/
theorem findDocument_unshown {fault : ValueFault} (h : name.asText = .error fault)
    (rest : List Value) :
    findDocument key (name :: item :: rest) = .error (.value fault) := by
  rw [findDocument, h]
  rfl

/-- Names stand for other values up to the first one that is the one of the document, or has no
text. -/
theorem exists_first (pairs : List (Value × Value)) :
    (∀ p ∈ pairs, IsOther p.1) ∨ ∃ before name item after,
      pairs = before ++ (name, item) :: after ∧ (∀ p ∈ before, IsOther p.1) ∧
        (name.asText = .ok "$" ∨ ∃ fault, name.asText = .error fault) := by
  induction pairs with
  | nil => exact .inl nofun
  | cons p pairs ih =>
    cases hname : p.1.asText with
    | error fault => exact .inr ⟨[], p.1, p.2, pairs, rfl, nofun, .inr ⟨fault, hname⟩⟩
    | ok text =>
      by_cases hdollar : text = "$"
      · exact .inr ⟨[], p.1, p.2, pairs, rfl, nofun, .inl (hdollar ▸ hname)⟩
      · have hother : IsOther p.1 := ⟨text, hname, hdollar⟩
        obtain hall | ⟨before, name, item, after, rfl, hbefore, hname⟩ := ih
        · exact .inl (List.forall_mem_cons.mpr ⟨hother, hall⟩)
        · exact .inr ⟨p :: before, name, item, after, rfl,
            List.forall_mem_cons.mpr ⟨hother, hbefore⟩, hname⟩

/-! ### One row -/

/-- The record of one row. -/
def decodeRow (c : Catalogue) (model : String) (keyItem fields : Value) : Service Value := do
  let key ← keyItem.asText
  let payload ← rowDocument key fields
  decodeDocument c model key payload

/-- Rows are decoded one after the other, and the first fault ends it. -/
theorem decodeRows_cons (c : Catalogue) (model : String) (keyItem fields : Value)
    (rest : List Value) :
    decodeRows c model (keyItem :: fields :: rest) = (do
      let record ← decodeRow c model keyItem fields
      return record :: (← decodeRows c model rest)) := by
  rw [decodeRows, decodeRow]
  simp only [bind_assoc]

/-- The document of a row is looked for among its names if its fields come in pairs. -/
theorem rowDocument_eq {pairs : List (Value × Value)}
    (h : fields.sequence? = some (inTurn pairs)) :
    rowDocument key fields = findDocument key (inTurn pairs) := by
  have heven : (inTurn pairs).length % 2 = 0 := by rw [length_inTurn, Nat.mul_mod_right]
  rw [rowDocument, h]
  exact if_pos heven

/-- Fields that do not come in pairs are reported under the key of the row. -/
theorem rowDocument_of_not_paired (h : ∀ pairs, fields.sequence? ≠ some (inTurn pairs)) :
    rowDocument key fields = .error (.reply (.fieldsNotPaired key)) := by
  rw [rowDocument]
  cases hitems : fields.sequence? with
  | none => rfl
  | some items =>
    refine if_neg fun heven => ?_
    obtain ⟨pairs, rfl⟩ := exists_inTurn items heven
    exact h pairs hitems

/-- The service decodes one row to an outcome. -/
theorem decodeRow_of_rowYields {outcome : Except Fault Value}
    (h : RowYields c model w.ids keyItem fields outcome made) :
    decodeRow c model keyItem fields w = (outcome, { w with ids := made }) := by
  have hkey {key : String} (shown : keyItem.asText = .ok key) :
      decodeRow c model keyItem fields w = (do
        let payload ← rowDocument key fields
        decodeDocument c model key payload : Service Value) w := by
    rw [decodeRow, shown]
    rfl
  have hfault {key : String} {fault : Fault} (shown : keyItem.asText = .ok key)
      (hdocument : rowDocument key fields = .error fault) :
      decodeRow c model keyItem fields w = (.error fault, w) := by
    rw [hkey shown, hdocument]
    rfl
  have hpayload {key : String} {document : Value} (row : HasDocument keyItem fields key document)
      (textual : IsTextual document) : decodeRow c model keyItem fields w =
        decodeDocument c model key document w := by
    obtain ⟨shown, before, name, after, hbefore, hname, hitems⟩ := row
    have hdocument : rowDocument key fields = .ok document := by
      rw [rowDocument_eq hitems, inTurn_append, findDocument_others hbefore]
      exact (findDocument_document hname _).1 textual
    rw [hkey shown, hdocument]
    rfl
  -- with a key that is read, all depends on what is found under the name of the document
  cases h with
  | record row textual valid =>
    rw [hpayload row textual, decodeDocument, reading, valid]
  | invalid row textual invalid =>
    rw [hpayload row textual, decodeDocument, reading, invalid]
  | broken row textual broken =>
    rw [hpayload row textual, decodeDocument, reading, broken]
  | notText row textual =>
    obtain ⟨shown, before, name, after, hbefore, hname, hitems⟩ := row
    refine hfault shown ?_
    rw [rowDocument_eq hitems, inTurn_append, findDocument_others hbefore]
    exact (findDocument_document hname _).2 textual
  | @noDocument key pairs shown paired others =>
    have hnil : findDocument key (inTurn pairs ++ []) = .error (.reply (.noDocument key)) :=
      findDocument_others others []
    rw [List.append_nil] at hnil
    exact hfault shown ((rowDocument_eq paired).trans hnil)
  | notPaired shown unpaired => exact hfault shown (rowDocument_of_not_paired unpaired)
  | keyWithoutText shown =>
    rw [decodeRow, shown]
    rfl
  | nameWithoutText shown paired others unshown =>
    refine hfault shown ?_
    rw [rowDocument_eq paired, inTurn_append, findDocument_others others]
    exact findDocument_unshown unshown _

/-- Every row gives something. -/
theorem exists_rowYields (c : Catalogue) (model : String) (ids : Nat) (keyItem fields : Value) :
    ∃ outcome made, RowYields c model ids keyItem fields outcome made := by
  cases hkey : keyItem.asText with
  | error fault => exact ⟨_, _, .keyWithoutText hkey⟩
  | ok key =>
    by_cases hpaired : ∃ pairs, fields.sequence? = some (inTurn pairs)
    · obtain ⟨pairs, hpairs⟩ := hpaired
      obtain hall | ⟨before, name, document, after, rfl, hbefore, hname | ⟨fault, hname⟩⟩ :=
        exists_first pairs
      · exact ⟨_, _, .noDocument hkey hpairs hall⟩
      · have row : HasDocument keyItem fields key document :=
          ⟨hkey, before, name, after, hbefore, hname, hpairs⟩
        by_cases textual : IsTextual document
        · cases hread : Record.ofDocument c model document (.start ids) with
          | mk outcome p =>
            rcases outcome with (problems | fault) | record
            · exact ⟨_, _, .invalid row textual hread⟩
            · exact ⟨_, _, .broken row textual hread⟩
            · exact ⟨_, _, .record row textual hread⟩
        · exact ⟨_, _, .notText row textual⟩
      · exact ⟨_, _, .nameWithoutText hkey hpairs hbefore hname⟩
    · exact ⟨_, _, .notPaired hkey fun pairs hpairs => hpaired ⟨pairs, hpairs⟩⟩

/-! ### All rows -/

variable {rows : List (Value × Value)} {records : List Value}

/-- Rows that give records are decoded to them in their order. What the decoder leaves of the world
is what it was, but for the identifiers that records without one have been given. -/
theorem decodeRows_of_rowsYield (h : RowsYield c model ids rows records made) (hids : w.ids = ids) :
    decodeRows c model (inTurn rows) w = (.ok records, { w with ids := made }) := by
  induction h generalizing w with
  | nil ids =>
    subst hids
    rfl
  | @cons ids ids' made keyItem fields record rows records row rest ih =>
    subst hids
    have hrest := ih (w := { w with ids := ids' }) rfl
    rw [inTurn_cons, decodeRows_cons, bind_run (decodeRow_of_rowYields row), bind_run hrest]
    rfl

/-- The first row that gives a fault ends the decoding. -/
theorem decodeRows_of_fault {row : Value × Value} {ids' : Nat} {fault : Fault}
    (h : RowsYield c model ids rows records ids')
    (hrow : RowYields c model ids' row.1 row.2 (.error fault) made) (hids : w.ids = ids)
    (after : List (Value × Value)) :
    decodeRows c model (inTurn (rows ++ row :: after)) w =
      (.error fault, { w with ids := made }) := by
  induction h generalizing w with
  | nil ids =>
    subst hids
    rw [List.nil_append, inTurn_cons, decodeRows_cons]
    exact bind_run_error (decodeRow_of_rowYields hrow)
  | @cons ids ids₁ ids' keyItem fields record rows records row' rest ih =>
    subst hids
    have hrest := ih (w := { w with ids := ids₁ }) hrow rfl
    rw [List.cons_append, inTurn_cons, decodeRows_cons, bind_run (decodeRow_of_rowYields row')]
    exact bind_run_error hrest

/-- All rows give records, or a first one gives a fault. -/
theorem exists_rowsYield (c : Catalogue) (model : String) (ids : Nat)
    (rows : List (Value × Value)) :
    (∃ records made, RowsYield c model ids rows records made) ∨
      ∃ before row after records ids' fault made, rows = before ++ row :: after ∧
        RowsYield c model ids before records ids' ∧
        RowYields c model ids' row.1 row.2 (.error fault) made := by
  induction rows generalizing ids with
  | nil => exact .inl ⟨[], ids, .nil ids⟩
  | cons row rows ih =>
    obtain ⟨_ | record, ids', hrow⟩ := exists_rowYields c model ids row.1 row.2
    · exact .inr ⟨[], row, rows, [], ids, _, ids', rfl, .nil ids, hrow⟩
    · obtain ⟨records, made, hrows⟩ | ⟨before, row', after, records, ids'', fault, made, rfl,
        hbefore, hrow'⟩ := ih ids'
      · exact .inl ⟨_, made, .cons hrow hrows⟩
      · exact .inr ⟨row :: before, row', after, _, ids'', fault, made, rfl, .cons hrow hbefore,
          hrow'⟩

/-! ### Replies -/

/-- After a count, keys and fields are wanted in turn. -/
theorem decodeSearch_cons {reply head : Value} {items : List Value} {count : Int}
    (hreply : reply.sequence? = some (head :: items)) (hhead : head.toInt = .ok count) :
    decodeSearch c model reply =
      if items.length % 2 = 1 then do
        let key ← (items.getLast?.getD .none).asText
        throw (.reply (.keyWithoutFields key))
        decodeRows c model items
      else decodeRows c model items := by
  have htotal : searchTotal reply = .ok count := by
    rw [searchTotal, hreply]
    dsimp only
    rw [hhead]
    rfl
  rw [decodeSearch, htotal, lift_ok_bind, hreply]
  rfl

/-- The records of a reply are those of its rows, once there is a count at its head. Which number
the count is does not matter. -/
theorem decodeSearch_eq {reply head : Value} {count : Int}
    (hreply : reply.sequence? = some (head :: inTurn rows)) (hhead : head.toInt = .ok count) :
    decodeSearch c model reply = decodeRows c model (inTurn rows) := by
  have heven : ¬ (inTurn rows).length % 2 = 1 := by
    rw [length_inTurn, Nat.mul_mod_right]
    exact Nat.zero_ne_one
  rw [decodeSearch_cons hreply hhead, if_neg heven]

/-- A count is the head of a reply. -/
theorem exists_of_searchTotal {reply : Value} {count : Int} (h : searchTotal reply = .ok count) :
    ∃ head items, reply.sequence? = some (head :: items) ∧ head.toInt = .ok count := by
  rw [searchTotal] at h
  split at h
  · next head items hreply =>
    refine ⟨head, items, hreply, ?_⟩
    cases hhead : head.toInt with
    | ok n =>
      rw [hhead] at h
      exact congrArg Except.ok (Except.ok.inj h)
    | error cause =>
      rw [hhead] at h
      cases hshown : head.literal <;> rw [hshown] at h <;> cases cause <;> cases h
  · cases h

/-- A reply with records has a count at its head and pairs in turn after it. -/
theorem exists_of_decodeSearch {reply : Value}
    (h : decodeSearch c model reply w = (.ok records, w')) :
    ∃ head count rows, reply.sequence? = some (head :: inTurn rows) ∧ head.toInt = .ok count := by
  cases htotal : searchTotal reply with
  | error fault =>
    rw [decodeSearch, htotal] at h
    cases h
  | ok count =>
    obtain ⟨head, items, hreply, hhead⟩ := exists_of_searchTotal htotal
    by_cases hodd : items.length % 2 = 1
    · rw [decodeSearch_cons hreply hhead, if_pos hodd] at h
      cases hkey : (items.getLast?.getD .none).asText <;> rw [hkey] at h <;> cases h
    · obtain ⟨rows, rfl⟩ := exists_inTurn items (by omega)
      exact ⟨head, count, rows, hreply, hhead⟩

/-- **Search replies.** Exactly the replies with a count at their head, with keys and fields in turn
after it and with a document that is a record in each row give records: one for each row, in order,
whatever the count is. If a reply with such a head and such pairs gives none, then its fault is that
of the first row that gives one. -/
theorem decodeSearch_iff (c : Catalogue) (model : String) (reply : Value) (w : World) :
    (∀ records w', decodeSearch c model reply w = (.ok records, w') ↔
      ∃ head count rows made, reply.sequence? = some (head :: inTurn rows) ∧
        head.toInt = .ok count ∧ RowsYield c model w.ids rows records made ∧
        w' = { w with ids := made }) ∧
    ∀ head count rows, reply.sequence? = some (head :: inTurn rows) → head.toInt = .ok count →
      ∀ fault w', decodeSearch c model reply w = (.error fault, w') ↔
        ∃ before row after records ids made, rows = before ++ row :: after ∧
          RowsYield c model w.ids before records ids ∧
          RowYields c model ids row.1 row.2 (.error fault) made ∧ w' = { w with ids := made } := by
  refine ⟨fun records w' => ⟨fun h => ?_, ?_⟩, fun head count rows hreply hhead fault w' =>
    ⟨fun h => ?_, ?_⟩⟩
  -- rows either all give records or have a first one that does not, and the decoder tells which
  · obtain ⟨head, count, rows, hreply, hhead⟩ := exists_of_decodeSearch h
    rw [decodeSearch_eq hreply hhead] at h
    obtain ⟨records', made, hrows⟩ | ⟨before, row, after, _, _, fault, made, rfl, hbefore, hrow⟩ :=
      exists_rowsYield c model w.ids rows
    · rw [decodeRows_of_rowsYield hrows rfl] at h
      obtain ⟨hrecords, rfl⟩ := Prod.mk.inj h
      obtain rfl := Except.ok.inj hrecords
      exact ⟨head, count, rows, made, hreply, hhead, hrows, rfl⟩
    · rw [decodeRows_of_fault hbefore hrow rfl] at h
      cases h
  · rintro ⟨head, count, rows, made, hreply, hhead, hrows, rfl⟩
    rw [decodeSearch_eq hreply hhead]
    exact decodeRows_of_rowsYield hrows rfl
  · rw [decodeSearch_eq hreply hhead] at h
    obtain ⟨records', made, hrows⟩ | ⟨before, row, after, records, ids, fault', made, rfl, hbefore,
      hrow⟩ := exists_rowsYield c model w.ids rows
    · rw [decodeRows_of_rowsYield hrows rfl] at h
      cases h
    · rw [decodeRows_of_fault hbefore hrow rfl] at h
      obtain ⟨hfault, rfl⟩ := Prod.mk.inj h
      obtain rfl := Except.error.inj hfault
      exact ⟨before, row, after, records, ids, made, rfl, hbefore, hrow, rfl⟩
  · rintro ⟨before, row, after, records, ids, made, rfl, hbefore, hrow, rfl⟩
    rw [decodeSearch_eq hreply hhead]
    exact decodeRows_of_fault hbefore hrow rfl after

/-- The row of an account, with a field before the document and a second document after it. -/
def accountFields : Value :=
  .list [.bytes [115, 99, 111, 114, 101], .int 1, .text "$",
    .text (String.ofList (Json.object [("pk", .text "a")]).write), .bytes [36], .none]

theorem rowYields_account : ∃ made, RowYields accounts "Account" 0
    (.bytes [97, 99, 99, 111, 117, 110, 116, 58, 97]) accountFields (.ok account.toValue) made := by
  have hrow : HasDocument (.bytes [97, 99, 99, 111, 117, 110, 116, 58, 97]) accountFields
      "account:a"
      (.text (String.ofList (Json.object [("pk", .text "a")]).write)) :=
    ⟨rfl, [(.bytes [115, 99, 111, 114, 101], .int 1)], .text "$", [(.bytes [36], .none)],
      List.forall_mem_singleton.mpr ⟨"score", rfl, by decide⟩, rfl, rfl⟩
  have hread : Record.ofDocument accounts "Account"
      (.text (String.ofList (Json.object [("pk", .text "a")]).write)) (.start 0) =
        (.ok account.toValue, (Record.ofJson accounts "Account"
          (Json.object [("pk", .text "a")]) (.start 0)).2) := by
    rw [ofDocument_write readable_pk (by decide)]
    exact Prod.ext rfl rfl
  exact ⟨_, .record hrow (.inl ⟨_, rfl⟩) hread⟩

/-- A reply with one account has one record, whatever its count is, and a second row without a
document rejects it. -/
theorem decodeSearch_iff_account : ∃ w₁ w₂,
    decodeSearch accounts "Account" (.list [.int 7,
      .bytes [97, 99, 99, 111, 117, 110, 116, 58, 97], accountFields]) freshWorld =
        (.ok [account.toValue], w₁) ∧
    decodeSearch accounts "Account" (.tuple [.bytes [50],
      .bytes [97, 99, 99, 111, 117, 110, 116, 58, 97], accountFields, .text "account:b",
      .list [.text "name", .text "b"]]) freshWorld =
        (.error (.reply (.noDocument "account:b")), w₂) := by
  obtain ⟨made, hrow⟩ := rowYields_account
  refine ⟨_, _, ((decodeSearch_iff accounts "Account" _ freshWorld).1 _ _).mpr
    ⟨.int 7, 7, [(_, accountFields)], made, rfl, rfl, .cons hrow (.nil made), rfl⟩,
    ((decodeSearch_iff accounts "Account" _ freshWorld).2 (.bytes [50]) 2
      [(_, accountFields), (.text "account:b", .list [.text "name", .text "b"])] rfl rfl _ _).mpr
      ⟨[(_, accountFields)], _, [], _, made, made, rfl, .cons hrow (.nil made), ?_, rfl⟩⟩
  have hfields : (Value.list [.text "name", .text "b"]).sequence? =
      some (inTurn [(.text "name", .text "b")]) := rfl
  exact .noDocument rfl hfields (List.forall_mem_singleton.mpr ⟨"name", rfl, by decide⟩)

end Service

end IndexedRecords
