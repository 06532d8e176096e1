import IndexedRecords.Proofs.Service.Decoding
import IndexedRecords.Proofs.Service.Undecoded

/-!
# Malformed replies

A search reply that is not as it has to be is reported as malformed, with two kinds of exceptions:
an infinity in the place of the count, and values that have no text where a message, a key or a name
is made of them. A value has no text if it is bytes that encode none, or if some whole number in it
has too many digits. `EscapesTotal` and `EscapesReply` say where this matters.

## Main statements

* `asText_eq_error_iff`: which parts of a reply have no text.
* `reportedUnless_escapes`: counts and records of any reply.
-/

namespace IndexedRecords

open Traversal

/-! ### Parts of replies -/

/-- What a reply is made of. -/
inductive IsWire : Value → Prop where
  | none : IsWire .none
  | bool (b : Bool) : IsWire (.bool b)
  | int (n : Int) : IsWire (.int n)
  | float (x : Binary64) : IsWire (.float x)
  | text (s : String) : IsWire (.text s)
  | bytes (content : List UInt8) : IsWire (.bytes content)
  | list {items : List Value} (each : ∀ item ∈ items, IsWire item) : IsWire (.list items)
  | tuple {items : List Value} (each : ∀ item ∈ items, IsWire item) : IsWire (.tuple items)

/-- A part of a reply has no text, for a reason. -/
inductive HasNoText : Value → ValueFault → Prop where
  | bytes {content : List UInt8} {fault : Utf8.Fault} (h : Utf8.decode? content = .error fault) :
      HasNoText (.bytes content) (.undecodable fault)
  | long {v : Value} (h : HoldsLong v) : HasNoText v (.tooManyDigits none)

variable {v : Value} {e : ValueFault} {items : List Value}

/-- The items of an array in a reply may stand in replies themselves. -/
theorem IsWire.item (h : IsWire v) (hitems : v.sequence? = some items) {item : Value}
    (hitem : item ∈ items) : IsWire item := by
  cases h with
  | list each | tuple each =>
    obtain rfl := Option.some.inj hitems
    exact each item hitem
  | _ => cases hitems

/-- Bytes have no text exactly if they are not those of an encoded one. -/
theorem decodeText_eq_error_iff {content : List UInt8} :
    Value.decodeText content = .error e ↔ HasNoText (.bytes content) e := by
  rw [Value.decodeText]
  cases hdecode : Utf8.decode? content with
  | ok cs =>
    constructor
    · rintro ⟨⟩
    · rintro (hfault | ⟨⟨⟩⟩)
      rw [hdecode] at hfault
      cases hfault
  | error fault =>
    constructor
    · rintro ⟨⟩
      exact .bytes hdecode
    · rintro (hfault | ⟨⟨⟩⟩)
      rw [hdecode] at hfault
      cases hfault
      rfl

/-- Which parts of a reply have no text. -/
theorem asText_eq_error_iff (h : IsWire v) : v.asText = .error e ↔ HasNoText v e := by
  -- all but texts and bytes are shown as messages quote them
  have hshown (hquoted : v.asText = v.literal) (hbytes : ∀ content, v ≠ .bytes content) :
      v.asText = .error e ↔ HasNoText v e := by
    rw [hquoted, Value.shownUnless_literal v e]
    constructor
    · rintro ⟨hlong, rfl⟩
      exact .long hlong
    · rintro (⟨_⟩ | hlong)
      · exact absurd rfl (hbytes _)
      · exact ⟨hlong, rfl⟩
  cases h with
  | text s =>
    refine iff_of_false nofun ?_
    rintro (_ | ⟨⟨⟩⟩)
  | bytes content => exact decodeText_eq_error_iff
  | _ => exact hshown rfl nofun

namespace Service

variable {α : Type} {c : Catalogue} {model : String} {reply head : Value} {w : World} {ids : Nat}

/-! ### Reported faults -/

/-- A reply is reported as malformed. -/
def IsMalformed (fault : Fault) : Prop := ∃ f, fault = .reply f

/-- A document in a reply is reported to be no record. -/
def IsUndecodable (model : String) (fault : Fault) : Prop :=
  ∃ key problems, fault = .undecodable model key problems

/-- Faults are reported in their own way, but for those of values in some cases. -/
structure ReportedUnless (own : Fault → Prop) (outcome : Except Fault α)
    (escapes : ValueFault → Prop) : Prop where
  reported : ∀ fault, outcome = .error fault → own fault ∨ ∃ e, fault = .value e ∧ escapes e
  escaped : ∀ e, escapes e → outcome = .error (.value e)

namespace ReportedUnless

variable {P : Fault → Prop} {outcome : Except Fault α} {escapes escapes' : ValueFault → Prop}

/-- What escapes may be described in any equivalent way. -/
theorem congr (h : ReportedUnless P outcome escapes) (hescapes : ∀ e, escapes e ↔ escapes' e) :
    ReportedUnless P outcome escapes' where
  reported fault hfault :=
    (h.reported fault hfault).imp_right fun ⟨e, he, hescape⟩ => ⟨e, he, (hescapes e).mp hescape⟩
  escaped e hescape := h.escaped e ((hescapes e).mpr hescape)

/-- Nothing escapes where there is a result. -/
theorem ok (a : α) (hescapes : ∀ e, ¬ escapes e) : ReportedUnless P (.ok a) escapes :=
  ⟨nofun, fun e hescape => absurd hescape (hescapes e)⟩

/-- A fault that is reported in its own way does not escape. -/
theorem report {fault : Fault} (hreport : P fault) (hescapes : ∀ e, ¬ escapes e) :
    ReportedUnless P (.error fault : Except Fault α) escapes := by
  refine ⟨fun fault' hfault => .inl ?_, fun e hescape => absurd hescape (hescapes e)⟩
  cases hfault
  exact hreport

/-- The fault of a value escapes where it is the only one to escape. -/
theorem value (e : ValueFault) (hescapes : ∀ e', escapes e' ↔ e' = e) :
    ReportedUnless P (.error (.value e) : Except Fault α) escapes := by
  refine ⟨fun fault hfault => .inr ⟨e, ?_, (hescapes e).mpr rfl⟩, fun e' hescape => ?_⟩
  · cases hfault
    rfl
  · rw [(hescapes e').mp hescape]

end ReportedUnless

/-! ### Counts -/

/-- The head of a reply is no count, and this is not reported: it is infinite, or it is an array
that cannot be shown. -/
inductive EscapesCount : Value → ValueFault → Prop where
  | infinite (negative : Bool) : EscapesCount (.float (.infinite negative)) .infinityToInt
  | array {head : Value} {items : List Value} (array : head.sequence? = some items)
      (long : HoldsLong head) : EscapesCount head (.tooManyDigits none)

/-- The count of a reply escapes. -/
def EscapesTotal (reply : Value) (e : ValueFault) : Prop :=
  ∃ head items, reply.sequence? = some (head :: items) ∧ EscapesCount head e

/-- A head that is no count is shown unless it has too many digits. -/
theorem reportedUnless_noCount {cause : ValueFault} {items : List Value}
    (hreply : reply.sequence? = some (head :: items)) (hhead : head.toInt = .error cause)
    (hcause : cause.classOf ≠ .overflow) :
    ReportedUnless IsMalformed (searchTotal reply)
      fun e => HoldsLong head ∧ e = .tooManyDigits none := by
  rw [searchTotal_of_error hreply hhead hcause, noCount]
  have hshown := Value.shownUnless_literal head
  cases hliteral : head.literal with
  | ok shown =>
    exact .report ⟨_, rfl⟩ fun e hescape => nomatch hliteral.symm.trans ((hshown e).mpr hescape)
  | error e =>
    obtain ⟨hlong, rfl⟩ := (hshown e).mp hliteral
    exact .value _ fun e' => and_iff_right hlong

/-- A text that is no count is not infinite either: it is refused as a value. -/
theorem classOf_of_toInt_text {s : String} {cause : ValueFault}
    (h : (Value.text s).toInt = .error cause) : cause.classOf ≠ .overflow := by
  rw [Value.classOf_of_intOfText h]
  decide

/-- Bytes that are no count are not infinite either. -/
theorem classOf_of_toInt_bytes {content : List UInt8} {cause : ValueFault}
    (h : (Value.bytes content).toInt = .error cause) : cause.classOf ≠ .overflow := by
  simp only [Value.toInt, Value.plain] at h
  split at h
  · rw [Value.classOf_of_intOfText h]
    decide
  · cases h
    rintro ⟨⟩

/-- A head that is neither a count nor an array can be shown. -/
theorem not_holdsLong_of_noCount {cause : ValueFault} (hwire : IsWire head)
    (hatom : head.sequence? = none) (hhead : head.toInt = .error cause) : ¬ HoldsLong head := by
  intro hlong
  cases hlong with
  | int => cases hhead
  | list | tuple => cases hatom
  | _ => cases hwire

/-- An array in the place of the count escapes only if it cannot be shown. -/
theorem escapesCount_array_iff {items : List Value} {e : ValueFault}
    (harray : head.sequence? = some items) :
    EscapesCount head e ↔ HoldsLong head ∧ e = .tooManyDigits none := by
  constructor
  · intro h
    cases h with
    | infinite => cases harray
    | array _ long => exact ⟨long, rfl⟩
  · rintro ⟨hlong, rfl⟩
    exact .array harray hlong

/-- **Counts.** A count that cannot be read is reported, unless it escapes. -/
theorem reportedUnless_count (hwire : IsWire head) {items : List Value}
    (hreply : reply.sequence? = some (head :: items)) :
    ReportedUnless IsMalformed (searchTotal reply) (EscapesCount head) := by
  -- a head that is neither an infinity nor an array is shown, if it is no count
  have hplain (hatom : head.sequence? = none)
      (hfinite : ∀ negative, head ≠ .float (.infinite negative))
      (hcause : ∀ cause, head.toInt = .error cause → cause.classOf ≠ .overflow) :
      ReportedUnless IsMalformed (searchTotal reply) (EscapesCount head) := by
    have hescape (e : ValueFault) : ¬ EscapesCount head e := by
      rintro (negative | ⟨harray, -⟩)
      · exact hfinite negative rfl
      · exact nomatch hatom.symm.trans harray
    cases hhead : head.toInt with
    | ok n =>
      rw [searchTotal_cons hreply, hhead]
      exact .ok n hescape
    | error cause =>
      have hlong : ¬ HoldsLong head := not_holdsLong_of_noCount hwire hatom hhead
      refine (reportedUnless_noCount hreply hhead (hcause cause hhead)).congr fun e => ?_
      exact iff_of_false (fun h => hlong h.1) (hescape e)
  cases hwire with
  | list each | tuple each =>
    exact (reportedUnless_noCount hreply rfl nofun).congr fun e => (escapesCount_array_iff rfl).symm
  | float x =>
    cases x with
    | infinite negative =>
      rw [searchTotal_cons hreply]
      refine .value .infinityToInt fun e => ⟨fun h => ?_, fun h => h ▸ .infinite negative⟩
      rcases h with _ | ⟨⟨⟩, _⟩
      rfl
    | nan =>
      refine hplain rfl nofun ?_
      rintro _ ⟨⟩
      exact nofun
    | finite negative magnitude => exact hplain rfl nofun nofun
  | none =>
    refine hplain rfl nofun ?_
    rintro _ ⟨⟩
    exact nofun
  | bool b => exact hplain rfl nofun nofun
  | int n => exact hplain rfl nofun nofun
  | text s => exact hplain rfl nofun fun cause => classOf_of_toInt_text
  | bytes content => exact hplain rfl nofun fun cause => classOf_of_toInt_bytes

/-- The count of a reply is reported as malformed unless it escapes. -/
theorem reportedUnless_searchTotal (hwire : IsWire reply) :
    ReportedUnless IsMalformed (searchTotal reply) (EscapesTotal reply) := by
  have hempty (hreply : ∀ head items, reply.sequence? ≠ some (head :: items))
      (htotal : searchTotal reply = .error (.reply (.notAnArray reply.kindName))) :
      ReportedUnless IsMalformed (searchTotal reply) (EscapesTotal reply) := by
    rw [htotal]
    exact .report ⟨_, rfl⟩ fun e ⟨head, items, hitems, _⟩ => hreply head items hitems
  rcases hreply : reply.sequence? with _ | _ | ⟨head, items⟩
  · exact hempty (by simp [hreply]) (by rw [searchTotal, hreply])
  · exact hempty (by simp [hreply]) (by rw [searchTotal, hreply])
  · have hhead : IsWire head := hwire.item hreply List.mem_cons_self
    refine (reportedUnless_count hhead hreply).congr fun e =>
      ⟨fun h => ⟨head, items, hreply, h⟩, ?_⟩
    rintro ⟨head', items', hreply', h⟩
    obtain ⟨rfl, rfl⟩ := List.cons.inj (Option.some.inj (hreply.symm.trans hreply'))
    exact h

/-! ### Rows -/

/-- A row is not as it has to be, and this is not reported: its key has no text, or a name before
that of the document has none. -/
inductive EscapesRow (keyItem fields : Value) (e : ValueFault) : Prop where
  | key (h : HasNoText keyItem e)
  | name {names rest : List (Value × Value)} {name item : Value} {text : String}
      (shown : keyItem.asText = .ok text)
      (paired : fields.sequence? = some (inTurn (names ++ (name, item) :: rest)))
      (others : ∀ p ∈ names, IsOther p.1) (h : HasNoText name e)

/-- What comes after the count escapes: the first row that gives no record does, or the last key has
no fields and no text. -/
inductive EscapesRows (c : Catalogue) (model : String) (ids : Nat) (items : List Value)
    (e : ValueFault) : Prop where
  | unpaired {before : List Value} {key : Value} (split : items = before ++ [key])
      (paired : before.length % 2 = 0) (h : HasNoText key e)
  | row {before after : List (Value × Value)} {row : Value × Value} {records : List Value}
      {made : Nat} (split : items = inTurn (before ++ row :: after))
      (yields : RowsYield c model ids before records made) (h : EscapesRow row.1 row.2 e)

/-- The records of a reply escape: its count does, or what comes after it. -/
def EscapesReply (c : Catalogue) (model : String) (ids : Nat) (reply : Value) (e : ValueFault) :
    Prop :=
  EscapesTotal reply e ∨ ∃ head count items, reply.sequence? = some (head :: items) ∧
    head.toInt = .ok count ∧ EscapesRows c model ids items e

/-- What the decoder reports. -/
def IsReported (model : String) (fault : Fault) : Prop :=
  IsMalformed fault ∨ IsUndecodable model fault

/-- Keys and fields that take turns are parts of the reply. -/
theorem mem_inTurn (before after : List (Value × Value)) (p : Value × Value) :
    p.1 ∈ inTurn (before ++ p :: after) ∧ p.2 ∈ inTurn (before ++ p :: after) := by
  have h : p ∈ before ++ p :: after := List.mem_append_right before List.mem_cons_self
  exact ⟨List.mem_flatMap.mpr ⟨p, h, by simp⟩, List.mem_flatMap.mpr ⟨p, h, by simp⟩⟩

section

variable {rows : List (Value × Value)} {items : List Value} {keyItem fields : Value}
  {fault : Fault} {made : Nat} {e : ValueFault}

/-- The names in a row of a reply are parts of it. -/
theorem isWire_name (hfields : IsWire fields) {names rest : List (Value × Value)}
    {name item : Value}
    (paired : fields.sequence? = some (inTurn (names ++ (name, item) :: rest))) :
    IsWire name :=
  hfields.item paired (mem_inTurn names rest (name, item)).1

/-- A row that escapes gives no record and fails in the way it escapes. -/
theorem rowYields_of_escapesRow (hkey : IsWire keyItem) (hfields : IsWire fields)
    (h : EscapesRow keyItem fields e) :
    RowYields c model ids keyItem fields (.error (.value e)) ids := by
  cases h with
  | key h => exact .keyWithoutText ((asText_eq_error_iff hkey).mpr h)
  | name shown paired others h =>
    have hname := isWire_name hfields paired
    exact .nameWithoutText shown paired others ((asText_eq_error_iff hname).mpr h)

variable (hmodel : ∀ key payload w, IsDecoded model key (decodeDocument c model key payload w).1)

include hmodel

/-- The fault of a row is reported, or the row escapes. -/
theorem reported_of_rowYields (hkey : IsWire keyItem) (hfields : IsWire fields)
    (h : RowYields c model ids keyItem fields (.error fault) made) :
    IsReported model fault ∨ ∃ e, fault = .value e ∧ EscapesRow keyItem fields e := by
  cases h with
  | invalid => exact .inl (.inr ⟨_, _, rfl⟩)
  | @broken key document fault _ _ _ broken =>
    have hdecode := hmodel key document ⟨.script [], [], [], ids⟩
    rw [decodeDocument_fst, broken] at hdecode
    exact absurd hdecode (by simp [IsDecoded, judged])
  | notText | noDocument | notPaired => exact .inl (.inl ⟨_, rfl⟩)
  | keyWithoutText shown => exact .inr ⟨_, rfl, .key ((asText_eq_error_iff hkey).mp shown)⟩
  | nameWithoutText shown paired others unshown =>
    have hname := isWire_name hfields paired
    exact .inr ⟨_, rfl, .name shown paired others ((asText_eq_error_iff hname).mp unshown)⟩

/-- Rows are reported in their own way, unless the first one that gives no record escapes. The
induction goes from row to row, with the identifiers that were made by then. -/
theorem reportedUnless_decodeRows (hwire : ∀ item ∈ inTurn rows, IsWire item) (w : World) :
    ReportedUnless (IsReported model) (decodeRows c model (inTurn rows) w).1
      (EscapesRows c model w.ids (inTurn rows)) where
  reported fault hfault := by
    obtain ⟨records, made, hrows⟩ | ⟨before, row, after, records, ids, fault', made, rfl, hbefore,
      hrow⟩ := exists_rowsYield c model w.ids rows
    · rw [decodeRows_of_rowsYield hrows rfl] at hfault
      cases hfault
    · rw [decodeRows_of_fault hbefore hrow rfl] at hfault
      obtain rfl := Except.error.inj hfault
      obtain ⟨hkey, hfields⟩ := mem_inTurn before after row
      refine (reported_of_rowYields hmodel (hwire _ hkey) (hwire _ hfields) hrow).imp_right ?_
      rintro ⟨e, rfl, hescape⟩
      exact ⟨e, rfl, .row rfl hbefore hescape⟩
  escaped e hescape := by
    cases hescape with
    -- rows in turn have an even number of items, so no key is left without fields
    | @unpaired before key split paired _ =>
      have hlength := congrArg List.length split
      rw [length_inTurn, List.length_append, List.length_singleton] at hlength
      omega
    | @row before after row records made split yields h =>
      obtain ⟨hkey, hfields⟩ := mem_inTurn before after row
      rw [← split] at hkey hfields
      have hrow : RowYields c model made row.1 row.2 (.error (.value e)) made :=
        rowYields_of_escapesRow (hwire _ hkey) (hwire _ hfields) h
      rw [split, decodeRows_of_fault yields hrow rfl]

omit hmodel in
/-- A last key without fields escapes where it has no text. -/
theorem escapesRows_concat_iff {before : List Value} {key : Value}
    (paired : before.length % 2 = 0) :
    EscapesRows c model ids (before ++ [key]) e ↔ HasNoText key e := by
  constructor
  · intro h
    cases h with
    | unpaired split _ h =>
      obtain ⟨-, hkey⟩ := List.append_inj' split rfl
      rwa [List.singleton_inj.mp hkey]
    | row split _ _ =>
      have hlength := congrArg List.length split
      rw [length_inTurn, List.length_append, List.length_singleton] at hlength
      omega
  · exact .unpaired rfl paired

omit hmodel in
/-- A reply with a key that has no fields is reported as malformed once its rows have been counted,
and it escapes only through a key without a text. -/
theorem reportedUnless_unpaired {before : List Value} {key head : Value} {count : Int}
    (hkey : IsWire key) (hreply : reply.sequence? = some (head :: (before ++ [key])))
    (hhead : head.toInt = .ok count) (paired : before.length % 2 = 0) (w : World) :
    ReportedUnless (IsReported model) (decodeSearch c model reply w).1
      (EscapesRows c model w.ids (before ++ [key])) := by
  have hodd : (before ++ [key]).length % 2 = 1 := by
    rw [List.length_append, List.length_singleton]
    omega
  rw [decodeSearch_cons hreply hhead, if_pos hodd, List.getLast?_concat, Option.getD_some]
  cases htext : key.asText with
  | ok text =>
    refine .report (.inl ⟨_, rfl⟩) fun e hescape => ?_
    have hnone := (asText_eq_error_iff hkey).mpr ((escapesRows_concat_iff paired).mp hescape)
    cases htext.symm.trans hnone
  | error e =>
    refine .value e fun e' => ?_
    rw [escapesRows_concat_iff paired, ← asText_eq_error_iff hkey, htext]
    exact ⟨fun h => (Except.error.inj h).symm, fun h => h ▸ rfl⟩

/-- The records of a reply are reported in their own way, unless its count escapes or what comes
after it. -/
theorem reportedUnless_decodeSearch (hwire : IsWire reply) (w : World) :
    ReportedUnless (IsReported model) (decodeSearch c model reply w).1
      (EscapesReply c model w.ids reply) := by
  have htotal := reportedUnless_searchTotal hwire
  cases hsearch : searchTotal reply with
  | error fault =>
    have hrun : (decodeSearch c model reply w).1 = .error fault := by
      rw [decodeSearch, hsearch]
      rfl
    rw [hrun]
    refine ⟨fun fault' hfault => ?_, ?_⟩
    · obtain rfl := Except.error.inj hfault
      refine (htotal.reported fault hsearch).imp .inl ?_
      rintro ⟨e, he, hescape⟩
      exact ⟨e, he, .inl hescape⟩
    · rintro e (hescape | ⟨head, count, items, hreply, hhead, -⟩)
      · exact congrArg _ (Except.error.inj (hsearch.symm.trans (htotal.escaped e hescape)))
      · rw [searchTotal_cons hreply, hhead] at hsearch
        cases hsearch
  | ok count =>
    obtain ⟨head, items, hreply, hhead⟩ := exists_of_searchTotal hsearch
    have hescape (e : ValueFault) : EscapesRows c model w.ids items e ↔
        EscapesReply c model w.ids reply e := by
      refine ⟨fun h => .inr ⟨head, count, items, hreply, hhead, h⟩, ?_⟩
      rintro (h | ⟨head', count', items', hreply', -, h⟩)
      · cases hsearch.symm.trans (htotal.escaped e h)
      · obtain ⟨rfl, rfl⟩ := List.cons.inj (Option.some.inj (hreply.symm.trans hreply'))
        exact h
    have hitems (item : Value) (hitem : item ∈ items) : IsWire item :=
      hwire.item hreply (List.mem_cons_of_mem head hitem)
    refine ReportedUnless.congr ?_ hescape
    -- an odd number of items leaves the last key without fields, which is found before any row is
    -- read
    by_cases hodd : items.length % 2 = 1
    · obtain rfl | ⟨before, key, rfl⟩ := List.eq_nil_or_concat' items
      · cases hodd
      have hkey : IsWire key := hitems key (List.mem_append_right _ List.mem_cons_self)
      rw [List.length_append, List.length_singleton] at hodd
      exact reportedUnless_unpaired hkey hreply hhead (by omega) w
    · obtain ⟨rows, rfl⟩ := exists_inTurn items (by omega)
      rw [decodeSearch_eq hreply hhead]
      exact reportedUnless_decodeRows hmodel hitems w

end

/-- **Malformed replies.** Take a model of which every document is decoded or reported to be no
record. A reply gives a count, or is reported as malformed, unless its count escapes; it gives
records, or is reported as malformed or undecodable, unless its count, a key or a name escapes. -/
theorem reportedUnless_escapes (c : Catalogue) (model : String)
    (hmodel : ∀ key payload w, IsDecoded model key (decodeDocument c model key payload w).1)
    {reply : Value} (hwire : IsWire reply) :
    ReportedUnless IsMalformed (searchTotal reply) (EscapesTotal reply) ∧
      ∀ w, ReportedUnless (IsReported model) (decodeSearch c model reply w).1
        (EscapesReply c model w.ids reply) :=
  ⟨reportedUnless_searchTotal hwire, reportedUnless_decodeSearch hmodel hwire⟩

/-- A reply with a key that is no text. -/
def replyWithoutKey : Value := .list [.int 1, .bytes [0xff], .list []]

/-- A reply with an infinity in the place of the count. -/
def infiniteReply : Value := .list [.float (.infinite false)]

theorem shape_of_mem_accounts {r : RecordType} {f : Field} (hr : r ∈ accounts.types)
    (hf : f ∈ r.fields) : f.shape = .scalar .text := by
  change r ∈ [RecordType.plainBase, .embeddedBase, .persistedBase, accounts.types[3]] at hr
  simp only [List.mem_cons, List.not_mem_nil, or_false] at hr
  rcases hr with rfl | rfl | rfl | rfl
  · cases hf
  · cases hf
  · obtain rfl := List.mem_singleton.mp hf
    rfl
  · obtain rfl := List.mem_singleton.mp hf
    rfl

theorem isDecoded_accounts (key : String) (payload : Value) (w : World) :
    IsDecoded "Account" key (decodeDocument accounts "Account" key payload w).1 := by
  refine isDecoded_of_noParts (fun r hr f hf => ?_) "Account" key payload w
  rw [shape_of_mem_accounts hr hf]
  rintro ⟨⟨⟩⟩

/-- The key of a row has to be a text, but that it is none is not reported. -/
theorem reportedUnless_escapes_accounts :
    IsWire replyWithoutKey ∧ searchTotal replyWithoutKey = .ok 1 ∧
    EscapesReply accounts "Account" 0 replyWithoutKey (.undecodable ⟨0, 1, 0xff, .invalidStart⟩) ∧
    (decodeSearch accounts "Account" replyWithoutKey freshWorld).1 =
      .error (.value (.undecodable ⟨0, 1, 0xff, .invalidStart⟩)) := by
  have hwire : IsWire replyWithoutKey := by
    refine .list ?_
    simp only [List.forall_mem_cons]
    exact ⟨.int 1, .bytes _, .list nofun, nofun⟩
  have hescape : EscapesReply accounts "Account" 0 replyWithoutKey
      (.undecodable ⟨0, 1, 0xff, .invalidStart⟩) := by
    have hsplit : [Value.bytes [0xff], .list []] =
        inTurn ([] ++ (.bytes [0xff], .list []) :: []) := rfl
    exact .inr ⟨.int 1, 1, _, rfl, rfl, .row hsplit (.nil 0) (.key (.bytes rfl))⟩
  have hreported := reportedUnless_escapes accounts "Account" isDecoded_accounts hwire
  exact ⟨hwire, rfl, hescape, (hreported.2 freshWorld).escaped _ hescape⟩

/-- An infinity in the place of the count is not reported as a malformed reply, neither where the
count is wanted nor where the records are. -/
theorem searchTotal_infiniteReply :
    IsWire infiniteReply ∧ searchTotal infiniteReply = .error (.value .infinityToInt) ∧
      ¬ IsMalformed (.value .infinityToInt) ∧
      (decodeSearch accounts "Account" infiniteReply freshWorld).1 =
        .error (.value .infinityToInt) := by
  refine ⟨.list (List.forall_mem_singleton.mpr (.float _)), rfl, ?_, rfl⟩
  rintro ⟨_, ⟨⟩⟩

end Service

end IndexedRecords
