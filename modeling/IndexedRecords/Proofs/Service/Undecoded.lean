import IndexedRecords.Proofs.Service.Inspection
import IndexedRecords.Proofs.Service.Rows
import IndexedRecords.Proofs.Value.Undecoded
import Mathlib.Data.List.Induction

/-!
# Undecoded replies

What is read of a reply does not depend on whether its texts are given as bytes. Search replies are
read alike whatever stands in them, as long as the count is no text with other than ASCII digits.
The keys of a page, the names of indexes and what is said about an index are read alike where no
array or map stands in the place of a text; and what is said about an index may come as a map, or as
an array of names and values in turn.

## Main statements

* `searchTotal_alike`, `agree_decodeSearch`: search replies.
* `readPage_alike`, `addIds_eq_of_sameReadings`: pages of keys.
* `readTexts_eq`: names of indexes.
* `readInfo_alike`: what is said about an index.
-/

namespace IndexedRecords.Service

open Value

variable {reply reply' head v v' : Value} {items items' : List Value}

/-! ### Counts -/

/-- The count of a search reply has no text with other than ASCII characters. -/
def HasPlainCount (reply : Value) : Prop :=
  ∀ s items, reply.sequence? = some (.text s :: items) → ∀ ch ∈ s.toList, ch.toNat < 0x80

/-- The fault of a reply whose head is no count. -/
def noCount (head : Value) (cause : ValueFault) : Except Fault Int := do
  .error (.reply (.noCount (← head.literal) cause))

/-- The count of a search reply is read off its head. Only an infinity there passes for something
other than a malformed reply. -/
theorem searchTotal_cons (h : reply.sequence? = some (head :: items)) : searchTotal reply =
    match head.toInt with
    | .ok n => .ok n
    | .error .infinityToInt => .error (.value .infinityToInt)
    | .error .decimalInfinityToInt => .error (.value .decimalInfinityToInt)
    | .error cause => noCount head cause := by
  rw [searchTotal, h]
  rfl

/-- A count that cannot be read makes a reply malformed, but for infinities. -/
theorem searchTotal_of_error {e : ValueFault} (h : reply.sequence? = some (head :: items))
    (hhead : head.toInt = .error e) (he : e.classOf ≠ .overflow) :
    searchTotal reply = noCount head e := by
  rw [searchTotal_cons h, hhead]
  cases e <;> first | rfl | exact absurd rfl he

/-- The count of a search reply is read alike. -/
theorem searchTotal_alike (h : Undecoded reply reply') (hcount : HasPlainCount reply) :
    Alike Fault.classOf Eq (searchTotal reply) (searchTotal reply') := by
  obtain ⟨hreply, hreply'⟩ | ⟨items, items', hreply, hreply', hitems⟩ := h.sequence?_cases
  · rw [searchTotal, searchTotal, hreply, hreply']
    exact .error rfl
  cases hitems with
  | nil =>
    rw [searchTotal, searchTotal, hreply, hreply']
    exact .error rfl
  | @cons head head' items items' hhead _ =>
    have hnone (e e' : ValueFault) : Alike Fault.classOf Eq (noCount head e) (noCount head' e') :=
      (literal_alike hhead).lift.bind fun _ _ _ _ => .error rfl
    obtain heq | ⟨e, e', he, he', hclass, hclass'⟩ :=
      hhead.toInt_cases fun s hs => hcount s items (hs ▸ hreply)
    · rw [searchTotal_cons hreply, searchTotal_cons hreply', heq]
      cases head.toInt with
      | ok n => exact .ok rfl
      | error e => cases e <;> first | exact .error rfl | exact hnone _ _
    · rw [searchTotal_of_error hreply he hclass, searchTotal_of_error hreply' he' hclass']
      exact hnone e e'

/-! ### Rows -/

/-- The same document, or a text and its bytes. -/
def SameDocument (v v' : Value) : Prop :=
  v = v' ∨ ∃ s, v = .text s ∧ v' = .bytes (Utf8.encode s.toList)

/-- A textual value is the same document, and any other value is none. -/
theorem isTextual_cases (h : Undecoded v v') :
    IsTextual v ∧ IsTextual v' ∧ SameDocument v v' ∨ ¬ IsTextual v ∧ ¬ IsTextual v' := by
  cases h with
  | same =>
    by_cases htext : IsTextual v
    · exact .inl ⟨htext, htext, .inl rfl⟩
    · exact .inr ⟨htext, htext⟩
  | text s => exact .inl ⟨.inl ⟨s, rfl⟩, .inr ⟨_, rfl⟩, .inr ⟨s, rfl, rfl⟩⟩
  | list _ | tuple _ | map _ _ =>
    refine .inr ⟨?_, ?_⟩ <;> rintro (⟨_, hplain⟩ | ⟨_, hplain⟩) <;> cases hplain

/-- A document is accepted alike beside the name of documents. -/
theorem findDocument_document_alike {name name' : Value} (key key' : String)
    (hname : name.asText = .ok "$") (hname' : name'.asText = .ok "$") (hv : Undecoded v v')
    (rest rest' : List Value) : Alike Fault.classOf SameDocument
      (findDocument key (name :: v :: rest)) (findDocument key' (name' :: v' :: rest')) := by
  obtain ⟨htext, htext', hsame⟩ | ⟨hnot, hnot'⟩ := isTextual_cases hv
  · rw [(findDocument_document hname rest).1 htext, (findDocument_document hname' rest').1 htext']
    exact .ok hsame
  · rw [(findDocument_document hname rest).2 hnot, (findDocument_document hname' rest').2 hnot']
    exact .error rfl

/-- The document among the fields of a row is found alike. -/
theorem findDocument_alike (key key' : String) (h : List.Forall₂ Undecoded items items') :
    Alike Fault.classOf SameDocument (findDocument key items) (findDocument key' items') := by
  induction items using List.twoStepInduction generalizing items' with
  | nil =>
    cases h
    exact .error rfl
  | singleton name =>
    obtain _ | ⟨_, _ | _⟩ := h
    exact .error rfl
  | cons_cons name v rest ih _ =>
    obtain _ | ⟨hname, _ | ⟨hv, hrest⟩⟩ := h
    rename_i name' v' rest'
    have hread := hname.asText_alike
    generalize hshown : name.asText = shown, hshown' : name'.asText = shown' at hread
    cases hread with
    | error hclass =>
      rw [findDocument_unshown hshown, findDocument_unshown hshown']
      exact .error hclass
    | @ok text text' hsame =>
      -- the name of the document is told from all others in both forms
      by_cases hdollar : text = "$"
      · have hdollar' := (hsame.eq_iff (by decide)).mp hdollar
        subst hdollar hdollar'
        exact findDocument_document_alike key key' hshown hshown' hv rest rest'
      · have hother' := mt (hsame.eq_iff (by decide)).mpr hdollar
        rw [findDocument_other ⟨text, hshown, hdollar⟩,
          findDocument_other ⟨text', hshown', hother'⟩]
        exact ih hrest

/-- The document of a row is found alike in both forms of its fields, though it may be a text in one
of them and bytes in the other. -/
theorem rowDocument_alike (key key' : String) (h : Undecoded v v') :
    Alike Fault.classOf SameDocument (rowDocument key v) (rowDocument key' v') := by
  obtain ⟨hv, hv'⟩ | ⟨items, items', hv, hv', hitems⟩ := h.sequence?_cases
  · rw [rowDocument, rowDocument, hv, hv']
    exact .error rfl
  rw [rowDocument, rowDocument, hv, hv']
  dsimp only
  rw [← hitems.length_eq]
  split
  · exact findDocument_alike key key' hitems
  · exact .error rfl

/-- A document is read as before from its bytes. -/
theorem ofDocument_eq_of_sameDocument (c : Catalogue) (model : String) (h : SameDocument v v') :
    Record.ofDocument c model v' = Record.ofDocument c model v := by
  obtain rfl | ⟨s, rfl, rfl⟩ := h
  · rfl
  have htext : Record.documentText (.bytes (Utf8.encode s.toList)) =
      Record.documentText (.text s) := by
    simp only [Record.documentText, Value.plain, Utf8.decode?_encode]
  rw [Record.ofDocument, Record.ofDocument, htext]

/-- A document is decoded alike, and as many identifiers are made. -/
theorem agree_decodeDocument (c : Catalogue) (model key key' : String) (h : SameDocument v v') :
    Agree Eq Eq (decodeDocument c model key v) (decodeDocument c model key' v') := by
  rintro w _ rfl
  rw [decodeDocument, decodeDocument, reading, reading, ofDocument_eq_of_sameDocument c model h]
  cases Record.ofDocument c model v (.start w.ids) with
  | mk outcome p =>
    cases outcome with
    | ok record => exact ⟨.ok rfl, rfl⟩
    | error rejection => cases rejection <;> exact ⟨.error rfl, rfl⟩

/-- Rows are decoded alike. -/
theorem agree_decodeRows (c : Catalogue) (model : String)
    (h : List.Forall₂ Undecoded items items') :
    Agree Eq Eq (decodeRows c model items) (decodeRows c model items') := by
  induction items using List.twoStepInduction generalizing items' with
  | nil =>
    cases h
    exact .pure rfl
  | singleton key =>
    obtain _ | ⟨_, _ | _⟩ := h
    exact .pure rfl
  | cons_cons key fields rest ih _ =>
    obtain _ | ⟨hkey, _ | ⟨hfields, hrest⟩⟩ := h
    rw [decodeRows, decodeRows]
    refine Agree.bind (R := SameText) (.settled hkey.asText_alike.lift) fun key key' _ => ?_
    refine Agree.bind (.settled (rowDocument_alike key key' hfields)) fun v v' hv => ?_
    refine Agree.bind (agree_decodeDocument c model key key' hv) fun record _ heq => ?_
    subst heq
    refine (ih hrest).bind fun records _ heq => ?_
    subst heq
    exact .pure rfl

theorem undecoded_last (h : List.Forall₂ Undecoded items items') :
    Undecoded (items.getLast?.getD .none) (items'.getLast?.getD .none) := by
  have hreverse := List.forall₂_reverse_iff.mpr h
  rw [List.getLast?_eq_head?_reverse, List.getLast?_eq_head?_reverse]
  generalize items.reverse = first, items'.reverse = first' at hreverse ⊢
  cases hreverse with
  | nil => exact .same _
  | cons hv _ => exact hv

/-- Search replies are decoded alike. -/
theorem agree_decodeSearch (c : Catalogue) (model : String) (h : Undecoded reply reply')
    (hcount : HasPlainCount reply) :
    Agree Eq Eq (decodeSearch c model reply) (decodeSearch c model reply') := by
  have hitems : List.Forall₂ Undecoded (reply.sequence?.getD []).tail
      (reply'.sequence?.getD []).tail := by
    obtain ⟨hreply, hreply'⟩ | ⟨items, items', hreply, hreply', hitems⟩ := h.sequence?_cases
    · rw [hreply, hreply']
      exact .nil
    · rw [hreply, hreply']
      exact List.drop_one ▸ List.drop_one ▸ List.forall₂_drop 1 hitems
  rw [decodeSearch, decodeSearch]
  refine Agree.bind (.settled (searchTotal_alike h hcount)) fun _ _ _ => ?_
  dsimp only
  revert hitems
  generalize (reply.sequence?.getD []).tail = rows, (reply'.sequence?.getD []).tail = rows'
  intro hitems
  rw [← hitems.length_eq]
  split
  · refine Agree.bind (R := SameText) (.settled (undecoded_last hitems).asText_alike.lift)
      fun key key' _ => ?_
    exact .throw rfl
  · exact agree_decodeRows c model hitems

/-! ### Arrays of texts -/

/-- An array in which no array and no map stands. -/
def IsFlat (v : Value) : Prop :=
  ∃ items, v.sequence? = some items ∧ ∀ item ∈ items, item.IsAtom

/-- Two values are read as the same text, or both are not for the same reason. -/
def SameReading (v v' : Value) : Prop := v'.asText = v.asText

theorem sameReadings (h : List.Forall₂ Undecoded items items')
    (atoms : ∀ item ∈ items, item.IsAtom) : List.Forall₂ SameReading items items' := by
  induction h with
  | nil => exact .nil
  | cons hv _ ih =>
    obtain ⟨atom, atoms⟩ := List.forall_mem_cons.mp atoms
    exact .cons (hv.asText_eq atom) (ih atoms)

/-- An array without arrays and maps is the same array of texts. -/
theorem exists_sameReadings (h : Undecoded v v') (flat : IsFlat v) : ∃ items items',
    v.sequence? = some items ∧ v'.sequence? = some items' ∧
      List.Forall₂ SameReading items items' := by
  obtain ⟨items, hitems, atoms⟩ := flat
  obtain ⟨hnone, -⟩ | ⟨items₁, items', hv, hv', hrelated⟩ := h.sequence?_cases
  · rw [hitems] at hnone
    cases hnone
  · obtain rfl := Option.some.inj (hitems.symm.trans hv)
    exact ⟨items, items', hv, hv', sameReadings hrelated atoms⟩

theorem items?_of_sequence? (h : v.sequence? = some items) : v.items? = some items := by
  cases v with
  | list | tuple => exact h
  | _ => cases h

theorem items_of_sequence? (h : v.sequence? = some items) : v.items = .ok items := by
  rw [Value.items, items?_of_sequence? h]

/-- Arrays of values that are read as the same texts are read as the same texts. -/
theorem mapM_asText_eq (h : List.Forall₂ SameReading items items') :
    items'.mapM asText = items.mapM asText := by
  induction h with
  | nil => rfl
  | cons hv _ ih => rw [List.mapM_cons, List.mapM_cons, ih, hv]

/-- The texts of an array are read alike. -/
theorem readTexts_eq (h : Undecoded v v') (flat : IsFlat v) : readTexts v' = readTexts v := by
  obtain ⟨items, items', hv, hv', hitems⟩ := exists_sameReadings h flat
  rw [readTexts, readTexts, items_of_sequence? hv, items_of_sequence? hv']
  exact mapM_asText_eq hitems

/-- An array is empty if and only if it is with texts as bytes. -/
theorem isTruthy_eq (h : Undecoded v v') (flat : IsFlat v) : v'.isTruthy = v.isTruthy := by
  have htruthy {v : Value} {items : List Value} (hv : v.sequence? = some items) :
      v.isTruthy = !items.isEmpty := by
    cases v with
    | list | tuple =>
      cases hv
      cases items <;> rfl
    | _ => cases hv
  obtain ⟨items, items', hv, hv', hitems⟩ := exists_sameReadings h flat
  rw [htruthy hv, htruthy hv']
  cases hitems <;> rfl

/-! ### Pages -/

/-- A page is an array; if it has a cursor and keys, then they are no arrays or maps. -/
def IsPlainPage (reply : Value) : Prop :=
  ∃ items, reply.sequence? = some items ∧
    ∀ cursor keys, items = [cursor, keys] → cursor.IsAtom ∧ IsFlat keys

/-- A page is read as its cursor and its keys. -/
theorem readPage_of_sequence? {cursor keys : Value} (h : reply.sequence? = some [cursor, keys])
    (hkeys : keys.sequence? = some items) : readPage reply = (do
      let position ← (Value.text (← cursor.asText)).toInt
      return (position, items)) := by
  have hpair : reply.pair = .ok (cursor, keys) := by
    rw [Value.pair, items?_of_sequence? h]
  rw [readPage, hpair]
  -- an empty array of keys counts as none
  cases keys with
  | list keys | tuple keys =>
    cases hkeys
    cases items <;> rfl
  | _ => cases hkeys

/-- An array that is not a cursor and keys is no page. -/
theorem exists_readPage_error (h : reply.sequence? = some items)
    (other : ∀ cursor keys, items ≠ [cursor, keys]) :
    ∃ fault, readPage reply = .error fault ∧ fault.classOf = .unusableValue := by
  have hitems := items?_of_sequence? h
  rw [readPage, Value.pair, hitems]
  match items with
  | [] => exact ⟨_, rfl, rfl⟩
  | [_] => exact ⟨_, rfl, rfl⟩
  | [cursor, keys] => exact absurd rfl (other cursor keys)
  | _ :: _ :: _ :: _ => exact ⟨_, rfl, rfl⟩

/-- A page is read alike: the same cursor, and keys that are read as the same texts. -/
theorem readPage_alike (h : Undecoded reply reply') (plain : IsPlainPage reply) :
    Alike ValueFault.classOf (fun page page' => page.1 = page'.1 ∧
      List.Forall₂ SameReading page.2 page'.2) (readPage reply) (readPage reply') := by
  obtain ⟨items, hreply, hparts⟩ := plain
  obtain ⟨hnone, -⟩ | ⟨_, items', hreply₁, hreply', hitems⟩ := h.sequence?_cases
  · rw [hreply] at hnone
    cases hnone
  obtain rfl := Option.some.inj (hreply.symm.trans hreply₁)
  -- both replies have as many items, so both are pages or neither is
  by_cases hpage : ∃ cursor keys, items = [cursor, keys]
  · obtain ⟨cursor, keys, rfl⟩ := hpage
    obtain ⟨cursor', _, hcursor, hrest, rfl⟩ := List.forall₂_cons_left_iff.mp hitems
    obtain ⟨keys', _, hkeys, hnil, rfl⟩ := List.forall₂_cons_left_iff.mp hrest
    obtain rfl := List.forall₂_nil_left_iff.mp hnil
    obtain ⟨atom, flat⟩ := hparts cursor keys rfl
    obtain ⟨items, items', hitems, hitems', hreadings⟩ := exists_sameReadings hkeys flat
    rw [readPage_of_sequence? hreply hitems, readPage_of_sequence? hreply' hitems',
      hcursor.asText_eq atom]
    refine (Alike.refl _ cursor.asText).bind fun shown _ _ heq => ?_
    subst heq
    exact (Alike.refl _ _).map fun position _ heq => ⟨heq, hreadings⟩
  · have hpage' : ∀ cursor keys, items' ≠ [cursor, keys] := by
      rintro cursor keys rfl
      obtain ⟨_, _, _, hrest, rfl⟩ := List.forall₂_cons_right_iff.mp hitems
      obtain ⟨_, _, _, hnil, rfl⟩ := List.forall₂_cons_right_iff.mp hrest
      obtain rfl := List.forall₂_nil_right_iff.mp hnil
      exact hpage ⟨_, _, rfl⟩
    obtain ⟨fault, hfault, hclass⟩ := exists_readPage_error hreply fun cursor keys heq =>
      hpage ⟨cursor, keys, heq⟩
    obtain ⟨fault', hfault', hclass'⟩ := exists_readPage_error hreply' hpage'
    rw [hfault, hfault']
    exact .error (hclass.trans hclass'.symm)

/-- Keys that are read as the same texts stand for the same identifiers. -/
theorem addIds_eq_of_sameReadings (lead : String) (found : List String)
    (h : List.Forall₂ SameReading items items') :
    addIds lead found items' = addIds lead found items := by
  induction h generalizing found with
  | nil => rfl
  | cons hv _ ih =>
    rw [addIds, addIds, hv]
    simp only [ih]

/-! ### Names and values -/

variable {pairs pairs' : List (Value × Value)} {R : String → Value → Value → Prop}

/-- The names and values of a reply: those of a map, or those in turn in an array. -/
def HasPairs (v : Value) (pairs : List (Value × Value)) : Prop :=
  v = .map pairs ∨ v.sequence? = some (inTurn pairs)

/-- Two replies have the same names, some of them as bytes, and under each name values that belong
together. One of the replies may be a map and the other one an array. -/
def SamePairs (R : String → Value → Value → Prop) (v v' : Value) : Prop :=
  ∃ pairs pairs', HasPairs v pairs ∧ HasPairs v' pairs' ∧
    List.Forall₂ (fun p p' => Undecoded p.1 p'.1 ∧ ∀ name, p.1.asText = .ok name → R name p.2 p'.2)
      pairs pairs'

/-- A name is read as a text. -/
def readName (p : Value × Value) : Except Fault (String × Value) := do
  let name ← p.1.asText
  return (name, p.2)

theorem pairUp_inTurn (pairs : List (Value × Value)) :
    (liftM (pairUp (inTurn pairs)) : Except Fault _) = pairs.mapM readName := by
  induction pairs with
  | nil => rfl
  | cons p pairs ih =>
    rw [List.mapM_cons, ← ih, readName, inTurn_cons, pairUp]
    cases p.1.asText with
    | error fault => rfl
    | ok name => cases pairUp (inTurn pairs) <;> rfl

/-- The fault of a reply without names and values. -/
def notPaired (v : Value) : Except Fault (List (String × Value)) := do
  .error (.reply (.notPaired (← v.literal)))

theorem notPaired_alike {R : List (String × Value) → List (String × Value) → Prop}
    (h : Undecoded v v') : Alike Fault.classOf R (notPaired v) (notPaired v') :=
  (literal_alike h).lift.bind fun _ _ _ _ => .error rfl

theorem readPairs_of_sequence? (h : v.sequence? = some items) : readPairs v =
    if items.length % 2 = 0 then liftM (pairUp items) else notPaired v := by
  cases v with
  | list | tuple =>
    cases h
    rfl
  | _ => cases h

/-- The names and values of a reply are read one after the other. -/
theorem readPairs_of_hasPairs (h : HasPairs v pairs) : readPairs v = pairs.mapM readName := by
  obtain rfl | h := h
  · rfl
  have heven : (inTurn pairs).length % 2 = 0 := by rw [length_inTurn, Nat.mul_mod_right]
  rw [readPairs_of_sequence? h, if_pos heven, pairUp_inTurn]

/-- Names and values are read alike from both forms of a reply, be they maps or arrays in turn. -/
theorem readPairs_of_samePairs (h : SamePairs R v v') :
    Alike Fault.classOf (List.Forall₂ fun p p' => SameText p.1 p'.1 ∧ R p.1 p.2 p'.2)
      (readPairs v) (readPairs v') := by
  obtain ⟨pairs, pairs', hv, hv', hpairs⟩ := h
  rw [readPairs_of_hasPairs hv, readPairs_of_hasPairs hv']
  refine Alike.mapM hpairs fun p p' ⟨hname, hvalue⟩ => ?_
  refine hname.asText_alike.lift.bind fun name name' hread hsame => .ok ⟨hsame, hvalue name ?_⟩
  cases htext : p.1.asText with
  | error fault =>
    rw [htext] at hread
    cases hread
  | ok text =>
    rw [htext] at hread
    cases hread
    rfl

/-- Pairs of which both parts belong together, in turn or one after the other. -/
theorem exists_pairs_of_even (h : List.Forall₂ Undecoded items items')
    (even : items.length % 2 = 0) : ∃ pairs pairs', items = inTurn pairs ∧ items' = inTurn pairs' ∧
      List.Forall₂ (fun p p' => Undecoded p.1 p'.1 ∧ Undecoded p.2 p'.2) pairs pairs' := by
  induction items using List.twoStepInduction generalizing items' with
  | nil =>
    cases h
    exact ⟨[], [], rfl, rfl, .nil⟩
  | singleton => cases even
  | cons_cons name v rest ih _ =>
    obtain _ | ⟨hname, _ | ⟨hv, hrest⟩⟩ := h
    rw [List.length_cons, List.length_cons, Nat.add_assoc, Nat.add_mod_right] at even
    obtain ⟨pairs, pairs', rfl, rfl, hpairs⟩ := ih hrest even
    exact ⟨(_, _) :: pairs, (_, _) :: pairs', rfl, rfl, .cons ⟨hname, hv⟩ hpairs⟩

theorem forall₂_pairs (names : List.Forall₂ Undecoded (pairs.map Prod.fst) (pairs'.map Prod.fst))
    (values : List.Forall₂ Undecoded (pairs.map Prod.snd) (pairs'.map Prod.snd)) :
    List.Forall₂ (fun p p' => Undecoded p.1 p'.1 ∧ Undecoded p.2 p'.2) pairs pairs' := by
  induction pairs generalizing pairs' with
  | nil =>
    cases pairs' with
    | nil => exact .nil
    | cons => cases names
  | cons p pairs ih =>
    cases pairs' with
    | nil => cases names
    | cons p' pairs' =>
      obtain ⟨hname, names⟩ := List.forall₂_cons.mp names
      obtain ⟨hv, values⟩ := List.forall₂_cons.mp values
      exact .cons ⟨hname, hv⟩ (ih names values)

/-- A reply with names and values has the same ones with texts as bytes, and any other reply is read
alike. -/
theorem readPairs_alike (hR : ∀ name v v', Undecoded v v' → R name v v')
    (h : Undecoded v v' ∨ SamePairs R v v') :
    Alike Fault.classOf (List.Forall₂ fun p p' => SameText p.1 p'.1 ∧ R p.1 p.2 p'.2)
      (readPairs v) (readPairs v') := by
  have hpairs {pairs pairs' : List (Value × Value)}
      (h : List.Forall₂ (fun p p' => Undecoded p.1 p'.1 ∧ Undecoded p.2 p'.2) pairs pairs') :
      List.Forall₂ (fun p p' => Undecoded p.1 p'.1 ∧
        ∀ name, p.1.asText = .ok name → R name p.2 p'.2) pairs pairs' :=
    h.imp fun p p' ⟨hname, hvalue⟩ => ⟨hname, fun name _ => hR name _ _ hvalue⟩
  obtain h | h := h
  · obtain ⟨hv, hv'⟩ | ⟨items, items', hv, hv', hitems⟩ := h.sequence?_cases
    -- a map, or no names and values at all
    · cases h with
      | same =>
        refine (Alike.refl _ (readPairs v)).mono fun named _ _ _ heq => ?_
        subst heq
        exact List.forall₂_same.mpr fun p _ => ⟨.inl rfl, hR _ _ _ (.same _)⟩
      | map names values =>
        exact readPairs_of_samePairs ⟨_, _, .inl rfl, .inl rfl, hpairs (forall₂_pairs names values)⟩
      | text s => exact notPaired_alike (.text s)
      | list h | tuple h => cases hv
    -- an array
    · by_cases heven : items.length % 2 = 0
      · obtain ⟨pairs, pairs', rfl, rfl, hrelated⟩ := exists_pairs_of_even hitems heven
        exact readPairs_of_samePairs ⟨pairs, pairs', .inr hv, .inr hv', hpairs hrelated⟩
      · rw [readPairs_of_sequence? hv, readPairs_of_sequence? hv', ← hitems.length_eq,
          if_neg heven, if_neg heven]
        exact notPaired_alike h
  · exact readPairs_of_samePairs h

/-- What a reply says under a name. -/
def part? (reply : Value) (name : String) : Option Value :=
  match readPairs reply with
  | .ok named => lastValue? named name
  | .error _ => Option.none

/-- A part of a reply is the last value under its name, as in a map that is built from the pairs. -/
theorem part?_eq {named : List (String × Value)} (h : readPairs reply = .ok named)
    (name : String) : part? reply name = lastValue? named name := by
  rw [part?, h]

/-- Under a name that is no form of an array or map, values that belong together are found. -/
theorem lastValue?_alike {named named' : List (String × Value)} {name : String}
    (h : List.Forall₂ (fun p p' => SameText p.1 p'.1 ∧ R p.1 p.2 p'.2) named named')
    (plain : ¬ IsBracketed name) :
    Option.Rel (R name) (lastValue? named name) (lastValue? named' name) := by
  have hreverse := List.forall₂_reverse_iff.mpr h
  rw [lastValue?, lastValue?]
  generalize named.reverse = last, named'.reverse = last' at hreverse ⊢
  induction hreverse with
  | nil => exact .none
  | @cons p p' last last' hp _ ih =>
    have heq : decide (p'.1 = name) = decide (p.1 = name) :=
      decide_eq_decide.mpr (hp.1.eq_iff plain).symm
    rw [List.find?_cons, List.find?_cons, heq]
    by_cases hname : p.1 = name
    · rw [decide_eq_true hname]
      exact .some (hname ▸ hp.2)
    · rw [decide_eq_false hname]
      exact ih

/-! ### What is said about an index -/

/-- The definition of an index, in which the type of the keys and the prefixes are no arrays or
maps. -/
structure IsPlainDefinition (definition : Value) : Prop where
  keyType : ∀ v, part? definition "key_type" = some v → v.IsAtom
  prefixes : ∀ v, part? definition "prefixes" = some v → IsFlat v

/-- What is said about an index, in which no array and no map stands in the place of a text. -/
structure IsPlainInfo (reply : Value) : Prop where
  indexName : ∀ v, part? reply "index_name" = some v → v.IsAtom
  definition : ∀ v, part? reply "index_definition" = some v → IsPlainDefinition v
  attributes : ∀ v, part? reply "attributes" = some v →
    ∃ items, v.sequence? = some items ∧ ∀ item ∈ items, IsFlat item
  documents : ∀ v, part? reply "num_docs" = some v → v.IsAtom

/-- Definitions of indexes with texts as bytes; one may be a map and the other one an array. -/
def SameDefinition (v v' : Value) : Prop := Undecoded v v' ∨ SamePairs (fun _ => Undecoded) v v'

/-- What is said under a name about an index, with texts as bytes. -/
def SamePart (name : String) (v v' : Value) : Prop :=
  Undecoded v v' ∨ name = "index_definition" ∧ SameDefinition v v'

/-- What is said about an index, with texts as bytes; it may be a map or an array, and so may the
definition in it. -/
def SameInfo (v v' : Value) : Prop := Undecoded v v' ∨ SamePairs SamePart v v'

/-- All parts but the definition of an index are the same up to texts given as bytes; the definition
may also be a map in one reply and an array in the other. -/
theorem SamePart.undecoded {name : String} (h : SamePart name v v')
    (other : name ≠ "index_definition") : Undecoded v v' :=
  h.resolve_right fun ⟨heq, _⟩ => other heq

/-- The words about attributes are read as the same texts. -/
theorem readAttributes_eq (h : Undecoded v v')
    (flat : ∃ items, v.sequence? = some items ∧ ∀ item ∈ items, IsFlat item) :
    readAttributes v' = readAttributes v := by
  obtain ⟨items, hitems, hflat⟩ := flat
  obtain ⟨hnone, -⟩ | ⟨_, items', hv, hv', hrelated⟩ := h.sequence?_cases
  · rw [hitems] at hnone
    cases hnone
  obtain rfl := Option.some.inj (hitems.symm.trans hv)
  rw [readAttributes, readAttributes, items_of_sequence? hv, items_of_sequence? hv']
  clear hitems hv hv'
  change (items'.mapM fun item => return attributeOfWords (← readTexts item)) =
    items.mapM fun item => return attributeOfWords (← readTexts item)
  induction hrelated with
  | nil => rfl
  | cons hitem _ ih =>
    obtain ⟨flat, hflat⟩ := List.forall_mem_cons.mp hflat
    rw [List.mapM_cons, List.mapM_cons, ih hflat, readTexts_eq hitem flat]

/-- A count that is no array and no map is read the same in both forms of a reply. -/
theorem readCount_eq (h : Undecoded v v') (atom : v.IsAtom) : readCount v' = readCount v := by
  rw [readCount, readCount, h.asText_eq atom]

/-- Parts that are read alike where they are there are read alike with another value in their
place. -/
theorem eq_of_rel {β : Type} {x x' : Option Value} {f : Value → β} (h : Option.Rel Undecoded x x')
    (hf : ∀ v v', x = some v → Undecoded v v' → f v' = f v) (other : Value) :
    f (x'.getD other) = f (x.getD other) := by
  cases h with
  | some hv => exact hf _ _ rfl hv
  | none => rfl

/-- What is said about an index is read alike. -/
theorem readInfo_alike (name : String) (h : SameInfo reply reply') (plain : IsPlainInfo reply) :
    Alike Fault.classOf Eq (readInfo name reply) (readInfo name reply') := by
  have hparts := readPairs_alike (fun _ _ _ => .inl) h
  refine hparts.bind fun named named' hread hnamed => ?_
  have hpart {part : String} (hplain : ¬ IsBracketed part) (hother : part ≠ "index_definition") :
      Option.Rel Undecoded (lastValue? named part) (lastValue? named' part) := by
    have hrel := lastValue?_alike hnamed hplain
    generalize lastValue? named part = x, lastValue? named' part = x' at hrel
    cases hrel with
    | some hv => exact .some (hv.undecoded hother)
    | none => exact .none
  -- the definition is read alike, and has parts that are read alike
  have hdefinition : SameDefinition ((lastValue? named "index_definition").getD (.list []))
      ((lastValue? named' "index_definition").getD (.list [])) ∧
      IsPlainDefinition ((lastValue? named "index_definition").getD (.list [])) := by
    have hplain := plain.definition
    rw [part?_eq hread] at hplain
    have hrel := lastValue?_alike hnamed (show ¬ IsBracketed "index_definition" by decide)
    generalize lastValue? named "index_definition" = x,
      lastValue? named' "index_definition" = x' at hrel hplain
    cases hrel with
    | some hv => exact ⟨hv.elim .inl And.right, hplain _ rfl⟩
    | none => exact ⟨.inl (.same _), ⟨nofun, nofun⟩⟩
  obtain ⟨hsame, hplain⟩ := hdefinition
  refine (readPairs_alike (fun _ _ _ => id) hsame).bind fun pairs pairs' hread' hpairs => ?_
  have hfield {part : String} (hplain : ¬ IsBracketed part) :
      Option.Rel Undecoded (lastValue? pairs part) (lastValue? pairs' part) :=
    lastValue?_alike (R := fun _ => Undecoded) hpairs hplain
  have hname := eq_of_rel (hpart (show ¬ IsBracketed "index_name" by decide) (by decide))
    (fun v v' hv h => h.asText_eq (plain.indexName v ((part?_eq hread _).trans hv))) (.text name)
  have htype : readOptional (lastValue? pairs' "key_type") =
      readOptional (lastValue? pairs "key_type") := by
    have hrel := hfield (show ¬ IsBracketed "key_type" by decide)
    have hkey := hplain.keyType
    rw [part?_eq hread'] at hkey
    generalize lastValue? pairs "key_type" = x, lastValue? pairs' "key_type" = x' at hrel hkey
    cases hrel with
    | some hv => rw [readOptional, readOptional, hv.asText_eq (hkey _ rfl)]
    | none => rfl
  have hprefixes := eq_of_rel (hfield (show ¬ IsBracketed "prefixes" by decide))
    (fun v v' hv h => readTexts_eq h (hplain.prefixes v ((part?_eq hread' _).trans hv))) (.list [])
  have hattributes := eq_of_rel (hpart (show ¬ IsBracketed "attributes" by decide) (by decide))
    (fun v v' hv h => readAttributes_eq h (plain.attributes v ((part?_eq hread _).trans hv)))
    (.list [])
  have hdocuments := eq_of_rel (hpart (show ¬ IsBracketed "num_docs" by decide) (by decide))
    (fun v v' hv h => readCount_eq h (plain.documents v ((part?_eq hread _).trans hv))) (.int 0)
  rw [hname, htype, hprefixes, hattributes, hdocuments]
  exact Alike.refl _ _

end IndexedRecords.Service
