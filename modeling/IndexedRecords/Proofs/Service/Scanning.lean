import IndexedRecords.Proofs.Service.Connections

/-!
# Scanning through pages

The keys of a type come in pages, each with the cursor of the next one, and the page whose next
cursor is zero is the last. Whatever the pages are, each of them is asked for once, with the cursor
of the page before it, and their keys stand for identifiers that are listed where they come first. A
page may be empty, and keys may come again in the same page or in later ones.

## Main statements

* `readPage_of_isPage`: a page is read as its cursor and its keys, however these are given.
* `scanFrom_pages`: what is asked for, and what is found, from a page on.
* `listIds_pages`: listing the identifiers of a type.
* `listIds_longCursor`: a cursor with too many digits is not read.
-/

namespace IndexedRecords.Service

open Value

variable {v reply : Value} {key : String} {found keys : List String} {items : List Value}
  {lead : String} {w : World}

/-! ### Pages -/

/-- A page: the cursor of the next one, with how many digits it is written, and the keys. -/
structure Page where
  next : Int
  digits : Nat
  keys : List String

/-- A cursor is given as a whole number, or as a text of decimal digits, which may be bytes. -/
inductive IsCursor : Value → Int → Nat → Prop
  | int (n : Int) : IsCursor (.int n) n (Nat.toDigits 10 n.natAbs).length
  | text {v : Value} {s : String} {n : Int} {digits : Nat}
      (decimal : Numeral.IsDecimal s.toList n digits)
      (h : Undecoded (.text s) v) : IsCursor v n digits

/-- The keys of a page are given as an array of texts, which may be bytes, or not at all. -/
inductive HoldsKeys : Value → List String → Prop
  | absent : HoldsKeys .none []
  | array {v : Value} {items : List Value} {keys : List String} (h : v.sequence? = some items)
      (each : List.Forall₂ (fun item key => Undecoded (.text key) item) items keys) :
      HoldsKeys v keys

/-- A reply is a page. -/
def IsPage (reply : Value) (page : Page) : Prop :=
  ∃ cursor keys, reply.sequence? = some [cursor, keys] ∧
    IsCursor cursor page.next page.digits ∧ HoldsKeys keys page.keys

/-- The cursor of a page is not too long to be read. -/
def Page.IsShort (page : Page) : Prop := page.digits ≤ Numeral.digitLimit

theorem toInt_text_of_isDecimal {s : String} {n : Int} {digits : Nat}
    (h : Numeral.IsDecimal s.toList n digits) (short : digits ≤ Numeral.digitLimit) :
    (Value.text s).toInt = .ok n := by
  rw [toInt_text, intOfText, Numeral.readInt_of_isDecimal h, if_neg (Nat.not_lt.mpr short)]

/-- A cursor is read as its number, by way of its text. -/
theorem exists_asText_of_isCursor {n : Int} {digits : Nat} (h : IsCursor v n digits)
    (short : digits ≤ Numeral.digitLimit) :
    ∃ s, v.asText = .ok s ∧ (Value.text s).toInt = .ok n := by
  cases h with
  | int n =>
    have htext : (Value.int n).asText = .ok (String.ofList (wholeText n)) :=
      if_neg (Nat.not_lt.mpr short)
    refine ⟨_, htext, toInt_text_of_isDecimal ?_ short⟩
    rw [String.toList_ofList]
    exact Numeral.isDecimal_wholeText n
  | @text v s n digits decimal h =>
    exact ⟨s, h.asText_eq trivial, toInt_text_of_isDecimal decimal short⟩

/-- Texts, whether or not they are given as bytes, are read as they are. -/
theorem asText_of_undecoded (h : Undecoded (.text key) v) : v.asText = .ok key :=
  h.asText_eq trivial

/-- A page is read as its cursor and as values that its keys are read from. -/
theorem exists_items_of_holdsKeys {cursor : Value} (h : HoldsKeys v keys)
    (hreply : reply.sequence? = some [cursor, v]) :
    ∃ items, readPage reply = (do
        let position ← (Value.text (← cursor.asText)).toInt
        return (position, items)) ∧
      List.Forall₂ (fun item key => item.asText = .ok key) items keys := by
  cases h with
  | absent =>
    refine ⟨[], ?_, .nil⟩
    rw [readPage, pair, items?_of_sequence? hreply]
    rfl
  | @array v items keys harray each =>
    exact ⟨items, readPage_of_sequence? hreply harray, each.imp fun _ _ => asText_of_undecoded⟩

/-- **Pages.** A page is read as its cursor and its keys, however these are given. -/
theorem readPage_of_isPage {page : Page} (h : IsPage reply page) (short : page.IsShort) :
    ∃ items, readPage reply = .ok (page.next, items) ∧
      List.Forall₂ (fun item key => item.asText = .ok key) items page.keys := by
  obtain ⟨cursor, keys, hreply, hcursor, hkeys⟩ := h
  obtain ⟨s, htext, hint⟩ := exists_asText_of_isCursor hcursor short
  obtain ⟨items, hread, heach⟩ := exists_items_of_holdsKeys hkeys hreply
  refine ⟨items, ?_, heach⟩
  rw [hread, htext]
  change (do return (← (Value.text s).toInt, items)) = Except.ok (page.next, items)
  rw [hint]
  rfl

/-! ### Identifiers -/

theorem eraseDups_concat (seen : List String) (id : String) : (seen ++ [id]).eraseDups =
    if seen.eraseDups.contains id then seen.eraseDups else seen.eraseDups ++ [id] := by
  rw [List.eraseDups_append]
  by_cases h : id ∈ seen <;> simp [List.removeAll, h, List.eraseDups_cons]

/-- Identifiers are added where they come first. -/
theorem addIds_eq_eraseDups (p : String) (seen : List String)
    (h : List.Forall₂ (fun item key => item.asText = .ok key) items keys) :
    addIds (p ++ ":") seen.eraseDups items =
      .ok (seen ++ keys.map (listedId p)).eraseDups := by
  induction h generalizing seen with
  | nil => rw [List.map_nil, List.append_nil, addIds]
  | @cons item key items keys hitem _ ih =>
    have hadded := ih (seen ++ [listedId p key])
    rw [eraseDups_concat, List.append_assoc, List.singleton_append] at hadded
    rw [addIds, hitem, List.map_cons]
    exact hadded

/-! ### Runs -/

/-- The command that asks for the page of a cursor. -/
def scanCommand (p : String) (count cursor : Int) : List Argument :=
  [.text "SCAN", .int cursor, .text "MATCH", .text (p ++ ":" ++ "*"), .text "COUNT", .int count]

/-- A script gives its next reply, whatever the command is. -/
theorem execute_script {rest : List (Except Refusal Value)}
    (hscript : w.endpoint = .script (.ok reply :: rest)) (command : List Argument) :
    execute command w =
      (.ok reply, { w with endpoint := .script rest, sent := w.sent ++ [command] }) := by
  have hsend : send command w =
      (.ok (.ok reply), { w with endpoint := .script rest, sent := w.sent ++ [command] }) := by
    rw [send, hscript]
    rfl
  exact (bind_run hsend).trans rfl

/-- **One page.** A page is asked for by its cursor, and its identifiers are added. -/
theorem scanFrom_page {p : String} {page : Page} {rest : List (Except Refusal Value)}
    (h : IsPage reply page) (short : page.IsShort)
    (hscript : w.endpoint = .script (.ok reply :: rest)) (count : Int) (bound : Nat) (cursor : Int)
    (seen : List String) :
    scanFrom (p ++ ":") count (bound + 1) cursor seen.eraseDups w =
      (if page.next = 0 then pure (seen ++ page.keys.map (listedId p)).eraseDups
        else scanFrom (p ++ ":") count bound page.next
          (seen ++ page.keys.map (listedId p)).eraseDups)
        { w with endpoint := .script rest, sent := w.sent ++ [scanCommand p count cursor] } := by
  obtain ⟨items, hread, heach⟩ := readPage_of_isPage h short
  exact scanFrom_succ (execute_script hscript _) hread (addIds_eq_eraseDups p seen heach)

/-- **All pages.** From a page on, every page is asked for with the cursor of the page before it, up
to the first one without a next page, and nothing is asked for after that. -/
theorem scanFrom_pages {p : String} {replies : List Value} {pages : List Page} {cursors : List Int}
    {rest : List (Except Refusal Value)} (h : List.Forall₂ IsPage replies pages)
    (short : ∀ page ∈ pages, page.IsShort) (hcursors : pages.map Page.next = cursors ++ [0])
    (nonzero : 0 ∉ cursors) (hscript : w.endpoint = .script (replies.map .ok ++ rest)) (count : Int)
    {bound : Nat} (hbound : pages.length ≤ bound) (cursor : Int) (seen : List String) :
    scanFrom (p ++ ":") count bound cursor seen.eraseDups w =
      (.ok (seen ++ (pages.flatMap Page.keys).map (listedId p)).eraseDups,
        { w with
          endpoint := .script rest
          sent := w.sent ++ (cursor :: cursors).map (scanCommand p count) }) := by
  induction h generalizing w cursors bound cursor seen with
  | nil => exact absurd hcursors.symm (by simp)
  | @cons reply page replies pages hpage hpages ih =>
    obtain ⟨hshort, hshorts⟩ := List.forall_mem_cons.mp short
    obtain ⟨bound, rfl⟩ := Nat.exists_eq_add_one.mpr (Nat.zero_lt_of_lt hbound)
    rw [List.map_cons, List.cons_append] at hscript
    rw [scanFrom_page hpage hshort hscript, List.flatMap_cons, List.map_append, ← List.append_assoc]
    cases cursors with
    | nil =>
      -- the cursor of this page is zero, and there are no pages after it
      obtain ⟨hnext, hlast⟩ := List.cons.inj hcursors
      obtain rfl := List.map_eq_nil_iff.mp hlast
      cases hpages
      simp only [if_pos hnext, List.flatMap_nil, List.map_nil, List.append_nil]
      rfl
    | cons next cursors =>
      obtain ⟨rfl, hrest⟩ := List.cons.inj hcursors
      obtain ⟨hnext, hnonzero⟩ := List.ne_and_not_mem_of_not_mem_cons nonzero
      have hafter := ih (w := { w with
        endpoint := .script (replies.map .ok ++ rest)
        sent := w.sent ++ [scanCommand p count cursor] }) hshorts hrest hnonzero rfl
        (Nat.le_of_succ_le_succ hbound) page.next (seen ++ page.keys.map (listedId p))
      rw [if_neg hnext.symm, hafter, List.append_assoc w.sent]
      rfl

/-- **Listing from pages.** For any pages of which the last one, and no other, has the cursor zero,
listing the identifiers of a type asks for each page once, the first time with the cursor zero and
then with that of the page before, and answers what their keys stand for without the prefix of the
type, each identifier where it comes first. Cursors have no more digits than can be read. -/
theorem listIds_pages {type : RecordType} {home : Home} (persisted : type.lineage = .persisted)
    (hhome : type.home = some home) {batch : Int} (positive : 0 < batch) {replies : List Value}
    {pages : List Page} {cursors : List Int} {rest : List (Except Refusal Value)}
    (h : List.Forall₂ IsPage replies pages) (short : ∀ page ∈ pages, page.IsShort)
    (hcursors : pages.map Page.next = cursors ++ [0]) (nonzero : 0 ∉ cursors)
    (hscript : w.endpoint = .script (replies.map .ok ++ rest))
    (environment : List (String × String)) :
    listIds environment type (some batch) w =
      (.ok ((pages.flatMap Page.keys).map (listedId home.keyPrefix)).eraseDups,
        { w with
          endpoint := .script rest
          sent := w.sent ++ (0 :: cursors).map (scanCommand home.keyPrefix batch) }) := by
  have hbound : pages.length ≤ w.endpoint.pageLimit := by
    rw [hscript, Endpoint.pageLimit, List.length_append, List.length_map, h.length_eq]
    omega
  rw [listIds_eq_scanFrom persisted hhome positive.ne']
  exact scanFrom_pages h short hcursors nonzero hscript batch hbound 0 []

/-- Pages of accounts: an absent list after a cursor that is a number, then keys that come twice, as
bytes and under another prefix. -/
def accountPages : List Page :=
  [⟨17, 2, []⟩, ⟨-3, 2, ["account:a", "account:b", "account:a"]⟩,
    ⟨0, 1, ["account:b", "account:account:a", "user:c"]⟩]

def accountReplies : List Value :=
  [.list [.int 17, .none],
    .list [.bytes [45, 48, 51],
      .list [.text "account:a", undecoded "account:b", .text "account:a"]],
    .tuple [.text "0", .list [.text "account:b", .text "account:account:a", .text "user:c"]]]

theorem isPage_accountReplies : List.Forall₂ IsPage accountReplies accountPages := by
  have hthree : Numeral.IsDecimal "-03".toList (-3) 2 := by
    have hdigits : ∀ c ∈ ['0', '3'], c.isDigit = true := List.all_eq_true.mp (by decide)
    exact .minus hdigits (by decide)
  have hzero : Numeral.IsDecimal "0".toList 0 1 := by
    have hdigits : ∀ c ∈ ['0'], c.isDigit = true := List.all_eq_true.mp (by decide)
    exact .plain hdigits (by decide)
  refine .cons ⟨_, _, rfl, .int 17, .absent⟩
    (.cons ⟨_, _, rfl, ?_, ?_⟩ (.cons ⟨_, _, rfl, ?_, ?_⟩ .nil))
  · exact .text hthree (.text "-03")
  · exact .array rfl (.cons (.same _) (.cons (.text _) (.cons (.same _) .nil)))
  · exact .text hzero (.same _)
  · exact .array rfl (.cons (.same _) (.cons (.same _) (.cons (.same _) .nil)))

theorem listIds_pages_account :
    List.Forall₂ IsPage accountReplies accountPages ∧ (∀ page ∈ accountPages, page.IsShort) ∧
    listIds [] accounts.types[3] (some 5) (scripted (accountReplies ++ [.none])) =
      (.ok ["a", "b", "account:a", "user:c"],
        ⟨.script [.ok .none], [scanCommand "account" 5 0, scanCommand "account" 5 17,
          scanCommand "account" 5 (-3)], [], 0⟩) := by
  have hhome : accounts.types[3].home = some ⟨"account", "idx:Account"⟩ := rfl
  have hshort : ∀ page ∈ accountPages, page.IsShort := by
    simp [accountPages, Page.IsShort, Numeral.digitLimit]
  refine ⟨isPage_accountReplies, hshort, ?_⟩
  rw [listIds_pages rfl hhome (by decide) isPage_accountReplies hshort
    (show _ = [17, -3] ++ [(0 : Int)] from rfl) (by decide) rfl]
  have hids : ((accountPages.flatMap Page.keys).map (listedId "account")).eraseDups =
      ["a", "b", "account:a", "user:c"] := by decide
  rw [hids]
  rfl

/-! ### Long cursors -/

/-- A text with too many digits is not read as a cursor. -/
theorem readPage_of_long {cursor : Value} {s : String} {n : Int} {digits : Nat}
    (decimal : Numeral.IsDecimal s.toList n digits) (long : Numeral.digitLimit < digits)
    (hcursor : Undecoded (.text s) cursor) (hkeys : HoldsKeys v keys)
    (hreply : reply.sequence? = some [cursor, v]) :
    readPage reply = .error (.tooManyDigits (some digits)) := by
  have hint : (Value.text s).toInt = .error (.tooManyDigits (some digits)) := by
    rw [toInt_text, intOfText, Numeral.readInt_of_isDecimal decimal, if_pos long]
  obtain ⟨items, hread, -⟩ := exists_items_of_holdsKeys hkeys hreply
  rw [hread, asText_of_undecoded hcursor]
  change (do return (← (Value.text s).toInt, items)) = _
  rw [hint]
  rfl

/-- Listing fails where the first page cannot be read. -/
theorem listIds_of_readPage_error {type : RecordType} {home : Home}
    (persisted : type.lineage = .persisted) (hhome : type.home = some home) {batch : Int}
    (positive : 0 < batch) {fault : ValueFault} (h : readPage reply = .error fault)
    (environment : List (String × String)) :
    (listIds environment type (some batch) (scripted [reply])).1 = .error (.value fault) := by
  have hscript : (scripted [reply]).endpoint = .script (.ok reply :: []) := rfl
  rw [listIds_eq_scanFrom persisted hhome positive.ne']
  change (scanFrom (home.keyPrefix ++ ":") batch (1 + 1) 0 [] (scripted [reply])).1 = _
  rw [scanFrom, bind_run (execute_script hscript _), h]
  rfl

/-- A text of zeros is zero. -/
theorem isDecimal_zeros (n : Nat) : Numeral.IsDecimal (List.replicate (n + 1) '0') 0 (n + 1) := by
  have hdigits : ∀ c ∈ List.replicate (n + 1) '0', c.isDigit = true := by
    intro c hc
    rw [List.eq_of_mem_replicate hc]
    rfl
  have hzero : Numeral.ofDigits ((List.replicate (n + 1) '0').map Numeral.digitOf) = 0 := by
    rw [List.map_replicate]
    exact (Numeral.ofDigits_append_zeros [] _).trans (Nat.zero_mul _)
  have hdecimal := Numeral.IsDecimal.plain hdigits (by simp)
  rwa [hzero, List.length_replicate] at hdecimal

/-- A page whose cursor is written with some zeros. -/
def zeroPage (digits : Nat) : Value :=
  .list [.text (String.ofList (List.replicate digits '0')), .list [.text "account:a"]]

/-- The only page has the cursor zero, in one digit more than can be read: its key is not listed. -/
theorem listIds_longCursor :
    List.Forall₂ IsPage [zeroPage (Numeral.digitLimit + 1)]
      [⟨0, Numeral.digitLimit + 1, ["account:a"]⟩] ∧
    (listIds [] accounts.types[3] (some 5) (scripted [zeroPage (Numeral.digitLimit + 1)])).1 =
      .error (.value (.tooManyDigits (some (Numeral.digitLimit + 1)))) := by
  generalize hlimit : Numeral.digitLimit = limit
  have hdecimal : Numeral.IsDecimal (String.ofList (List.replicate (limit + 1) '0')).toList 0
      (limit + 1) := by
    rw [String.toList_ofList]
    exact isDecimal_zeros limit
  have hkeys : HoldsKeys (.list [.text "account:a"]) ["account:a"] :=
    .array rfl (.cons (.same _) .nil)
  have hread : readPage (zeroPage (limit + 1)) = .error (.tooManyDigits (some (limit + 1))) :=
    readPage_of_long hdecimal (hlimit ▸ Nat.lt_succ_self _) (.same _) hkeys rfl
  exact ⟨.cons ⟨_, _, rfl, .text hdecimal (.same _), hkeys⟩ .nil,
    listIds_of_readPage_error rfl (show _ = some (⟨"account", "idx:Account"⟩ : Home) from rfl)
      (by decide) hread []⟩

end IndexedRecords.Service
