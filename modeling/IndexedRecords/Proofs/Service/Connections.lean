import IndexedRecords.Proofs.Service.Listing
import IndexedRecords.Proofs.Service.Undecoded

/-!
# Connections that do not decode

Services come to the same results, or to faults of the same class, whether or not the connection
decodes the texts of its replies: both connections are sent the same commands, and whatever is read
of a reply is read alike. Only where an array or a map stands in the place of a text do the results
differ, as its form shows how the texts in it are given.

## Main statements

* `agree_listIds`, `agree_listIndexes`, `agree_inspect`: the services over replies to commands.
* `alike_of_undecoded`: all readers of replies.
* `listIds_array`: an array in the place of a key.
-/

namespace IndexedRecords.Service

open Value

variable {Q : Value → Value → Prop}

/-! ### Twin connections -/

/-- Two connections that have been sent the same commands, and whose next replies belong together.
Where one refuses a command, so does the other one. -/
structure Twins (Q : Value → Value → Prop) (w w' : World) : Prop where
  scripts : ∃ answers answers', w.endpoint = .script answers ∧ w'.endpoint = .script answers' ∧
    List.Forall₂ (Alike (id : Refusal → Refusal) Q) answers answers'
  sent : w.sent = w'.sent

/-- Two connections that give the same replies up to texts as bytes have them received alike,
command by command. -/
theorem agree_send (command : List Argument) :
    Agree (Twins Q) (Alike (id : CommandFault → CommandFault) Q) (send command) (send command) := by
  rintro w w' ⟨⟨answers, answers', hw, hw', hanswers⟩, hsent⟩
  rw [send, send, hw, hw', hsent]
  cases hanswers with
  | nil => exact ⟨.ok (.error rfl), ⟨[], [], rfl, rfl, .nil⟩, rfl⟩
  | cons hanswer hrest =>
    refine ⟨.ok ?_, ⟨_, _, rfl, rfl, hrest⟩, rfl⟩
    cases hanswer with
    | ok hreply => exact .ok hreply
    | error hrefusal => exact .error (congrArg CommandFault.refused hrefusal)

/-- A command has replies that belong together, or none for the same reason. -/
theorem agree_execute (command : List Argument) :
    Agree (Twins Q) Q (execute command) (execute command) := by
  refine (agree_send command).bind fun reply reply' hreply => ?_
  cases hreply with
  | ok hreply => exact .pure hreply
  | error hfault =>
    obtain rfl : _ = _ := hfault
    exact .throw rfl

/-- Commands that are sent for a purpose have their replies and refusals received alike. -/
theorem agree_executeFor (refused : Refusal → Fault) (command : List Argument) :
    Agree (Twins Q) Q (executeFor refused command) (executeFor refused command) := by
  refine (agree_send command).bind fun reply reply' hreply => ?_
  cases hreply with
  | ok hreply => exact .pure hreply
  | error hfault =>
    obtain rfl : _ = _ := hfault
    rename_i fault
    cases fault <;> exact .throw rfl

/-! ### Listings -/

/-- The same page with texts as bytes. -/
def SamePage (reply reply' : Value) : Prop := Undecoded reply reply' ∧ IsPlainPage reply

/-- Keys that are collected page by page are the same on both connections. The induction is on the
bound for the number of pages. -/
theorem agree_scanFrom (lead : String) (count : Int) (bound : Nat) (cursor : Int)
    (found : List String) : Agree (Twins SamePage) Eq (scanFrom lead count bound cursor found)
      (scanFrom lead count bound cursor found) := by
  induction bound generalizing cursor found with
  | zero => exact .pure rfl
  | succ bound ih =>
    rw [scanFrom]
    refine (agree_execute _).bind fun reply reply' hreply => ?_
    obtain ⟨hreply, plain⟩ := hreply
    refine Agree.bind (.settled (readPage_alike hreply plain).lift) fun page page' hpage => ?_
    obtain ⟨position, keys⟩ := page
    obtain ⟨_, keys'⟩ := page'
    obtain ⟨rfl, hkeys⟩ : _ = _ ∧ _ := hpage
    dsimp only
    rw [addIds_eq_of_sameReadings lead found hkeys]
    refine Agree.bind (.settled (Alike.refl _ _).lift) fun found' _ heq => ?_
    obtain rfl : found' = _ := heq
    split
    · exact .pure rfl
    · exact ih position found'

/-- Keys are asked for as long, since there are as many replies. -/
theorem agree_allIds (type : RecordType) (count : Int) :
    Agree (Twins SamePage) Eq (allIds type count) (allIds type count) := by
  rw [allIds]
  refine Agree.bind (.settled (Alike.refl _ _)) fun home _ heq => ?_
  subst heq
  intro w w' hw
  obtain ⟨answers, answers', hscript, hscript', hanswers⟩ := hw.scripts
  have hlimit : w.endpoint.pageLimit = w'.endpoint.pageLimit := by
    rw [hscript, hscript', Endpoint.pageLimit, Endpoint.pageLimit, hanswers.length_eq]
  have hscan := agree_scanFrom (home.keyPrefix ++ ":") count w.endpoint.pageLimit 0 [] hw
  change Alike Fault.classOf Eq
      (scanFrom (home.keyPrefix ++ ":") count w.endpoint.pageLimit 0 [] w).1
      (scanFrom (home.keyPrefix ++ ":") count w'.endpoint.pageLimit 0 [] w').1 ∧
    Twins SamePage (scanFrom (home.keyPrefix ++ ":") count w.endpoint.pageLimit 0 [] w).2
      (scanFrom (home.keyPrefix ++ ":") count w'.endpoint.pageLimit 0 [] w').2
  rw [← hlimit]
  exact hscan

/-- Identifiers are listed alike. -/
theorem agree_listIds (environment : List (String × String)) (type : RecordType)
    (batch : Option Int) : Agree (Twins SamePage) Eq (listIds environment type batch)
      (listIds environment type batch) := by
  have hsettings (outcome : Except Fault Settings) : Agree (Twins SamePage) Eq
      (do allIds type (← outcome).batchSize) (do allIds type (← outcome).batchSize) := by
    refine Agree.bind (.settled (Alike.refl _ _)) fun settings _ heq => ?_
    subst heq
    exact agree_allIds type _
  rw [listIds]
  refine Agree.bind (.settled (Alike.refl _ _)) fun _ _ _ => ?_
  cases batch with
  | none => exact hsettings _
  | some count =>
    dsimp only
    split
    · exact agree_allIds type count
    · exact hsettings _

/-! ### Indexes -/

/-- The same array of names with texts as bytes. -/
def SameNames (reply reply' : Value) : Prop := Undecoded reply reply' ∧ IsFlat reply

/-- The names of all indexes are the same on both connections. -/
theorem agree_listIndexes : Agree (Twins SameNames) Eq listIndexes listIndexes := by
  rw [listIndexes]
  refine (agree_executeFor _ _).bind fun reply reply' hreply => ?_
  obtain ⟨hreply, flat⟩ := hreply
  rw [isTruthy_eq hreply flat, readTexts_eq hreply flat]
  split
  · exact .settled (Alike.refl _ _)
  · exact .pure rfl

/-- The same things said about an index with texts as bytes. -/
def SamePlainInfo (reply reply' : Value) : Prop := SameInfo reply reply' ∧ IsPlainInfo reply

/-- What is said about an index is the same on both connections. -/
theorem agree_inspect (name : String) :
    Agree (Twins SamePlainInfo) Eq (inspect name) (inspect name) := by
  rw [inspect]
  refine (agree_executeFor _ _).bind fun reply reply' hreply => ?_
  exact .settled (readInfo_alike name hreply.1 hreply.2)

/-! ### All readers of replies -/

/-- **Connections that do not decode.** Whether the texts of replies are given as texts or as bytes,
counts, records, identifiers, names of indexes and what is said about an index are the same, or
there is a fault of the same class; and the same commands are sent. A count has no other than ASCII
characters, and outside of search replies no array and no map stands in the place of a text. What is
said about an index may come as a map or as an array. -/
theorem alike_of_undecoded :
    (∀ reply reply', Undecoded reply reply' → HasPlainCount reply →
      Alike Fault.classOf Eq (searchTotal reply) (searchTotal reply') ∧
      ∀ c model, Agree Eq Eq (decodeSearch c model reply) (decodeSearch c model reply')) ∧
    (∀ environment type batch, Agree (Twins SamePage) Eq (listIds environment type batch)
      (listIds environment type batch)) ∧
    Agree (Twins SameNames) Eq listIndexes listIndexes ∧
    ∀ name, Agree (Twins SamePlainInfo) Eq (inspect name) (inspect name) := by
  refine ⟨fun reply reply' h hcount => ⟨searchTotal_alike h hcount, fun c model => ?_⟩,
    agree_listIds, agree_listIndexes, agree_inspect⟩
  exact agree_decodeSearch c model h hcount

/-- A world in which replies come one after the other. -/
def scripted (replies : List Value) : World := ⟨.script (replies.map .ok), [], [], 0⟩

theorem twins_scripted {reply reply' : Value} (h : Q reply reply') :
    Twins Q (scripted [reply]) (scripted [reply']) :=
  ⟨⟨_, _, rfl, rfl, .cons (.ok h) .nil⟩, rfl⟩

theorem inspect_scripted (name : String) (reply : Value) :
    (inspect name (scripted [reply])).1 = readInfo name reply := rfl

/-- The bytes of a text. -/
def undecoded (s : String) : Value := .bytes (Utf8.encode s.toList)

/-- What a store says about an index, as maps with texts as bytes. -/
def undecodedDefinition : Value :=
  .map [(undecoded "key_type", undecoded "JSON"),
    (undecoded "prefixes", .list [undecoded "account:"]),
    (undecoded "default_score", undecoded "1")]

def undecodedInfo : Value :=
  .map [(undecoded "index_name", undecoded "idx:Account"), (undecoded "index_options", .list []),
    (undecoded "index_definition", undecodedDefinition), (undecoded "attributes", .list []),
    (undecoded "num_docs", undecoded "1")]

theorem sameDefinition_account :
    SameDefinition (.list (flat (definitionPairs ⟨"account:", []⟩))) undecodedDefinition :=
  .inr ⟨[(.text "key_type", .text "JSON"), (.text "prefixes", .list [.text "account:"]),
    (.text "default_score", .text "1")], _, .inr rfl, .inl rfl,
    .cons ⟨.text _, fun _ _ => .text _⟩
      (.cons ⟨.text _, fun _ _ => .list (.cons (.text _) .nil)⟩
        (.cons ⟨.text _, fun _ _ => .text _⟩ .nil))⟩

theorem samePlainInfo_account : SamePlainInfo
    (.list (flat (infoPairs "idx:Account" ⟨"account:", []⟩ (.text "1")))) undecodedInfo := by
  have hdefinition : ∀ name, (Value.text "index_definition").asText = .ok name →
      SamePart name (.list (flat (definitionPairs ⟨"account:", []⟩))) undecodedDefinition := by
    rintro name ⟨⟩
    exact .inr ⟨rfl, sameDefinition_account⟩
  refine ⟨.inr ⟨[(.text "index_name", .text "idx:Account"), (.text "index_options", .list []),
    (.text "index_definition", .list (flat (definitionPairs ⟨"account:", []⟩))),
    (.text "attributes", .list []), (.text "num_docs", .text "1")], _, .inr rfl, .inl rfl,
    .cons ⟨.text _, fun _ _ => .inl (.text _)⟩ (.cons ⟨.text _, fun _ _ => .inl (.same _)⟩
      (.cons ⟨.text _, hdefinition⟩ (.cons ⟨.text _, fun _ _ => .inl (.same _)⟩
        (.cons ⟨.text _, fun _ _ => .inl (.text _)⟩ .nil))))⟩, ?_, ?_, ?_, ?_⟩
  · rintro v ⟨⟩
    exact trivial
  · rintro v ⟨⟩
    refine ⟨?_, ?_⟩
    · rintro v ⟨⟩
      exact trivial
    · rintro v ⟨⟩
      exact ⟨_, rfl, List.forall_mem_singleton.mpr trivial⟩
  · rintro v ⟨⟩
    exact ⟨_, rfl, nofun⟩
  · rintro v ⟨⟩
    exact trivial

/-- A reply with one account, as it is read from a connection that decodes it. -/
theorem exists_decodeSearch_account : ∃ w, decodeSearch accounts "Account" (.list [.text "1",
    .text "account:a", .list [.text "$", .text (accountText "a")]]) freshWorld =
      (.ok [accountOf "a"], w) := by
  have hall : decodedAll accounts accounts.types[3] "account" [("a", accountText "a")] 0 =
      (.ok [accountOf "a"], 0) :=
    decodedAll_cons_eq_ok_iff.mpr ⟨_, 0, [], decoded_account _ rfl, rfl, rfl⟩
  obtain ⟨w, hrows, -⟩ := acts_decodeRows accounts accounts.types[3] "account" serves_freshWorld
    [("a", accountText "a")]
  have hzero : freshWorld.ids = 0 := rfl
  rw [hzero, hall] at hrows
  have hreply : (Value.list [.text "1", .text "account:a",
      .list [.text "$", .text (accountText "a")]]).sequence? =
        some (.text "1" :: inTurn ([("a", accountText "a")].map (Store.rowOf "account"))) := rfl
  rw [decodeSearch_eq hreply (show (Value.text "1").toInt = .ok 1 from rfl)]
  exact ⟨w, hrows⟩

theorem alike_of_undecoded_account : ∃ w,
    searchTotal (.list [undecoded "12"]) = .ok 12 ∧
    decodeSearch accounts "Account" (.list [undecoded "1", undecoded "account:a",
      .list [undecoded "$", undecoded (accountText "a")]]) freshWorld = (.ok [accountOf "a"], w) ∧
    (listIds [] accounts.types[3] (some 1)
      (scripted [.list [undecoded "0", .list [undecoded "account:a"]]])).1 = .ok ["a"] ∧
    (listIndexes (scripted [.list [undecoded "idx:Account"]])).1 = .ok ["idx:Account"] ∧
    (inspect "idx:Account" (scripted [undecodedInfo])).1 =
      .ok ⟨"idx:Account", some "JSON", ["account:"], [], 1⟩ := by
  obtain ⟨hsearch, hlist, hindexes, hinspect⟩ := alike_of_undecoded
  obtain ⟨w, hdecoded⟩ := exists_decodeSearch_account
  have hcount {s : String} (ascii : (s.toList.all fun ch => ch.toNat < 0x80) = true)
      (items : List Value) : HasPlainCount (.list (.text s :: items)) := by
    rintro _ _ ⟨⟩ ch hch
    exact of_decide_eq_true (List.all_eq_true.mp ascii ch hch)
  have htotal := (hsearch (.list [.text "12"]) (.list [undecoded "12"])
    (.list (.cons (.text _) .nil)) (hcount rfl [])).1
  have hrecords := (hsearch _ (.list [undecoded "1", undecoded "account:a",
    .list [undecoded "$", undecoded (accountText "a")]])
    (.list (.cons (.text _) (.cons (.text _) (.cons (.list (.cons (.text _) (.cons (.text _) .nil)))
      .nil)))) (hcount rfl _)).2 accounts "Account" (Eq.refl freshWorld)
  have hpage : SamePage (.list [.text "0", .list [.text "account:a"]])
      (.list [undecoded "0", .list [undecoded "account:a"]]) := by
    refine ⟨.list (.cons (.text _) (.cons (.list (.cons (.text _) .nil)) .nil)), _, rfl, ?_⟩
    rintro _ _ ⟨⟩
    exact ⟨trivial, _, rfl, List.forall_mem_singleton.mpr trivial⟩
  have hnames : SameNames (.list [.text "idx:Account"]) (.list [undecoded "idx:Account"]) :=
    ⟨.list (.cons (.text _) .nil), _, rfl, List.forall_mem_singleton.mpr trivial⟩
  have hcounted : readCount (.text "1") = .ok 1 := readCount_toDigits (n := 1) (by decide)
  have hinfo := readInfo_infoPairs "idx:Account" ⟨"account:", []⟩ hcounted
  rw [← inspect_scripted] at hinfo
  refine ⟨w, htotal.eq_ok rfl, ?_, (hlist [] _ (some 1) (twins_scripted hpage)).1.eq_ok rfl,
    (hindexes (twins_scripted hnames)).1.eq_ok rfl,
    (hinspect "idx:Account" (twins_scripted samePlainInfo_account)).1.eq_ok hinfo⟩
  rw [hdecoded] at hrecords
  exact Prod.ext (hrecords.1.eq_ok rfl) hrecords.2.symm

/-- An array in the place of a key: its form is the identifier, which shows whether the text in the
array is given as bytes. -/
theorem listIds_array : Undecoded (.list [.text "0", .list [.list [.text "a"]]])
      (.list [.text "0", .list [.list [undecoded "a"]]]) ∧
    (listIds [] accounts.types[3] (some 1)
      (scripted [.list [.text "0", .list [.list [.text "a"]]]])).1 = .ok ["['a']"] ∧
    (listIds [] accounts.types[3] (some 1)
      (scripted [.list [.text "0", .list [.list [undecoded "a"]]]])).1 = .ok ["[b'a']"] := by
  have hkey : Undecoded (.list [.text "a"]) (.list [undecoded "a"]) := .list (.cons (.text _) .nil)
  exact ⟨.list (.cons (.same _) (.cons (.list (.cons hkey .nil)) .nil)), rfl, rfl⟩

end IndexedRecords.Service
