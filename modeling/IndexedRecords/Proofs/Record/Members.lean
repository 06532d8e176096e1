import IndexedRecords.Proofs.Record.Reading
import IndexedRecords.Proofs.Tables
import IndexedRecords.Proofs.Value.Same

/-!
# Members of enumerations

A document holds what a member of an enumeration stands for, and the member is looked up by it. A
member may have several names, and the last entry that fits counts, but all entries that fit lead to
one member. So the lookup finds the member that the value was declared for, unless the value is a
whole number that the lookup is not made for (`Enumeration.Finds`).

## Main statements

* `lookUp_of_unique`: what is expected under one item only is found under it.
* `readMember_payload`: a member is found by what it stands for, or the number is refused.
-/

namespace IndexedRecords

/-- What a member of an enumeration may stand for, so that a document shows it: a text or a whole
number, as the kind of the enumeration asks for, or a truth value where it asks for nothing. -/
inductive EnumKind.Holds (kind : EnumKind) : Value → Prop where
  | text (s : String) (other : kind ≠ .whole) : Holds kind (.text s)
  | int (n : Int) (other : kind ≠ .text) : Holds kind (.int n)
  | bool (b : Bool) (plain : kind = .plain) : Holds kind (.bool b)

/-- An enumeration looks for a whole number: for every one of sixty-four bits, and for larger ones
only if it is plain and no member stands for a number of sixty-four bits. -/
def Enumeration.Finds (e : Enumeration) (n : Int) : Prop :=
  Scalar.fitsWord n = true ∨ e.kind = .plain ∧ ∀ m ∈ e.cases, Record.isWord m.1 = false

/-- What a member may stand for is the same as itself, which not every value is: a floating number
that is no number is not. -/
theorem same_self_of_holds {kind : EnumKind} {v : Value} (h : kind.Holds v) :
    v.same v = true := by
  cases h with
  | text s => exact Value.text_same_of_plain rfl
  | int => exact Value.int_same_of_plain rfl
  | bool b => exact Value.bool_same_self b

namespace Enumeration

variable {e : Enumeration} {member : String} {v : Value}

/-- A value that is declared for a member is among what the members stand for. -/
theorem mem_cases (names : (e.members.map Prod.fst).Nodup)
    (declared : e.ofValue? v = some (.member e.name e.kind member v)) :
    (v, .member e.name e.kind member v) ∈ e.cases := by
  obtain ⟨⟨first, value⟩, hfirst, heq⟩ := Option.map_eq_some_iff.mp declared
  obtain ⟨rfl, rfl⟩ : member = first ∧ v = value := by
    cases heq
    exact ⟨rfl, rfl⟩
  have hmem := List.mem_of_find?_eq_some hfirst
  have hname : e.ofName? member = some (.member e.name e.kind member v) := by
    rw [ofName?, find?_of_mem names hmem]
    exact declared
  exact List.mem_filterMap.mpr ⟨(member, v), hmem, by rw [hname]; rfl⟩

/-- All entries of a value lead to the member that it is declared for. -/
theorem eq_of_mem_cases {m : Value × Value} (hsame : v.same v = true)
    (declared : e.ofValue? v = some (.member e.name e.kind member v)) (hm : m ∈ e.cases)
    (heq : m.1 = v) : m.2 = .member e.name e.kind member v := by
  obtain ⟨⟨name, _⟩, -, hcase⟩ := List.mem_filterMap.mp hm
  obtain ⟨w, hname, rfl⟩ := Option.map_eq_some_iff.mp hcase
  obtain ⟨⟨_, value⟩, -, hvalue⟩ := Option.bind_eq_some_iff.mp hname
  obtain ⟨⟨first, u⟩, hfirst, rfl⟩ := Option.map_eq_some_iff.mp hvalue
  obtain rfl : u = v := heq
  obtain ⟨⟨second, u'⟩, hsecond, hmember⟩ := Option.map_eq_some_iff.mp declared
  cases hmember
  -- both searches come to the first member that is the same, since the values are the same
  have hvalue : u.same value = true := by simpa using List.find?_some hfirst
  cases eq_of_find? hfirst hsecond hsame hvalue
  rfl

end Enumeration

namespace Record

variable {ctx : Context} {e : Enumeration} {member : String} {v w : Value}

/-! ### Lookups -/

/-- Values that match exactly are equal, kinds included. -/
theorem eq_of_matchesExactly (h : matchesExactly v w = true) : w = v := by
  cases v <;> cases w <;> first
    | cases h
    | exact congrArg _ (of_decide_eq_true h).symm

/-- What a member may stand for matches itself exactly. -/
theorem matchesExactly_self {kind : EnumKind} (h : kind.Holds v) : matchesExactly v v = true := by
  cases h <;> exact decide_eq_true rfl

/-- What is expected under one item only is found under it, unless it is a number that is too large
to be looked for. -/
theorem lookUp_of_unique {α : Type} {expected : List (Value × α)} {a : α}
    (hv : matchesExactly v v = true) (hmem : (v, a) ∈ expected)
    (hunique : ∀ x ∈ expected, x.1 = v → x.2 = a) :
    lookUp expected v =
      if isLarge v && expected.any fun x => isWord x.1 then .error .intParsingSize
      else .ok (some a) := by
  obtain ⟨x, hx⟩ : ∃ x, (expected.reverse.find? fun x => matchesExactly v x.1) = some x :=
    Option.isSome_iff_exists.mp (List.find?_isSome.mpr ⟨(v, a), List.mem_reverse.mpr hmem, hv⟩)
  have hfits : matchesExactly v x.1 = true := by simpa using List.find?_some hx
  have hfound : x.2 = a := hunique x (List.mem_reverse.mp (List.mem_of_find?_eq_some hx))
    (eq_of_matchesExactly hfits)
  rw [lookUp]
  simp only [hx, Option.map_some, Option.some_or, hfound]

/-! ### Members -/

theorem readMember_eq_foundOr {kind : EnumKind} (h : kind.Holds v) :
    readMember e v = foundOr .enum (caseOf? e v) := by
  cases h <;> rfl

/-- A lookup among the members of an enumeration finds the member of a value, or refuses a whole
number that the enumeration does not look for. -/
theorem caseOf?_payload (names : (e.members.map Prod.fst).Nodup) (kind : e.kind.Holds v)
    (declared : e.ofValue? v = some (.member e.name e.kind member v)) :
    caseOf? e v = .ok (some (.member e.name e.kind member v)) ∨
      (∃ n, v = .int n ∧ ¬ e.Finds n) ∧ caseOf? e v = .error .intParsingSize := by
  rw [caseOf?]
  cases hkind : e.kind with
  | plain =>
    have hlookUp := lookUp_of_unique (matchesExactly_self kind) (e.mem_cases names declared)
      fun m hm => e.eq_of_mem_cases (same_self_of_holds kind) declared hm
    rw [hkind] at hlookUp
    -- a refused number is large, and some member stands for a small one, so it is not looked for
    split at hlookUp
    · next hrefused =>
      rw [Bool.and_eq_true, List.any_eq_true] at hrefused
      obtain ⟨hlarge, m, hm, hword⟩ := hrefused
      refine .inr ⟨?_, hlookUp⟩
      cases kind with
      | int n =>
        refine ⟨n, rfl, ?_⟩
        rintro (hfits | ⟨-, hno⟩)
        · rw [isLarge, hfits] at hlarge
          cases hlarge
        · rw [hno m hm] at hword
          cases hword
      | _ => cases hlarge
    · exact .inl hlookUp
  | text =>
    rw [hkind] at kind declared
    cases kind with
    | text s =>
      refine .inl ?_
      change Except.ok (e.ofValue? (.text (String.ofList s.toList))) = _
      rw [String.ofList_toList, declared]
    | int n other => exact absurd rfl other
    | bool b plain => cases plain
  | whole =>
    rw [hkind] at declared
    rw [hkind] at kind
    cases kind with
    | text s other => exact absurd rfl other
    | bool b plain => cases plain
    | int n =>
      -- members that stand for whole numbers are looked for among the numbers of sixty-four bits
      -- only
      change (if (!Scalar.fitsWord n) = true then _ else _) = _ ∨ _ ∧
        (if (!Scalar.fitsWord n) = true then _ else _) = _
      by_cases hfits : Scalar.fitsWord n = true
      · rw [hfits, if_neg nofun]
        exact .inl (congrArg _ declared)
      · refine .inr ⟨⟨n, rfl, ?_⟩, if_pos (by simpa using hfits)⟩
        rintro (h | ⟨hplain, -⟩)
        · exact hfits h
        · rw [hkind] at hplain
          cases hplain

/-- **Members by their values.** A member is found by what it stands for, unless this is a whole
number that the enumeration does not look for, which is refused. -/
theorem readMember_payload (names : (e.members.map Prod.fst).Nodup) (kind : e.kind.Holds v)
    (declared : e.ofValue? v = some (.member e.name e.kind member v)) :
    readMember e v = .ok (.member e.name e.kind member v) ∨
      (∃ n, v = .int n ∧ ¬ e.Finds n) ∧ readMember e v = .error (.here .intParsingSize) := by
  rw [readMember_eq_foundOr kind]
  rcases caseOf?_payload names kind declared with h | ⟨hlarge, h⟩
  · exact .inl (by rw [h]; rfl)
  · exact .inr ⟨hlarge, by rw [h]; rfl⟩

/-- What is read of a value as an enumeration is the member that the value gives. -/
theorem settles_enumeration (ctx : Context) (v : Value) (e : Enumeration) :
    Settles (reader ctx v (.enumeration e)) (readMember e v) := by
  rw [reader_eq, readAs, viewOf_value]
  cases readMember e v with
  | ok w => exact (settles_settled _).bind ((yields_loosen _).bind (yields_pure w))
  | error e => exact (settles_settled (.error e)).bind_error

end Record

end IndexedRecords
