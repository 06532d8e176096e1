import IndexedRecords.Proofs.Layers
import IndexedRecords.Record.Reader
import Mathlib.Data.List.Forall2

/-!
# What readings yield

A reading keeps track of its progress, but what it yields mostly does not depend on it. `Settles`
says so, and each way to build a reading has its lemma: steps in turn, places, and several readings
side by side, which yield something exactly where each of them does.

## Main statements

* `Settles.all`, `forall₂_of_all`: readings side by side yield what each of them yields.
* `forall₂_of_readFields`: a record that is read has what each of its fields is read as.
* `reader_eq`: a value is read through the view of it.
-/

namespace IndexedRecords.Record

open Reading

variable {α β : Type}

/-- A reading has one outcome, whatever progress there has been. -/
def Settles (r : Reading α) (outcome : Except Rejection α) : Prop := ∀ p, (r p).1 = outcome

/-- A reading yields a value, whatever progress there has been. -/
abbrev Yields (r : Reading α) (a : α) : Prop := Settles r (.ok a)

/-! ### Steps in turn -/

/-- A reading with one outcome differs in its progress only. -/
theorem run_eq {r : Reading α} {outcome : Except Rejection α} (h : Settles r outcome)
    (p : Progress) : r p = (outcome, (r p).2) :=
  Prod.ext (h p) rfl

/-- A given result is the outcome, whatever progress there has been. -/
theorem settles_settled (outcome : Except Rejection α) : Settles (settled outcome) outcome :=
  fun _ => rfl

theorem yields_pure (a : α) : Yields (pure a : Reading α) a := fun _ => rfl

theorem yields_loosen (closeness : Closeness) : Yields (loosen closeness) () := fun _ => rfl

/-- What comes of a reading that yields a value is this value. -/
theorem Settles.eq_of_ok {r : Reading α} {a : α} (h : Yields r a) (p : Progress) (b : α)
    (hb : (r p).1 = .ok b) : b = a :=
  Except.ok.inj (hb.symm.trans (h p))

theorem yields_give (fields : Nat) : Yields (give fields) () := fun _ => rfl

namespace Settles

/-- After a step that yields a value comes what follows from this value. -/
theorem bind {r : Reading α} {a : α} {f : α → Reading β} {outcome : Except Rejection β}
    (h : Yields r a) (hf : Settles (f a) outcome) : Settles (r >>= f) outcome := by
  intro p
  change (ExceptT.bindCont f (r p).1 (r p).2).1 = outcome
  rw [h p]
  exact hf _

/-- Nothing comes after a step that fails. -/
theorem bind_error {r : Reading α} {e : Rejection} {f : α → Reading β}
    (h : Settles r (.error e)) : Settles (r >>= f) (.error e) := by
  intro p
  change (ExceptT.bindCont f (r p).1 (r p).2).1 = .error e
  rw [h p]
  rfl

/-- The place of a reading does not matter to what it yields. -/
theorem under {r : Reading α} {a : α} (h : Yields r a) (steps : List Place) :
    Yields (under steps r) a := by
  intro p
  rw [Reading.under, run_eq h p]

/-- A failure is seen from one step further out. -/
theorem under_error {r : Reading α} {e : Rejection} (h : Settles r (.error e))
    (steps : List Place) : Settles (Reading.under steps r) (.error (e.under steps)) := by
  intro p
  rw [Reading.under, run_eq h p]

/-! ### Readings side by side -/

/-- Two readings side by side yield both values. -/
theorem both {r : Reading α} {s : Reading β} {a : α} {b : β} (hr : Yields r a) (hs : Yields s b) :
    Yields (both r s) (a, b) := by
  intro p
  rw [Reading.both, run_eq hr p]
  dsimp only
  rw [run_eq hs]

/-- Readings side by side yield what each of them yields. -/
theorem all {rs : List (Reading α)} {as : List α} (h : List.Forall₂ Yields rs as) :
    Yields (all rs) as := by
  induction h with
  | nil => exact fun _ => rfl
  | cons hr _ ih =>
    intro p
    rw [Reading.all]
    dsimp only
    rw [run_eq (hr.both ih) p]

end Settles

/-- Where two readings side by side yield something, each of them does. -/
theorem exists_of_both {r : Reading α} {s : Reading β} {p : Progress} {ab : α × β}
    (h : (both r s p).1 = .ok ab) :
    (∃ q, (r q).1 = .ok ab.1) ∧ ∃ q, (s q).1 = .ok ab.2 := by
  unfold both at h
  split at h
  · cases h
  · next hr =>
    split at h
    · next hs =>
      cases h
      exact ⟨⟨_, congrArg Prod.fst hr⟩, ⟨_, congrArg Prod.fst hs⟩⟩
    · cases h
  · split at h <;> cases h

/-- Where readings side by side yield something, each of them does. -/
theorem forall₂_of_all {rs : List (Reading α)} {as : List α} {p : Progress}
    (h : (all rs p).1 = .ok as) : List.Forall₂ (fun r a => ∃ q, (r q).1 = .ok a) rs as := by
  induction rs generalizing as p with
  | nil =>
    cases h
    exact .nil
  | cons r rs ih =>
    rw [Reading.all] at h
    dsimp only at h
    split at h
    · next hboth =>
      cases h
      obtain ⟨hr, q, hrs⟩ := exists_of_both (congrArg Prod.fst hboth)
      exact .cons hr (ih hrs)
    · cases h

/-- Where two steps in turn yield something, each of them does. -/
theorem exists_of_bind {r : Reading α} {f : α → Reading β} {p : Progress} {b : β}
    (h : ((r >>= f) p).1 = .ok b) : ∃ a, (r p).1 = .ok a ∧ ∃ q, (f a q).1 = .ok b := by
  change (ExceptT.bindCont f (r p).1 (r p).2).1 = .ok b at h
  cases hr : (r p).1 with
  | error e =>
    rw [hr] at h
    cases h
  | ok a =>
    rw [hr] at h
    exact ⟨a, rfl, _, h⟩

/-- What a reading yields under a step it yields without it. -/
theorem exists_of_under {steps : List Place} {r : Reading α} {p : Progress} {a : α}
    (h : (under steps r p).1 = .ok a) : ∃ q, (r q).1 = .ok a := by
  rw [Reading.under] at h
  refine ⟨p, ?_⟩
  split at h
  · next hr => rw [hr, ← h]
  · cases h

/-- A record that is read has what each of its fields is read as. -/
theorem forall₂_of_readFields {ctx : Context} {type : RecordType} {entries : List EntryView}
    {p : Progress} {v : Value} (h : (readFields ctx type entries p).1 = .ok v) :
    ∃ fields, v = .record type.name fields ∧
      List.Forall₂ (fun f e => ∃ q, (readField ctx type entries f q).1 = .ok e)
        type.fields fields := by
  obtain ⟨_, -, _, h⟩ := exists_of_bind h
  obtain ⟨fields, hall, _, h⟩ := exists_of_bind h
  obtain ⟨_, -, _, h⟩ := exists_of_bind h
  cases h
  exact ⟨fields, rfl, List.forall₂_map_left_iff.mp (forall₂_of_all hall)⟩

/-! ### Views -/

/-- A value with the readers of what it holds. -/
def viewOf (ctx : Context) (v : Value) : View :=
  match v with
  | .list items | .tuple items | .queue items | .set _ items => ⟨v, readers ctx items, []⟩
  | .map entries => ⟨v, [], entryReaders ctx entries⟩
  | v => ⟨v, [], []⟩

/-- A value is read through its view. -/
theorem reader_eq (ctx : Context) (v : Value) (shape : Shape) :
    reader ctx v shape = readAs ctx (viewOf ctx v) (readRecord ctx (viewOf ctx v)) shape := by
  cases v <;> rfl

@[simp] theorem viewOf_value (ctx : Context) (v : Value) : (viewOf ctx v).value = v := by
  cases v <;> rfl

/-- Each item of several has its own reader. -/
theorem readers_eq_map (ctx : Context) (items : List Value) :
    readers ctx items = items.map (reader ctx) := by
  induction items with
  | nil => rfl
  | cons v items ih => rw [readers, ih, List.map_cons]

/-- Each entry of several has a reader for its key, as keys are read, and one for its value. -/
theorem entryReaders_eq_map (ctx : Context) (entries : List (Value × Value)) :
    entryReaders ctx entries =
      entries.map fun e => ⟨e.1, e.2, reader ctx.ofKeys e.1, reader ctx e.2⟩ := by
  induction entries with
  | nil => rfl
  | cons e entries ih => rw [entryReaders, ih, List.map_cons]

/-- The items of an array are values one by one. -/
theorem valuesOfJson_eq_map (items : List Json) : valuesOfJson items = items.map valueOfJson := by
  induction items with
  | nil => rfl
  | cons j items ih => rw [valuesOfJson, ih, List.map_cons]

/-- The members of an object are entries under texts one by one. -/
theorem entriesOfJson_eq_map (members : List (String × Json)) :
    entriesOfJson members = members.map fun m => (.text m.1, valueOfJson m.2) := by
  induction members with
  | nil => rfl
  | cons m members ih => rw [entriesOfJson, ih, List.map_cons]

theorem entriesOfJson_map {α : Type} (items : List α) (name : α → String) (doc : α → Json) :
    entriesOfJson (items.map fun a => (name a, doc a)) =
      items.map fun a => (.text (name a), valueOfJson (doc a)) := by
  rw [entriesOfJson_eq_map, List.map_map]
  rfl

/-! ### Records in documents -/

/-- A record is read from the members of its document. -/
theorem ofJson_object {c : Catalogue} {type : RecordType} (found : c.find? type.name = some type)
    (members : List (String × Json)) :
    ofJson c type.name (.object members) =
      readFields ⟨c, .document⟩ type (entryReaders ⟨c, .document⟩ (entriesOfJson members)) := by
  rw [ofJson, valueOfJson, reader_eq, readAs, readRecord]
  simp only [viewOf_value, found]
  rfl

/-- A record that is read has the names of its fields in their order. -/
theorem map_fst_of_forall₂_readField {ctx : Context} {type : RecordType} {entries : List EntryView}
    {fields : List (String × Value)}
    (h : List.Forall₂ (fun f e => ∃ q, (readField ctx type entries f q).1 = .ok e)
      type.fields fields) : fields.map Prod.fst = type.fields.map Field.name := by
  refine (congrFun₂ List.forall₂_eq_eq_eq _ _).mp ?_
  rw [List.forall₂_map_left_iff, List.forall₂_map_right_iff]
  refine (h.imp fun f e hread => ?_).flip
  obtain ⟨q, hread⟩ := hread
  rw [readField] at hread
  cases hentry : entryOf? type f entries with
  | none =>
    rw [hentry] at hread
    obtain ⟨_, _, _, hread⟩ := exists_of_bind hread
    cases hread
    rfl
  | some entry =>
    rw [hentry] at hread
    obtain ⟨_, _, _, hread⟩ := exists_of_bind hread
    cases hread
    rfl

/-! ### Layers around a shape -/

variable {ctx : Context} {v : View} {record : String → Reading Value}

/-- Where all members of a union only take null, there is nothing to try. -/
theorem readEach_of_all_isNullType {members : List Shape}
    (h : members.all Shape.isNullType = true) : readEach ctx v record members = [] := by
  induction members with
  | nil => rw [readEach]
  | cons s members ih =>
    rw [List.all_cons, Bool.and_eq_true] at h
    rw [readEach, if_pos h.1, ih h.2]

/-- Where a union has one member besides null, this is the only one to try. -/
theorem readEach_of_isSole {members : List Shape} {shape : Shape}
    (h : Shape.IsSole members shape) :
    readEach ctx v record members = [(shape.label, readAs ctx v record shape)] := by
  induction h with
  | skip null _ ih => rw [readEach, if_pos null, ih]
  | here nonnull null => rw [readEach, if_neg nonnull, readEach_of_all_isNullType null]

/-- A value other than null is read as the shape under annotations and null. -/
theorem readAs_unwrap (hv : v.value ≠ .none) {s t : Shape} (h : Shape.Unwraps s t) :
    readAs ctx v record s = readAs ctx v record t := by
  induction h with
  | bare => rfl
  | annotated _ ih => rw [readAs, ih]
  | union sole _ ih =>
    rw [readAs, readEach_of_isSole sole, readUnion]
    · exact ih
    · exact fun hnone _ => absurd hnone hv

end IndexedRecords.Record
