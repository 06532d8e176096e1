import IndexedRecords.Proofs.Traversal
import IndexedRecords.Value.Convert

/-!
# Values that are not shown

A value is shown unless some whole number in it has too many digits (`HoldsLong`), wherever it
stands. Messages quote values, so a message cannot be worded about a value that is not shown.

## Main statements

* `shownUnless_literal`: which values are quoted.
-/

namespace IndexedRecords

open Traversal

/-- A whole number has too many digits to be shown. -/
def IsLong (n : Int) : Prop := Numeral.digitLimit < (Nat.toDigits 10 n.natAbs).length

/-- A number that is a whole one of too many digits. -/
def Number.IsLong : Number → Prop
  | .int n => IndexedRecords.IsLong n
  | .float _ => False

/-- Some whole number in a value has too many digits. -/
inductive HoldsLong : Value → Prop where
  | int {n : Int} (long : IsLong n) : HoldsLong (.int n)
  | point {p : Coordinates} (long : p.longitude.IsLong ∨ p.latitude.IsLong) : HoldsLong (.point p)
  | member {enumeration name : String} {kind : EnumKind} {v : Value} (h : HoldsLong v) :
      HoldsLong (.member enumeration kind name v)
  | record {model : String} {fields : List (String × Value)} {e : String × Value}
      (mem : e ∈ fields) (h : HoldsLong e.2) : HoldsLong (.record model fields)
  | list {items : List Value} {v : Value} (mem : v ∈ items) (h : HoldsLong v) :
      HoldsLong (.list items)
  | tuple {items : List Value} {v : Value} (mem : v ∈ items) (h : HoldsLong v) :
      HoldsLong (.tuple items)
  | queue {items : List Value} {v : Value} (mem : v ∈ items) (h : HoldsLong v) :
      HoldsLong (.queue items)
  | set {frozen : Bool} {items : List Value} {v : Value} (mem : v ∈ items) (h : HoldsLong v) :
      HoldsLong (.set frozen items)
  | key {entries : List (Value × Value)} {e : Value × Value} (mem : e ∈ entries)
      (h : HoldsLong e.1) : HoldsLong (.map entries)
  | value {entries : List (Value × Value)} {e : Value × Value} (mem : e ∈ entries)
      (h : HoldsLong e.2) : HoldsLong (.map entries)

/-- Something is shown unless a whole number has too many digits. -/
def ShownUnless {α : Type} (x : Except ValueFault α) (long : Prop) : Prop :=
  ∀ fault, x = .error fault ↔ long ∧ fault = .tooManyDigits none

namespace ShownUnless

variable {α β : Type} {x : Except ValueFault α} {f : α → Except ValueFault β} {long long' : Prop}

/-- When a text is too long may be said in any equivalent way. -/
theorem congr (h : ShownUnless x long) (hlong : long ↔ long') : ShownUnless x long' :=
  fun fault => (h fault).trans (and_congr_left fun _ => hlong)

theorem ok (a : α) (hlong : ¬ long) : ShownUnless (.ok a : Except ValueFault α) long :=
  fun _ => iff_of_false nofun fun h => hlong h.1

/-- A text is found exactly if nothing is too long for it. -/
theorem exists_ok_iff (h : ShownUnless x long) : (∃ a, x = .ok a) ↔ ¬ long := by
  cases x with
  | ok a => exact iff_of_true ⟨a, rfl⟩ fun hlong => nomatch (h _).mpr ⟨hlong, rfl⟩
  | error fault => exact iff_of_false nofun fun hlong => hlong ((h fault).mp rfl).1

/-- Two texts in turn are found unless something is too long for one of them. -/
theorem bind (h : ShownUnless x long) (hf : ∀ a, ShownUnless (f a) long') :
    ShownUnless (x >>= f) (long ∨ long') := by
  intro fault
  rw [bind_eq_error_iff, h]
  constructor
  · rintro (⟨hlong, rfl⟩ | ⟨a, _, ha⟩)
    · exact ⟨.inl hlong, rfl⟩
    · obtain ⟨hlong, rfl⟩ := (hf a fault).mp ha
      exact ⟨.inr hlong, rfl⟩
  · rintro ⟨hlong, rfl⟩
    by_cases hfirst : long
    · exact .inl ⟨hfirst, rfl⟩
    · obtain ⟨a, ha⟩ := h.exists_ok_iff.mpr hfirst
      exact .inr ⟨a, ha, (hf a _).mpr ⟨hlong.resolve_left hfirst, rfl⟩⟩

theorem map (h : ShownUnless x long) (g : α → β) : ShownUnless (do return g (← x)) long :=
  (h.bind fun a => .ok (g a) not_false).congr (or_iff_left not_false)

end ShownUnless

/-- A whole number is shown unless it has too many digits. -/
theorem shownUnless_shownInt (n : Int) : ShownUnless (shownInt n) (IsLong n) := by
  intro fault
  unfold shownInt
  split
  · next hlong => exact ⟨fun h => ⟨hlong, (Except.error.inj h).symm⟩, fun h => by rw [h.2]⟩
  · next hlong => exact iff_of_false nofun fun h => hlong h.1

theorem shownUnless_number (n : Number) : ShownUnless n.display n.IsLong := by
  cases n with
  | int n => exact shownUnless_shownInt n
  | float x => exact .ok _ not_false

namespace Value

mutual

/-- **Quoted values.** A value is quoted unless some whole number in it has too many digits. -/
theorem shownUnless_literal : (v : Value) → ShownUnless v.literal (HoldsLong v)
  | .int n => by
    rw [literal]
    exact (shownUnless_shownInt n).congr ⟨.int, fun h => by cases h; assumption⟩
  | .point p => by
    have hparts := (shownUnless_number p.longitude).bind fun longitude =>
      (shownUnless_number p.latitude).map fun latitude =>
        s!"Coordinates(longitude={longitude}, latitude={latitude})"
    rw [literal]
    exact hparts.congr ⟨.point, fun h => by cases h; assumption⟩
  | .member _ _ _ v => by
    rw [literal]
    exact ((shownUnless_literal v).map _).congr ⟨.member, fun h => by cases h; assumption⟩
  | .record _ fields => by
    rw [literal]
    refine ((shownUnless_fieldLiterals fields).map _).congr ⟨fun ⟨_, mem, h⟩ => .record mem h, ?_⟩
    intro h
    cases h with
    | record mem h => exact ⟨_, mem, h⟩
  -- the items of a container are gone through by the functions of this mutual block
  | .list items => by
    rw [literal]
    refine ((shownUnless_itemLiterals items).map _).congr ⟨fun ⟨_, mem, h⟩ => .list mem h, ?_⟩
    intro h
    cases h with
    | list mem h => exact ⟨_, mem, h⟩
  | .tuple items => by
    rw [literal]
    refine ((shownUnless_itemLiterals items).map _).congr ⟨fun ⟨_, mem, h⟩ => .tuple mem h, ?_⟩
    intro h
    cases h with
    | tuple mem h => exact ⟨_, mem, h⟩
  | .queue items => by
    rw [literal]
    refine ((shownUnless_itemLiterals items).map _).congr ⟨fun ⟨_, mem, h⟩ => .queue mem h, ?_⟩
    intro h
    cases h with
    | queue mem h => exact ⟨_, mem, h⟩
  | .set _ items => by
    rw [literal]
    refine ((shownUnless_itemLiterals items).map _).congr ⟨fun ⟨_, mem, h⟩ => .set mem h, ?_⟩
    intro h
    cases h with
    | set mem h => exact ⟨_, mem, h⟩
  | .map entries => by
    rw [literal]
    refine ((shownUnless_entryLiterals entries).map _).congr
      ⟨fun ⟨_, mem, h⟩ => h.elim (.key mem) (.value mem), ?_⟩
    intro h
    cases h with
    | key mem h => exact ⟨_, mem, .inl h⟩
    | value mem h => exact ⟨_, mem, .inr h⟩
  | .bool true | .bool false | .none | .float _ | .decimal _ | .text _ | .bytes _ | .date _
  | .moment _ | .reference _ | .bare => by
    rw [literal]
    exact .ok _ fun h => nomatch h

theorem shownUnless_itemLiterals : (items : List Value) →
    ShownUnless (itemLiterals items) (∃ v ∈ items, HoldsLong v)
  | [] => .ok _ (by simp)
  | v :: rest => by
    have hitems := (shownUnless_literal v).bind fun text =>
      (shownUnless_itemLiterals rest).map (text :: ·)
    rw [itemLiterals]
    exact hitems.congr (by simp)

theorem shownUnless_fieldLiterals : (fields : List (String × Value)) →
    ShownUnless (fieldLiterals fields) (∃ e ∈ fields, HoldsLong e.2)
  | [] => .ok _ (by simp)
  | (name, v) :: rest => by
    have hfields := (shownUnless_literal v).bind fun value =>
      (shownUnless_fieldLiterals rest).map (s!"{name}={value}" :: ·)
    rw [fieldLiterals]
    exact hfields.congr (by simp)

theorem shownUnless_entryLiterals : (entries : List (Value × Value)) →
    ShownUnless (entryLiterals entries) (∃ e ∈ entries, HoldsLong e.1 ∨ HoldsLong e.2)
  | [] => .ok _ (by simp)
  | (k, v) :: rest => by
    have hentries := (shownUnless_literal k).bind fun key =>
      (shownUnless_literal v).bind fun value =>
      (shownUnless_entryLiterals rest).map (s!"{key}: {value}" :: ·)
    rw [entryLiterals]
    exact hentries.congr (by simp [or_assoc])

end

end Value

end IndexedRecords
