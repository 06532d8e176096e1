import IndexedRecords.Proofs.Record.Writing

/-!
# Numbers in documents

A field of single numbers or times is written as its shape says, except that searchable records
write dates and moments as seconds. Whole numbers, members of enumerations of whole numbers and
truth values in fields of whole numbers are written as whole numbers, decimals as texts.

## Main statements

* `isWhole_of_writer`: what a shape of whole numbers is written as.
* `writeField_of_isQuantity`: what single numbers and times are written as.
-/

namespace IndexedRecords

namespace Value

/-- Whether a value stands for a finite number, if it stands for a number at all: a moment for its
seconds, and a member of an enumeration of whole numbers for one of these, as its declaration makes
it. -/
def isFinite : Value → Bool
  | .moment m => !m.epochSeconds.isSpecial
  | .member _ .whole _ (.int _) => true
  | .member _ .whole _ _ => false
  | _ => true

/-- The values of a shape of whole numbers: these, members that stand for them, and truth values. -/
inductive IsCount : Value → Prop where
  | int (n : Int) : IsCount (.int n)
  | bool (b : Bool) : IsCount (.bool b)
  | member (enumeration name : String) (n : Int) :
      IsCount (.member enumeration .whole name (.int n))

/-- The values of fields of single numbers and times. -/
inductive IsQuantity : Value → Prop where
  | count {v : Value} (h : IsCount v) : IsQuantity v
  | decimal (d : Decimal) : IsQuantity (.decimal d)
  | date (d : Date) : IsQuantity (.date d)
  | moment {m : Moment} (finite : m.epochSeconds.isSpecial = false) : IsQuantity (.moment m)

/-- The whole number that is written for a value of a shape of whole numbers. -/
def writtenCount : Value → Int
  | .int n => n
  | .bool b => if b then 1 else 0
  | .member _ _ _ (.int n) => n
  | _ => 0

/-- What a single number or time is written as. -/
def quantityJson : Value → Json
  | .decimal d => .text (String.ofList d.text)
  | .date d => .int d.epochSeconds
  | .moment m => .float m.epochSeconds
  | v => .int v.writtenCount

end Value

/-- A document is a whole number or null. -/
inductive Json.IsWhole : Json → Prop where
  | null : IsWhole .null
  | int (n : Int) : IsWhole (.int n)

/-- Under its outer layers, a shape asks for a single number or time: a whole number, a member of an
enumeration of whole numbers, a decimal, a date or a moment. -/
def Shape.asksForNumber (s : Shape) : Bool :=
  match s.unwrap with
  | .scalar .int | .scalar .decimal | .scalar .date | .scalar .moment => true
  | .enumeration e => e.kind = .whole
  | _ => false

namespace Record

variable {c : Catalogue} {r : RecordType} {f : Field} {s : Shape} {v : Value} {j : Json}

/-- A value other than null is written as the shape under the outer layers. -/
theorem writer_unwrap (hne : v ≠ .none) (check : Check) (s : Shape) :
    writer c v check s = writeAs c (contentOf c v) s.unwrap check := by
  rw [writer_eq, writeAs_unwrap (by simpa using hne) check s.unwraps]

/-- A shape of whole numbers is that of plain ones or of members of an enumeration. -/
theorem eq_int_or_enumeration_of_isWhole (h : s.isWhole = true) :
    s = .scalar .int ∨ ∃ e, s = .enumeration e ∧ e.kind = .whole := by
  unfold Shape.isWhole at h
  split at h
  · exact .inl rfl
  · next e => exact .inr ⟨e, rfl, of_decide_eq_true h⟩
  · cases h

theorem exists_int_of_isFinite {enumeration name : String} {w : Value}
    (h : (Value.member enumeration .whole name w).isFinite = true) : ∃ n, w = .int n := by
  cases w with
  | int n => exact ⟨n, rfl⟩
  | _ => cases h

theorem isCount_of_belongs (hs : s.isWhole = true) (hv : Belongs c s v)
    (hfinite : v.isFinite = true) : v.IsCount := by
  obtain rfl | ⟨e, rfl, hkind⟩ := eq_int_or_enumeration_of_isWhole hs
  · cases hv with
    | scalar kind =>
      cases v with
      | int n => exact .int n
      | bool b => exact .bool b
      | member enumeration vkind name w =>
        cases vkind with
        | whole =>
          obtain ⟨n, rfl⟩ := exists_int_of_isFinite hfinite
          exact .member enumeration name n
        | _ => cases kind
      | _ => cases kind
  · cases hv with
    | enumeration declared =>
      rw [hkind] at hfinite ⊢
      obtain ⟨n, rfl⟩ := exists_int_of_isFinite hfinite
      exact .member e.name _ n

/-- Where whole numbers are asked for, these are written. -/
theorem writeAs_of_isCount (hs : s.isWhole = true) (hv : Belongs c s v) (h : v.IsCount) :
    writeAs c (contentOf c v) s .off = some (.int v.writtenCount) := by
  obtain rfl | ⟨e, rfl, hkind⟩ := eq_int_or_enumeration_of_isWhole hs
  · cases h <;> rfl
  · cases hv with
    | enumeration declared =>
      rw [hkind] at h
      cases h with
      | member =>
        rw [writeAs, contentOf_value]
        dsimp only
        rw [Content.byKindIf, decide_eq_true rfl, Bool.true_or, if_pos rfl]
        rfl

/-- Where whole numbers are asked for, only these and null are written. -/
theorem isWhole_of_writer (hs : s.unwrap.isWhole = true) (hv : Belongs c s v)
    (hfinite : v.isFinite = true) (hj : writer c v .off s = some j) : j.IsWhole := by
  by_cases hne : v = .none
  · subst hne
    have hnull : writeAs c (contentOf c .none) s.unwrap .off = some .null := by
      obtain hint | ⟨e, henum, -⟩ := eq_int_or_enumeration_of_isWhole hs
      · rw [hint]
        rfl
      · rw [henum]
        exact byKindIf_none rfl false
    rw [writer_eq, writeAs_none_of_unwraps s.unwraps hnull] at hj
    cases hj
    exact .null
  · have hbelongs := (hv.unwrap s.unwraps).resolve_left hne
    rw [writer_unwrap hne, writeAs_of_isCount hs hbelongs (isCount_of_belongs hs hbelongs hfinite)]
      at hj
    cases hj
    exact .int _

/-! ### Single numbers and times -/

theorem temporalJson?_of_isCount (h : v.IsCount) : temporalJson? v = none := by
  cases h <;> rfl

/-- A number that is no decimal and no time belongs to a shape of whole numbers. -/
theorem isWhole_of_isCount (hs : s.asksForNumber = true) (hv : Belongs c s.unwrap v)
    (h : v.IsCount) : s.unwrap.isWhole = true := by
  unfold Shape.asksForNumber at hs
  split at hs
  · next hint =>
    rw [hint]
    rfl
  · next hdecimal =>
    rw [hdecimal] at hv
    cases hv with
    | scalar kind => cases h <;> cases kind
  · next hdate =>
    rw [hdate] at hv
    cases hv with
    | scalar kind => cases h <;> cases kind
  · next hmoment =>
    rw [hmoment] at hv
    cases hv with
    | scalar kind => cases h <;> cases kind
  · next e henum =>
    rw [henum]
    exact hs
  · cases hs

/-- A finite value of a field of single numbers or times is one of these. -/
theorem isQuantity_of_belongs (hs : s.asksForNumber = true) (hv : Belongs c s.unwrap v)
    (hfinite : v.isFinite = true) : v.IsQuantity := by
  have htime {scalar : Scalar} (hkind : scalar = .date ∨ scalar = .moment)
      (h : scalar.holds v = true) : v.IsQuantity := by
    obtain rfl | rfl := hkind <;> cases v <;>
      first
        | (cases h; done)
        | exact .date _
        | exact .moment (by simpa [Value.isFinite] using hfinite)
  unfold Shape.asksForNumber at hs
  split at hs
  · next hint =>
    exact .count (isCount_of_belongs (by rw [hint]; rfl) hv hfinite)
  · next hdecimal =>
    rw [hdecimal] at hv
    cases hv with
    | scalar kind => cases v <;> first | (cases kind; done) | exact .decimal _
  · next hdate =>
    rw [hdate] at hv
    cases hv with
    | scalar kind => exact htime (.inl rfl) kind
  · next hmoment =>
    rw [hmoment] at hv
    cases hv with
    | scalar kind => exact htime (.inr rfl) kind
  · next e henum =>
    exact .count (isCount_of_belongs (by rw [henum]; exact hs) hv hfinite)
  · cases hs

/-- Decimals belong to shapes of decimals only. -/
theorem unwrap_eq_decimal {d : Decimal} (hs : s.asksForNumber = true)
    (hv : Belongs c s.unwrap (.decimal d)) : s.unwrap = .scalar .decimal := by
  unfold Shape.asksForNumber at hs
  split at hs
  · next hint =>
    rw [hint] at hv
    cases hv with
    | scalar kind => cases kind
  · next hdecimal => exact hdecimal
  · next hdate =>
    rw [hdate] at hv
    cases hv with
    | scalar kind => cases kind
  · next hmoment =>
    rw [hmoment] at hv
    cases hv with
    | scalar kind => cases kind
  · next e henum =>
    rw [henum] at hv
    cases hv
  · cases hs

/-- A searchable record writes whole numbers and times as numbers, and decimals as texts. -/
theorem writeField_of_isQuantity (hr : r.isSearchable) (hs : f.shape.asksForNumber = true)
    (hv : Belongs c f.shape v) (h : v.IsQuantity) :
    writeField .off r f v (writer c v) = some v.quantityJson := by
  have hne : v ≠ .none := by
    rintro rfl
    cases h with
    | count h => cases h
  have hbelongs := (hv.unwrap f.shape.unwraps).resolve_left hne
  cases h with
  | count h =>
    rw [writeField_eq (temporalJson?_of_isCount h), writer_unwrap hne,
      writeAs_of_isCount (isWhole_of_isCount hs hbelongs h) hbelongs h]
    cases h <;> rfl
  | decimal d =>
    rw [writeField_eq rfl, writer_unwrap hne, unwrap_eq_decimal hs hbelongs]
    rfl
  | date d =>
    rw [writeField, if_pos hr]
    rfl
  | moment _ =>
    rw [writeField, if_pos hr]
    rfl

end Record

end IndexedRecords
