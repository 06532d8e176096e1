import IndexedRecords.Proofs.Tables
import IndexedRecords.Value.Same

/-!
# Values that are the same

Containers are the same where what they hold is: lists item by item, maps entry by entry and records
field by field (`same_list`, `same_map`, `same_record`). Atoms are compared through their numbers or
as what they are.
-/

namespace IndexedRecords.Value

variable {v w : Value}

/-! ### Atoms -/

theorem ratio_same (n : Int) (d : Nat) : (ExactNumber.ratio n d).same (.ratio n d) = true :=
  beq_self_eq_true (n * d)

theorem none_same (v : Value) : Value.none.same v = Value.none.sameAtom v.plain := by
  rw [same] <;> intros <;> contradiction

theorem text_same (s : String) (v : Value) :
    (Value.text s).same v = (Value.text s).sameAtom v.plain := by
  rw [same] <;> intros <;> contradiction

theorem int_same (n : Int) (v : Value) :
    (Value.int n).same v = (Value.int n).sameAtom v.plain := by
  rw [same] <;> intros <;> contradiction

theorem bool_same (b : Bool) (v : Value) :
    (Value.bool b).same v = (Value.bool b).sameAtom v.plain := by
  rw [same] <;> intros <;> contradiction

theorem moment_same (m : Moment) (v : Value) :
    (Value.moment m).same v = (Value.moment m).sameAtom v.plain := by
  rw [same] <;> intros <;> contradiction

theorem text_same_of_plain {s : String} (h : v.plain = .text s) : (Value.text s).same v = true := by
  rw [text_same, h]
  exact beq_self_eq_true s

theorem int_same_of_plain {n : Int} (h : v.plain = .int n) : (Value.int n).same v = true := by
  rw [int_same, h]
  exact ratio_same n 1

theorem bool_same_self (b : Bool) : (Value.bool b).same (.bool b) = true := by
  rw [bool_same]
  exact ratio_same _ 1

/-- Among texts, only equal ones are the same. -/
theorem text_same_text (s t : String) : (Value.text s).same (.text t) = decide (s = t) := by
  rw [text_same]
  exact beq_eq_decide s t

/-- A member of an enumeration is the same as itself if what it stands for is. -/
theorem member_same_self {e name : String} {kind : EnumKind} (h : v.same v = true) :
    (Value.member e kind name v).same (.member e kind name v) = true := by
  cases kind with
  | plain =>
    rw [same]
    change (e == e && name == name) = true
    rw [beq_self_eq_true, beq_self_eq_true, Bool.and_self]
  | _ =>
    rw [same]
    · exact h
    · intros
      contradiction

/-! ### Containers -/

/-- Lists are the same if their items are, one by one. -/
theorem same_list {vs ws : List Value} (h : List.Forall₂ (fun w v => w.same v = true) ws vs) :
    (Value.list ws).same (.list vs) = true := by
  rw [same]
  induction h with
  | nil => rw [sameItems]
  | cons hsame _ ih => rw [sameItems, hsame, ih, Bool.and_self]

theorem sameEntries_of_forall {ws entries : List (Value × Value)}
    (h : ∀ w ∈ ws, ∃ e ∈ entries, w.1.same e.1 = true ∧ w.2.same e.2 = true) :
    sameEntries ws entries = true := by
  induction ws with
  | nil => rw [sameEntries]
  | cons w ws ih =>
    obtain ⟨e, he, hkey, hvalue⟩ := h w List.mem_cons_self
    have hany : (entries.any fun e => w.1.same e.1 && w.2.same e.2) = true :=
      List.any_eq_true.mpr ⟨e, he, by rw [hkey, hvalue, Bool.and_self]⟩
    rw [sameEntries, ih fun w hw => h w (List.mem_cons_of_mem _ hw), Bool.and_true]
    exact hany

/-- Maps are the same if they have as many entries, and each entry of one is the same as some entry
of the other. Their order does not matter. -/
theorem same_map {ws entries : List (Value × Value)} (hlength : ws.length = entries.length)
    (h : ∀ w ∈ ws, ∃ e ∈ entries, w.1.same e.1 = true ∧ w.2.same e.2 = true) :
    (Value.map ws).same (.map entries) = true := by
  rw [same, hlength, beq_self_eq_true, sameEntries_of_forall h, Bool.and_self]

/-- Fields are the same if each of them has the same value under its name. -/
theorem sameFields_of_forall {ws fields : List (String × Value)}
    (hnames : (fields.map Prod.fst).Nodup)
    (h : ∀ w ∈ ws, ∃ v, (w.1, v) ∈ fields ∧ w.2.same v = true) : sameFields ws fields = true := by
  induction ws with
  | nil => rw [sameFields]
  | cons w ws ih =>
    obtain ⟨v, hv, hsame⟩ := h w List.mem_cons_self
    have hfind : (fields.find? fun f => f.1 == w.1) = some (w.1, v) := find?_of_mem hnames hv
    rw [sameFields, hfind, ih fun w hw => h w (List.mem_cons_of_mem _ hw), Bool.and_true]
    exact hsame

/-- Records of one type are the same where each field is. -/
theorem same_record {model : String} {ws fields : List (String × Value)}
    (hnames : (fields.map Prod.fst).Nodup) (hlength : ws.length = fields.length)
    (h : ∀ w ∈ ws, ∃ v, (w.1, v) ∈ fields ∧ w.2.same v = true) :
    (Value.record model ws).same (.record model fields) = true := by
  rw [same, hlength, beq_self_eq_true, beq_self_eq_true, sameFields_of_forall hnames h]
  rfl

end IndexedRecords.Value
