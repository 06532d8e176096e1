import IndexedRecords.Proofs.Json.Outline

/-!
# Paths into documents

A path starts at the root of a document and selects parts of it step by step: the members of a given
name, all items of an array or all members of an object. The steps of a path are written one after
another, and a path of steps whose names are plain words is read back as it was written.

## Main statements

* `PathStep.read?_text`: a path of plain names is read back.
-/

namespace IndexedRecords

/-- A step of a path into documents. -/
inductive PathStep where
  | member (name : String)
  | items
  | values
  deriving DecidableEq, Repr

namespace PathStep

open Text

/-! ### Writing and reading paths -/

/-- Whether a name can stand in a path without quotes. -/
def isName (s : String) : Bool :=
  match s.toList with
  | [] => false
  | c :: cs => isNameStart c && cs.all isNameChar

/-- The text of a step. -/
def text : PathStep → List Char
  | .member name => '.' :: name.toList
  | .items => ['[', '*', ']']
  | .values => ['.', '*']

/-- Reads the steps of a path. The bound counts steps; the length of the text is enough. -/
def readSteps : (bound : Nat) → List Char → Option (List PathStep)
  | _, [] => some []
  | bound + 1, '.' :: c :: rest =>
    if c = '*' then (readSteps bound rest).map (.values :: ·)
    else if isNameStart c then
      (readSteps bound (rest.dropWhile isNameChar)).map
        (.member (String.ofList (c :: rest.takeWhile isNameChar)) :: ·)
    else none
  | bound + 1, '[' :: '*' :: ']' :: rest => (readSteps bound rest).map (.items :: ·)
  | _, _ => none

/-- The steps of a path, which starts at the root. -/
def read? : List Char → Option (List PathStep)
  | '$' :: rest => readSteps rest.length rest
  | _ => none

/-- A step whose name, if it has one, needs no quotes. -/
def IsPlain : PathStep → Prop
  | .member name => isName name = true
  | _ => True

theorem text_ne_nil (step : PathStep) : step.text ≠ [] := by
  cases step <;> exact List.cons_ne_nil _ _

/-- No name goes on with the text of a step. -/
theorem not_isNameChar_head {steps : List PathStep} {c : Char}
    (h : c ∈ (steps.flatMap text).head?) : isNameChar c = false := by
  cases steps with
  | nil => cases h
  | cons step steps =>
    cases step <;>
    · obtain rfl : _ = c := Option.some.inj h
      rfl

theorem readSteps_text {steps : List PathStep} (h : ∀ step ∈ steps, step.IsPlain) {bound : Nat}
    (hbound : steps.length ≤ bound) : readSteps bound (steps.flatMap text) = some steps := by
  induction steps generalizing bound with
  | nil => cases bound <;> rfl
  | cons step steps ih =>
    rw [List.length_cons] at hbound
    obtain ⟨bound, rfl⟩ : ∃ n, bound = n + 1 := ⟨bound - 1, by omega⟩
    have hplain := h step List.mem_cons_self
    have hsteps := ih (fun step hstep => h step (List.mem_cons_of_mem _ hstep))
      (show steps.length ≤ bound by omega)
    rw [List.flatMap_cons]
    cases step with
    | items =>
      rw [text, List.cons_append, List.cons_append, List.cons_append, List.nil_append, readSteps,
        hsteps]
      rfl
    | values =>
      rw [text, List.cons_append, List.cons_append, List.nil_append, readSteps, if_pos rfl, hsteps]
      rfl
    | member name =>
      rw [IsPlain, isName] at hplain
      split at hplain
      · cases hplain
      · next c cs hname =>
        rw [Bool.and_eq_true] at hplain
        -- a name goes on up to the mark of the next step, which cannot stand in names
        have hend : ∀ c ∈ (steps.flatMap text).head?, isNameChar c = false := fun _ hc =>
          not_isNameChar_head hc
        obtain ⟨htake, hdrop⟩ := takeWhile_dropWhile_append (List.all_eq_true.mp hplain.2) hend
        have hstar : c ≠ '*' := by
          rintro rfl
          exact absurd hplain.1 (by decide)
        rw [text, hname, List.cons_append, List.cons_append, readSteps, if_neg hstar,
          if_pos hplain.1, hdrop, htake, hsteps, ← hname, String.ofList_toList]
        rfl

/-- **Paths read back.** A path whose names need no quotes has the steps it was written from. -/
theorem read?_text {steps : List PathStep} (h : ∀ step ∈ steps, step.IsPlain) :
    read? ('$' :: steps.flatMap text) = some steps := by
  refine readSteps_text h ?_
  clear h
  induction steps with
  | nil => exact Nat.zero_le _
  | cons step steps ih =>
    have hpos := List.length_pos_iff.mpr (text_ne_nil step)
    rw [List.flatMap_cons, List.length_append, List.length_cons]
    omega

end PathStep

/-! ### Selecting parts of a document -/

namespace Outline

/-- The parts of a document that one step selects, in their order. -/
def children : PathStep → Outline → List Outline
  | .member name, .object members => (members.filter fun m => m.1 = name).map Prod.snd
  | .items, .array items => items
  | .values, .object members => members.map Prod.snd
  | _, _ => []

/-- The parts of a document that a path selects, in their order. -/
def select : List PathStep → Outline → List Outline
  | [], o => [o]
  | step :: rest, o => (o.children step).flatMap (select rest)

end Outline

end IndexedRecords
