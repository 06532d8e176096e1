import IndexedRecords.Proofs.Traversal
import IndexedRecords.Service

/-!
# Outcomes that are alike

Two outcomes are alike if both are results that belong together, or both are faults of one class.
Steps with outcomes that are alike come to outcomes that are alike, one after the other and along
lists whose items belong together. So do services that run in worlds that belong together.

## Main statements

* `Alike.bind`, `Alike.mapM`: chains and traversals of steps that are alike.
* `Service.Agree.bind`: chains of services that agree.
-/

namespace IndexedRecords

/-! ### Classes of faults -/

/-- The classes of faults that a caller can tell apart, whatever their wording is. -/
inductive FaultClass where
  | unusableValue
  | wrongKind
  | overflow
  /-- items that never end -/
  | exhausted
  /-- bytes that encode no text -/
  | encoding
  | attribute
  | configuration
  | schema
  | scalarMap
  | cyclic
  | duplicateAlias
  | notIndexed
  | wrongType
  | otherModel
  | search
  | serialization
  | reply
  | index
  | migration
  | validation
  | refusal (kind : RefusalKind)
  deriving DecidableEq, Repr

/-- The class of a fault of a value. -/
def ValueFault.classOf : ValueFault → FaultClass
  | .infinityToInt | .decimalInfinityToInt | .tooLargeForFloat | .tooLargeForWord _ => .overflow
  | .notAnInt _ | .notAFloat _ | .notIterable _ | .notUnpackable _ => .wrongKind
  | .nameless => .attribute
  | .endless => .exhausted
  | .undecodable _ => .encoding
  | _ => .unusableValue

/-- A text that is no whole number is an unusable value. -/
theorem Value.classOf_of_intOfText {shown cs : List Char} {fault : ValueFault}
    (h : intOfText shown cs = .error fault) : fault.classOf = .unusableValue := by
  unfold intOfText at h
  split at h <;> cases h <;> rfl

/-- The class of a fault of a schema. -/
def SchemaFault.classOf : SchemaFault → FaultClass
  | .scalarMap _ _ => .scalarMap
  | .cyclic _ => .cyclic
  | .duplicateAlias _ _ _ _ => .duplicateAlias
  | _ => .schema

/-- The class of a fault of a search. -/
def SearchFault.classOf : SearchFault → FaultClass
  | .schema fault => fault.classOf
  | .value fault => fault.classOf
  | .notIndexed _ _ => .notIndexed
  | .wrongType _ _ _ => .wrongType
  | .otherModel _ _ => .otherModel
  | .noOptions _ | .negativeWindow | .unknownUnit _ => .unusableValue
  | .reservedName _ | .noAttribute _ _ | .noKindAttribute _ _ => .attribute
  | .notAReference | .nothingToCombine _ | .notSubscriptable _ | .kindNotSubscriptable _
  | .notGeneric _ | .textSubscript | .tupleSubscript | .notCallable _ => .wrongKind

/-- The class of a fault of a connection. -/
def ConnectionFault.classOf : ConnectionFault → FaultClass
  | .unbalancedBrackets | .misleadingHost _ => .unusableValue
  | .unreadableDatabase fault => fault.classOf
  | _ => .configuration

/-- The class of a fault. -/
def Fault.classOf : Fault → FaultClass
  | .value fault => fault.classOf
  | .schema fault => fault.classOf
  | .search fault => fault.classOf
  | .reply _ => .reply
  | .connection fault => fault.classOf
  | .invalid _ => .validation
  | .undecodable _ _ _ | .unencodable _ _ => .serialization
  | .refused r => .refusal r.kind
  | .searchFailed _ _ => .search
  | .indexFailed _ _ _ => .index
  | .migrationFailed _ => .migration
  | .noProperty _ | .noRecordProperty _ _ => .attribute
  | .noField _ _ => .unusableValue

/-! ### Outcomes -/

/-- Both outcomes are results that belong together, or both are faults of one class. -/
inductive Alike {ε κ α β : Type} (classOf : ε → κ) (R : α → β → Prop) :
    Except ε α → Except ε β → Prop
  | ok {a : α} {b : β} (h : R a b) : Alike classOf R (.ok a) (.ok b)
  | error {e e' : ε} (h : classOf e = classOf e') : Alike classOf R (.error e) (.error e')

namespace Alike

variable {ε κ α β γ δ : Type} {classOf : ε → κ} {R : α → β → Prop} {S : γ → δ → Prop}
  {x : Except ε α} {x' : Except ε β}

theorem refl (classOf : ε → κ) (x : Except ε α) : Alike classOf Eq x x := by
  cases x with
  | error e => exact .error rfl
  | ok a => exact .ok rfl

theorem mono {R' : α → β → Prop} (h : Alike classOf R x x')
    (hR : ∀ a b, x = .ok a → x' = .ok b → R a b → R' a b) : Alike classOf R' x x' := by
  cases h with
  | ok hab => exact .ok (hR _ _ rfl rfl hab)
  | error hclass => exact .error hclass

/-- After steps that are alike come steps that are alike for results that belong together. -/
theorem bind {f : α → Except ε γ} {f' : β → Except ε δ} (h : Alike classOf R x x')
    (hf : ∀ a b, x = .ok a → R a b → Alike classOf S (f a) (f' b)) :
    Alike classOf S (x >>= f) (x' >>= f') := by
  cases h with
  | ok hab => exact hf _ _ rfl hab
  | error hclass => exact .error hclass

theorem map {f : α → γ} {f' : β → δ} (h : Alike classOf R x x')
    (hf : ∀ a b, R a b → S (f a) (f' b)) :
    Alike classOf S (do return f (← x)) (do return f' (← x')) :=
  h.bind fun a b _ hab => .ok (hf a b hab)

/-- A list is traversed like one whose items belong to its items. -/
theorem mapM {ξ ψ : Type} {T : ξ → ψ → Prop} {f : ξ → Except ε α} {g : ψ → Except ε β}
    {xs : List ξ} {ys : List ψ} (h : List.Forall₂ T xs ys)
    (hf : ∀ x y, T x y → Alike classOf R (f x) (g y)) :
    Alike classOf (List.Forall₂ R) (xs.mapM f) (ys.mapM g) := by
  induction h with
  | nil => exact .ok .nil
  | cons hxy _ ih =>
    rw [List.mapM_cons, List.mapM_cons]
    exact (hf _ _ hxy).bind fun a b _ hab => ih.map fun as bs habs => .cons hab habs

/-- Outcomes of values that are alike are alike as outcomes. -/
theorem lift {x : Except ValueFault α} {x' : Except ValueFault β}
    (h : Alike ValueFault.classOf R x x') :
    Alike Fault.classOf R (liftM x : Except Fault α) (liftM x' : Except Fault β) := by
  cases h with
  | ok hab => exact .ok hab
  | error hclass => exact .error hclass

theorem eq_ok {a : α} {x' : Except ε α} (h : Alike classOf Eq x x') (hx : x = .ok a) :
    x' = .ok a := by
  subst hx
  cases h with
  | ok hab => rw [hab]

end Alike

/-! ### Services -/

namespace Service

variable {α β γ δ : Type} {T : World → World → Prop} {R : α → β → Prop} {S : γ → δ → Prop}

/-- In worlds that belong together, two services come to outcomes that are alike, and to worlds that
belong together. -/
def Agree (T : World → World → Prop) (R : α → β → Prop) (m : Service α) (m' : Service β) : Prop :=
  ∀ ⦃w w'⦄, T w w' → Alike Fault.classOf R (m w).1 (m' w').1 ∧ T (m w).2 (m' w').2

namespace Agree

theorem settled {x : Except Fault α} {x' : Except Fault β} (h : Alike Fault.classOf R x x') :
    Agree T R (settled x) (settled x') :=
  fun _ _ hw => ⟨h, hw⟩

theorem pure {a : α} {b : β} (h : R a b) : Agree T R (pure a) (pure b) :=
  fun _ _ hw => ⟨.ok h, hw⟩

theorem throw {e e' : Fault} (h : e.classOf = e'.classOf) :
    Agree T R (throw e : Service α) (throw e' : Service β) :=
  fun _ _ hw => ⟨.error h, hw⟩

/-- After services that agree come services that agree for results that belong together. -/
theorem bind {m : Service α} {m' : Service β} {f : α → Service γ} {f' : β → Service δ}
    (h : Agree T R m m') (hf : ∀ a b, R a b → Agree T S (f a) (f' b)) :
    Agree T S (m >>= f) (m' >>= f') := by
  intro w w' hw
  obtain ⟨houtcome, hworld⟩ := h hw
  change Alike Fault.classOf S (ExceptT.bindCont f (m w).1 (m w).2).1
      (ExceptT.bindCont f' (m' w').1 (m' w').2).1 ∧
    T (ExceptT.bindCont f (m w).1 (m w).2).2 (ExceptT.bindCont f' (m' w').1 (m' w').2).2
  revert houtcome hworld
  generalize m w = done, m' w' = done'
  obtain ⟨outcome, w₁⟩ := done
  obtain ⟨outcome', w₁'⟩ := done'
  intro houtcome hworld
  cases houtcome with
  | ok hab => exact hf _ _ hab hworld
  | error hclass => exact ⟨.error hclass, hworld⟩

end Agree

end Service

end IndexedRecords
