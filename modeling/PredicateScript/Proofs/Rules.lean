import PredicateScript.Proofs.Unification
import PredicateScript.Proofs.Visit

/-!
# When a rule gives a type

One statement a rule: exactly when it does not reject, and which type it
gives then. What a rule does with a rejection is its own affair; theorems
about accepted scripts use the rules through these statements only.
-/

namespace PredicateScript

namespace Context

variable {Γ : Context} {ty ty' : Ty} {name field : String}

/-- What is known is what stands for something. -/
theorem known_eq_ok_iff :
    Γ.known ty = .ok ty' ↔ Γ.knows ty = true ∧ ty = ty' := by
  cases ty with
  | named n =>
    rw [known, knows]
    cases Γ.type? n <;> simp
  | _ => simp [known, knows]

theorem reference_eq_ok_iff :
    Γ.reference name = .ok ty
      ↔ Γ.var? name = some ty ∧ Γ.knows ty = true := by
  rw [reference]
  cases Γ.var? name with
  | none => simp
  | some ty₁ =>
    dsimp only
    rw [known_eq_ok_iff, Option.some.injEq]
    constructor
    · rintro ⟨h, rfl⟩
      exact ⟨rfl, h⟩
    · rintro ⟨rfl, h⟩
      exact ⟨h, rfl⟩

theorem fieldType_eq_ok_iff :
    Γ.fieldType ty field = .ok ty'
      ↔ ∃ n record, ty = .named n ∧ Γ.type? n = some record
        ∧ record.field? field = some ty' ∧ Γ.knows ty' = true := by
  cases ty with
  | named n =>
    rw [fieldType]
    cases hn : Γ.type? n with
    | none => simp [hn]
    | some record =>
      dsimp only
      cases hf : record.field? field with
      | none => simp [hn, hf]
      | some ty₁ =>
        dsimp only
        rw [known_eq_ok_iff]
        constructor
        · rintro ⟨h, rfl⟩
          exact ⟨n, record, rfl, hn, hf, h⟩
        · rintro ⟨_, _, ⟨⟩, hn', hf', h⟩
          rw [hn] at hn'
          cases hn'
          rw [hf] at hf'
          cases hf'
          exact ⟨h, rfl⟩
  | _ => simp [fieldType]

theorem callee_eq_ok_iff {argCount : Nat} {sig : Signature} :
    Γ.callee name argCount = .ok sig
      ↔ Γ.function? name = some sig ∧ sig.arity = argCount := by
  rw [callee]
  cases Γ.function? name with
  | none => simp
  | some sig₁ =>
    dsimp only
    rw [Option.some.injEq]
    split
    · next h =>
      rw [Except.ok.injEq]
      exact ⟨fun hsig => ⟨hsig, hsig ▸ h⟩, fun hsig => hsig.1⟩
    · next h =>
      constructor
      · intro hsig
        cases hsig
      · rintro ⟨rfl, harity⟩
        exact absurd harity h

theorem fresh_eq_ok_iff :
    Γ.fresh name = .ok ()
      ↔ Γ.var? name = none ∧ Γ.function? name = none := by
  rw [fresh]
  cases Γ.var? name <;> cases Γ.function? name <;> simp

theorem resultType_eq_ok_iff {sig : Signature} {tys : List Ty} :
    Γ.resultType sig name tys = .ok ty
      ↔ (∃ σ, sig.instantiate name tys = .ok (σ, ty))
        ∧ Γ.knows ty = true := by
  rw [resultType]
  cases sig.instantiate name tys with
  | error cause =>
    show Except.error cause = .ok ty ↔ _
    simp
  | ok filled =>
    obtain ⟨σ, ty₁⟩ := filled
    show Γ.known ty₁ = .ok ty ↔ _
    rw [known_eq_ok_iff]
    constructor
    · rintro ⟨h, rfl⟩
      exact ⟨⟨σ, rfl⟩, h⟩
    · rintro ⟨⟨_, ⟨⟩⟩, h⟩
      exact ⟨h, rfl⟩

end Context

/-- An operator that asks for a type asks both operands for it, and one
that does not asks that they have the same. -/
theorem Operator.typeOf_eq_ok_iff {op : Operator} {left right ty : Ty} :
    op.typeOf left right = .ok ty
      ↔ (match op.operand? with
          | some operand => left = operand ∧ right = operand
          | none => left = right)
        ∧ op.result = ty := by
  rw [typeOf]
  cases op.operand? with
  | none =>
    dsimp only
    cases hcommon : left.common? right with
    | none => simp [Ty.common?_eq_none_iff.mp hcommon]
    | some common => simp [(Ty.common?_eq_some_iff.mp hcommon).1]
  | some operand =>
    by_cases hl : left = operand
    · by_cases hr : right = operand <;> simp [hl, hr]
    · simp [hl]

theorem branchType_eq_ok_iff {ifTrue ifFalse ty : Ty} :
    branchType ifTrue ifFalse = .ok ty ↔ ifTrue = ty ∧ ifFalse = ty := by
  rw [branchType]
  cases hcommon : ifTrue.common? ifFalse with
  | none =>
    constructor
    · intro hty
      cases hty
    · rintro ⟨rfl, hty⟩
      exact absurd hty.symm (Ty.common?_eq_none_iff.mp hcommon)
  | some common =>
    obtain ⟨rfl, rfl⟩ := Ty.common?_eq_some_iff.mp hcommon
    rw [Except.ok.injEq, and_self]

end PredicateScript
