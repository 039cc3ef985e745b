import PredicateScript.Typing.Rules
import Mathlib.Data.List.Basic

/-!
# What filling in a signature achieves

The reading of a call's arguments collects a substitution as it goes and
gives up at the first pair it cannot meet. Said without the reading: an
**assignment** gives every placeholder a type, and a signature fits a call
if some assignment turns its parameters into the types brought.

The two agree. A substitution only ever grows and keeps meeting the pairs
it has met (`Substitution.meetAll_ok`), so from a reading that succeeds an
assignment can be read off. Conversely an assignment that fits is a guide
through the reading: no pair can fail, because what is collected is always
part of the assignment (`Substitution.meetAll_of_agrees`).
`Signature.exists_instantiate_iff` puts this together with the result, which
has to be settled by the parameters: an assignment may say anything of a
placeholder that no parameter names, and the reading says nothing.

A reading that fails does so at one pair, and all before it went well
(`Substitution.meetAll_error`); so what is said above of a reading that
succeeds can be said of the pairs before the one that is reported.
-/

namespace PredicateScript

/-- The type that a signature's type becomes under an assignment. -/
def SigTy.under (ρ : Placeholder → Ty) : SigTy → Ty
  | .concrete ty => ty
  | .param p => ρ p

namespace Substitution

variable {σ σ' σ'' : Substitution} {ρ : Placeholder → Ty}

/-- `σ'` says all that `σ` says. -/
def Extends (σ' σ : Substitution) : Prop :=
  ∀ p ty, σ.find? p = some ty → σ'.find? p = some ty

/-- Whatever the substitution says, the assignment says too. -/
def Agrees (σ : Substitution) (ρ : Placeholder → Ty) : Prop :=
  ∀ p ty, σ.find? p = some ty → ρ p = ty

theorem extends_refl (σ : Substitution) : σ.Extends σ :=
  fun _ _ h => h

theorem Extends.trans (h' : σ''.Extends σ') (h : σ'.Extends σ) :
    σ''.Extends σ :=
  fun p ty hp => h' p ty (h p ty hp)

/-- A placeholder is resolved to what the substitution says of it. -/
theorem resolve_param_eq_ok_iff {p : Placeholder} {ty : Ty} :
    σ.resolve (.param p) = .ok ty ↔ σ.find? p = some ty := by
  rw [Substitution.resolve]
  cases σ.find? p <;> simp

/-- What is resolved stays resolved. -/
theorem Extends.resolve {declared : SigTy} {ty : Ty} (h : σ'.Extends σ)
    (hty : σ.resolve declared = .ok ty) : σ'.resolve declared = .ok ty := by
  cases declared with
  | concrete _ => exact hty
  | param p =>
    rw [resolve_param_eq_ok_iff] at hty ⊢
    exact h p ty hty

/-- A substitution resolves a type as the assignments it is part of do. -/
theorem Agrees.under_eq {declared : SigTy} {ty : Ty} (h : σ.Agrees ρ)
    (hty : σ.resolve declared = .ok ty) : declared.under ρ = ty := by
  cases declared with
  | concrete _ => exact Except.ok.inj hty
  | param p => exact h p ty (resolve_param_eq_ok_iff.mp hty)

theorem agrees_empty (ρ : Placeholder → Ty) :
    Agrees (∅ : Substitution) ρ := by
  intro p ty hp
  cases hp

/-! ## One pair -/

variable {position : Nat} {actual : Ty} {declared : SigTy}

/-- **What meeting a pair does**: the substitution grows to one that
resolves the declared type to the actual one, and it learns nothing
else. -/
theorem meet_ok (h : σ.meet position actual declared = .ok σ') :
    σ'.Extends σ ∧ σ'.resolve declared = .ok actual
      ∧ ∀ p ty, σ'.find? p = some ty →
        σ.find? p = some ty ∨ declared = .param p ∧ actual = ty := by
  cases declared with
  | concrete expected =>
    rw [meet] at h
    split at h
    · next heq =>
      cases h
      exact ⟨extends_refl σ, congrArg Except.ok heq.symm,
        fun p ty hp => Or.inl hp⟩
    · cases h
  | param q =>
    rw [meet] at h
    split at h
    · next hq =>
      -- the placeholder is seen for the first time
      cases h
      refine ⟨fun p ty hp => ?_, ?_, fun p ty hp => ?_⟩
      · have hne : p ≠ q := by
          rintro rfl
          rw [hq] at hp
          cases hp
        rw [Table.find?_insert_of_ne σ actual hne]
        exact hp
      · rw [Substitution.resolve, Table.find?_insert_self]
      · by_cases hpq : p = q
        · subst hpq
          rw [Table.find?_insert_self] at hp
          exact Or.inr ⟨rfl, Option.some.inj hp⟩
        · rw [Table.find?_insert_of_ne σ actual hpq] at hp
          exact Or.inl hp
    · next bound hq =>
      split at h
      · next heq =>
        cases h
        refine ⟨extends_refl σ, ?_, fun p ty hp => Or.inl hp⟩
        rw [Substitution.resolve, hq, heq]
      · cases h

/-- **An assignment that fits leads through a pair.** -/
theorem meet_of_agrees (hσ : σ.Agrees ρ) (position : Nat)
    (h : declared.under ρ = actual) :
    ∃ σ', σ.meet position actual declared = .ok σ' ∧ σ'.Agrees ρ := by
  cases declared with
  | concrete expected =>
    have hactual : actual = expected := h.symm
    exact ⟨σ, by rw [meet, if_pos hactual], hσ⟩
  | param q =>
    cases hq : σ.find? q with
    | none =>
      refine ⟨σ.insert q actual, by rw [meet, hq], fun p ty hp => ?_⟩
      by_cases hpq : p = q
      · subst hpq
        rw [Table.find?_insert_self] at hp
        exact h.trans (Option.some.inj hp)
      · rw [Table.find?_insert_of_ne σ actual hpq] at hp
        exact hσ p ty hp
    | some bound =>
      -- what is bound already is part of the assignment
      have hbound : bound = actual := (hσ q bound hq).symm.trans h
      exact ⟨σ, by rw [meet, hq]; exact if_pos hbound, hσ⟩

/-! ## All pairs -/

variable {pairs : List (Ty × SigTy)}

/-- **What a reading that succeeds has found**: it resolves every declared
type to the actual one, and every entry comes from a pair. -/
theorem meetAll_ok (h : σ.meetAll position pairs = .ok σ') :
    σ'.Extends σ ∧ (∀ x ∈ pairs, σ'.resolve x.2 = .ok x.1)
      ∧ ∀ p ty, σ'.find? p = some ty →
        σ.find? p = some ty ∨ (ty, .param p) ∈ pairs := by
  induction pairs generalizing σ position with
  | nil =>
    cases h
    exact ⟨extends_refl _, List.forall_mem_nil _, fun p ty hp => Or.inl hp⟩
  | cons x pairs ih =>
    obtain ⟨actual, declared⟩ := x
    rw [meetAll] at h
    split at h
    · next σ₁ hmeet =>
      obtain ⟨hext, hres, hnew⟩ := meet_ok hmeet
      obtain ⟨hext', hres', hnew'⟩ := ih h
      refine ⟨hext'.trans hext, ?_, fun p ty hp => ?_⟩
      · exact List.forall_mem_cons.mpr ⟨hext'.resolve hres, hres'⟩
      · obtain hp | hp := hnew' p ty hp
        · obtain hp | ⟨rfl, rfl⟩ := hnew p ty hp
          · exact Or.inl hp
          · exact Or.inr (List.mem_cons_self ..)
        · exact Or.inr (List.mem_cons_of_mem _ hp)
    · cases h

/-- **An assignment that fits leads through the whole reading**, and what
is collected is part of it. -/
theorem meetAll_of_agrees (hσ : σ.Agrees ρ) (position : Nat)
    (h : ∀ x ∈ pairs, x.2.under ρ = x.1) :
    ∃ σ', σ.meetAll position pairs = .ok σ' ∧ σ'.Agrees ρ := by
  induction pairs generalizing σ position with
  | nil => exact ⟨σ, rfl, hσ⟩
  | cons x pairs ih =>
    obtain ⟨hx, hpairs⟩ := List.forall_mem_cons.mp h
    obtain ⟨σ₁, hmeet, hσ₁⟩ := meet_of_agrees hσ position hx
    obtain ⟨σ', hall, hσ'⟩ := ih hσ₁ (position + 1) hpairs
    exact ⟨σ', by rw [meetAll, hmeet]; exact hall, hσ'⟩

/-! ## The pair that cannot be met -/

/-- **Why a pair cannot be met**: it is declared with another type, or with
a placeholder that stands for another type already. -/
theorem meet_error {err : UnifyError}
    (h : σ.meet position actual declared = .error err) :
    (∃ expected, declared = .concrete expected ∧ expected ≠ actual
        ∧ err = .mismatch position expected actual)
      ∨ ∃ p bound, declared = .param p ∧ σ.find? p = some bound
        ∧ bound ≠ actual ∧ err = .conflict p bound actual := by
  cases declared with
  | concrete expected =>
    rw [meet] at h
    split at h
    · cases h
    · next hne =>
      cases h
      exact Or.inl ⟨expected, rfl, fun heq => hne heq.symm, rfl⟩
  | param p =>
    rw [meet] at h
    split at h
    · cases h
    · next bound hp =>
      split at h
      · cases h
      · next hne =>
        cases h
        exact Or.inr ⟨p, bound, rfl, hp, hne, rfl⟩

/-- **A reading that fails fails at one pair**, having met all the pairs
before it. -/
theorem meetAll_error {err : UnifyError}
    (h : σ.meetAll position pairs = .error err) :
    ∃ i actual declared σ', pairs[i]? = some (actual, declared)
      ∧ σ.meetAll position (pairs.take i) = .ok σ'
      ∧ σ'.meet (position + i) actual declared = .error err := by
  induction pairs generalizing σ position with
  | nil => cases h
  | cons x pairs ih =>
    obtain ⟨actual, declared⟩ := x
    rw [meetAll] at h
    split at h
    · next σ₁ hmeet =>
      obtain ⟨i, actual', declared', σ', hi, hbefore, herr⟩ := ih h
      refine ⟨i + 1, actual', declared', σ', hi, ?_, ?_⟩
      · rw [List.take_succ_cons, meetAll, hmeet]
        exact hbefore
      · rw [Nat.add_comm i 1, ← Nat.add_assoc]
        exact herr
    · next hmeet =>
      cases h
      exact ⟨0, actual, declared, σ, rfl, rfl, hmeet⟩

/-- The assignment that a substitution is part of, with a type of no
interest where it says nothing. -/
def toAssignment (σ : Substitution) (p : Placeholder) : Ty :=
  (σ.find? p).getD .long

theorem agrees_toAssignment (σ : Substitution) :
    σ.Agrees σ.toAssignment := by
  intro p ty hp
  rw [toAssignment, hp, Option.getD_some]

end Substitution

/-! ## A whole signature -/

/-- Parameters turn into the types brought exactly where they do so pair
by pair. -/
theorem forall_zip_under_iff {ρ : Placeholder → Ty} {args : List Ty}
    {params : List SigTy} (h : args.length = params.length) :
    (∀ x ∈ args.zip params, x.2.under ρ = x.1)
      ↔ params.map (SigTy.under ρ) = args := by
  induction args generalizing params with
  | nil => cases params with
    | nil => simp
    | cons _ _ => cases h
  | cons arg args ih =>
    cases params with
    | nil => cases h
    | cons param params =>
      rw [List.zip_cons_cons, List.forall_mem_cons, List.map_cons,
        List.cons.injEq, ih (Nat.succ.inj h)]

namespace Signature

variable {sig : Signature} {name : String} {args : List Ty} {ty : Ty}
  {σ : Substitution}

/-- An instance of a signature is a reading of the arguments, and what it
makes of the result. -/
theorem instantiate_eq_ok_iff :
    sig.instantiate name args = .ok (σ, ty)
      ↔ unify (args.zip sig.params) = .ok σ
        ∧ σ.resolve sig.result = .ok ty := by
  rw [instantiate]
  cases unify (args.zip sig.params) with
  | error e => simp
  | ok σ' =>
    dsimp only
    cases hty : σ'.resolve sig.result with
    | error e =>
      simp only [reduceCtorEq, false_iff, not_and, Except.ok.injEq]
      rintro rfl
      simp [hty]
    | ok ty' =>
      simp only [Except.ok.injEq, Prod.mk.injEq]
      constructor
      · rintro ⟨rfl, rfl⟩
        exact ⟨rfl, hty⟩
      · rintro ⟨rfl, hty'⟩
        exact ⟨rfl, Except.ok.inj (hty.symm.trans hty')⟩

/-- **A result that is a placeholder was brought**: it is the type of an
argument that was declared with the placeholder. -/
theorem mem_zip_of_instantiate (h : sig.instantiate name args = .ok (σ, ty))
    {p : Placeholder} (hp : sig.result = .param p) :
    (ty, .param p) ∈ args.zip sig.params := by
  obtain ⟨hunify, hresult⟩ := instantiate_eq_ok_iff.mp h
  obtain ⟨-, -, hfrom⟩ := Substitution.meetAll_ok hunify
  rw [hp, Substitution.resolve_param_eq_ok_iff] at hresult
  obtain hnone | hmem := hfrom p ty hresult
  · cases hnone
  · exact hmem

/-- **Why there is no instance**: the reading of the arguments fails, or it
says nothing of the placeholder that is the result. -/
theorem instantiate_error {cause : Rejection}
    (h : sig.instantiate name args = .error cause) :
    (∃ err, unify (args.zip sig.params) = .error err
        ∧ cause = .ofUnifyError name err)
      ∨ ∃ σ p, unify (args.zip sig.params) = .ok σ
        ∧ sig.result = .param p ∧ σ.find? p = none
        ∧ cause = .unresolvedPlaceholder name p := by
  rw [instantiate] at h
  split at h
  · next err hunify =>
    cases h
    exact Or.inl ⟨err, hunify, rfl⟩
  · next σ hunify =>
    split at h
    · next err hresult =>
      cases h
      cases hr : sig.result with
      | concrete ty =>
        rw [hr] at hresult
        cases hresult
      | param p =>
        rw [hr, Substitution.resolve] at hresult
        split at hresult
        · cases hresult
        · next hp =>
          cases hresult
          exact Or.inr ⟨σ, p, hunify, rfl, hp, rfl⟩
    · cases h

/-- **A signature fits a call where some assignment says so.** The result
is what the assignment makes of the declared one, and a placeholder there
has to be among the parameters. -/
theorem exists_instantiate_iff (hlen : sig.arity = args.length) :
    (∃ σ, sig.instantiate name args = .ok (σ, ty))
      ↔ ∃ ρ : Placeholder → Ty, sig.params.map (SigTy.under ρ) = args
        ∧ sig.result.under ρ = ty
        ∧ ∀ p, sig.result = .param p → .param p ∈ sig.params := by
  constructor
  · rintro ⟨σ, h⟩
    obtain ⟨hunify, hresult⟩ := instantiate_eq_ok_iff.mp h
    obtain ⟨-, hmet, -⟩ := Substitution.meetAll_ok hunify
    have hρ := σ.agrees_toAssignment
    refine ⟨σ.toAssignment, ?_, hρ.under_eq hresult, fun p hp => ?_⟩
    · exact (forall_zip_under_iff hlen.symm).mp
        (fun x hx => hρ.under_eq (hmet x hx))
    · exact (List.of_mem_zip (mem_zip_of_instantiate h hp)).2
  · rintro ⟨ρ, hparams, rfl, hsettled⟩
    have hmet := (forall_zip_under_iff hlen.symm).mpr hparams
    obtain ⟨σ, hunify, hσ⟩ := Substitution.meetAll_of_agrees
      (Substitution.agrees_empty ρ) 1 hmet
    obtain ⟨-, hres, -⟩ := Substitution.meetAll_ok hunify
    -- the result is resolved: a placeholder there was met on the way
    obtain ⟨ty, hty⟩ : ∃ ty, σ.resolve sig.result = .ok ty := by
      cases hr : sig.result with
      | concrete ty => exact ⟨ty, rfl⟩
      | param p =>
        have hzip : args.zip sig.params
            = sig.params.map (fun d => (d.under ρ, id d)) := by
          rw [← List.zip_map', hparams, List.map_id]
        refine ⟨ρ p, hres (ρ p, .param p) ?_⟩
        rw [hzip]
        exact List.mem_map.mpr ⟨.param p, hsettled p hr, rfl⟩
    rw [hσ.under_eq hty]
    exact ⟨σ, instantiate_eq_ok_iff.mpr ⟨hunify, hty⟩⟩

end Signature

end PredicateScript
