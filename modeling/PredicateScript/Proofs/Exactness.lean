import PredicateScript.Proofs.Unification
import Mathlib.Order.Bounds.Basic

/-!
# Unification is exact

`PredicateScript.Proofs.Unification` follows the reading of the pairs from
left to right. Here is what comes of it, said without the reading. A
substitution **solves** the pairs if it meets each of them and has no entry
that it does not owe to one (`Substitution.Solves`). There is one at most,
and `unify` finds it (`unify_eq_ok_iff`). Nothing in this depends on the
order of the pairs, so the result does not either, nor does it on how often
a pair is brought.

The order shows where there is no solution. The pair that is blamed is the
first up to which there is none (`isLeast_of_unify_error`), and a
placeholder that is brought two types is reported with the one that it was
brought first.
-/

namespace PredicateScript

/-- **An assignment fits the pairs**: it turns what was declared into what
was brought. -/
def Fits (ρ : Placeholder → Ty) (pairs : List (Ty × SigTy)) : Prop :=
  ∀ x ∈ pairs, x.2.under ρ = x.1

/-- **A substitution solves the pairs**: it meets all of them, and says
nothing that they do not say. -/
structure Substitution.Solves (σ : Substitution)
    (pairs : List (Ty × SigTy)) : Prop where
  /-- What was declared is resolved to what was brought. -/
  meets : ∀ x ∈ pairs, σ.resolve x.2 = .ok x.1
  /-- What a placeholder stands for was brought for it. -/
  brought : ∀ p ty, σ.find? p = some ty → (ty, .param p) ∈ pairs

variable {pairs pairs' : List (Ty × SigTy)} {σ σ' : Substitution}
  {ρ : Placeholder → Ty}

/-! ## Solutions -/

namespace Substitution.Solves

/-- A placeholder stands for what was brought for it, wherever that was. -/
theorem find?_eq_some_iff (h : σ.Solves pairs) {p : Placeholder} {ty : Ty} :
    σ.find? p = some ty ↔ (ty, .param p) ∈ pairs := by
  constructor
  · exact h.brought p ty
  · intro hmem
    exact resolve_param_eq_ok_iff.mp (h.meets (ty, .param p) hmem)

/-- **There is one solution at most.** -/
theorem unique (h : σ.Solves pairs) (h' : σ'.Solves pairs) : σ = σ' := by
  refine Table.ext_find? (fun p => Option.ext (fun ty => ?_))
  rw [h.find?_eq_some_iff, h'.find?_eq_some_iff]

/-- Every assignment that fits says what the solution says. -/
theorem agrees (h : σ.Solves pairs) (hρ : Fits ρ pairs) : σ.Agrees ρ := by
  intro p ty hp
  exact hρ (ty, .param p) (h.brought p ty hp)

/-- The assignment that is read off a solution fits. -/
theorem fits_toAssignment (h : σ.Solves pairs) :
    Fits σ.toAssignment pairs := by
  intro x hx
  exact σ.agrees_toAssignment.under_eq (h.meets x hx)

/-- Pairs that are the same but for order and repetition have the same
solution. -/
theorem of_mem_iff (h : σ.Solves pairs)
    (hmem : ∀ x, x ∈ pairs ↔ x ∈ pairs') : σ.Solves pairs' := by
  refine ⟨fun x hx => h.meets x ((hmem x).mpr hx), fun p ty hp => ?_⟩
  exact (hmem _).mp (h.brought p ty hp)

/-- A placeholder stands for something where it is declared. -/
theorem isSome_find?_iff (h : σ.Solves pairs) {p : Placeholder} :
    (σ.find? p).isSome = true ↔ .param p ∈ pairs.map Prod.snd := by
  rw [Option.isSome_iff_exists, List.mem_map]
  constructor
  · rintro ⟨ty, hty⟩
    exact ⟨(ty, .param p), h.brought p ty hty, rfl⟩
  · rintro ⟨⟨ty, _⟩, hmem, rfl⟩
    exact ⟨ty, h.find?_eq_some_iff.mpr hmem⟩

/-- **What can be resolved** is a type, or a placeholder that is
declared. -/
theorem exists_resolve_iff (h : σ.Solves pairs) {declared : SigTy} :
    (∃ ty, σ.resolve declared = .ok ty)
      ↔ (∃ ty, declared = .concrete ty)
        ∨ ∃ p, declared = .param p ∧ .param p ∈ pairs.map Prod.snd := by
  cases declared with
  | concrete ty => exact ⟨fun _ => Or.inl ⟨ty, rfl⟩, fun _ => ⟨ty, rfl⟩⟩
  | param p =>
    simp only [resolve_param_eq_ok_iff, ← Option.isSome_iff_exists,
      h.isSome_find?_iff]
    simp

end Substitution.Solves

/-! ## What unification finds -/

/-- **Unification finds the solution**, if there is one. -/
theorem unify_eq_ok_iff : unify pairs = .ok σ ↔ σ.Solves pairs := by
  have hsound {τ : Substitution} (hτ : unify pairs = .ok τ) :
      τ.Solves pairs := by
    obtain ⟨-, hmeets, hbrought⟩ := Substitution.meetAll_ok hτ
    refine ⟨hmeets, fun p ty hp => ?_⟩
    obtain hnone | hmem := hbrought p ty hp
    · cases hnone
    · exact hmem
  constructor
  · exact hsound
  · intro h
    obtain ⟨τ, hτ, -⟩ := Substitution.meetAll_of_agrees
      (Substitution.agrees_empty σ.toAssignment) 1 h.fits_toAssignment
    rw [h.unique (hsound hτ)]
    exact hτ

/-- There is a solution where some assignment fits. -/
theorem exists_unify_iff :
    (∃ σ, unify pairs = .ok σ) ↔ ∃ ρ, Fits ρ pairs := by
  constructor
  · rintro ⟨σ, hσ⟩
    exact ⟨σ.toAssignment, (unify_eq_ok_iff.mp hσ).fits_toAssignment⟩
  · rintro ⟨ρ, hρ⟩
    obtain ⟨σ, hσ, -⟩ := Substitution.meetAll_of_agrees
      (Substitution.agrees_empty ρ) 1 hρ
    exact ⟨σ, hσ⟩

/-! ## Where unification fails -/

section Failure

variable {i position : Nat} {actual : Ty} {declared : SigTy}
  {err : UnifyError}

/-- An assignment fits one pair more if it fits that pair too. -/
theorem fits_take_succ_iff (h : pairs[i]? = some (actual, declared)) :
    Fits ρ (pairs.take (i + 1))
      ↔ Fits ρ (pairs.take i) ∧ declared.under ρ = actual := by
  unfold Fits
  rw [List.take_add_one, h, Option.toList_some, List.forall_mem_append,
    List.forall_mem_singleton]

/-- **The pair that is blamed is the first up to which nothing fits.** -/
theorem isLeast_of_unify_error (h : pairs[i]? = some (actual, declared))
    (hbefore : unify (pairs.take i) = .ok σ)
    (hmeet : σ.meet position actual declared = .error err) :
    IsLeast {n | ∀ ρ, ¬ Fits ρ (pairs.take (n + 1))} i := by
  have hσ := unify_eq_ok_iff.mp hbefore
  constructor
  · intro ρ hρ
    obtain ⟨htake, hunder⟩ := (fits_take_succ_iff h).mp hρ
    obtain ⟨σ', hok, -⟩ :=
      Substitution.meet_of_agrees (hσ.agrees htake) position hunder
    cases hok.symm.trans hmeet
  · intro n hn
    by_contra hlt
    -- a shorter front of the pairs is part of what was met
    have hsub : pairs.take (n + 1) ⊆ pairs.take i :=
      List.take_subset_take_left pairs (by omega)
    exact hn σ.toAssignment
      (fun x hx => hσ.fits_toAssignment x (hsub hx))

/-- **A placeholder is reported with what it was brought first.** -/
theorem find?_eq_of_unify_take {p : Placeholder} {bound : Ty}
    (h : unify (pairs.take i) = .ok σ) (hp : σ.find? p = some bound) :
    pairs.find? (fun x => x.2 = .param p) = some (bound, .param p) := by
  have hσ := unify_eq_ok_iff.mp h
  have hmem : (bound, SigTy.param p) ∈ pairs.take i :=
    hσ.brought p bound hp
  have hfront : ((pairs.take i).find?
      (fun x => x.2 = .param p)).isSome = true :=
    List.find?_isSome.mpr ⟨_, hmem, by simp⟩
  obtain ⟨⟨ty, declared⟩, hfind⟩ := Option.isSome_iff_exists.mp hfront
  -- whatever the placeholder was brought before, it was brought the same
  have hdeclared : declared = .param p := by
    simpa using List.find?_some hfind
  subst hdeclared
  have hty : σ.find? p = some ty :=
    hσ.find?_eq_some_iff.mpr (List.mem_of_find?_eq_some hfind)
  cases hp.symm.trans hty
  rw [← List.take_append_drop i pairs, List.find?_append, hfind,
    Option.some_or]

end Failure

/-- **Unification is exact.** It succeeds where some assignment turns what
was declared into what was brought. The substitution then says of the
placeholders that are declared, and of no others, what every such
assignment says of them; it meets every pair, and it resolves a type as
every such assignment does, if the type is not a placeholder that is
declared nowhere. Otherwise the first pair up to which no assignment fits
is reported: with its place, if it was declared as a type, and with what
the placeholder was brought first, if it was declared as one. The order of
the pairs has no say in the substitution. -/
theorem unify_exact (pairs : List (Ty × SigTy)) :
    ((∃ σ, unify pairs = .ok σ) ↔ ∃ ρ, Fits ρ pairs)
    ∧ (∀ σ, unify pairs = .ok σ →
      (∀ p, (σ.find? p).isSome = true ↔ .param p ∈ pairs.map Prod.snd)
      ∧ (∀ ρ, Fits ρ pairs → ∀ p ty, σ.find? p = some ty → ρ p = ty)
      ∧ (∀ x ∈ pairs, σ.resolve x.2 = .ok x.1)
      ∧ ∀ declared,
        ((∃ ty, σ.resolve declared = .ok ty)
          ↔ (∃ ty, declared = .concrete ty)
            ∨ ∃ p, declared = .param p ∧ .param p ∈ pairs.map Prod.snd)
        ∧ ∀ ty, σ.resolve declared = .ok ty →
          ∀ ρ, Fits ρ pairs → declared.under ρ = ty)
    ∧ ((∀ ρ, ¬ Fits ρ pairs) →
      ∃ i actual declared,
        IsLeast {n | ∀ ρ, ¬ Fits ρ (pairs.take (n + 1))} i
        ∧ pairs[i]? = some (actual, declared)
        ∧ match declared with
          | .concrete expected =>
            unify pairs = .error (.mismatch (i + 1) expected actual)
          | .param p =>
            ∃ bound,
              pairs.find? (fun x => x.2 = .param p) = some (bound, .param p)
              ∧ unify pairs = .error (.conflict p bound actual))
    ∧ ∀ pairs', pairs.Perm pairs' →
      ∀ σ, unify pairs = .ok σ ↔ unify pairs' = .ok σ := by
  refine ⟨exists_unify_iff, fun σ h => ?_, fun hnone => ?_,
    fun pairs' hperm σ => ?_⟩
  · have hσ := unify_eq_ok_iff.mp h
    refine ⟨fun p => hσ.isSome_find?_iff, fun ρ hρ => hσ.agrees hρ,
      hσ.meets, fun declared => ⟨hσ.exists_resolve_iff, ?_⟩⟩
    intro ty hty ρ hρ
    exact (hσ.agrees hρ).under_eq hty
  · cases h : unify pairs with
    | ok σ =>
      obtain ⟨ρ, hρ⟩ := exists_unify_iff.mp ⟨σ, h⟩
      exact absurd hρ (hnone ρ)
    | error err =>
      obtain ⟨i, actual, declared, σ, hi, hbefore, hmeet⟩ :=
        Substitution.meetAll_error h
      refine ⟨i, actual, declared, isLeast_of_unify_error hi hbefore hmeet,
        hi, ?_⟩
      obtain ⟨expected, rfl, -, rfl⟩ | ⟨p, bound, rfl, hp, -, rfl⟩ :=
        Substitution.meet_error hmeet
      · rw [Nat.add_comm 1 i]
      · exact ⟨bound, find?_eq_of_unify_take hbefore hp, rfl⟩
  · rw [unify_eq_ok_iff, unify_eq_ok_iff]
    constructor
    · exact fun hσ => hσ.of_mem_iff (fun x => hperm.mem_iff)
    · exact fun hσ => hσ.of_mem_iff (fun x => hperm.mem_iff.symm)

/-- Brought an integer twice, a placeholder stands for integers in every
order of the pairs. Brought a truth value after an integer it is reported,
with the integer, and only the third pair is to blame. -/
theorem unify_exact_third :
    let p : Placeholder := ⟨'T'⟩
    let pairs (ty : Ty) : List (Ty × SigTy) :=
      [(.long, .param p), (.string, .concrete .string), (ty, .param p)]
    (∃ σ, unify (pairs .long) = .ok σ ∧ unify (pairs .long).reverse = .ok σ
        ∧ ∀ ρ, Fits ρ (pairs .long) → ρ p = .long)
      ∧ (∀ ρ, ¬ Fits ρ (pairs .boolean))
      ∧ unify (pairs .boolean) = .error (.conflict p .long .boolean)
      ∧ IsLeast {n | ∀ ρ, ¬ Fits ρ ((pairs .boolean).take (n + 1))} 2 := by
  intro p pairs
  obtain ⟨-, hok, -, hperm⟩ := unify_exact (pairs .long)
  obtain ⟨hfits, -, herror, -⟩ := unify_exact (pairs .boolean)
  have hgood : unify (pairs .long)
      = .ok ((∅ : Substitution).insert p .long) := rfl
  have hbad : unify (pairs .boolean)
      = .error (.conflict p .long .boolean) := rfl
  have hnone : ∀ ρ, ¬ Fits ρ (pairs .boolean) := by
    intro ρ hρ
    obtain ⟨σ, hσ⟩ := hfits.mpr ⟨ρ, hρ⟩
    cases hbad.symm.trans hσ
  refine ⟨⟨_, hgood, ?_, fun ρ hρ => ?_⟩, hnone, hbad, ?_⟩
  · exact (hperm _ (List.reverse_perm _).symm _).mp hgood
  · exact (hok _ hgood).2.1 ρ hρ p .long (Table.find?_insert_self _ _ _)
  · obtain ⟨i, actual, declared, hleast, hi, hmatch⟩ := herror hnone
    -- the other two pairs would not be reported like this
    match i with
    | 0 =>
      cases hi
      obtain ⟨bound, -, h⟩ := hmatch
      cases hbad.symm.trans h
    | 1 =>
      cases hi
      cases hbad.symm.trans hmatch
    | 2 => exact hleast
    | _ + 3 => cases hi

end PredicateScript
