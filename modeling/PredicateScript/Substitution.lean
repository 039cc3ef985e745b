import PredicateScript.Signature
import PredicateScript.Table

/-!
# Filling in the placeholders of a signature

A call brings one type for every parameter of the signature it calls.
Reading the pairs from left to right, a parameter that is a type has to be
the type brought; a placeholder takes the first type brought for it and
has to be brought the same one ever after. What is collected is a
**substitution**, and applied to the declared result it gives the type of
the call.

The first pair that cannot be met ends the reading (`unify`). A result
that names a placeholder no parameter names cannot be resolved
(`Substitution.resolve`): nothing in the call says what it stands for.
-/

namespace PredicateScript

/-- **A substitution**: the types the placeholders of one call stand
for. -/
abbrev Substitution := Table Placeholder Ty

/-- **Why a signature does not fit a call.** -/
inductive UnifyError where
  /-- The argument at this place, counted from one, has another type than
  the declared one. -/
  | mismatch (position : Nat) (expected found : Ty)
  /-- A placeholder that stands for `bound` was brought another type. -/
  | conflict (param : Placeholder) (bound found : Ty)
  /-- The result is a placeholder that stands for nothing. -/
  | unresolved (param : Placeholder)
  deriving DecidableEq, Repr, Inhabited

/-- The text of the reason. -/
def UnifyError.message : UnifyError → String
  | mismatch position expected found =>
    "argument " ++ toString position ++ ": expected " ++ expected.render
      ++ ", found " ++ found.render
  | conflict param bound found =>
    "conflicting type for parameter " ++ param.render ++ ": "
      ++ bound.render ++ " and " ++ found.render
  | unresolved param => "unresolved type parameter " ++ param.render

namespace Substitution

/-- **The type a signature's type stands for** under a substitution. -/
def resolve (σ : Substitution) : SigTy → Except UnifyError Ty
  | .concrete ty => .ok ty
  | .param p =>
    match σ.find? p with
    | some ty => .ok ty
    | none => .error (.unresolved p)

/-- One pair: the argument at this place, of type `actual`, is declared
`declared`. -/
def meet (σ : Substitution) (position : Nat) (actual : Ty) :
    SigTy → Except UnifyError Substitution
  | .concrete expected =>
    if actual = expected then .ok σ
    else .error (.mismatch position expected actual)
  | .param p =>
    match σ.find? p with
    | none => .ok (σ.insert p actual)
    | some bound =>
      if bound = actual then .ok σ else .error (.conflict p bound actual)

/-- The pairs from the given place on, in order. -/
def meetAll (σ : Substitution) (position : Nat) :
    List (Ty × SigTy) → Except UnifyError Substitution
  | [] => .ok σ
  | (actual, declared) :: rest =>
    match σ.meet position actual declared with
    | .ok σ => meetAll σ (position + 1) rest
    | .error e => .error e

end Substitution

/-- **The substitution of a call**, from its actual types and what was
declared for them; the first pair that cannot be met is the error. -/
def unify (pairs : List (Ty × SigTy)) : Except UnifyError Substitution :=
  Substitution.meetAll ∅ 1 pairs

end PredicateScript
