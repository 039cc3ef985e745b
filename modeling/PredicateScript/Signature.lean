import PredicateScript.Ty

/-!
# Signatures of native functions

A host registers its native functions by signature. The parameters and
the result of a signature are types, or **placeholders** that a call fills
in: `'T` stands for one and the same type wherever it is written in the
signature. A placeholder means nothing outside the signature it is written
in, and no placeholder is left in a checked script.
-/

namespace PredicateScript

/-- **A placeholder** of a signature, named by one character. -/
structure Placeholder where
  /-- The character. -/
  letter : Char
  deriving DecidableEq, Repr, Inhabited

namespace Placeholder

/-- A placeholder is written with an apostrophe in front. -/
def render (p : Placeholder) : String :=
  "'" ++ String.singleton p.letter

/-- Placeholders are ordered by their characters. -/
instance : Ord Placeholder := ⟨fun p q => compare p.letter q.letter⟩

theorem compare_def (p q : Placeholder) :
    compare p q = compare p.letter q.letter := rfl

instance : Std.TransOrd Placeholder where
  eq_swap := by
    intro p q
    exact Std.OrientedOrd.eq_swap (a := p.letter) (b := q.letter)
  isLE_trans := by
    intro p q r hpq hqr
    rw [compare_def] at *
    exact Std.TransCmp.isLE_trans hpq hqr

instance : Std.LawfulEqOrd Placeholder where
  compare_self := by
    intro p
    rw [compare_def]
    exact Std.ReflCmp.compare_self
  eq_of_compare := by
    intro p q h
    rw [compare_def] at h
    exact congrArg Placeholder.mk (Std.LawfulEqCmp.eq_of_compare h)

end Placeholder

/-- **A type as a signature writes it**: a type, or a placeholder. -/
inductive SigTy where
  /-- A type, which a call has to meet as it stands. -/
  | concrete (ty : Ty)
  /-- A placeholder, which a call fills in. -/
  | param (p : Placeholder)
  deriving DecidableEq, Repr, Inhabited

/-- The text of a type of a signature. -/
def SigTy.render : SigTy → String
  | concrete ty => ty.render
  | param p => p.render

/-- **The signature of a native function.** -/
structure Signature where
  /-- The declared parameters, in order. -/
  params : List SigTy
  /-- The declared result. -/
  result : SigTy
  deriving DecidableEq, Repr, Inhabited

namespace Signature

/-- The number of arguments a call has to give. -/
def arity (sig : Signature) : Nat :=
  sig.params.length

/-- The signature as a reader is shown it: `('T, LONG) -> 'T`. -/
def render (sig : Signature) : String :=
  "(" ++ ", ".intercalate (sig.params.map SigTy.render) ++ ") -> "
    ++ sig.result.render

end Signature

end PredicateScript
