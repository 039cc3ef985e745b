import PredicateScript.Operator
import PredicateScript.Signature
import PredicateScript.Substitution

/-!
# Reasons to reject a script

A rejection says what is wrong with a script, in terms of the script: the
name that was not found, the types that do not go together. Where a name
was not found the rejection also carries the names that may have been
meant. `Rejection.message` puts the reason into one line of text.
-/

namespace PredicateScript

/-- Which operand of an operator is meant. -/
inductive Side where
  /-- The one before the operator. -/
  | left
  /-- The one after it. -/
  | right
  deriving DecidableEq, Repr, Inhabited

/-- The operand in words. -/
def Side.ordinal : Side → String
  | left => "first"
  | right => "second"

/-- Where two types had to be the same. -/
inductive Site where
  /-- The operands of an equality. -/
  | equality
  /-- The branches of a conditional. -/
  | branches
  deriving DecidableEq, Repr, Inhabited

/-- The place in words. -/
def Site.describe : Site → String
  | equality => "operands of EQ"
  | branches => "if branches"

/-- What a name already stands for when a binding wants to use it. -/
inductive NameUse where
  /-- A variable. -/
  | var
  /-- A native function. -/
  | fn
  deriving DecidableEq, Repr, Inhabited

/-- The use in words. -/
def NameUse.describe : NameUse → String
  | var => "variable"
  | fn => "function"

/-- **Why a script is rejected.** -/
inductive Rejection where
  /-- No type of this name is registered. -/
  | undefinedType (name : String) (suggestions : List String)
  /-- The record type has no field of this name. -/
  | undefinedField (typeName field : String) (suggestions : List String)
  /-- A field of a value that is no record. -/
  | fieldOfPrimitive (ty : Ty) (field : String)
  /-- No function of this name is registered. -/
  | undefinedFunction (name : String) (suggestions : List String)
  /-- A call with the wrong number of arguments. -/
  | arityMismatch (name : String) (expected found : Nat)
  /-- An argument, counted from one, of another type than declared. -/
  | argumentMismatch (function : String) (position : Nat)
      (expected found : Ty)
  /-- Two arguments fill one placeholder in differently. -/
  | conflictingPlaceholder (function : String) (param : Placeholder)
      (bound found : Ty)
  /-- The result is a placeholder that no argument fills in. -/
  | unresolvedPlaceholder (function : String) (param : Placeholder)
  /-- An operand of another type than the operator asks for. -/
  | operandMismatch (op : Operator) (side : Side) (expected found : Ty)
  /-- Two types that had to be the same and are not. -/
  | noCommonType (site : Site) (left right : Ty)
  /-- A binding of a name that is taken. -/
  | duplicateBinding (name : String) (use : NameUse)
  /-- No variable of this name is in scope. -/
  | undefinedReference (name : String) (suggestions : List String)
  /-- The script is nested deeper than allowed. -/
  | depthLimitExceeded (limit : UInt64)
  /-- The check itself broke off; the message is not about the script. -/
  | internal (message : String)
  deriving DecidableEq, Repr, Inhabited

namespace Rejection

/-- **The reason in one line.** -/
def message : Rejection → String
  | undefinedType name _ => "undefined type `" ++ name ++ "`"
  | undefinedField typeName field _ =>
    "undefined field `" ++ field ++ "` of type `" ++ typeName ++ "`"
  | fieldOfPrimitive ty field =>
    "cannot access field `" ++ field ++ "` of primitive type " ++ ty.render
  | undefinedFunction name _ => "function `" ++ name ++ "` not found"
  | arityMismatch name expected found =>
    "function `" ++ name ++ "` expects " ++ toString expected
      ++ " arguments, but " ++ toString found ++ " were given"
  | argumentMismatch function position expected found =>
    "argument " ++ toString position ++ " of `" ++ function
      ++ "`: expected " ++ expected.render ++ ", found " ++ found.render
  | conflictingPlaceholder function param bound found =>
    "conflicting type for parameter " ++ param.render ++ " of `" ++ function
      ++ "`: " ++ bound.render ++ " and " ++ found.render
  | unresolvedPlaceholder function param =>
    "unresolved type parameter " ++ param.render ++ " in result of `"
      ++ function ++ "`"
  | operandMismatch op side expected found =>
    "unexpected type of " ++ side.ordinal ++ " operand of " ++ op.name
      ++ ": expected " ++ expected.render ++ ", found " ++ found.render
  | noCommonType site left right =>
    "no common type for " ++ site.describe ++ ": " ++ left.render ++ " and "
      ++ right.render
  | duplicateBinding name use =>
    "`" ++ name ++ "` is already defined as a " ++ use.describe
      ++ " in this scope"
  | undefinedReference name _ => "definition of `" ++ name ++ "` not found"
  | depthLimitExceeded limit =>
    "expression nesting exceeds the limit of " ++ toString limit.toNat
  | internal message => "internal error while checking: " ++ message

/-- The names that may have been meant, where a name was not found. -/
def suggestions : Rejection → List String
  | undefinedType _ s | undefinedField _ _ s | undefinedFunction _ s
  | undefinedReference _ s => s
  | _ => []

/-- **The heading a reason is reported under.** -/
def kind : Rejection → String
  | undefinedType .. | undefinedField .. | undefinedFunction ..
  | undefinedReference .. => "NAMING ERROR"
  | duplicateBinding .. => "DUPLICATE BINDING"
  | depthLimitExceeded .. => "LIMIT EXCEEDED"
  | internal .. => "INTERNAL ERROR"
  | _ => "TYPE ERROR"

/-- The reason a call is rejected for when its signature does not fit. -/
def ofUnifyError (function : String) : UnifyError → Rejection
  | .mismatch position expected found =>
    argumentMismatch function position expected found
  | .conflict param bound found =>
    conflictingPlaceholder function param bound found
  | .unresolved param => unresolvedPlaceholder function param

end Rejection

end PredicateScript
