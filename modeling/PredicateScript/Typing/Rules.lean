import PredicateScript.Context
import PredicateScript.Suggestion
import PredicateScript.Rejection
import PredicateScript.Term

/-!
# The typing rules

One function for each rule: what it asks of the context and of the types
of the parts, and the type it gives or the reason it rejects for. The
rules look at nothing else. In particular they do not look at the parts
themselves, and none of them recurses; walking the script is the business
of `PredicateScript.Typing.Engine`.

Every type a rule takes from the context – of a variable, of a field, of a
call's result – has to be known there (`Context.known`). A host may
register a function whose result is a type it forgot to register; calling
it is then an error of the script.
-/

namespace PredicateScript

namespace Context

/-- The rejection for a type name that is not registered. -/
def missingType (Γ : Context) (name : String) : Rejection :=
  .undefinedType name (similarNames name Γ.typeNames Suggestion.reach)

/-- **The type itself, provided it is known.** -/
def known (Γ : Context) (ty : Ty) : Except Rejection Ty :=
  match ty with
  | .named name =>
    match Γ.type? name with
    | some _ => .ok ty
    | none => .error (Γ.missingType name)
  | _ => .ok ty

/-- **A reference** has the type of the variable. -/
def reference (Γ : Context) (name : String) : Except Rejection Ty :=
  match Γ.var? name with
  | some ty => Γ.known ty
  | none =>
    .error (.undefinedReference name
      (similarNames name Γ.varNames Suggestion.reach))

/-- **A field access** on a value of type `ty` has the declared type of
the field. -/
def fieldType (Γ : Context) (ty : Ty) (field : String) :
    Except Rejection Ty :=
  match ty with
  | .named name =>
    match Γ.type? name with
    | none => .error (Γ.missingType name)
    | some record =>
      match record.field? field with
      | none =>
        .error (.undefinedField name field
          (similarNames field record.fieldNames Suggestion.reach))
      | some fieldTy => Γ.known fieldTy
  | _ => .error (.fieldOfPrimitive ty field)

/-- **The signature of a call**: the function has to be registered, and
for this number of arguments. -/
def callee (Γ : Context) (name : String) (argCount : Nat) :
    Except Rejection Signature :=
  match Γ.function? name with
  | none =>
    .error (.undefinedFunction name
      (similarNames name Γ.functionNames Suggestion.reach))
  | some sig =>
    if sig.arity = argCount then .ok sig
    else .error (.arityMismatch name sig.arity argCount)

/-- **A binding needs a name of its own**: one that is neither a variable
in scope nor a function. -/
def fresh (Γ : Context) (name : String) : Except Rejection Unit :=
  if (Γ.var? name).isSome then .error (.duplicateBinding name .var)
  else if (Γ.function? name).isSome then .error (.duplicateBinding name .fn)
  else .ok ()

end Context

/-- **The instance of a signature** at the types of the arguments: what
its placeholders stand for, and the type of the result. -/
def Signature.instantiate (sig : Signature) (name : String)
    (args : List Ty) : Except Rejection (Substitution × Ty) :=
  match unify (args.zip sig.params) with
  | .error e => .error (.ofUnifyError name e)
  | .ok σ =>
    match σ.resolve sig.result with
    | .error e => .error (.ofUnifyError name e)
    | .ok ty => .ok (σ, ty)

/-- **The type of an operator application.** Where the operator fixes the
type of its operands the left one is compared first. -/
def Operator.typeOf (op : Operator) (left right : Ty) :
    Except Rejection Ty :=
  match op.operand? with
  | none =>
    match left.common? right with
    | some _ => .ok op.result
    | none => .error (.noCommonType .equality left right)
  | some operand =>
    if left ≠ operand then
      .error (.operandMismatch op .left operand left)
    else if right ≠ operand then
      .error (.operandMismatch op .right operand right)
    else .ok op.result

/-- **The type of a conditional** is the common type of its branches. -/
def branchType (ifTrue ifFalse : Ty) : Except Rejection Ty :=
  match ifTrue.common? ifFalse with
  | some ty => .ok ty
  | none => .error (.noCommonType .branches ifTrue ifFalse)

/-- **The first name that a tree is annotated with and the context does
not know**, in reading order. -/
def TypedExpr.firstUnknown? (t : TypedExpr) (Γ : Context) :
    Option String :=
  t.nodes.findSome? (fun node =>
    if Γ.knows node.note then none else node.note.name?)

end PredicateScript
