import PredicateScript.Typing.Engine

/-!
# The walk with another way into its nodes

All that the walk has to do with its depth it does on the way into a node
and on the way out again, in `Walk.descend`. So the walk can be taken with
another way in: `Walk.through enter` goes through a script as the check
does and puts `enter` around every node. With `descend limit` it is the
check (`Walk.through_descend`). With a way in that does nothing it is the
check without a limit, and with one that keeps an eye on the counter it is
the check under observation; what distinguishes these walks is said in one
place, and what they have in common needs no argument.
-/

namespace PredicateScript

namespace Walk

mutual

/-- **The walk with `enter` around every node.** -/
def through (enter : Walk TypedExpr → Walk TypedExpr) (Γ : Context)
    (e : Expr) : Walk TypedExpr :=
  enter <|
    match e with
    | .lit _ value => return .lit value.ty value
    | .ref _ name => return .ref (← ofRule (Γ.reference name)) name
    | .access _ target field => do
      let target ← through enter Γ target
      let ty ← ofRule (Γ.fieldType target.ty field)
      return .access ty target field
    | .call _ name args => do
      let sig ← ofRule (Γ.callee name args.length)
      let args ← throughEach enter Γ args
      let ty ← callType Γ name sig (args.map TypedExpr.ty)
      return .call ty name args
    | .binary _ op left right => do
      let left ← through enter Γ left
      let right ← through enter Γ right
      let ty ← ofRule (op.typeOf left.ty right.ty)
      return .binary ty op left right
    | .block _ body => do
      let body ← through enter Γ body
      return .block body.ty body
    | .letIn _ name value body => do
      ofRule (Γ.fresh name)
      let value ← through enter Γ value
      emit (.binding name value.ty)
      let body ← through enter (Γ.bind name value.ty) body
      return .letIn body.ty name value body
    | .ifElse _ cond ifTrue ifFalse => do
      let cond ← through enter Γ cond
      let ifTrue ← through enter Γ ifTrue
      let ifFalse ← through enter Γ ifFalse
      let ty ← ifType cond.ty ifTrue.ty ifFalse.ty
      return .ifElse ty cond ifTrue ifFalse

/-- The walk through the arguments of a call, from left to right. -/
def throughEach (enter : Walk TypedExpr → Walk TypedExpr) (Γ : Context) :
    List Expr → Walk (List TypedExpr)
  | [] => return []
  | e :: es => do
    let t ← through enter Γ e
    let ts ← throughEach enter Γ es
    return t :: ts

end

mutual

/-- **The check is the walk that descends into every node.** -/
theorem through_descend (limit : UInt64) (Γ : Context) (e : Expr) :
    through (descend limit) Γ e = check limit Γ e := by
  rw [through.eq_def, check.eq_def]
  refine congrArg (descend limit) ?_
  cases e with
  | lit | ref => rfl
  | access _ target field => simp only [through_descend limit Γ target]
  | call _ name args => simp only [throughEach_descend limit Γ args]
  | binary _ op left right =>
    simp only [through_descend limit Γ left, through_descend limit Γ right]
  | block _ body => simp only [through_descend limit Γ body]
  | letIn _ name value body =>
    simp only [through_descend limit Γ value,
      fun ty => through_descend limit (Γ.bind name ty) body]
  | ifElse _ cond ifTrue ifFalse =>
    simp only [through_descend limit Γ cond, through_descend limit Γ ifTrue,
      through_descend limit Γ ifFalse]

theorem throughEach_descend (limit : UInt64) (Γ : Context)
    (es : List Expr) :
    throughEach (descend limit) Γ es = checkEach limit Γ es := by
  cases es with
  | nil => rw [throughEach, checkEach]
  | cons e es =>
    rw [throughEach, checkEach, through_descend limit Γ e,
      throughEach_descend limit Γ es]

end

end Walk

end PredicateScript
