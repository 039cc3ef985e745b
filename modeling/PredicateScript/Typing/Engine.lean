import PredicateScript.Typing.Rules
import PredicateScript.Sink

/-!
# The walk over a script

A script is checked in one walk, depth first and from left to right, that
carries the context down and brings the typed tree up. The first rejection
ends the walk.

The walk keeps two things as it goes. One is its **depth**, the number of
nodes between the root and where it stands: a node at the limit is
rejected unseen, so a hostile script cannot nest the walk deeper than the
host allows. The depth counts up on the way into a node and down on the
way out, also when the node is rejected, and a checker used again starts
where it started before. The other is the **sink** the events go to, which
may break down; the walk is then broken off where it stands.
-/

namespace PredicateScript

/-- **What a check may cost.** -/
structure Config where
  /-- The deepest nesting accepted. -/
  maxDepth : UInt64 := 100
  deriving DecidableEq, Repr, Inhabited

/-- **Where a walk stands.** -/
structure Progress where
  /-- How many nodes have been entered and not left. -/
  depth : UInt64
  /-- The sink, with what it received so far. -/
  sink : Sink

/-- **Why a walk ends early.** -/
inductive Halt where
  /-- The script is rejected. -/
  | rejection (cause : Rejection)
  /-- The sink broke down. -/
  | fault (fault : Fault)

/-- **A walk**: from where it stands to a result, or to a halt, and to
where it stands then. -/
abbrev Walk := EStateM Halt Progress

namespace Walk

variable {α : Type}

/-- What a rule says, as a step of the walk. -/
@[inline] def ofRule (r : Except Rejection α) : Walk α := fun p =>
  match r with
  | .ok a => .ok a p
  | .error cause => .error (.rejection cause) p

/-- **Report an event.** -/
def emit (e : Event) : Walk Unit := fun p =>
  match p.sink.receive e with
  | (none, sink) => .ok () { p with sink := sink }
  | (some fault, sink) => .error (.fault fault) { p with sink := sink }

/-- **One level deeper**: the walk through a node, unless the limit is
reached. -/
@[inline] def descend (limit : UInt64) (walk : Walk α) : Walk α := fun p =>
  if limit ≤ p.depth then
    .error (.rejection (.depthLimitExceeded limit)) p
  else
    match walk { p with depth := p.depth + 1 } with
    | .ok a q => .ok a { q with depth := q.depth - 1 }
    | .error (.rejection cause) q =>
      .error (.rejection cause) { q with depth := q.depth - 1 }
    | .error (.fault fault) q => .error (.fault fault) q

/-- **The type of a call** whose arguments have the given types. That the
placeholders are filled in is reported before the result is looked up. -/
def callType (Γ : Context) (name : String) (sig : Signature)
    (args : List Ty) : Walk Ty := do
  let (σ, ty) ← ofRule (sig.instantiate name args)
  unless σ.isEmpty do emit (.instantiation name σ ty)
  ofRule (Γ.known ty)

/-- **The type of a conditional.** The condition may have any type; one
that is not boolean is reported. -/
def ifType (cond ifTrue ifFalse : Ty) : Walk Ty := do
  unless cond = .boolean do emit (.looseCondition cond)
  ofRule (branchType ifTrue ifFalse)

mutual

/-- **Check a script** in a context: the script with the type of every
node. -/
def check (limit : UInt64) (Γ : Context) (e : Expr) : Walk TypedExpr :=
  descend limit <|
    match e with
    | .lit _ value => return .lit value.ty value
    | .ref _ name => return .ref (← ofRule (Γ.reference name)) name
    | .access _ target field => do
      let target ← check limit Γ target
      let ty ← ofRule (Γ.fieldType target.ty field)
      return .access ty target field
    | .call _ name args => do
      let sig ← ofRule (Γ.callee name args.length)
      let args ← checkEach limit Γ args
      let ty ← callType Γ name sig (args.map TypedExpr.ty)
      return .call ty name args
    | .binary _ op left right => do
      let left ← check limit Γ left
      let right ← check limit Γ right
      let ty ← ofRule (op.typeOf left.ty right.ty)
      return .binary ty op left right
    | .block _ body => do
      let body ← check limit Γ body
      return .block body.ty body
    | .letIn _ name value body => do
      ofRule (Γ.fresh name)
      let value ← check limit Γ value
      emit (.binding name value.ty)
      let body ← check limit (Γ.bind name value.ty) body
      return .letIn body.ty name value body
    | .ifElse _ cond ifTrue ifFalse => do
      let cond ← check limit Γ cond
      let ifTrue ← check limit Γ ifTrue
      let ifFalse ← check limit Γ ifFalse
      let ty ← ifType cond.ty ifTrue.ty ifFalse.ty
      return .ifElse ty cond ifTrue ifFalse

/-- Check the arguments of a call, from left to right. -/
def checkEach (limit : UInt64) (Γ : Context) :
    List Expr → Walk (List TypedExpr)
  | [] => return []
  | e :: es => do
    let t ← check limit Γ e
    let ts ← checkEach limit Γ es
    return t :: ts

end

end Walk

/-- **What a caller of a check gets.** -/
inductive Outcome where
  /-- The checked script. -/
  | accepted (script : TypedExpr)
  /-- The first reason against the script. -/
  | rejected (cause : Rejection)
  /-- Nothing: the sink broke down and the caller is broken off too. -/
  | broken (fault : Fault)

/-- **A checker**, which can be used for one script after the other. -/
structure Checker where
  /-- What a check may cost. -/
  config : Config
  /-- The depth that the next check starts at. -/
  depth : UInt64

namespace Checker

/-- A checker that has not been used yet. -/
def new (config : Config) : Checker := ⟨config, 0⟩

/-- **Check a script without supervision**: what the walk gives, the
checker for the next script, and the sink. -/
def run (c : Checker) (Γ : Context) (e : Expr) (sink : Sink) :
    Outcome × Checker × Sink :=
  match Walk.check c.config.maxDepth Γ e ⟨c.depth, sink⟩ with
  | .ok t p => (.accepted t, { c with depth := p.depth }, p.sink)
  | .error (.rejection cause) p =>
    (.rejected cause, { c with depth := p.depth }, p.sink)
  | .error (.fault fault) p =>
    (.broken fault, { c with depth := p.depth }, p.sink)

end Checker

end PredicateScript
