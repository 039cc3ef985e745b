import PredicateScript.Proofs.Position
import PredicateScript.Proofs.Transcript
import PredicateScript.Proofs.Traversal

/-!
# How a node is visited

Every kind of node is checked by one plan. The node itself is tested
before its parts are looked at (`Context.entryTest`); its parts are
checked from left to right, each in a scope that may depend on the types
of the parts before it (`Context.scopeOf`); and the types of the parts
decide the type of the node (`Context.nodeType`). The kinds differ in
these three functions and in nothing else, so what holds of the plan needs
no case for each kind.

`visitNode visit Γ e` is the plan for a node whose parts `visit` looks
after, and `transcript limit budget Γ e` is the plan carried out on a whole
script with `budget` levels left below the limit. A walk follows the plan
at a node if it does so at the parts, whatever its way into nodes
(`Walk.tells_through`), and so the walk of
`PredicateScript.Typing.Engine` does what the transcript says, from any
depth and with any sink (`Walk.tells_check`).
-/

namespace PredicateScript

/-- What a call reports once the types of its arguments are known: how the
placeholders are filled in, if there are any. -/
def Signature.fillEvents (sig : Signature) (name : String)
    (tys : List Ty) : List Event :=
  match sig.instantiate name tys with
  | .ok (σ, ty) => if σ.isEmpty then [] else [.instantiation name σ ty]
  | .error _ => []

namespace Context

/-- **The type of a call** of the given signature. -/
def resultType (Γ : Context) (sig : Signature) (name : String)
    (tys : List Ty) : Except Rejection Ty :=
  sig.instantiate name tys >>= fun filled => Γ.known filled.2

/-- **What is asked of a node before its parts are looked at.** -/
def entryTest (Γ : Context) : Expr → Except Rejection Unit
  | .call _ name args => (Γ.callee name args.length).map (fun _ => ())
  | .letIn _ name _ _ => Γ.fresh name
  | _ => .ok ()

/-- **The scope of a part**, from the types of the parts to its left. -/
def scopeOf (Γ : Context) : Expr → List Ty → Context
  | .letIn _ name _ _, [ty] => Γ.bind name ty
  | _, _ => Γ

/-- What is reported on the way into a part. -/
def scopeEvents : Expr → List Ty → List Event
  | .letIn _ name _ _, [ty] => [.binding name ty]
  | _, _ => []

/-- **The type of a node**, from the types of its parts. -/
def nodeType (Γ : Context) : Expr → List Ty → Except Rejection Ty
  | .lit _ value, [] => .ok value.ty
  | .ref _ name, [] => Γ.reference name
  | .access _ _ field, [target] => Γ.fieldType target field
  | .call _ name args, tys =>
    Γ.callee name args.length >>= (Γ.resultType · name tys)
  | .binary _ op _ _, [left, right] => op.typeOf left right
  | .block _ _, [body] => .ok body
  | .letIn .., [_, body] => .ok body
  | .ifElse .., [_, ifTrue, ifFalse] => branchType ifTrue ifFalse
  | _, _ => .error (.internal "a node without its parts")

/-- What is reported once the types of the parts are known. -/
def nodeEvents (Γ : Context) : Expr → List Ty → List Event
  | .call _ name args, tys =>
    match Γ.callee name args.length with
    | .ok sig => sig.fillEvents name tys
    | .error _ => []
  | .ifElse .., [cond, _, _] =>
    if cond = .boolean then [] else [.looseCondition cond]
  | _, _ => []

/-- No scope has other functions than the context it is made from. -/
theorem functions_scopeOf (Γ : Context) (e : Expr) (tys : List Ty) :
    (Γ.scopeOf e tys).functions = Γ.functions := by
  unfold scopeOf
  split <;> rfl

section Call

variable {Γ : Context} {name : String} {args : List Expr} {sig : Signature}

theorem entryTest_call (h : Γ.callee name args.length = .ok sig) :
    Γ.entryTest (.call () name args) = .ok () := by
  rw [entryTest, h]
  rfl

/-- A call that passes its entry test has a signature. -/
theorem exists_callee_of_entryTest
    (h : Γ.entryTest (.call () name args) = .ok ()) :
    ∃ sig, Γ.callee name args.length = .ok sig := by
  rw [entryTest] at h
  cases hsig : Γ.callee name args.length with
  | ok sig => exact ⟨sig, rfl⟩
  | error cause =>
    rw [hsig] at h
    cases h

theorem nodeType_call (h : Γ.callee name args.length = .ok sig)
    (tys : List Ty) :
    Γ.nodeType (.call () name args) tys = Γ.resultType sig name tys := by
  rw [nodeType, h]
  rfl

theorem nodeEvents_call (h : Γ.callee name args.length = .ok sig)
    (tys : List Ty) :
    Γ.nodeEvents (.call () name args) tys = sig.fillEvents name tys := by
  rw [nodeEvents, h]

end Call

end Context

/-- The parts of a node from left to right: `done` are those already
checked, and `visit` checks one in its scope. -/
def visitParts (visit : Context → Expr → Transcript TypedExpr)
    (Γ : Context) (e : Expr) (done : List TypedExpr) :
    List Expr → Transcript (List TypedExpr)
  | [] => pure done
  | part :: rest => do
    .tell (Context.scopeEvents e (done.map TypedExpr.ty))
    let t ← visit (Γ.scopeOf e (done.map TypedExpr.ty)) part
    visitParts visit Γ e (done ++ [t]) rest

/-- **The plan for a node** whose parts `visit` checks. -/
def visitNode (visit : Context → Expr → Transcript TypedExpr)
    (Γ : Context) (e : Expr) : Transcript TypedExpr := do
  .ofRule (Γ.entryTest e)
  let ts ← visitParts visit Γ e [] e.parts
  .tell (Γ.nodeEvents e (ts.map TypedExpr.ty))
  let ty ← .ofRule (Γ.nodeType e (ts.map TypedExpr.ty))
  return e.rebuild ty ts

/-- **What a check says of a script** in a context, with `budget` levels
left below the limit. -/
def transcript (limit : UInt64) :
    Nat → Context → Expr → Transcript TypedExpr
  | 0, _, _ => .ofRule (.error (.depthLimitExceeded limit))
  | budget + 1, Γ, e => visitNode (transcript limit budget) Γ e

/-! ## The plan, kind by kind -/

section Kinds

variable (visit : Context → Expr → Transcript TypedExpr) (Γ : Context)

theorem visitNode_call (name : String) (args : List Expr) :
    visitNode visit Γ (.call () name args) = (do
      let sig ← .ofRule (Γ.callee name args.length)
      let ts ← visitParts visit Γ (.call () name args) [] args
      let ty ← (do
        .tell (sig.fillEvents name (ts.map TypedExpr.ty))
        .ofRule (Γ.resultType sig name (ts.map TypedExpr.ty)))
      return .call ty name ts) := by
  rw [visitNode]
  cases hsig : Γ.callee name args.length with
  | error cause =>
    simp only [Context.entryTest, hsig]
    rfl
  | ok sig =>
    simp [Term.parts, Term.rebuild, Context.entryTest_call hsig,
      Context.nodeEvents_call hsig, Context.nodeType_call hsig]

-- the other kinds need no lemma of their own, only the plan spelt out
attribute [local simp] visitParts Term.parts Term.rebuild
  Context.entryTest Context.scopeOf Context.scopeEvents Context.nodeType
  Context.nodeEvents

theorem visitNode_access (target : Expr) (field : String) :
    visitNode visit Γ (.access () target field) = (do
      let target ← visit Γ target
      let ty ← .ofRule (Γ.fieldType target.ty field)
      return .access ty target field) := by
  simp [visitNode]

theorem visitNode_binary (op : Operator) (left right : Expr) :
    visitNode visit Γ (.binary () op left right) = (do
      let left ← visit Γ left
      let right ← visit Γ right
      let ty ← .ofRule (op.typeOf left.ty right.ty)
      return .binary ty op left right) := by
  simp [visitNode]

theorem visitNode_block (body : Expr) :
    visitNode visit Γ (.block () body) = (do
      let body ← visit Γ body
      return .block body.ty body) := by
  simp [visitNode]

theorem visitNode_letIn (name : String) (value body : Expr) :
    visitNode visit Γ (.letIn () name value body) = (do
      .ofRule (Γ.fresh name)
      let value ← visit Γ value
      .tell [.binding name value.ty]
      let body ← visit (Γ.bind name value.ty) body
      return .letIn body.ty name value body) := by
  simp [visitNode]

theorem visitNode_ifElse (cond ifTrue ifFalse : Expr) :
    visitNode visit Γ (.ifElse () cond ifTrue ifFalse) = (do
      let cond ← visit Γ cond
      let ifTrue ← visit Γ ifTrue
      let ifFalse ← visit Γ ifFalse
      let ty ← (do
        .tell (if cond.ty = .boolean then [] else [.looseCondition cond.ty])
        .ofRule (branchType ifTrue.ty ifFalse.ty))
      return .ifElse ty cond ifTrue ifFalse) := by
  simp [visitNode]

end Kinds

/-! ## The walk follows the plan -/

namespace Walk

variable {enter : Walk TypedExpr → Walk TypedExpr}
  {visit : Context → Expr → Transcript TypedExpr}

/-- Checking the arguments of a call is visiting its parts: a call opens
no scope. -/
theorem tells_throughEach {Γ : Context} {depth : UInt64} {es : List Expr}
    (h : ∀ e ∈ es, ∀ sink,
      Tells (through enter Γ e) ⟨depth, sink⟩ (visit Γ e)) (name : String)
    (args : List Expr) (done : List TypedExpr) (sink : Sink) :
    Tells (throughEach enter Γ es >>= fun ts => pure (done ++ ts))
      ⟨depth, sink⟩
      (visitParts visit Γ (.call () name args) done es) := by
  induction es generalizing done sink with
  | nil =>
    rw [throughEach, visitParts, pure_bind, List.append_nil]
    exact tells_pure done _
  | cons e es ih =>
    obtain ⟨he, hes⟩ := List.forall_mem_cons.mp h
    rw [throughEach, visitParts]
    simp only [Context.scopeOf, Context.scopeEvents, Transcript.tell_nil,
      bind_assoc, pure_bind]
    refine (he sink).bind (fun t sink _ => ?_)
    have hrest := ih hes (done ++ [t]) sink
    simpa only [List.append_assoc, List.singleton_append] using hrest

/-- The last step of a call: the signature is instantiated, and then the
result is looked up. -/
theorem tells_callType (Γ : Context) (name : String) (sig : Signature)
    (tys : List Ty) (p : Progress) :
    Tells (callType Γ name sig tys) p (do
      .tell (sig.fillEvents name tys)
      .ofRule (Γ.resultType sig name tys)) := by
  unfold callType Signature.fillEvents Context.resultType
  cases sig.instantiate name tys with
  | error cause => exact tells_ofRule (α := Ty) (.error cause) p
  | ok filled =>
    obtain ⟨σ, ty⟩ := filled
    show Tells
      (if σ.isEmpty = true then ofRule (Γ.known ty)
        else do emit (.instantiation name σ ty); ofRule (Γ.known ty)) p
      (do .tell (if σ.isEmpty = true then [] else [.instantiation name σ ty])
          .ofRule (Γ.known ty))
    by_cases hσ : σ.isEmpty = true
    · rw [if_pos hσ, if_pos hσ]
      exact tells_ofRule _ _
    · rw [if_neg hσ, if_neg hσ]
      exact (tells_emit _ _).bind (fun _ _ _ => tells_ofRule _ _)

/-- The last step of a conditional. -/
theorem tells_ifType (cond ifTrue ifFalse : Ty) (p : Progress) :
    Tells (ifType cond ifTrue ifFalse) p (do
      .tell (if cond = .boolean then [] else [.looseCondition cond])
      .ofRule (branchType ifTrue ifFalse)) := by
  unfold ifType
  by_cases hc : cond = .boolean
  · rw [if_pos hc, if_pos hc]
    exact tells_ofRule _ _
  · rw [if_neg hc, if_neg hc]
    exact (tells_emit _ _).bind (fun _ _ _ => tells_ofRule _ _)

/-- **A walk that follows the plan at the parts follows it at the node.**
What is asked of the way into the node is that a walk through it from the
depth inside tells the same from the depth outside. -/
theorem tells_through {outside inside : UInt64} {e : Expr}
    (henter : ∀ w sink x, Tells w ⟨inside, sink⟩ x →
      Tells (enter w) ⟨outside, sink⟩ x)
    (hpart : ∀ part ∈ e.parts, ∀ Γ sink,
      Tells (through enter Γ part) ⟨inside, sink⟩ (visit Γ part))
    (Γ : Context) (sink : Sink) :
    Tells (through enter Γ e) ⟨outside, sink⟩ (visitNode visit Γ e) := by
  rw [through.eq_def]
  refine henter _ sink _ ?_
  cases e with
  | lit _ value => exact tells_pure _ _
  | ref _ name =>
    exact (tells_ofRule _ _).bind (fun _ _ _ => tells_pure _ _)
  | access _ target field =>
    rw [visitNode_access]
    refine (hpart target (by simp [Term.parts]) Γ _).bind
      (fun t sink _ => ?_)
    exact (tells_ofRule _ _).bind (fun _ _ _ => tells_pure _ _)
  | call _ name args =>
    rw [visitNode_call]
    refine (tells_ofRule _ _).bind (fun sig sink _ => ?_)
    have hargs := tells_throughEach (fun arg harg => hpart arg harg Γ)
      name args [] sink
    simp only [List.nil_append, bind_pure] at hargs
    refine hargs.bind (fun ts sink _ => ?_)
    exact (tells_callType _ _ _ _ _).bind (fun _ _ _ => tells_pure _ _)
  | binary _ op left right =>
    rw [visitNode_binary]
    refine (hpart left (by simp [Term.parts]) Γ _).bind (fun l sink _ => ?_)
    refine (hpart right (by simp [Term.parts]) Γ sink).bind
      (fun r sink _ => ?_)
    exact (tells_ofRule _ _).bind (fun _ _ _ => tells_pure _ _)
  | block _ body =>
    rw [visitNode_block]
    exact (hpart body (by simp [Term.parts]) Γ _).bind
      (fun t sink _ => tells_pure _ _)
  | letIn _ name value body =>
    rw [visitNode_letIn]
    refine (tells_ofRule _ _).bind (fun _ sink _ => ?_)
    refine (hpart value (by simp [Term.parts]) Γ sink).bind
      (fun v sink _ => ?_)
    refine (tells_emit _ _).bind (fun _ sink _ => ?_)
    refine (hpart body (by simp [Term.parts]) _ sink).bind
      (fun b sink _ => ?_)
    exact tells_pure _ _
  | ifElse _ cond ifTrue ifFalse =>
    rw [visitNode_ifElse]
    refine (hpart cond (by simp [Term.parts]) Γ _).bind (fun c sink _ => ?_)
    refine (hpart ifTrue (by simp [Term.parts]) Γ sink).bind
      (fun t sink _ => ?_)
    refine (hpart ifFalse (by simp [Term.parts]) Γ sink).bind
      (fun f sink _ => ?_)
    exact (tells_ifType _ _ _ _).bind (fun _ _ _ => tells_pure _ _)

/-- **The walk says what the plan says**, from any depth and with any
sink. -/
theorem tells_check {limit : UInt64} (Γ : Context) (e : Expr)
    (p : Progress) :
    Tells (check limit Γ e) p
      (transcript limit (limit.toNat - p.depth.toNat) Γ e) := by
  -- on the levels left, since a walk that goes a level deeper may also
  -- change its scope and its sink
  induction hb : limit.toNat - p.depth.toNat generalizing Γ e p with
  | zero =>
    have hp : limit ≤ p.depth := by
      rw [UInt64.le_iff_toNat_le]
      omega
    rw [check.eq_def]
    exact tells_descend_of_le hp _
  | succ budget ih =>
    have hp : p.depth < limit := by
      rw [UInt64.lt_iff_toNat_lt]
      omega
    have hnext := toNat_succ_of_lt hp
    have hpart : ∀ part ∈ e.parts, ∀ Γ sink,
        Tells (through (descend limit) Γ part) ⟨p.depth + 1, sink⟩
          (transcript limit budget Γ part) := by
      intro part _ Γ sink
      rw [through_descend]
      refine ih Γ part ⟨p.depth + 1, sink⟩ ?_
      show limit.toNat - (p.depth + 1).toNat = budget
      omega
    rw [← through_descend]
    exact tells_through (fun _ _ _ hw => Tells.descend hp hw) hpart Γ p.sink

end Walk

end PredicateScript
