import PredicateScript.Proofs.Annotation
import Mathlib.Data.List.Forall2

/-!
# What lies below the limit is not looked at

The root of a script is on the first level, and the parts of a node are one
level below it. Two scripts **agree to a level** if they look the same on
all levels up to it: the same kinds of node at the same positions, with the
same names, constants, operators and numbers of arguments
(`AgreeTo`). What hangs below that level may differ in every way.

A check that has so many levels left cannot tell them apart
(`transcript_eq_of_agreeTo`): the plan for a node reads the label of the
node and hands the parts on. The supervised check also writes the script
down, but only one that it has accepted, and of that nothing lies below the
limit.
-/

namespace PredicateScript

/-- **What a node shows of itself**, apart from its parts. -/
inductive Label where
  /-- A constant. -/
  | lit (value : Literal)
  /-- A reference. -/
  | ref (name : String)
  /-- A field access. -/
  | access (field : String)
  /-- A call, with the number of its arguments. -/
  | call (function : String) (argCount : Nat)
  /-- An operator. -/
  | binary (op : Operator)
  /-- A block that binds nothing. -/
  | block
  /-- A binding. -/
  | letIn (name : String)
  /-- A conditional. -/
  | ifElse
  deriving DecidableEq

/-- The label of a tree is that of its root. -/
def Term.label {α : Type} : Term α → Label
  | lit _ value => .lit value
  | ref _ name => .ref name
  | access _ _ field => .access field
  | call _ function args => .call function args.length
  | binary _ op _ _ => .binary op
  | block _ _ => .block
  | letIn _ name _ _ => .letIn name
  | ifElse .. => .ifElse

/-- **Two scripts agree to a level**: at a position on that level or above,
they have nodes of the same label or none. -/
def AgreeTo (level : Nat) (e e' : Expr) : Prop :=
  ∀ p : List Nat, p.length < level →
    (e.node? p).map Term.label = (e'.node? p).map Term.label

/-! ## One level -/

section Label

variable {e e' : Expr}

/-- **A label fixes a node up to its parts**, and how many there are. -/
theorem eq_rebuild_of_label_eq (h : e.label = e'.label) :
    e' = e.rebuild () e'.parts ∧ e'.parts.length = e.parts.length := by
  cases e <;> cases e' <;>
    simp_all [Term.label, Term.rebuild, Term.parts]

/-- Scripts that agree to a level have roots of the same label, and parts
that agree to the level above. -/
theorem AgreeTo.root_and_parts {level : Nat} (h : AgreeTo (level + 1) e e') :
    e.label = e'.label ∧ List.Forall₂ (AgreeTo level) e.parts e'.parts := by
  have hlabel : e.label = e'.label :=
    Option.some.inj (h [] (Nat.succ_pos _))
  have hlen := (eq_rebuild_of_label_eq hlabel).2
  refine ⟨hlabel, List.forall₂_iff_get.mpr
    ⟨hlen.symm, fun i hi hi' p hp => ?_⟩⟩
  have hnode := h (i :: p) (Nat.succ_lt_succ hp)
  rw [Term.node?_cons, Term.node?_cons, List.getElem?_eq_getElem hi,
    List.getElem?_eq_getElem hi'] at hnode
  exact hnode

end Label

/-! ## The plan reads the label -/

section Visits

variable {visit visit' : Context → Expr → Transcript TypedExpr}
  {Γ : Context} {e e' : Expr}

/-- Two parts that are visited alike. -/
def VisitedAlike (visit visit' : Context → Expr → Transcript TypedExpr)
    (part part' : Expr) : Prop :=
  ∀ Γ, visit Γ part = visit' Γ part'

/-- Arguments that are visited alike one by one are visited alike
together. -/
theorem visitParts_call_congr {es es' : List Expr}
    (h : List.Forall₂ (VisitedAlike visit visit') es es') (name : String)
    (args args' : List Expr) (done : List TypedExpr) :
    visitParts visit Γ (.call () name args) done es
      = visitParts visit' Γ (.call () name args') done es' := by
  induction h generalizing done with
  | nil => rfl
  | cons hpart _ ih =>
    unfold visitParts
    simp only [Context.scopeOf, Context.scopeEvents, hpart Γ, ih]

/-- **A node is visited by its label**: nodes that look alike, and whose
parts are visited alike, are visited alike. -/
theorem visitNode_congr (hlabel : e.label = e'.label)
    (hparts : List.Forall₂ (VisitedAlike visit visit') e.parts e'.parts) :
    visitNode visit Γ e = visitNode visit' Γ e' := by
  obtain ⟨us, rfl, hlen⟩ : ∃ us, e' = e.rebuild () us
      ∧ us.length = e.parts.length :=
    ⟨e'.parts, eq_rebuild_of_label_eq hlabel⟩
  rw [Term.parts_rebuild () hlen] at hparts
  cases e with
  | lit _ value => rfl
  | ref _ name => rfl
  | access _ target field =>
    obtain _ | ⟨htarget, ⟨⟩⟩ := hparts
    show _ = visitNode visit' Γ (.access () _ field)
    rw [visitNode_access, visitNode_access, htarget Γ]
  | call _ name args =>
    have hargs : List.Forall₂ (VisitedAlike visit visit') args us := hparts
    show _ = visitNode visit' Γ (.call () name us)
    rw [visitNode_call, visitNode_call, hargs.length_eq,
      visitParts_call_congr hargs name args us]
  | binary _ op left right =>
    obtain _ | ⟨hleft, _ | ⟨hright, ⟨⟩⟩⟩ := hparts
    show _ = visitNode visit' Γ (.binary () op _ _)
    rw [visitNode_binary, visitNode_binary, hleft Γ, hright Γ]
  | block _ body =>
    obtain _ | ⟨hbody, ⟨⟩⟩ := hparts
    show _ = visitNode visit' Γ (.block () _)
    rw [visitNode_block, visitNode_block, hbody Γ]
  | letIn _ name value body =>
    obtain _ | ⟨hvalue, _ | ⟨hbody, ⟨⟩⟩⟩ := hparts
    show _ = visitNode visit' Γ (.letIn () name _ _)
    rw [visitNode_letIn, visitNode_letIn, hvalue Γ]
    simp only [fun ty => hbody (Γ.bind name ty)]
  | ifElse _ cond ifTrue ifFalse =>
    obtain _ | ⟨hcond, _ | ⟨hifTrue, _ | ⟨hifFalse, ⟨⟩⟩⟩⟩ := hparts
    show _ = visitNode visit' Γ (.ifElse () _ _ _)
    rw [visitNode_ifElse, visitNode_ifElse, hcond Γ, hifTrue Γ, hifFalse Γ]

end Visits

/-! ## Scripts that agree as far as the check goes -/

section Agreement

variable {limit : UInt64} {Γ : Context} {e e' : Expr}

/-- **A check reads as many levels as it has left.** -/
theorem transcript_eq_of_agreeTo {budget : Nat}
    (h : AgreeTo budget e e') (Γ : Context) :
    transcript limit budget Γ e = transcript limit budget Γ e' := by
  induction budget generalizing e e' Γ with
  | zero => rfl
  | succ budget ih =>
    obtain ⟨hlabel, hparts⟩ := h.root_and_parts
    exact visitNode_congr hlabel
      (hparts.imp (fun part part' hpart Γ => ih hpart Γ))

/-- Scripts that are accepted as the same tree are the same. -/
theorem eq_of_verdict_ok {budget : Nat} {t : TypedExpr}
    (h : verdict limit budget Γ e = .ok t)
    (h' : verdict limit budget Γ e' = .ok t) : e = e' := by
  rw [← erase_of_verdict_ok h, ← erase_of_verdict_ok h']

/-- The answer of a checker does not depend on what lies below its
limit. -/
theorem Checker.answer_eq_of_agreeTo (h : AgreeTo limit.toNat e e')
    (Γ : Context) (sink : Sink) :
    (Checker.new ⟨limit⟩).answer Γ e sink
      = (Checker.new ⟨limit⟩).answer Γ e' sink := by
  rw [answer_eq, answer_eq, budget_new]
  show (transcript limit limit.toNat Γ e).deliver sink
    = (transcript limit limit.toNat Γ e').deliver sink
  rw [transcript_eq_of_agreeTo h Γ]

/-- A verdict on two scripts is reported alike: of an accepted one the text
goes in front, but then the two are one. -/
theorem reportVerdict_congr {config : Config} {sink : Sink}
    (h : shielded config Γ e sink = shielded config Γ e' sink)
    (sink' : Sink) :
    reportVerdict e (shielded config Γ e sink).1 sink'
      = reportVerdict e' (shielded config Γ e sink).1 sink' := by
  cases hverdict : (shielded config Γ e sink).1 with
  | error cause => rfl
  | ok t =>
    have hverdict' : (shielded config Γ e' sink).1 = .ok t := by
      rw [← h]
      exact hverdict
    rw [eq_of_verdict_ok (verdict_of_shielded hverdict)
      (verdict_of_shielded hverdict')]

/-- Nor does a supervised check depend on it. -/
theorem checkWith_eq_of_agreeTo (h : AgreeTo limit.toNat e e')
    (Γ : Context) (sink : Sink) :
    checkWith ⟨limit⟩ Γ e sink = checkWith ⟨limit⟩ Γ e' sink := by
  have hshielded : ∀ sink,
      shielded ⟨limit⟩ Γ e sink = shielded ⟨limit⟩ Γ e' sink := by
    intro sink
    rw [shielded_eq, shielded_eq, Checker.answer_eq_of_agreeTo h Γ sink]
  unfold checkWith
  dsimp only
  rw [reportVerdict_congr (hshielded _), hshielded]

end Agreement

/-- **Nothing below the limit is looked at.** Two scripts that agree on the
levels down to the limit get the same answer, outcome and log, from a
checker and from a supervised check. -/
theorem Checker.blind_below_limit {limit : UInt64} {e e' : Expr}
    (h : AgreeTo limit.toNat e e') (Γ : Context) (sink : Sink) :
    (Checker.new ⟨limit⟩).answer Γ e sink
        = (Checker.new ⟨limit⟩).answer Γ e' sink
      ∧ checkWith ⟨limit⟩ Γ e sink = checkWith ⟨limit⟩ Γ e' sink :=
  ⟨answer_eq_of_agreeTo h Γ sink, checkWith_eq_of_agreeTo h Γ sink⟩

/-- With a limit of two levels, `{ let a = 1; a + 2 }` and
`{ let a = 1; gone(3) + { 4 } }` are not told apart: what is added lies on
the third level. -/
theorem Checker.blind_below_limit_two :
    let e : Expr := .letIn () "a" (Expr.long 1)
      (.binary () .sum (.ref () "a") (Expr.long 2))
    let e' : Expr := .letIn () "a" (Expr.long 1)
      (.binary () .sum (.call () "gone" [Expr.long 3])
        (.block () (Expr.long 4)))
    AgreeTo (2 : UInt64).toNat e e'
      ∧ (Checker.new ⟨2⟩).answer sampleContext e (Sink.fresh none)
        = (Checker.new ⟨2⟩).answer sampleContext e' (Sink.fresh none)
      ∧ checkWith ⟨2⟩ sampleContext e (Sink.fresh none)
        = checkWith ⟨2⟩ sampleContext e' (Sink.fresh none) := by
  intro e e'
  have h : AgreeTo (2 : UInt64).toNat e e'
    | [], _ | [0], _ | [1], _ | [_ + 2], _ => rfl
    | _ :: _ :: p, hp => absurd hp (Nat.not_lt.mpr (Nat.le_add_left 2 p.length))
  exact ⟨h, Checker.blind_below_limit h sampleContext (Sink.fresh none)⟩

end PredicateScript
