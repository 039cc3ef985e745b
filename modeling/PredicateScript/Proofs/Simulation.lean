import PredicateScript.Proofs.Answer

/-!
# Checks that are related step by step

Two checks of one script take the same way as long as the tests and the
rules answer them alike. This module says so once, for any sense of
"alike". A **congruence** is a relation between transcripts that is kept
when transcripts are put in sequence; a relation between contexts
**simulates** it if it is kept on the way into the parts of a node, and the
entry test and the rule of a node are related wherever it holds. Related
visits to the parts then make a related visit to the node
(`Simulation.visitNode_related`), and the checks are related as a whole
(`Simulation.transcript_related`).

To be cut short is such a relation (`Transcript.congruence_cutBy`), whether
the checks differ in their contexts or in how far down they may go.
-/

namespace PredicateScript

/-- **A relation between transcripts that is kept in sequence.** -/
structure Transcript.Congruence
    (R : (α : Type) → Transcript α → Transcript α → Prop) : Prop where
  /-- What is done alike is related. -/
  refl {α : Type} (x : Transcript α) : R α x x
  /-- Related transcripts that go on in related ways are related. -/
  bind {α β : Type} {x y : Transcript α} {f g : α → Transcript β}
    (hx : R α x y) (hf : ∀ a, R β (f a) (g a)) : R β (x >>= f) (y >>= g)

/-- Transcripts that are cut short are put in sequence as they are. -/
theorem Transcript.congruence_cutBy (P : Rejection → Prop) :
    Congruence (fun _ x y => x.CutBy P y) where
  refl _ := Or.inl rfl
  bind hx hf := hx.bind hf

/-- **The rule of a node**, with what it reports. -/
def Context.rule (Γ : Context) (e : Expr) (tys : List Ty) : Transcript Ty := do
  .tell (Γ.nodeEvents e tys)
  .ofRule (Γ.nodeType e tys)

/-- **Contexts that are related make related checks**: what has to be
shown of a node at a time. -/
structure Simulation (R : (α : Type) → Transcript α → Transcript α → Prop)
    (C : Context → Context → Expr → Prop) : Prop where
  /-- The transcripts are related by a congruence. -/
  congruence : Transcript.Congruence R
  /-- The entry tests are related. -/
  entry {Γ Γ' : Context} {e : Expr} (h : C Γ Γ' e) :
    R Unit (.ofRule (Γ.entryTest e)) (.ofRule (Γ'.entryTest e))
  /-- The contexts stay related on the way into a part. -/
  scope {Γ Γ' : Context} {e part : Expr} (h : C Γ Γ' e)
    (hpart : part ∈ e.parts) (tys : List Ty) :
    C (Γ.scopeOf e tys) (Γ'.scopeOf e tys) part
  /-- The rules are related. -/
  rule {Γ Γ' : Context} {e : Expr} (h : C Γ Γ' e) (tys : List Ty) :
    R Ty (Γ.rule e tys) (Γ'.rule e tys)

/-- In one context a check is related to itself by every congruence. What
is left to differ is the visits to the parts. -/
theorem simulation_eq
    {R : (α : Type) → Transcript α → Transcript α → Prop}
    (hR : Transcript.Congruence R) :
    Simulation R (fun Γ Γ' _ => Γ = Γ') where
  congruence := hR
  entry h := h ▸ hR.refl _
  scope h _ tys := congrArg (Context.scopeOf · _ tys) h
  rule h _ := h ▸ hR.refl _

section Related

variable {R : (α : Type) → Transcript α → Transcript α → Prop}
  {C : Context → Context → Expr → Prop} {Γ Γ' : Context} {e : Expr}
  {visit visit' : Context → Expr → Transcript TypedExpr}

theorem visitParts_related (hR : Transcript.Congruence R) {es : List Expr}
    (hvisit : ∀ part ∈ es, ∀ tys,
      R _ (visit (Γ.scopeOf e tys) part) (visit' (Γ'.scopeOf e tys) part))
    (done : List TypedExpr) :
    R _ (visitParts visit Γ e done es) (visitParts visit' Γ' e done es) := by
  induction es generalizing done with
  | nil => exact hR.refl _
  | cons part rest ih =>
    obtain ⟨hpart, hrest⟩ := List.forall_mem_cons.mp hvisit
    unfold visitParts
    refine hR.bind (hR.refl _) (fun _ => ?_)
    exact hR.bind (hpart _) (fun t => ih hrest (done ++ [t]))

/-- **Related visits to the parts make a related visit to the node.** -/
theorem Simulation.visitNode_related (hsim : Simulation R C) (h : C Γ Γ' e)
    (hvisit : ∀ part ∈ e.parts, ∀ tys,
      R _ (visit (Γ.scopeOf e tys) part) (visit' (Γ'.scopeOf e tys) part)) :
    R _ (visitNode visit Γ e) (visitNode visit' Γ' e) := by
  have hR := hsim.congruence
  unfold visitNode
  refine hR.bind (hsim.entry h) (fun _ => ?_)
  refine hR.bind (visitParts_related hR hvisit []) (fun ts => ?_)
  rw [← bind_assoc, ← bind_assoc]
  exact hR.bind (hsim.rule h _) (fun ty => hR.refl _)

/-- **Checks in related contexts are related.** -/
theorem Simulation.transcript_related (hsim : Simulation R C) (h : C Γ Γ' e)
    (limit : UInt64) (budget : Nat) :
    R _ (transcript limit budget Γ e) (transcript limit budget Γ' e) := by
  induction budget generalizing Γ Γ' e with
  | zero => exact hsim.congruence.refl _
  | succ budget ih =>
    exact hsim.visitNode_related h
      (fun part hpart tys => ih (hsim.scope h hpart tys))

end Related

end PredicateScript
