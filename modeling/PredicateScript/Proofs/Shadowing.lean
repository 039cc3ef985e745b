import PredicateScript.Proofs.Annotation
import PredicateScript.Proofs.Scope
import Mathlib.Data.List.Nodup

/-!
# No binding hides another

A binding may use a name again that another binding has used: in the other
branch of a conditional, in the next argument, in a value. It may not use a
name that is in scope. So along a way into an accepted script every name is
bound once at most, and not at all if the context has it, and it makes no
difference that the innermost binding of a name is the one that counts.

`Term.bindings t p` lists the bindings whose body the position `p` lies in.
They are all that the scope there has over the context
(`TypedExpr.scopeAt_eq`), which leaves out the bindings of other branches,
those whose body ended before `p`, and those whose value `p` lies in. What
the freshness test asks of each binding in its own scope is then passed on
from the body outwards (`bindings_nodup_and_fresh`).
-/

namespace PredicateScript

/-- **The bindings around a position**, the outermost first: each whose
body the position lies in, as its name and its value. -/
def Term.bindings {α : Type} : Term α → List Nat → List (String × Term α)
  | _, [] => []
  | t, i :: p =>
    match t.parts[i]? with
    | some u => (t.binding? i).toList ++ Term.bindings u p
    | none => []

/-- The variable that a binding adds to the scope of its body. -/
def TypedExpr.variableOf (b : String × TypedExpr) : String × Ty :=
  (b.1, b.2.ty)

/-! ## The scope at a position -/

section Scope

variable {Γ : Context} {t u : TypedExpr}

theorem Context.inside_eq (Γ : Context) (t : TypedExpr) (i : Nat) :
    Γ.inside t i
      = { Γ with
          vars := ((t.binding? i).toList.map TypedExpr.variableOf).reverse
            ++ Γ.vars } := by
  unfold Context.inside
  cases t.binding? i <;> rfl

/-- **The scope at a position is the context and the bindings around
it**, the innermost in front. -/
theorem TypedExpr.scopeAt_eq (Γ : Context) (t : TypedExpr) (p : List Nat) :
    t.scopeAt Γ p
      = { Γ with
          vars := ((t.bindings p).map variableOf).reverse ++ Γ.vars } := by
  induction p generalizing Γ t with
  | nil => rfl
  | cons i p ih =>
    rw [TypedExpr.scopeAt, Term.bindings]
    cases t.parts[i]? with
    | none => rfl
    | some u =>
      show TypedExpr.scopeAt (Γ.inside t i) u p = _
      rw [ih, Context.inside_eq, List.map_append, List.reverse_append,
        List.append_assoc]

/-- The scope at a position is reached in two stages. -/
theorem TypedExpr.scopeAt_append (Γ : Context) {p : List Nat}
    (h : t.node? p = some u) (q : List Nat) :
    t.scopeAt Γ (p ++ q) = u.scopeAt (t.scopeAt Γ p) q := by
  induction p generalizing Γ t with
  | nil =>
    cases h
    rfl
  | cons i p ih =>
    rw [Term.node?_cons, Option.bind_eq_some_iff] at h
    obtain ⟨part, hpart, hu⟩ := h
    rw [List.cons_append, TypedExpr.scopeAt, TypedExpr.scopeAt, hpart]
    exact ih (Γ.inside t i) hu

end Scope

/-! ## Each name once -/

section Names

variable {limit : UInt64} {budget : Nat} {Γ : Context} {e : Expr}
  {t : TypedExpr}

/-- A binding that is accepted has a name that is not taken. -/
theorem fresh_of_verdict_ok {ty : Ty} {name : String} {value body : TypedExpr}
    (h : verdict limit budget Γ e = .ok (.letIn ty name value body)) :
    Γ.var? name = none ∧ Γ.function? name = none := by
  have hty := hasType_of_verdict_ok h
  rw [← erase_of_verdict_ok h] at hty
  cases hty with
  | letIn hvar hfun _ _ => exact ⟨hvar, hfun⟩

/-- **Along a way into an accepted script every name is bound once at
most**, and only if the context does not have it. -/
theorem bindings_nodup_and_fresh (h : verdict limit budget Γ e = .ok t)
    (p : List Nat) :
    ((t.bindings p).map Prod.fst).Nodup
      ∧ ∀ b ∈ t.bindings p,
        Γ.var? b.1 = none ∧ Γ.function? b.1 = none := by
  induction p generalizing budget Γ e t with
  | nil => exact ⟨List.nodup_nil, List.forall_mem_nil _⟩
  | cons i p ih =>
    rw [Term.bindings]
    cases hu : t.parts[i]? with
    | none => exact ⟨List.nodup_nil, List.forall_mem_nil _⟩
    | some u =>
      cases budget with
      | zero => cases h
      | succ budget =>
        obtain ⟨part, -, hpart⟩ := verdict_part h hu
        obtain ⟨hnodup, hfresh⟩ := ih hpart
        unfold Context.inside at hfresh
        cases hbinding : t.binding? i with
        | none =>
          rw [hbinding] at hfresh
          exact ⟨hnodup, hfresh⟩
        | some binding =>
          obtain ⟨name, value⟩ := binding
          obtain ⟨-, ty, body, rfl⟩ := Term.eq_letIn_of_binding? hbinding
          rw [hbinding] at hfresh
          -- further in, the name is in scope and so cannot be fresh
          have hne : ∀ b ∈ u.bindings p, b.1 ≠ name := by
            rintro b hb rfl
            have hvar := (hfresh b hb).1
            rw [Context.var?_bind_self] at hvar
            cases hvar
          refine ⟨List.nodup_cons.mpr ⟨fun hmem => ?_, hnodup⟩,
            List.forall_mem_cons.mpr
              ⟨fresh_of_verdict_ok h, fun b hb => ?_⟩⟩
          · obtain ⟨b, hb, heq⟩ := List.mem_map.mp hmem
            exact hne b hb heq
          · have hb' := hfresh b hb
            rwa [Context.var?_bind_of_ne _ _ (hne b hb),
              Context.function?_bind] at hb'

/-- A name that is looked up at a position is found among the bindings
around it, or there is none of that name and it is found in the
context. -/
theorem var?_scopeAt {p : List Nat} {name : String} {ty : Ty}
    (h : (t.scopeAt Γ p).var? name = some ty) :
    (∃ value : TypedExpr, (name, value) ∈ t.bindings p ∧ value.ty = ty)
      ∨ (∀ b ∈ t.bindings p, b.1 ≠ name) ∧ Γ.var? name = some ty := by
  rw [TypedExpr.scopeAt_eq, Context.var?, List.lookup_append,
    Option.or_eq_some_iff] at h
  obtain h | ⟨hnone, h⟩ := h
  · left
    obtain ⟨front, back, hvars, -⟩ := List.lookup_eq_some_iff.mp h
    have hmem : (name, ty) ∈ (t.bindings p).map TypedExpr.variableOf := by
      rw [← List.mem_reverse, hvars]
      exact List.mem_append_right _ List.mem_cons_self
    obtain ⟨⟨_, value⟩, hb, ⟨⟩⟩ := List.mem_map.mp hmem
    exact ⟨value, hb, rfl⟩
  · right
    refine ⟨?_, h⟩
    rintro b hb rfl
    have hne := List.lookup_eq_none_iff.mp hnone (TypedExpr.variableOf b)
      (List.mem_reverse.mpr (List.mem_map_of_mem hb))
    exact absurd hne (by simp [TypedExpr.variableOf])

/-- **What a reference refers to**: a binding around it, or else the
variable of the context. -/
theorem ref_resolves {p : List Nat} {name : String} {ty : Ty}
    (h : verdict limit budget Γ e = .ok t)
    (href : t.node? p = some (.ref ty name)) :
    (∃ value : TypedExpr, (name, value) ∈ t.bindings p ∧ value.ty = ty)
      ∨ (∀ b ∈ t.bindings p, b.1 ≠ name) ∧ Γ.var? name = some ty := by
  obtain ⟨sub, -, hsub⟩ := verdict_node? h href
  have hty := hasType_of_verdict_ok hsub
  rw [← erase_of_verdict_ok hsub] at hty
  cases hty with
  | ref hvar _ => exact var?_scopeAt hvar

/-- **A binding is not in scope in its own value.** The value is checked
without the name, and a reference to the name that occurs in it all the
same is to a binding inside the value. -/
theorem not_visible_in_value {p : List Nat} {ty : Ty} {name : String}
    {value body : TypedExpr} (h : verdict limit budget Γ e = .ok t)
    (hnode : t.node? p = some (.letIn ty name value body)) :
    (t.scopeAt Γ (p ++ [0])).var? name = none
      ∧ ∀ q ty', value.node? q = some (.ref ty' name) →
        ∃ inner : TypedExpr, (name, inner) ∈ value.bindings q
          ∧ inner.ty = ty' := by
  obtain ⟨sub, -, hsub⟩ := verdict_node? h hnode
  have hfresh := (fresh_of_verdict_ok hsub).1
  refine ⟨?_, fun q ty' href => ?_⟩
  · rw [TypedExpr.scopeAt_append Γ hnode]
    exact hfresh
  · cases hlevels : budget - p.length with
    | zero =>
      rw [hlevels] at hsub
      cases hsub
    | succ levels =>
      rw [hlevels] at hsub
      obtain ⟨part, -, hvalue⟩ := verdict_part hsub (i := 0) rfl
      obtain hinner | ⟨-, houter⟩ := ref_resolves hvalue href
      · exact hinner
      · exact absurd (houter.symm.trans hfresh) (by simp)

end Names

/-- **No binding hides another.** Along every way into an accepted script,
the names of the bindings whose body it enters are distinct, and none of
them is a variable or a function of the context. What is in scope at its
end is these bindings and the variables of the context, and nothing else. A
binding is not in scope in its own value. So a reference is to the one
binding of its name around it and has the type of its value, or, where
there is none, to the innermost variable of the context that has the
name. -/
theorem Checker.accepted_no_shadowing {config : Config} {Γ : Context}
    {e : Expr} {sink : Sink} {t : TypedExpr}
    (h : ((Checker.new config).run Γ e sink).1 = .accepted t
      ∨ (checkWith config Γ e sink).1 = .accepted t)
    {p : List Nat} {node : TypedExpr} (hnode : t.node? p = some node) :
    ((t.bindings p).map Prod.fst).Nodup
      ∧ (∀ b ∈ t.bindings p, Γ.var? b.1 = none ∧ Γ.function? b.1 = none)
      ∧ t.scopeAt Γ p
        = { Γ with
            vars := ((t.bindings p).map TypedExpr.variableOf).reverse
              ++ Γ.vars }
      ∧ (∀ ty name value body, node = .letIn ty name value body →
        (t.scopeAt Γ (p ++ [0])).var? name = none
          ∧ ∀ q ty', value.node? q = some (.ref ty' name) →
            ∃ inner : TypedExpr, (name, inner) ∈ value.bindings q
              ∧ inner.ty = ty')
      ∧ ∀ ty name, node = .ref ty name →
        (∃ value : TypedExpr, (name, value) ∈ t.bindings p ∧ value.ty = ty
            ∧ ∀ b ∈ t.bindings p, b.1 = name → b = (name, value))
          ∨ (∀ b ∈ t.bindings p, b.1 ≠ name) ∧ Γ.var? name = some ty := by
  have hverdict : verdict config.maxDepth config.maxDepth.toNat Γ e
      = .ok t := by
    obtain h | h := h
    · exact verdict_of_accepted h
    · exact verdict_of_checkWith h
  obtain ⟨hnodup, hfresh⟩ := bindings_nodup_and_fresh hverdict p
  refine ⟨hnodup, hfresh, TypedExpr.scopeAt_eq Γ t p, ?_, ?_⟩
  · rintro ty name value body rfl
    exact not_visible_in_value hverdict hnode
  · rintro ty name rfl
    obtain ⟨value, hmem, hty⟩ | hcontext := ref_resolves hverdict hnode
    · exact Or.inl ⟨value, hmem, hty, fun b hb hname =>
        List.inj_on_of_nodup_map hnodup hb hmem hname⟩
    · exact Or.inr hcontext

/-- In `{ let a = { let b = 1; b }; a + { let b = tx; b.fee } }` the name
`b` is bound twice, but around the reference in `b.fee` only once, and that
reference is to the transaction. -/
theorem Checker.accepted_no_shadowing_twice :
    let Γ := Context.empty
      |>.withType "Tx" ⟨[("fee", .long)]⟩
      |>.bind "tx" (.named "Tx")
    let t : TypedExpr := .letIn .long "a"
      (.letIn .long "b" (.lit .long (.long 1)) (.ref .long "b"))
      (.binary .long .sum (.ref .long "a")
        (.letIn .long "b" (.ref (.named "Tx") "tx")
          (.access .long (.ref (.named "Tx") "b") "fee")))
    ((Checker.new ⟨5⟩).run Γ t.erase (Sink.fresh none)).1 = .accepted t
      ∧ t.node? [1, 1, 1, 0] = some (.ref (.named "Tx") "b")
      ∧ (t.bindings [1, 1, 1, 0]).map Prod.fst = ["a", "b"]
      ∧ ∃ value : TypedExpr, ("b", value) ∈ t.bindings [1, 1, 1, 0]
        ∧ value.ty = .named "Tx"
        ∧ ∀ b ∈ t.bindings [1, 1, 1, 0], b.1 = "b" → b = ("b", value) := by
  intro Γ t
  have h : ((Checker.new ⟨5⟩).run Γ t.erase (Sink.fresh none)).1
      = .accepted t := rfl
  have hnode : t.node? [1, 1, 1, 0] = some (.ref (.named "Tx") "b") := rfl
  have hmem : ("b", .ref (.named "Tx") "tx") ∈ t.bindings [1, 1, 1, 0] :=
    .tail _ (.head _)
  obtain ⟨-, -, -, -, href⟩ := Checker.accepted_no_shadowing (Or.inl h) hnode
  exact ⟨h, hnode, rfl, (href _ _ rfl).resolve_right
    (fun hcontext => hcontext.1 _ hmem rfl)⟩

end PredicateScript
