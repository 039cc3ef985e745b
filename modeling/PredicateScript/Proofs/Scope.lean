import PredicateScript.Proofs.Judgement

/-!
# The scope of a position

An accepted script has its scopes written on it; a script that is not
accepted has them all the same, as far as the values of its bindings have
types. `Reaches Γ e p S sub` says that the position `p` of the script `e`
holds `sub`, and that `S` is the scope there. The scope changes on the way
into the body of a binding and nowhere else, and what it gains there is
the name with the type of the value.

`reaches_part` says that the walk enters the parts of a node in the scopes
that they have in this sense.
-/

namespace PredicateScript

/-- **The position `p` of `e` holds `sub`**, in the scope `S`. -/
inductive Reaches : Context → Expr → List Nat → Context → Expr → Prop where
  /-- The root is in the scope of the whole. -/
  | root {Γ : Context} {e : Expr} : Reaches Γ e [] Γ e
  /-- A part for which nothing is bound stays in the scope. -/
  | part {Γ S : Context} {e part sub : Expr} {i : Nat} {p : List Nat}
      (hpart : e.parts[i]? = some part) (hbinding : e.binding? i = none)
      (hsub : Reaches Γ part p S sub) : Reaches Γ e (i :: p) S sub
  /-- A part for which a name is bound sees the name. -/
  | body {Γ S : Context} {e part value sub : Expr} {i : Nat}
      {p : List Nat} {name : String} {ty : Ty}
      (hpart : e.parts[i]? = some part)
      (hbinding : e.binding? i = some (name, value))
      (hvalue : HasType Γ value ty)
      (hsub : Reaches (Γ.bind name ty) part p S sub) :
      Reaches Γ e (i :: p) S sub

namespace Reaches

variable {Γ S S' : Context} {e sub sub' : Expr} {p q : List Nat} {i : Nat}

/-- A way is a step and the way from there. -/
theorem cons_iff :
    Reaches Γ e (i :: p) S sub
      ↔ ∃ Γ' part, Reaches Γ e [i] Γ' part ∧ Reaches Γ' part p S sub := by
  constructor
  · intro h
    cases h with
    | part hpart hbinding hsub =>
      exact ⟨Γ, _, .part hpart hbinding .root, hsub⟩
    | body hpart hbinding hvalue hsub =>
      exact ⟨_, _, .body hpart hbinding hvalue .root, hsub⟩
  · rintro ⟨Γ', part, hstep, hsub⟩
    cases hstep with
    | part hpart hbinding hroot =>
      cases hroot
      exact .part hpart hbinding hsub
    | body hpart hbinding hvalue hroot =>
      cases hroot
      exact .body hpart hbinding hvalue hsub

/-- What is reached by a step is a part. -/
theorem parts_eq (h : Reaches Γ e [i] S sub) : e.parts[i]? = some sub := by
  cases h with
  | part hpart _ hroot | body hpart _ _ hroot =>
    cases hroot
    exact hpart

/-- **A position holds one script, in one scope**: a value has one type at
most. -/
theorem unique (h : Reaches Γ e p S sub) (h' : Reaches Γ e p S' sub') :
    S = S' ∧ sub = sub' := by
  induction h with
  | root =>
    cases h'
    exact ⟨rfl, rfl⟩
  | part hpart hbinding _ ih =>
    cases h' with
    | part hpart' _ hsub' =>
      cases hpart.symm.trans hpart'
      exact ih hsub'
    | body _ hbinding' _ _ => cases hbinding.symm.trans hbinding'
  | body hpart hbinding hvalue _ ih =>
    cases h' with
    | part _ hbinding' _ => cases hbinding.symm.trans hbinding'
    | body hpart' hbinding' hvalue' hsub' =>
      cases hpart.symm.trans hpart'
      cases hbinding.symm.trans hbinding'
      cases hvalue.unique hvalue'
      exact ih hsub'

/-- After a step, the way goes on from where the step has led. -/
theorem step_iff {Γ' : Context} {part : Expr}
    (hstep : Reaches Γ e [i] Γ' part) :
    Reaches Γ e (i :: p) S sub ↔ Reaches Γ' part p S sub := by
  constructor
  · intro h
    obtain ⟨Γ'', part', hstep', hsub⟩ := cons_iff.mp h
    obtain ⟨rfl, rfl⟩ := hstep.unique hstep'
    exact hsub
  · intro hsub
    exact cons_iff.mpr ⟨Γ', part, hstep, hsub⟩

end Reaches

/-! ## The walk enters parts in their scopes -/

/-- Where nothing is bound for a part, the part stays in the scope. -/
theorem Context.scopeOf_of_binding?_none (Γ : Context) {e : Expr}
    {tys : List Ty} (h : e.binding? tys.length = none) :
    Γ.scopeOf e tys = Γ := by
  unfold scopeOf
  split
  · cases h
  · rfl

/-- What is bound for a part is bound to the part before it. -/
theorem Term.eq_letIn_of_binding? {α : Type} {t value : Term α} {i : Nat}
    {name : String} (h : t.binding? i = some (name, value)) :
    i = 1 ∧ ∃ n body, t = .letIn n name value body := by
  unfold binding? at h
  split at h
  · cases h
    exact ⟨rfl, _, _, rfl⟩
  · cases h

/-- **A part is entered in its scope**, once the parts before it are
typed. -/
theorem reaches_part {limit : UInt64} {budget : Nat} {Γ : Context}
    {e part : Expr} {ts : List TypedExpr} {i : Nat}
    (hts : PartsTyped limit budget Γ e ts) (hi : i ≤ ts.length)
    (hpart : e.parts[i]? = some part) :
    Reaches Γ e [i] (Γ.scopeOf e ((ts.take i).map TypedExpr.ty)) part := by
  have hlen : ((ts.take i).map TypedExpr.ty).length = i := by
    rw [List.length_map, List.length_take_of_le hi]
  cases hbinding : e.binding? i with
  | none =>
    rw [Γ.scopeOf_of_binding?_none (by rw [hlen]; exact hbinding)]
    exact .part hpart hbinding .root
  | some binding =>
    obtain ⟨name, value⟩ := binding
    obtain ⟨rfl, _, body, rfl⟩ := Term.eq_letIn_of_binding? hbinding
    obtain ⟨v, vs, rfl⟩ : ∃ v vs, ts = v :: vs := by
      cases ts with
      | nil => cases hi
      | cons v vs => exact ⟨v, vs, rfl⟩
    have hvalue := hasType_of_verdict_ok (hts 0 value v rfl rfl)
    exact .body hpart hbinding hvalue .root

end PredicateScript
