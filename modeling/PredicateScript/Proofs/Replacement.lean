import PredicateScript.Proofs.Annotation

/-!
# One part of a script in place of another

A script with a hole is a script and a position in it: `Term.graft t p u`
is the tree `t` with `u` at the position `p`, and everything else as it was.
What may be put into the hole is decided by two things, the scope there and
the type that the rest of the script counts on. A rule looks at the types
of the parts of its node and at nothing else of them. So a script that is
accepted stays accepted when a part of it gives way to another of the same
type, and its tree is the old tree with the new part grafted in
(`Elaborates.graft`). That is so also where the type of the part settles
what other parts are: the placeholders of a call, or the name that a
binding adds to the scope of its body.

The levels that a check has left have no say in this. `Elaborates Γ e t`
says that `t` is what the script is accepted as where there are levels
enough, and `elaborates_iff` reads it one node at a time.
-/

namespace PredicateScript

/-! ## Elaboration -/

/-- **The script is accepted as the tree `t`**, where there are levels
enough. -/
def Elaborates (Γ : Context) (e : Expr) (t : TypedExpr) : Prop :=
  verdict 0 e.height Γ e = .ok t

/-- The parts of a node like `e` are accepted as `ts`, each in the scope
that the types of those before it make. -/
def PartsElaborate (Γ : Context) (e : Expr) (parts : List Expr)
    (ts : List TypedExpr) : Prop :=
  LeftToRight
    (fun done part u =>
      Elaborates (Γ.scopeOf e (done.map TypedExpr.ty)) part u) [] parts ts

section Elaboration

variable {Γ : Context} {e : Expr} {t : TypedExpr}

/-- To be accepted is to elaborate, and not to be too high. -/
theorem verdict_ok_iff_elaborates {limit : UInt64} {budget : Nat} :
    verdict limit budget Γ e = .ok t
      ↔ e.height ≤ budget ∧ Elaborates Γ e t := by
  constructor
  · intro h
    exact ⟨height_le_of_verdict_ok h,
      verdict_ok_of_height_le h (Nat.le_refl _)⟩
  · rintro ⟨hheight, h⟩
    exact verdict_ok_of_height_le h hheight

theorem Checker.accepts_iff_elaborates {limit : UInt64} :
    (Checker.new ⟨limit⟩).Accepts Γ e t
      ↔ e.height ≤ limit.toNat ∧ Elaborates Γ e t := by
  rw [accepts_iff, budget_new]
  exact verdict_ok_iff_elaborates

/-- What a checker accepts elaborates to what it is accepted as. -/
theorem Checker.elaborates_of_accepted {limit : UInt64} {sink : Sink}
    (h : ((Checker.new ⟨limit⟩).run Γ e sink).1 = .accepted t) :
    Elaborates Γ e t :=
  (verdict_ok_iff_elaborates.mp (verdict_of_accepted h)).2

/-- **Elaboration, one node at a time.** -/
theorem elaborates_iff :
    Elaborates Γ e t
      ↔ Γ.entryTest e = .ok ()
        ∧ ∃ ts ty, ts.length = e.parts.length
          ∧ PartsElaborate Γ e e.parts ts
          ∧ Γ.nodeType e (ts.map TypedExpr.ty) = .ok ty
          ∧ e.rebuild ty ts = t := by
  obtain ⟨levels, hlevels⟩ : ∃ levels, e.height = levels + 1 :=
    ⟨e.height - 1, (Nat.succ_pred_eq_of_pos e.height_pos).symm⟩
  -- a part has the levels it needs
  have hpart : ∀ part ∈ e.parts, part.height ≤ levels :=
    (Term.height_le_succ_iff e).mp (Nat.le_of_eq hlevels)
  rw [Elaborates, hlevels, verdict_succ_ok_iff]
  refine and_congr_right fun _ => exists_congr fun ts => exists_congr fun ty =>
    and_congr_right fun _ => and_congr_left fun _ => ?_
  constructor
  · intro h i part u hi hu
    exact (verdict_ok_iff_elaborates.mp (h i part u hi hu)).2
  · intro h i part u hi hu
    exact verdict_ok_iff_elaborates.mpr
      ⟨hpart part (List.mem_of_getElem? hi), h i part u hi hu⟩

end Elaboration

/-! ## A rule sees the kind of its node -/

section Kind

variable {e : Expr} {us : List Expr}

theorem Context.entryTest_rebuild (Γ : Context)
    (h : us.length = e.parts.length) :
    Γ.entryTest (e.rebuild () us) = Γ.entryTest e := by
  match e, us, h with
  | .call _ name args, us, h =>
    show (Γ.callee name us.length).map _ = (Γ.callee name args.length).map _
    rw [h]
    rfl
  | .lit .., _, _ | .ref .., _, _ | .access .., [_], _
  | .binary .., [_, _], _ | .block .., [_], _ | .letIn .., [_, _], _
  | .ifElse .., [_, _, _], _ => rfl

theorem Context.scopeOf_rebuild (Γ : Context)
    (h : us.length = e.parts.length) (tys : List Ty) :
    Γ.scopeOf (e.rebuild () us) tys = Γ.scopeOf e tys := by
  match e, us, h with
  | .letIn .., [_, _], _ => obtain _ | ⟨_, _ | _⟩ := tys <;> rfl
  | .lit .., _, _ | .ref .., _, _ | .access .., [_], _ | .call .., _, _
  | .binary .., [_, _], _ | .block .., [_], _ | .ifElse .., [_, _, _], _ =>
    rfl

theorem Context.nodeType_rebuild (Γ : Context)
    (h : us.length = e.parts.length) (tys : List Ty) :
    Γ.nodeType (e.rebuild () us) tys = Γ.nodeType e tys := by
  match e, us, h with
  | .call _ name args, us, h =>
    show (Γ.callee name us.length >>= _) = (Γ.callee name args.length >>= _)
    rw [h]
    rfl
  | .lit .., _, _ | .ref .., _, _ | .access .., [_], _
  | .binary .., [_, _], _ | .block .., [_], _ | .letIn .., [_, _], _
  | .ifElse .., [_, _, _], _ =>
    -- no rule but that of a call reads more than three types
    obtain _ | ⟨_, _ | ⟨_, _ | ⟨_, _ | _⟩⟩⟩ := tys <;> rfl

theorem Term.rebuild_rebuild {α β γ : Type} {t : Term α} {n : β} {m : γ}
    {us : List (Term β)} {vs : List (Term γ)}
    (hus : us.length = t.parts.length) (hvs : vs.length = t.parts.length) :
    (t.rebuild n us).rebuild m vs = t.rebuild m vs := by
  match t, us, vs, hus, hvs with
  | .lit .., _, _, _, _ | .ref .., _, _, _, _ | .access .., [_], [_], _, _
  | .call .., _, _, _, _ | .binary .., [_, _], [_, _], _, _
  | .block .., [_], [_], _, _ | .letIn .., [_, _], [_, _], _, _
  | .ifElse .., [_, _, _], [_, _, _], _, _ => rfl

/-- **Elaboration of a node over other parts**: of the node itself only its
kind is asked for. -/
theorem elaborates_rebuild_iff {Γ : Context} {t : TypedExpr}
    (h : us.length = e.parts.length) :
    Elaborates Γ (e.rebuild () us) t
      ↔ Γ.entryTest e = .ok ()
        ∧ ∃ ts ty, ts.length = us.length
          ∧ PartsElaborate Γ e us ts
          ∧ Γ.nodeType e (ts.map TypedExpr.ty) = .ok ty
          ∧ e.rebuild ty ts = t := by
  rw [elaborates_iff, Γ.entryTest_rebuild h, Term.parts_rebuild () h]
  simp only [PartsElaborate, Γ.scopeOf_rebuild h, Γ.nodeType_rebuild h]
  refine and_congr_right fun _ => exists_congr fun ts => exists_congr fun ty =>
    and_congr_right fun hts => ?_
  rw [Term.rebuild_rebuild h (hts.trans h)]

end Kind

/-! ## Grafting -/

namespace Term

variable {α : Type}

/-- **The tree with `u` at a position**, and everything else as it was. A
position that the tree does not have leaves it alone. -/
def graft : Term α → List Nat → Term α → Term α
  | _, [], u => u
  | t, i :: p, u => t.rebuild t.note (t.parts.modify i (fun v => v.graft p u))

@[simp] theorem graft_nil (t u : Term α) : t.graft [] u = u := rfl

theorem graft_cons (t : Term α) (i : Nat) (p : List Nat) (u : Term α) :
    t.graft (i :: p) u
      = t.rebuild t.note (t.parts.modify i (fun v => v.graft p u)) := rfl

@[simp] theorem parts_graft_cons (t : Term α) (i : Nat) (p : List Nat)
    (u : Term α) :
    (t.graft (i :: p) u).parts = t.parts.modify i (fun v => v.graft p u) :=
  parts_rebuild t.note (List.length_modify _ _ _)

/-- Grafting keeps the note of the root, unless the root is what gives
way; and then it does if the new root has the same. -/
theorem note_graft {t u : Term α} {p : List Nat}
    (h : (t.node? p).map note = some u.note) : (t.graft p u).note = t.note := by
  cases p with
  | nil => exact (Option.some.inj h).symm
  | cons i p => exact note_rebuild _ _ _

/-- The new part is where it was put. -/
theorem node?_graft_self {t : Term α} {p : List Nat}
    (h : (t.node? p).isSome = true) (u : Term α) :
    (t.graft p u).node? p = some u := by
  induction p generalizing t with
  | nil => rfl
  | cons i p ih =>
    rw [node?_cons] at h ⊢
    rw [parts_graft_cons, List.getElem?_modify_eq]
    cases hi : t.parts[i]? with
    | none =>
      rw [hi] at h
      cases h
    | some part =>
      rw [hi] at h
      exact ih h

/-- **No other note changes**: a position that does not lie in the new part
has the note it had. -/
theorem note_node?_graft {t : Term α} {p q : List Nat} (h : ¬ p <+: q)
    (u : Term α) :
    ((t.graft p u).node? q).map note = (t.node? q).map note := by
  induction p generalizing t q with
  | nil => exact absurd List.nil_prefix h
  | cons i p ih =>
    cases q with
    | nil => exact congrArg some (note_rebuild _ _ _)
    | cons j q =>
      rw [node?_cons, node?_cons, parts_graft_cons]
      by_cases hij : i = j
      · subst hij
        have hq : ¬ p <+: q := fun hp =>
          h (List.cons_prefix_cons.mpr ⟨rfl, hp⟩)
        rw [List.getElem?_modify_eq]
        cases t.parts[i]? with
        | none => rfl
        | some part => exact ih hq
      · rw [List.getElem?_modify_ne _ _ hij]

end Term

/-! ## A part of the same type -/

/-- Where a part is changed and its type is not, the types stay. -/
theorem map_ty_modify {ts : List TypedExpr} {i : Nat}
    {f : TypedExpr → TypedExpr} {u : TypedExpr} (hi : ts[i]? = some u)
    (h : (f u).ty = u.ty) :
    (ts.modify i f).map TypedExpr.ty = ts.map TypedExpr.ty := by
  refine List.ext_getElem? (fun j => ?_)
  rw [List.getElem?_map, List.getElem?_map]
  by_cases hij : i = j
  · subst hij
    rw [List.getElem?_modify_eq, hi]
    exact congrArg some h
  · rw [List.getElem?_modify_ne _ _ hij]

/-- **One part gives way to another with the same type**: the other parts
are accepted as before, since they see the types only. -/
theorem PartsElaborate.modify {Γ : Context} {e part : Expr}
    {es : List Expr} {f f' : Expr → Expr} {g : TypedExpr → TypedExpr}
    {ts : List TypedExpr} {i : Nat} {u : TypedExpr}
    (h : PartsElaborate Γ e (es.modify i f) ts) (hpart : es[i]? = some part)
    (hu : ts[i]? = some u) (hty : (g u).ty = u.ty)
    (hnew : Elaborates (Γ.scopeOf e ((ts.take i).map TypedExpr.ty))
      (f' part) (g u)) :
    PartsElaborate Γ e (es.modify i f') (ts.modify i g) := by
  intro j part' t hj ht
  show Elaborates
    (Γ.scopeOf e (((ts.modify i g).take j).map TypedExpr.ty)) part' t
  rw [List.map_take, map_ty_modify hu hty, ← List.map_take]
  by_cases hij : i = j
  · subst hij
    rw [List.getElem?_modify_eq, hpart] at hj
    rw [List.getElem?_modify_eq, hu] at ht
    cases hj
    cases ht
    exact hnew
  · rw [List.getElem?_modify_ne _ _ hij] at hj ht
    refine h j part' t ?_ ht
    rw [List.getElem?_modify_ne _ _ hij]
    exact hj

/-- **A part may give way to another of the same type**: the script
elaborates to the tree with the new part grafted in. -/
theorem Elaborates.graft {Γ : Context} {C e₁ e₂ : Expr} {p : List Nat}
    {t t₂ : TypedExpr} (hhole : (C.node? p).isSome = true)
    (h : Elaborates Γ (C.graft p e₁) t)
    (h₂ : Elaborates (t.scopeAt Γ p) e₂ t₂)
    (hty : (t.node? p).map Term.note = some t₂.ty) :
    Elaborates Γ (C.graft p e₂) (t.graft p t₂) := by
  induction p generalizing Γ C t with
  | nil => exact h₂
  | cons i p ih =>
    -- the hole lies in the part `D` of the script
    rw [Term.node?_cons, Option.isSome_bind, Option.any_eq_true] at hhole
    obtain ⟨D, hD, hhole⟩ := hhole
    rw [Term.graft_cons, elaborates_rebuild_iff (List.length_modify _ _ _)] at h
    obtain ⟨hentry, ts, ty, hlen, hts, hnodeType, rfl⟩ := h
    rw [List.length_modify] at hlen
    have hparts : (C.rebuild ty ts).parts = ts := Term.parts_rebuild ty hlen
    have hi : i < ts.length := by
      rw [hlen]
      exact (List.getElem?_eq_some_iff.mp hD).1
    -- which elaborates to `u`, in the scope of the part
    obtain ⟨u, hu⟩ : ∃ u, ts[i]? = some u :=
      ⟨ts[i], List.getElem?_eq_getElem hi⟩
    have hDu := hts i (D.graft p e₁) u
      (by rw [List.getElem?_modify_eq, hD]; rfl) hu
    rw [List.nil_append] at hDu
    have hscope : TypedExpr.scopeAt Γ (C.rebuild ty ts) (i :: p)
        = u.scopeAt (Γ.scopeOf C ((ts.take i).map TypedExpr.ty)) p := by
      rw [TypedExpr.scopeAt, hparts, hu, scopeOf_take_eq_inside Γ ty hlen hi]
    rw [hscope] at h₂
    rw [Term.node?_cons, hparts, hu] at hty
    have hnew := ih hhole hDu h₂ hty
    have hkeep : (u.graft p t₂).note = u.ty := Term.note_graft hty
    -- the types of the parts have not changed, and that is all that counts
    rw [Term.graft_cons, Term.graft_cons, hparts, Term.note_rebuild C ty ts,
      Term.rebuild_rebuild hlen ((List.length_modify _ _ _).trans hlen),
      elaborates_rebuild_iff (List.length_modify _ _ _)]
    refine ⟨hentry, _, ty, ?_, hts.modify hD hu hkeep hnew, ?_, rfl⟩
    · rw [List.length_modify, List.length_modify, hlen]
    · rw [map_ty_modify hu hkeep]
      exact hnodeType

/-- **Congruence.** Let a script be accepted with `e₁` at a position, and
let `e₂` be accepted in the scope of that position with the type that the
node of `e₁` has in the tree. Then the script with `e₂` there is accepted
wherever it is not too high, and its tree is the tree of the first script
with the tree of `e₂` grafted in: at the position there is the tree of
`e₂`, and every other node has the type it had. -/
theorem Checker.replacement_accepted {limit limit₂ : UInt64} {Γ : Context}
    {C e₁ e₂ : Expr} {p : List Nat} {t t₂ : TypedExpr} {sink sink₂ : Sink}
    (hhole : (C.node? p).isSome = true)
    (h : ((Checker.new ⟨limit⟩).run Γ (C.graft p e₁) sink).1 = .accepted t)
    (h₂ : ((Checker.new ⟨limit₂⟩).run (t.scopeAt Γ p) e₂ sink₂).1
      = .accepted t₂)
    (hty : (t.node? p).map Term.note = some t₂.ty) :
    (∀ limit' : UInt64, (C.graft p e₂).height ≤ limit'.toNat →
      (Checker.new ⟨limit'⟩).Accepts Γ (C.graft p e₂) (t.graft p t₂))
    ∧ (t.graft p t₂).node? p = some t₂
    ∧ ∀ q, ¬ p <+: q →
      ((t.graft p t₂).node? q).map Term.note
        = (t.node? q).map Term.note := by
  have hgraft : Elaborates Γ (C.graft p e₂) (t.graft p t₂) :=
    (elaborates_of_accepted h).graft hhole (elaborates_of_accepted h₂) hty
  have hnode : (t.node? p).isSome = true := by
    rw [← Option.isSome_map (f := Term.note), hty]
    rfl
  exact ⟨fun limit' hheight => accepts_iff_elaborates.mpr ⟨hheight, hgraft⟩,
    Term.node?_graft_self hnode t₂, fun q hq => Term.note_node?_graft hq t₂⟩

/-- In `{ let a = choose(height, 1); { let b = a; id(b) } }` the type of the
first argument settles that of the call, of both names and of the other
call. With `{ let c = tx.fee; c + height }` in its place the script is
accepted, and the types around it are what they were. -/
theorem Checker.replacement_accepted_fee :
    let C : Expr := .letIn () "a"
      (.call () "choose" [.ref () "height", Expr.long 1])
      (.letIn () "b" (.ref () "a") (.call () "id" [.ref () "b"]))
    let e₂ : Expr := .letIn () "c" (.access () (.ref () "tx") "fee")
      (.binary () .sum (.ref () "c") (.ref () "height"))
    let body : TypedExpr := .letIn .long "b" (.ref .long "a")
      (.call .long "id" [.ref .long "b"])
    let t : TypedExpr := .letIn .long "a"
      (.call .long "choose"
        [.ref .long "height", .lit .long (.long 1)]) body
    let t₂ : TypedExpr := .letIn .long "c"
      (.access .long (.ref (.named "Transaction") "tx") "fee")
      (.binary .long .sum (.ref .long "c") (.ref .long "height"))
    ((Checker.new ⟨4⟩).run sampleContext (C.graft [0, 0] (.ref () "height"))
        (Sink.fresh none)).1 = .accepted t
      ∧ (C.graft [0, 0] e₂).height = 5
      ∧ (Checker.new ⟨5⟩).Accepts sampleContext (C.graft [0, 0] e₂)
        (.letIn .long "a"
          (.call .long "choose" [t₂, .lit .long (.long 1)]) body) := by
  intro C e₂ body t t₂
  have h : ((Checker.new ⟨4⟩).run sampleContext
      (C.graft [0, 0] (.ref () "height")) (Sink.fresh none)).1
        = .accepted t := rfl
  have h₂ : ((Checker.new ⟨3⟩).run (t.scopeAt sampleContext [0, 0]) e₂
      (Sink.fresh none)).1 = .accepted t₂ := rfl
  refine ⟨h, rfl, ?_⟩
  exact (Checker.replacement_accepted rfl h h₂ rfl).1 5 (by decide)

end PredicateScript
