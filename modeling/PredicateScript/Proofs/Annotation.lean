import PredicateScript.Proofs.Judgement

/-!
# The annotations of an accepted script

The tree that comes out of a check is the script that went in, with a type
on every node. Both halves are said here for every node and not only for
the root. Erasing the types gives the script back; and the type at a
position is the one that a check of the subscript there would come to, had
it been started in the scope of that position (`TypedExpr.scopeAt`): the
context, extended by every binding whose body the position lies in.

The types themselves stand for something. Whatever a context promises
about types it does not have, no node of an accepted script carries one of
them, because a type enters a tree from the context only through
`Context.known` and is handed on unchanged from there.
-/

namespace PredicateScript

/-- The scope of a part of a typed node: a binding adds its name, with the
type its value is annotated with, for its body. -/
def Context.inside (Γ : Context) (t : TypedExpr) (i : Nat) : Context :=
  match t.binding? i with
  | some (name, value) => Γ.bind name value.note
  | none => Γ

/-- **The scope at a position** of a typed tree: the context extended,
outermost first, by every binding whose body the position lies in. -/
def TypedExpr.scopeAt (Γ : Context) : TypedExpr → List Nat → Context
  | _, [] => Γ
  | t, i :: p =>
    match t.parts[i]? with
    | some u => TypedExpr.scopeAt (Γ.inside t i) u p
    | none => Γ

/-! ## The scope of a part -/

/-- The scope that the walk enters a part with is the one its annotated
siblings make. -/
theorem scopeOf_take_eq_inside (Γ : Context) (ty : Ty) :
    ∀ {e : Expr} {ts : List TypedExpr} {i : Nat},
      ts.length = e.parts.length → i < ts.length →
      Γ.scopeOf e ((ts.take i).map TypedExpr.ty)
        = Γ.inside (e.rebuild ty ts) i
  | .letIn .., [_, _], 0, _, _ | .letIn .., [_, _], 1, _, _ => rfl
  | .lit .., _, _, _, _ | .ref .., _, _, _, _
  | .access .., [_], _, _, _ | .call .., _, _, _, _
  | .binary .., [_, _], _, _, _ | .block .., [_], _, _, _
  | .ifElse .., [_, _, _], _, _, _ => rfl

/-- No scope has other types than the context it is made from. -/
@[simp] theorem Context.knows_inside (Γ : Context) (t : TypedExpr) (i : Nat)
    (ty : Ty) : (Γ.inside t i).knows ty = Γ.knows ty := by
  unfold inside
  split
  · cases ty <;> rfl
  · rfl

/-! ## The script, and what is said of each node -/

section Annotation

variable {limit : UInt64} {budget : Nat} {Γ : Context} {e : Expr}
  {t : TypedExpr}

/-- **The typed tree is the script**, once the types are erased. -/
theorem erase_of_verdict_ok (h : verdict limit budget Γ e = .ok t) :
    t.erase = e := by
  induction budget generalizing Γ e t with
  | zero => cases h
  | succ budget ih =>
    obtain ⟨-, ts, ty, hlen, hts, -, rfl⟩ := verdict_succ_ok_iff.mp h
    exact Term.erase_rebuild ty
      (hts.map_eq hlen (fun _ part u hu => ih hu))

/-- **Levels to spare change nothing**: a script is accepted as the same
tree at every limit, and with as many levels left, as it needs. -/
theorem verdict_ok_of_height_le {limit' : UInt64} {budget' : Nat}
    (h : verdict limit budget Γ e = .ok t) (hb : e.height ≤ budget') :
    verdict limit' budget' Γ e = .ok t := by
  induction budget generalizing budget' Γ e t with
  | zero => cases h
  | succ budget ih =>
    obtain ⟨hentry, ts, ty, hlen, hts, hty, rfl⟩ :=
      verdict_succ_ok_iff.mp h
    cases budget' with
    | zero => exact absurd e.height_pos (Nat.not_lt.mpr hb)
    | succ budget' =>
      rw [Term.height_le_succ_iff] at hb
      refine verdict_succ_ok_iff.mpr
        ⟨hentry, ts, ty, hlen, fun i part u hpart hu => ?_, hty, rfl⟩
      exact ih (hts i part u hpart hu) (hb part (List.mem_of_getElem? hpart))

/-- One step into an accepted tree: the part there is the checked part of
the script, in the scope of the part. -/
theorem verdict_part {i : Nat} {u : TypedExpr}
    (h : verdict limit (budget + 1) Γ e = .ok t)
    (hu : t.parts[i]? = some u) :
    ∃ part, e.parts[i]? = some part
      ∧ verdict limit budget (Γ.inside t i) part = .ok u := by
  obtain ⟨-, ts, ty, hlen, hts, -, rfl⟩ := verdict_succ_ok_iff.mp h
  rw [Term.parts_rebuild ty hlen] at hu
  have hi : i < ts.length := (List.getElem?_eq_some_iff.mp hu).1
  rw [← scopeOf_take_eq_inside Γ ty hlen hi]
  have hpart := List.getElem?_eq_getElem (hlen ▸ hi)
  exact ⟨_, hpart, hts i _ u hpart hu⟩

/-- **Every node is what a check in its own scope would give.** -/
theorem verdict_node? {p : List Nat} {node : TypedExpr}
    (h : verdict limit budget Γ e = .ok t)
    (hnode : t.node? p = some node) :
    ∃ sub, e.node? p = some sub
      ∧ verdict limit (budget - p.length) (t.scopeAt Γ p) sub = .ok node := by
  induction p generalizing budget Γ e t with
  | nil =>
    cases hnode
    exact ⟨e, rfl, h⟩
  | cons i p ih =>
    cases budget with
    | zero => cases h
    | succ budget =>
      rw [Term.node?_cons, Option.bind_eq_some_iff] at hnode
      obtain ⟨u, hu, hnode⟩ := hnode
      obtain ⟨part, hpart, hverdict⟩ := verdict_part h hu
      obtain ⟨sub, hsub, hverdict⟩ := ih hverdict hnode
      refine ⟨sub, ?_, ?_⟩
      · rw [Term.node?_cons, hpart]
        exact hsub
      · rw [TypedExpr.scopeAt, hu, List.length_cons,
          Nat.add_sub_add_right]
        exact hverdict

end Annotation

/-- **The typed tree is the script, annotated.** Erasing the types of an
accepted tree gives the script back, and each of its nodes is what a check
of the subscript there, in the scope of its position, comes to under any
limit that is not too low for it. -/
theorem Checker.accepted_annotations {limit : UInt64} {Γ : Context}
    {e : Expr} {sink : Sink} {t : TypedExpr}
    (h : ((Checker.new ⟨limit⟩).run Γ e sink).1 = .accepted t) :
    t.erase = e
      ∧ ∀ p node, t.node? p = some node →
        ∃ sub, e.node? p = some sub ∧ sub.height ≤ limit.toNat
          ∧ ∀ limit' : UInt64, sub.height ≤ limit'.toNat →
            (Checker.new ⟨limit'⟩).Accepts (t.scopeAt Γ p) sub node := by
  have hverdict := verdict_of_accepted h
  refine ⟨erase_of_verdict_ok hverdict, fun p node hnode => ?_⟩
  obtain ⟨sub, hsub, hsubVerdict⟩ := verdict_node? hverdict hnode
  refine ⟨sub, hsub, ?_, fun limit' hlimit' => ?_⟩
  · exact Nat.le_trans (height_le_of_verdict_ok hsubVerdict)
      (Nat.sub_le _ _)
  · exact accepts_iff.mpr (verdict_ok_of_height_le hsubVerdict hlimit')

/-- In `{ let to = tx.recipient; to.bytes }` the reference in the body is
checked in a scope that has `to`, as the address it is bound to. -/
theorem Checker.accepted_annotations_recipient :
    let e : Expr := .letIn () "to"
      (.access () (.ref () "tx") "recipient")
      (.access () (.ref () "to") "bytes")
    let t : TypedExpr := .letIn .byteVector "to"
      (.access (.named "Address") (.ref (.named "Transaction") "tx")
        "recipient")
      (.access .byteVector (.ref (.named "Address") "to") "bytes")
    ((Checker.new ⟨3⟩).run sampleContext e (Sink.fresh none)).1 = .accepted t
      ∧ ∃ sub, e.node? [1, 0] = some sub
        ∧ sub.height ≤ (3 : UInt64).toNat
        ∧ ∀ limit' : UInt64, sub.height ≤ limit'.toNat →
          (Checker.new ⟨limit'⟩).Accepts
            (sampleContext.bind "to" (.named "Address")) sub
            (.ref (.named "Address") "to") := by
  intro e t
  have h : ((Checker.new ⟨3⟩).run sampleContext e (Sink.fresh none)).1
      = .accepted t := rfl
  exact ⟨h, (Checker.accepted_annotations h).2 [1, 0] _ rfl⟩

/-! ## No unknown type gets in -/

section Known

variable {limit : UInt64} {budget : Nat} {Γ : Context} {e : Expr}
  {t : TypedExpr}

/-- **A rule gives a type that is known**, if the types of the parts
are. -/
theorem Context.knows_of_nodeType {tys : List Ty} {ty : Ty}
    (h : Γ.nodeType e tys = .ok ty)
    (htys : ∀ ty ∈ tys, Γ.knows ty = true) : Γ.knows ty = true := by
  unfold nodeType at h
  split at h
  · next value =>
    cases h
    cases value <;> rfl
  · exact (reference_eq_ok_iff.mp h).2
  · obtain ⟨_, _, -, -, -, hknown⟩ := fieldType_eq_ok_iff.mp h
    exact hknown
  · next name args =>
    cases hsig : Γ.callee name args.length with
    | error cause =>
      rw [hsig] at h
      cases h
    | ok sig =>
      rw [hsig] at h
      exact (resultType_eq_ok_iff.mp h).2
  · next op _ _ _ _ =>
    obtain ⟨-, rfl⟩ := Operator.typeOf_eq_ok_iff.mp h
    cases op <;> rfl
  · cases h
    exact htys _ (by simp)
  · cases h
    exact htys _ (by simp)
  · obtain ⟨rfl, -⟩ := branchType_eq_ok_iff.mp h
    exact htys _ (by simp)
  · cases h

/-- **What is accepted has a type that is known.** -/
theorem knows_of_verdict_ok (h : verdict limit budget Γ e = .ok t) :
    Γ.knows t.ty = true := by
  induction budget generalizing Γ e t with
  | zero => cases h
  | succ budget ih =>
    obtain ⟨-, ts, ty, hlen, -, hty, rfl⟩ := verdict_succ_ok_iff.mp h
    show Γ.knows (e.rebuild ty ts).note = true
    rw [Term.note_rebuild]
    refine Context.knows_of_nodeType hty (fun ty' hmem => ?_)
    -- a part is checked in a scope of its own, which knows the same types
    obtain ⟨u, hu, rfl⟩ := List.mem_map.mp hmem
    rw [← Term.parts_rebuild ty hlen] at hu
    obtain ⟨i, hi⟩ := List.getElem?_of_mem hu
    obtain ⟨part, -, hpart⟩ := verdict_part h hi
    have hknown := ih hpart
    rwa [Context.knows_inside] at hknown

/-- **Every node of an accepted tree has a type that is known.** -/
theorem knows_of_mem_nodes (h : verdict limit budget Γ e = .ok t) :
    ∀ node ∈ t.nodes, Γ.knows node.note = true := by
  induction budget generalizing Γ e t with
  | zero => cases h
  | succ budget ih =>
    intro node hnode
    rw [Term.nodes_eq, List.mem_cons, List.mem_flatMap] at hnode
    obtain rfl | ⟨u, hu, hnode⟩ := hnode
    · exact knows_of_verdict_ok h
    · obtain ⟨i, hi⟩ := List.getElem?_of_mem hu
      obtain ⟨part, -, hpart⟩ := verdict_part h hi
      have hknown := ih hpart node hnode
      rwa [Context.knows_inside] at hknown

/-- What comes out of the shield accepted was accepted inside. -/
theorem verdict_of_shielded {config : Config} {sink : Sink}
    (h : (shielded config Γ e sink).1 = .ok t) :
    verdict config.maxDepth config.maxDepth.toNat Γ e = .ok t := by
  unfold shielded at h
  split at h
  · next hrun =>
    cases h
    exact Checker.verdict_of_accepted (congrArg Prod.fst hrun)
  · cases h
  · cases h

/-- A supervised check accepts what an unsupervised one does. -/
theorem verdict_of_checkWith {config : Config} {sink : Sink}
    (h : (checkWith config Γ e sink).1 = .accepted t) :
    verdict config.maxDepth config.maxDepth.toNat Γ e = .ok t := by
  unfold checkWith at h
  dsimp only at h
  split at h
  · cases h
  · next hverdict =>
    cases h
    exact verdict_of_shielded hverdict
  · cases h

/-- A type is known where its name, if it has one, is registered. -/
theorem Context.knows_iff {ty : Ty} :
    Γ.knows ty = true
      ↔ ∀ n, ty = .named n → ∃ record, Γ.type? n = some record := by
  cases ty with
  | named n =>
    rw [knows, Option.isSome_iff_exists]
    simp
  | _ => simp [knows]

/-- **No unknown name is found in a tree** exactly where all its nodes have
types that are known. -/
theorem TypedExpr.firstUnknown?_eq_none_iff {t : TypedExpr} :
    t.firstUnknown? Γ = none
      ↔ ∀ node ∈ t.nodes, Γ.knows node.note = true := by
  rw [firstUnknown?, List.findSome?_eq_none_iff]
  refine forall₂_congr (fun node _ => ?_)
  split
  · next hknown => exact iff_of_true rfl hknown
  · next hunknown =>
    refine iff_of_false (fun hname => hunknown ?_) hunknown
    -- only a name can be unknown
    cases hty : node.note with
    | named n =>
      rw [hty] at hname
      cases hname
    | _ => rfl

/-- What the walk comes back with has a type that is known. -/
theorem knows_of_check {p q : Progress}
    (h : Walk.check limit Γ e p = .ok t q) : Γ.knows t.ty = true :=
  knows_of_verdict_ok ((Walk.tells_check Γ e p).verdict_of_ok h)

/-- The arguments of a call have types that are known. -/
theorem knows_of_checkEach {p q : Progress} {args : List Expr}
    {ts : List TypedExpr} (h : Walk.checkEach limit Γ args p = .ok ts q) :
    ∀ ty ∈ ts.map TypedExpr.ty, Γ.knows ty = true := by
  induction args generalizing p ts with
  | nil =>
    cases h
    exact List.forall_mem_nil _
  | cons arg args ih =>
    rw [Walk.checkEach] at h
    obtain ⟨u, p₁, hu, h⟩ := Walk.bind_eq_ok h
    obtain ⟨us, p₂, hus, h⟩ := Walk.bind_eq_ok h
    cases h
    exact List.forall_mem_cons.mpr ⟨knows_of_check hu, ih hus⟩

end Known

/-- **Unregistered types never escape.** Every record type that a node of
an accepted tree carries is registered, whatever the context promises
elsewhere; which is to say that no unknown name is found in the tree, as
for any tree. And so two of the tests that a walk makes cannot fail where
it makes them: the record type that the target of a field access was found
to have is there to be looked up, and so is the result of a call that is
declared as a placeholder. -/
theorem Checker.accepted_types_registered (Γ : Context) :
    (∀ (config : Config) (e : Expr) (sink : Sink) (t : TypedExpr),
      ((Checker.new config).run Γ e sink).1 = .accepted t
        ∨ (checkWith config Γ e sink).1 = .accepted t →
      (∀ node ∈ t.nodes, ∀ n, node.note = .named n →
          ∃ record, Γ.type? n = some record)
        ∧ t.firstUnknown? Γ = none)
    ∧ (∀ t : TypedExpr, t.firstUnknown? Γ = none
      ↔ ∀ node ∈ t.nodes, ∀ n, node.note = .named n →
        ∃ record, Γ.type? n = some record)
    ∧ (∀ (limit : UInt64) (target : Expr) (p q : Progress) (t : TypedExpr),
      Walk.check limit Γ target p = .ok t q →
      ∀ n, t.ty = .named n → ∃ record, Γ.type? n = some record)
    ∧ (∀ (limit : UInt64) (args : List Expr) (p q : Progress)
        (ts : List TypedExpr), Walk.checkEach limit Γ args p = .ok ts q →
      ∀ (name : String) (sig : Signature) (σ : Substitution) (ty : Ty)
        (param : Placeholder),
        sig.instantiate name (ts.map TypedExpr.ty) = .ok (σ, ty) →
        sig.result = .param param → Γ.known ty = .ok ty) := by
  have hunknown (t : TypedExpr) : t.firstUnknown? Γ = none
      ↔ ∀ node ∈ t.nodes, ∀ n, node.note = .named n →
        ∃ record, Γ.type? n = some record := by
    rw [TypedExpr.firstUnknown?_eq_none_iff]
    exact forall₂_congr (fun _ _ => Context.knows_iff)
  refine ⟨fun config e sink t h => ?_, hunknown,
    fun limit target p q t h => Context.knows_iff.mp (knows_of_check h),
    fun limit args p q ts h name sig σ ty param hinst hparam => ?_⟩
  · have hverdict : verdict config.maxDepth config.maxDepth.toNat Γ e
        = .ok t := by
      obtain h | h := h
      · exact verdict_of_accepted h
      · exact verdict_of_checkWith h
    have hnone : t.firstUnknown? Γ = none :=
      TypedExpr.firstUnknown?_eq_none_iff.mpr (knows_of_mem_nodes hverdict)
    exact ⟨(hunknown t).mp hnone, hnone⟩
  · have hmem := Signature.mem_zip_of_instantiate hinst hparam
    have hknown := knows_of_checkEach h ty (List.of_mem_zip hmem).1
    exact Context.known_eq_ok_iff.mpr ⟨hknown, rfl⟩

/-- A host that has `Box`, and says of a field, a variable and the result
of a function that they are of a type `Ghost`, which it does not have, can
still be asked for `id(box)`; and what comes out is free of ghosts. -/
theorem Checker.accepted_types_registered_box :
    let Γ := Context.empty
      |>.withType "Box" ⟨[("lid", .named "Ghost")]⟩
      |>.bind "box" (.named "Box")
      |>.bind "ghost" (.named "Ghost")
      |>.withFunction "id" ⟨[.param ⟨'T'⟩], .param ⟨'T'⟩⟩
      |>.withFunction "summon" ⟨[], .concrete (.named "Ghost")⟩
    let t : TypedExpr := .call (.named "Box") "id"
      [.ref (.named "Box") "box"]
    ((Checker.new ⟨2⟩).run Γ t.erase (Sink.fresh none)).1 = .accepted t
      ∧ t.firstUnknown? Γ = none := by
  intro Γ t
  have h : ((Checker.new ⟨2⟩).run Γ t.erase (Sink.fresh none)).1
      = .accepted t := rfl
  exact ⟨h, ((Checker.accepted_types_registered Γ).1 ⟨2⟩ _ _ t
    (Or.inl h)).2⟩

end PredicateScript
