import PredicateScript.Proofs.Coincidence
import PredicateScript.Proofs.Justification
import PredicateScript.Proofs.Replacement

/-!
# A binding and its value in place of its name

A script `{ let x = v; b }` has the type that `b` has with `v` written in
place of `x`, and the one is accepted where the other is. `Term.inline x v b`
writes `v` in place of every reference to `x`, wherever it stands. So `v`
comes to be checked in scopes that are larger than the one it was written
for, and two things could go wrong there: a binding of `b` could take a name
that `v` refers to, and it could take one that `v` wants to bind. The second
is excluded by hypothesis. The first cannot happen in a script that is
accepted, because a name that `v` refers to is in the context or bound in
`v` (`HasType.var?_or_mem_letNames`), and a binding of `b` may use neither.

Both directions are one induction (`hasType_inline_iff`), over two contexts
that differ in the variable `x` only and are extended in step.
-/

namespace PredicateScript

/-! ## Inlining -/

namespace Term

variable {α : Type}

/-- The name that a node binds. -/
def letName? : Term α → Option String
  | letIn _ name _ _ => some name
  | _ => none

/-- **The names that are bound** anywhere in a tree. -/
def letNames (t : Term α) : List String :=
  t.nodes.filterMap letName?

mutual

/-- **The script with `v` in place of every reference to `x`.** -/
def inline (e : Expr) (x : String) (v : Expr) : Expr :=
  match e with
  | lit _ value => .lit () value
  | ref _ name => if name = x then v else .ref () name
  | access _ target field => .access () (target.inline x v) field
  | call _ function args => .call () function (inlineEach args x v)
  | binary _ op left right =>
    .binary () op (left.inline x v) (right.inline x v)
  | block _ body => .block () (body.inline x v)
  | letIn _ name value body =>
    .letIn () name (value.inline x v) (body.inline x v)
  | ifElse _ cond ifTrue ifFalse =>
    .ifElse () (cond.inline x v) (ifTrue.inline x v) (ifFalse.inline x v)

/-- `inline` on each script of a list. -/
def inlineEach (es : List Expr) (x : String) (v : Expr) : List Expr :=
  match es with
  | [] => []
  | e :: es => e.inline x v :: inlineEach es x v

end

@[simp] theorem inlineEach_eq_map (es : List Expr) (x : String) (v : Expr) :
    inlineEach es x v = es.map (fun e => e.inline x v) := by
  induction es with
  | nil => rfl
  | cons e es ih => rw [inlineEach, ih, List.map_cons]

@[simp] theorem inline_ref_self (x : String) (v : Expr) :
    inline (.ref () x) x v = v := by
  simp [inline]

/-- A node that is no reference to the name stays, over parts in which the
value is written in place of the name. -/
theorem inline_eq_rebuild {x : String} {e : Expr} (v : Expr)
    (h : e ≠ .ref () x) :
    e.inline x v = e.rebuild () (e.parts.map (fun u => u.inline x v)) := by
  cases e with
  | ref _ name =>
    have hne : name ≠ x := by
      rintro rfl
      exact h rfl
    simp [inline, rebuild, hne]
  | _ => simp [inline, rebuild, parts]

/-! ## The names that are bound -/

/-- A name is bound in a tree by its root or in one of its parts. -/
theorem mem_letNames_iff {t : Term α} {name : String} :
    name ∈ t.letNames
      ↔ t.letName? = some name ∨ ∃ u ∈ t.parts, name ∈ u.letNames := by
  rw [letNames, nodes_eq, List.mem_filterMap]
  simp only [List.mem_cons, List.mem_flatMap, letNames, List.mem_filterMap]
  constructor
  · rintro ⟨node, rfl | ⟨u, hu, hnode⟩, hname⟩
    · exact Or.inl hname
    · exact Or.inr ⟨u, hu, node, hnode, hname⟩
  · rintro (hname | ⟨u, hu, node, hnode, hname⟩)
    · exact ⟨t, Or.inl rfl, hname⟩
    · exact ⟨node, Or.inr ⟨u, hu, hnode⟩, hname⟩

theorem mem_letNames_root {t : Term α} {name : String}
    (h : t.letName? = some name) : name ∈ t.letNames :=
  mem_letNames_iff.mpr (Or.inl h)

/-- What is bound in a part is bound in the whole. -/
theorem letNames_part_subset {t u : Term α} (h : u ∈ t.parts) :
    u.letNames ⊆ t.letNames :=
  fun _ hname => mem_letNames_iff.mpr (Or.inr ⟨u, h, hname⟩)

end Term

/-! ## One after the other, with other questions -/

section LeftToRight

variable {α β γ : Type}

/-- Questions read through a function are asked of what they are read
from. -/
theorem leftToRight_map_iff {P : List β → γ → β → Prop} {f : α → γ}
    {done : List β} {as : List α} {bs : List β} :
    LeftToRight P done (as.map f) bs
      ↔ LeftToRight (fun done a b => P done (f a) b) done as bs := by
  simp only [LeftToRight, List.getElem?_map, Option.map_eq_some_iff]
  constructor
  · intro h i a b ha hb
    exact h i (f a) b ⟨a, ha, rfl⟩ hb
  · rintro h i _ b ⟨a, ha, rfl⟩ hb
    exact h i a b ha hb

/-- Where each question has the same answers, so have all of them. -/
theorem leftToRight_congr {P Q : List β → α → β → Prop} {done : List β}
    {as : List α} {bs : List β}
    (h : ∀ a ∈ as, ∀ done b, P done a b ↔ Q done a b) :
    LeftToRight P done as bs ↔ LeftToRight Q done as bs := by
  constructor
  · intro hP i a b ha hb
    exact (h a (List.mem_of_getElem? ha) _ b).mp (hP i a b ha hb)
  · intro hQ i a b ha hb
    exact (h a (List.mem_of_getElem? ha) _ b).mpr (hQ i a b ha hb)

end LeftToRight

/-- **The type of a node over other parts**: of the node itself only its
kind is asked for. -/
theorem hasType_rebuild_iff {Γ : Context} {e : Expr} {us : List Expr}
    {ty : Ty} (h : us.length = e.parts.length) :
    HasType Γ (e.rebuild () us) ty
      ↔ Γ.entryTest e = .ok ()
        ∧ ∃ tys, tys.length = us.length
          ∧ LeftToRight
            (fun done part ty => HasType (Γ.scopeOf e done) part ty) [] us tys
          ∧ Γ.nodeType e tys = .ok ty := by
  rw [hasType_iff, Γ.entryTest_rebuild h]
  simp only [PartsHaveType, Term.parts_rebuild () h, Γ.scopeOf_rebuild h,
    Γ.nodeType_rebuild h]

/-- **Induction over the parts of a script with a type**, each in a scope of
its own: what holds of a node where it holds of the parts holds of the
script. -/
@[elab_as_elim]
theorem HasType.induction_on_parts {P : Context → Expr → Prop}
    {Γ : Context} {e : Expr} {ty : Ty} (h : HasType Γ e ty)
    (step : ∀ {Γ : Context} {e : Expr} {ty : Ty}, HasType Γ e ty →
      (∀ part ∈ e.parts, ∃ tys, P (Γ.scopeOf e tys) part) → P Γ e) :
    P Γ e := by
  induction hheight : e.height using Nat.strong_induction_on
    generalizing Γ e ty with
  | _ height ih =>
    refine step h (fun part hpart => ?_)
    obtain ⟨-, tys, hlen, hparts, -⟩ := hasType_iff.mp h
    obtain ⟨i, hi⟩ := List.getElem?_of_mem hpart
    obtain ⟨partTy, -, hpartTy⟩ := hparts.exists_at hlen hi
    have hlt := Term.height_lt_of_mem_parts hpart
    exact ⟨_, ih part.height (hheight ▸ hlt) hpartTy rfl⟩

/-! ## A value in a larger scope -/

section Weakening

variable {Γ Γ' : Context} {e : Expr} {ty : Ty}

/-- Contexts that a script cannot tell apart give it the same type. -/
theorem HasType.of_agreeOn (h : HasType Γ e ty) (hagree : Γ.AgreeOn Γ' e) :
    HasType Γ' e ty := by
  obtain ⟨t, rfl, ht⟩ := exists_verdict_ok 0 h (Nat.le_refl _)
  obtain ⟨-, hplain⟩ := simulation_agreeOn.transcript_related hagree 0 e.height
  have ht' : plain (verdict 0 e.height Γ' e) = .ok t := by
    rw [verdict, ← hplain]
    exact congrArg plain ht
  cases hverdict : verdict 0 e.height Γ' e with
  | error cause =>
    rw [hverdict] at ht'
    cases ht'
  | ok t' =>
    rw [hverdict] at ht'
    cases ht'
    exact hasType_of_verdict_ok hverdict

/-- A variable of a scope is one of the context or is bound by the
node. -/
theorem Context.var?_scopeOf {n : String} {tys : List Ty}
    (h : ((Γ.scopeOf e tys).var? n).isSome = true) :
    (Γ.var? n).isSome = true ∨ e.letName? = some n := by
  unfold scopeOf at h
  split at h
  · next name _ _ ty =>
    by_cases hn : n = name
    · exact Or.inr (congrArg some hn.symm)
    · rw [var?_bind_of_ne Γ ty hn] at h
      exact Or.inl h
  · exact Or.inl h

/-- **What a script with a type refers to** is in the context, or bound in
the script. -/
theorem HasType.var?_or_mem_letNames {n : String} (h : HasType Γ e ty)
    (href : .ref () n ∈ e.nodes) :
    (Γ.var? n).isSome = true ∨ n ∈ e.letNames := by
  revert href
  refine h.induction_on_parts (fun {Γ e ty} h ih href => ?_)
  rw [Term.nodes_eq, List.mem_cons, List.mem_flatMap] at href
  obtain rfl | ⟨part, hpart, href⟩ := href
  · cases h with
    | ref hvar _ => exact Or.inl (Option.isSome_of_eq_some hvar)
  · obtain ⟨tys, hpartRef⟩ := ih part hpart
    obtain hvar | hlet := hpartRef href
    · exact (Context.var?_scopeOf hvar).imp_right Term.mem_letNames_root
    · exact Or.inr (Term.letNames_part_subset hpart hlet)

/-- **One more variable does no harm** to a script that has a type and does
not bind the name. -/
theorem HasType.bind (h : HasType Γ e ty) {y : String}
    (hvar : Γ.var? y = none) (hlet : y ∉ e.letNames) (ty' : Ty) :
    HasType (Γ.bind y ty') e ty := by
  refine h.of_agreeOn ⟨fun _ => rfl, fun n hn => ?_, fun _ _ _ => rfl,
    fun n value body hn => ⟨?_, rfl⟩⟩
  · have hne : n ≠ y := by
      rintro rfl
      obtain hbound | hmem := h.var?_or_mem_letNames hn
      · rw [hvar] at hbound
        cases hbound
      · exact hlet hmem
    rw [Context.var?_bind_of_ne Γ ty' hne]
  · have hne : n ≠ y := by
      rintro rfl
      exact hlet (List.mem_filterMap.mpr ⟨_, hn, rfl⟩)
    rw [Context.var?_bind_of_ne Γ ty' hne]

end Weakening

/-! ## Two contexts that differ in one variable -/

/-- **`Γ'` is `Γ` with a variable `x` of type `ty`**, wherever it was
bound. -/
structure Context.With (Γ : Context) (x : String) (ty : Ty) (Γ' : Context) :
    Prop where
  /-- The types are the same. -/
  types : Γ'.types = Γ.types
  /-- The functions are the same. -/
  functions : Γ'.functions = Γ.functions
  /-- The variable is there. -/
  self : Γ'.var? x = some ty
  /-- Every other variable is the same. -/
  others : ∀ n, n ≠ x → Γ'.var? n = Γ.var? n

namespace Context

theorem with_bind (Γ : Context) (x : String) (ty : Ty) :
    Γ.With x ty (Γ.bind x ty) :=
  ⟨rfl, rfl, Γ.var?_bind_self x ty, fun _ hn => Γ.var?_bind_of_ne ty hn⟩

namespace With

variable {Γ Γ' : Context} {x : String} {ty : Ty} {e : Expr}

theorem bind (h : Γ.With x ty Γ') {y : String} (hy : y ≠ x) (ty' : Ty) :
    (Γ.bind y ty').With x ty (Γ'.bind y ty') := by
  refine ⟨h.types, h.functions, ?_, fun n hn => ?_⟩
  · rw [var?_bind_of_ne _ _ hy.symm]
    exact h.self
  · by_cases hny : n = y
    · rw [hny, var?_bind_self, var?_bind_self]
    · rw [var?_bind_of_ne _ _ hny, var?_bind_of_ne _ _ hny, h.others n hn]

theorem knows_eq (h : Γ.With x ty Γ') (ty' : Ty) :
    Γ'.knows ty' = Γ.knows ty' := by
  unfold knows type?
  rw [h.types]

theorem callee_eq (h : Γ.With x ty Γ') (name : String) (argCount : Nat) :
    Γ'.callee name argCount = Γ.callee name argCount := by
  unfold callee function? functionNames
  rw [h.functions]

/-- A node that does not bind the variable is tested alike. -/
theorem entryTest_eq (h : Γ.With x ty Γ') (hlet : e.letName? ≠ some x) :
    Γ'.entryTest e = Γ.entryTest e := by
  unfold entryTest
  split
  · rw [h.callee_eq]
  · next name _ _ =>
    have hne : name ≠ x := by
      rintro rfl
      exact hlet rfl
    unfold fresh function?
    rw [h.others name hne, h.functions]
  · rfl

/-- A node that does not refer to the variable gets the same type. -/
theorem nodeType_ok_iff (h : Γ.With x ty Γ') (href : e ≠ .ref () x)
    {tys : List Ty} {ty' : Ty} :
    Γ'.nodeType e tys = .ok ty' ↔ Γ.nodeType e tys = .ok ty' := by
  unfold nodeType
  split
  case h_2 name =>
    have hne : name ≠ x := by
      rintro rfl
      exact href rfl
    rw [reference_eq_ok_iff, reference_eq_ok_iff, h.others name hne,
      h.knows_eq]
  case h_3 => rw [fieldType_congr h.types]
  case h_4 name args =>
    rw [h.callee_eq]
    simp only [resultType_congr h.types]
  all_goals rfl

/-- **Below a node that passes its test** the contexts still differ in the
variable only, and a value that may be written in its place has its type
there too. -/
theorem scopeOf (h : Γ.With x ty Γ') {v : Expr} (hv : HasType Γ v ty)
    (hentry : Γ.entryTest e = .ok ()) (hx : x ∉ e.letNames)
    (hdisjoint : e.letNames.Disjoint v.letNames) (tys : List Ty) :
    (Γ.scopeOf e tys).With x ty (Γ'.scopeOf e tys)
      ∧ HasType (Γ.scopeOf e tys) v ty := by
  unfold Context.scopeOf
  split
  · next name value body ty' =>
    have hname : name ∈ Term.letNames (.letIn () name value body) :=
      Term.mem_letNames_root rfl
    have hne : name ≠ x := by
      rintro rfl
      exact hx hname
    have hfresh := (fresh_eq_ok_iff.mp hentry).1
    exact ⟨h.bind hne ty', hv.bind hfresh (hdisjoint hname) ty'⟩
  · exact ⟨h, hv⟩

end With

end Context

/-! ## Inlining preserves types -/

/-- **A script has with the variable the type that it has with the value in
its place**, where the script binds neither the variable nor a name that
the value binds. -/
theorem hasType_inline_iff {Γ Γ' : Context} {x : String} {v b : Expr}
    {valueTy ty : Ty} (hΓ : Γ.With x valueTy Γ') (hv : HasType Γ v valueTy)
    (hx : x ∉ b.letNames) (hdisjoint : b.letNames.Disjoint v.letNames) :
    HasType Γ' b ty ↔ HasType Γ (b.inline x v) ty := by
  induction hheight : b.height using Nat.strong_induction_on
    generalizing Γ Γ' b ty with
  | _ height ih =>
    by_cases href : b = .ref () x
    · -- the type of the variable is that of the value
      subst href
      rw [Term.inline_ref_self]
      constructor
      · intro h
        cases h with
        | ref hvar _ =>
          cases hΓ.self.symm.trans hvar
          exact hv
      · intro h
        obtain rfl := hv.unique h
        exact .ref hΓ.self ((hΓ.knows_eq _).trans hv.knows)
    · have hlet : b.letName? ≠ some x := fun h =>
        hx (Term.mem_letNames_root h)
      rw [Term.inline_eq_rebuild v href, hasType_iff,
        hasType_rebuild_iff (List.length_map _), hΓ.entryTest_eq hlet,
        List.length_map]
      refine and_congr_right fun hentry => exists_congr fun tys =>
        and_congr_right fun _ => and_congr ?_ (hΓ.nodeType_ok_iff href)
      rw [leftToRight_map_iff]
      refine leftToRight_congr fun part hpart done partTy => ?_
      obtain ⟨hscope, hvalue⟩ := hΓ.scopeOf hv hentry hx hdisjoint done
      have hsubset := Term.letNames_part_subset hpart
      exact ih part.height (hheight ▸ Term.height_lt_of_mem_parts hpart)
        hscope hvalue (fun h => hx (hsubset h))
        (fun _ h => hdisjoint (hsubset h)) rfl

/-- A binding has the type that its body has with the name in scope. -/
theorem hasType_letIn_iff {Γ : Context} {x : String} {v b : Expr}
    {valueTy ty : Ty} (hvar : Γ.var? x = none)
    (hfun : Γ.function? x = none) (hv : HasType Γ v valueTy) :
    HasType Γ (.letIn () x v b) ty ↔ HasType (Γ.bind x valueTy) b ty := by
  constructor
  · intro h
    cases h with
    | letIn _ _ hvalue hbody =>
      cases hv.unique hvalue
      exact hbody
  · exact .letIn hvar hfun hv

theorem Checker.exists_accepts_iff_hasType {limit : UInt64} {Γ : Context}
    {e : Expr} {ty : Ty} (h : e.height ≤ limit.toNat) :
    (∃ t, (Checker.new ⟨limit⟩).Accepts Γ e t ∧ t.ty = ty)
      ↔ HasType Γ e ty := by
  simp only [accepts_iff, budget_new]
  constructor
  · rintro ⟨t, ht, rfl⟩
    exact hasType_of_verdict_ok ht
  · intro hty
    obtain ⟨t, ht, hverdict⟩ := exists_verdict_ok limit hty h
    exact ⟨t, hverdict, ht⟩

/-- **Inlining a binding preserves typing.** Let `x` be neither a variable
nor a function of the context, let `v` be accepted there, and let `b` bind
neither `x` nor a name that is bound in `v`. Then `{ let x = v; b }` is
accepted with a type exactly where `b` with `v` in place of `x` is accepted
with that type, under every limit that is not too low for either. -/
theorem Checker.inlining_preserves_type {Γ : Context} {x : String}
    {v b : Expr} {limit₀ : UInt64} {sink : Sink} {tv : TypedExpr}
    (hvar : Γ.var? x = none) (hfun : Γ.function? x = none)
    (hv : ((Checker.new ⟨limit₀⟩).run Γ v sink).1 = .accepted tv)
    (hx : x ∉ b.letNames) (hdisjoint : b.letNames.Disjoint v.letNames)
    (ty : Ty) {limit : UInt64}
    (hlet : (Term.letIn () x v b).height ≤ limit.toNat)
    (hinline : (b.inline x v).height ≤ limit.toNat) :
    (∃ t, (Checker.new ⟨limit⟩).Accepts Γ (.letIn () x v b) t ∧ t.ty = ty)
      ↔ ∃ t, (Checker.new ⟨limit⟩).Accepts Γ (b.inline x v) t
        ∧ t.ty = ty := by
  have hvTy : HasType Γ v tv.ty :=
    hasType_of_verdict_ok (verdict_of_accepted hv)
  rw [exists_accepts_iff_hasType hlet, exists_accepts_iff_hasType hinline,
    hasType_letIn_iff hvar hfun hvTy]
  exact hasType_inline_iff (Γ.with_bind x tv.ty) hvTy hx hdisjoint

/-- In `{ let x = { let y = tx; y.fee }; { let z = x; x + z } }` the value
binds a name and the body another. Inlined, the value is checked twice, the
second time with `z` in scope. -/
theorem Checker.inlining_preserves_type_fee :
    let v : Expr := .letIn () "y" (.ref () "tx") (.access () (.ref () "y") "fee")
    let b : Expr := .letIn () "z" (.ref () "x")
      (.binary () .sum (.ref () "x") (.ref () "z"))
    b.inline "x" v = .letIn () "z" v (.binary () .sum v (.ref () "z"))
      ∧ ∃ t, (Checker.new ⟨5⟩).Accepts sampleContext (b.inline "x" v) t
        ∧ t.ty = .long := by
  intro v b
  have hv : ((Checker.new ⟨3⟩).run sampleContext v (Sink.fresh none)).1
      = .accepted (.letIn .long "y" (.ref (.named "Transaction") "tx")
        (.access .long (.ref (.named "Transaction") "y") "fee")) := rfl
  have hletIn : ∃ t, (Checker.new ⟨5⟩).Accepts sampleContext
      (.letIn () "x" v b) t ∧ t.ty = .long :=
    ⟨.letIn .long "x"
      (.letIn .long "y" (.ref (.named "Transaction") "tx")
        (.access .long (.ref (.named "Transaction") "y") "fee"))
      (.letIn .long "z" (.ref .long "x")
        (.binary .long .sum (.ref .long "x") (.ref .long "z"))),
      Checker.accepts_iff.mpr rfl, rfl⟩
  have hdisjoint : b.letNames.Disjoint v.letNames := by
    show ["z"].Disjoint ["y"]
    simp
  refine ⟨rfl, ?_⟩
  exact (Checker.inlining_preserves_type rfl rfl hv (by decide) hdisjoint
    .long (by decide) (by decide)).mp hletIn

end PredicateScript
