import PredicateScript.Proofs.Rules
import PredicateScript.Proofs.Verdict
import PredicateScript.Sample

/-!
# The typing judgement

`HasType Γ e ty` says that the script `e` has the type `ty` in the context
`Γ`. It is given by rules, and knows nothing of how a type might be found:
there is no order among the parts of a node, no limit to the nesting, and
where a call fills in placeholders it is enough that *some* assignment
does.

The checker decides it. `hasType_iff` reads the rules as the plan by which
a node is visited; from there, soundness and completeness are one
induction each, on the levels the checker has left. What the checker adds
is the limit: a script is accepted where it has a type and is not nested
deeper than allowed (`Checker.accepted_iff_hasType`).
-/

namespace PredicateScript

/-- **The typing judgement.** -/
inductive HasType : Context → Expr → Ty → Prop where
  /-- A constant has the type of its kind. -/
  | long {Γ : Context} {n : Int64} :
      HasType Γ (.lit () (.long n)) .long
  | bytes {Γ : Context} {bs : List UInt8} :
      HasType Γ (.lit () (.bytes bs)) .byteVector
  | text {Γ : Context} {s : String} :
      HasType Γ (.lit () (.text s)) .string
  | bool {Γ : Context} {b : Bool} :
      HasType Γ (.lit () (.bool b)) .boolean
  /-- A reference has the type of the innermost binding of its name. -/
  | ref {Γ : Context} {name : String} {ty : Ty}
      (hvar : Γ.var? name = some ty) (hknown : Γ.knows ty = true) :
      HasType Γ (.ref () name) ty
  /-- A field of a record has the type it was first declared with. -/
  | access {Γ : Context} {target : Expr} {n field : String}
      {record : RecordType} {ty : Ty}
      (htarget : HasType Γ target (.named n))
      (hrecord : Γ.type? n = some record)
      (hfield : record.field? field = some ty)
      (hknown : Γ.knows ty = true) :
      HasType Γ (.access () target field) ty
  /-- A call has the result of the signature under an assignment that
  turns the declared parameters into the types of the arguments, and that
  has no choice about the result. -/
  | call {Γ : Context} {name : String} {args : List Expr}
      {sig : Signature} (ρ : Placeholder → Ty)
      (hsig : Γ.function? name = some sig)
      (harity : sig.params.length = args.length)
      (hargs : ∀ x ∈ args.zip (sig.params.map (SigTy.under ρ)),
        HasType Γ x.1 x.2)
      (hsettled : ∀ p, sig.result = .param p → .param p ∈ sig.params)
      (hknown : Γ.knows (sig.result.under ρ) = true) :
      HasType Γ (.call () name args) (sig.result.under ρ)
  /-- Integers are added. -/
  | sum {Γ : Context} {left right : Expr}
      (hleft : HasType Γ left .long) (hright : HasType Γ right .long) :
      HasType Γ (.binary () .sum left right) .long
  /-- Integers are compared. -/
  | order {Γ : Context} {op : Operator} {left right : Expr}
      (hop : op = .gt ∨ op = .ge)
      (hleft : HasType Γ left .long) (hright : HasType Γ right .long) :
      HasType Γ (.binary () op left right) .boolean
  /-- Truth values are combined. -/
  | logic {Γ : Context} {op : Operator} {left right : Expr}
      (hop : op = .and ∨ op = .or)
      (hleft : HasType Γ left .boolean)
      (hright : HasType Γ right .boolean) :
      HasType Γ (.binary () op left right) .boolean
  /-- Values of one type are compared for equality. -/
  | equality {Γ : Context} {left right : Expr} {ty : Ty}
      (hleft : HasType Γ left ty) (hright : HasType Γ right ty) :
      HasType Γ (.binary () .eq left right) .boolean
  /-- A block that binds nothing has the type of its body. -/
  | block {Γ : Context} {body : Expr} {ty : Ty}
      (hbody : HasType Γ body ty) : HasType Γ (.block () body) ty
  /-- A binding needs a name that is neither a variable nor a function,
  and its body sees the name. -/
  | letIn {Γ : Context} {name : String} {value body : Expr}
      {valueTy ty : Ty} (hvar : Γ.var? name = none)
      (hfun : Γ.function? name = none)
      (hvalue : HasType Γ value valueTy)
      (hbody : HasType (Γ.bind name valueTy) body ty) :
      HasType Γ (.letIn () name value body) ty
  /-- The branches of a conditional have one type, and the condition has
  any. -/
  | ifElse {Γ : Context} {cond ifTrue ifFalse : Expr} {condTy ty : Ty}
      (hcond : HasType Γ cond condTy) (hifTrue : HasType Γ ifTrue ty)
      (hifFalse : HasType Γ ifFalse ty) :
      HasType Γ (.ifElse () cond ifTrue ifFalse) ty

/-! ## The rules read as a plan -/

/-- The parts of a node have the types `tys`, each in the scope that the
types before it make. -/
def PartsHaveType (Γ : Context) (e : Expr) (tys : List Ty) : Prop :=
  LeftToRight (fun done part ty => HasType (Γ.scopeOf e done) part ty)
    [] e.parts tys

/-- Of a call, the parts have the types they are paired with. -/
theorem leftToRight_call_iff {Γ : Context} {name : String}
    {args es : List Expr} {done tys : List Ty} :
    LeftToRight
      (fun done part ty =>
        HasType (Γ.scopeOf (.call () name args) done) part ty) done es tys
      ↔ ∀ x ∈ es.zip tys, HasType Γ x.1 x.2 := by
  induction es generalizing done tys with
  | nil => simp [LeftToRight]
  | cons e es ih =>
    cases tys with
    | nil => simp
    | cons ty tys =>
      rw [leftToRight_cons, ih, List.zip_cons_cons, List.forall_mem_cons]
      rfl

/-- A node that has a type passes its entry test, its parts have types,
and its rule gives the type from theirs. -/
theorem HasType.plan {Γ : Context} {e : Expr} {ty : Ty}
    (h : HasType Γ e ty) :
    Γ.entryTest e = .ok ()
      ∧ ∃ tys, tys.length = e.parts.length ∧ PartsHaveType Γ e tys
        ∧ Γ.nodeType e tys = .ok ty := by
  unfold PartsHaveType
  cases h with
  | long | bytes | text | bool =>
    exact ⟨rfl, [], rfl, leftToRight_nil _ _, rfl⟩
  | ref hvar hknown =>
    exact ⟨rfl, [], rfl, leftToRight_nil _ _,
      Context.reference_eq_ok_iff.mpr ⟨hvar, hknown⟩⟩
  | access htarget hrecord hfield hknown =>
    refine ⟨rfl, [_], rfl, ?_, Context.fieldType_eq_ok_iff.mpr
      ⟨_, _, rfl, hrecord, hfield, hknown⟩⟩
    simpa [Term.parts, Context.scopeOf] using htarget
  | call ρ hsig harity hargs hsettled hknown =>
    -- where some assignment fits, the reading of the arguments finds one
    have hcallee := Context.callee_eq_ok_iff.mpr ⟨hsig, harity⟩
    refine ⟨Context.entryTest_call hcallee, _,
      (List.length_map _).trans harity, leftToRight_call_iff.mpr hargs, ?_⟩
    rw [Context.nodeType_call hcallee, Context.resultType_eq_ok_iff,
      Signature.exists_instantiate_iff (List.length_map _).symm]
    exact ⟨⟨ρ, rfl, rfl, hsettled⟩, hknown⟩
  | sum hleft hright =>
    refine ⟨rfl, [.long, .long], rfl, ?_, rfl⟩
    simpa [Term.parts, Context.scopeOf] using ⟨hleft, hright⟩
  | order hop hleft hright =>
    refine ⟨rfl, [.long, .long], rfl, ?_, ?_⟩
    · simpa [Term.parts, Context.scopeOf] using ⟨hleft, hright⟩
    · obtain rfl | rfl := hop <;> rfl
  | logic hop hleft hright =>
    refine ⟨rfl, [.boolean, .boolean], rfl, ?_, ?_⟩
    · simpa [Term.parts, Context.scopeOf] using ⟨hleft, hright⟩
    · obtain rfl | rfl := hop <;> rfl
  | @equality _ left right ty hleft hright =>
    have htypeOf : Operator.typeOf .eq ty ty = .ok .boolean :=
      Operator.typeOf_eq_ok_iff.mpr ⟨rfl, rfl⟩
    refine ⟨rfl, [ty, ty], rfl, ?_, htypeOf⟩
    simpa [Term.parts, Context.scopeOf] using ⟨hleft, hright⟩
  | block hbody =>
    refine ⟨rfl, [ty], rfl, ?_, rfl⟩
    simpa [Term.parts, Context.scopeOf] using hbody
  | @letIn _ name value body valueTy _ hvar hfun hvalue hbody =>
    refine ⟨Context.fresh_eq_ok_iff.mpr ⟨hvar, hfun⟩, [valueTy, ty], rfl,
      ?_, rfl⟩
    simpa [Term.parts, Context.scopeOf] using ⟨hvalue, hbody⟩
  | @ifElse _ cond ifTrue ifFalse condTy _ hcond hifTrue hifFalse =>
    refine ⟨rfl, [condTy, ty, ty], rfl, ?_,
      branchType_eq_ok_iff.mpr ⟨rfl, rfl⟩⟩
    simpa [Term.parts, Context.scopeOf] using ⟨hcond, hifTrue, hifFalse⟩

/-- A node that passes its entry test, and whose rule gives a type from
types of its parts, has that type. -/
theorem HasType.of_plan {Γ : Context} {e : Expr} {ty : Ty} {tys : List Ty}
    (hentry : Γ.entryTest e = .ok ())
    (hlen : tys.length = e.parts.length) (hparts : PartsHaveType Γ e tys)
    (hty : Γ.nodeType e tys = .ok ty) : HasType Γ e ty := by
  unfold PartsHaveType at hparts
  cases e with
  | lit _ value =>
    obtain rfl := List.eq_nil_of_length_eq_zero hlen
    cases hty
    cases value with
    | long => exact .long
    | bytes => exact .bytes
    | text => exact .text
    | bool => exact .bool
  | ref _ name =>
    obtain rfl := List.eq_nil_of_length_eq_zero hlen
    obtain ⟨hvar, hknown⟩ := Context.reference_eq_ok_iff.mp hty
    exact .ref hvar hknown
  | access _ target field =>
    obtain ⟨ty₁, rfl⟩ := List.length_eq_one_iff.mp hlen
    obtain ⟨n, record, rfl, hrecord, hfield, hknown⟩ :=
      Context.fieldType_eq_ok_iff.mp hty
    rw [Term.parts, leftToRight_cons] at hparts
    exact .access hparts.1 hrecord hfield hknown
  | call _ name args =>
    obtain ⟨sig, hcallee⟩ := Context.exists_callee_of_entryTest hentry
    obtain ⟨hsig, harity⟩ := Context.callee_eq_ok_iff.mp hcallee
    rw [Context.nodeType_call hcallee, Context.resultType_eq_ok_iff,
      Signature.exists_instantiate_iff (harity.trans hlen.symm)] at hty
    obtain ⟨⟨ρ, rfl, rfl, hsettled⟩, hknown⟩ := hty
    exact .call ρ hsig harity (leftToRight_call_iff.mp hparts) hsettled
      hknown
  | binary _ op left right =>
    obtain ⟨ty₁, ty₂, rfl⟩ := List.length_eq_two.mp hlen
    rw [Term.parts, leftToRight_cons, leftToRight_cons] at hparts
    obtain ⟨hleft, hright, -⟩ := hparts
    obtain ⟨htys, rfl⟩ := Operator.typeOf_eq_ok_iff.mp hty
    cases op with
    | sum =>
      obtain ⟨rfl, rfl⟩ := htys
      exact .sum hleft hright
    | gt =>
      obtain ⟨rfl, rfl⟩ := htys
      exact .order (Or.inl rfl) hleft hright
    | ge =>
      obtain ⟨rfl, rfl⟩ := htys
      exact .order (Or.inr rfl) hleft hright
    | and =>
      obtain ⟨rfl, rfl⟩ := htys
      exact .logic (Or.inl rfl) hleft hright
    | or =>
      obtain ⟨rfl, rfl⟩ := htys
      exact .logic (Or.inr rfl) hleft hright
    | eq =>
      obtain rfl := htys
      exact .equality hleft hright
  | block _ body =>
    obtain ⟨ty₁, rfl⟩ := List.length_eq_one_iff.mp hlen
    cases hty
    rw [Term.parts, leftToRight_cons] at hparts
    exact .block hparts.1
  | letIn _ name value body =>
    obtain ⟨ty₁, ty₂, rfl⟩ := List.length_eq_two.mp hlen
    cases hty
    rw [Term.parts, leftToRight_cons, leftToRight_cons] at hparts
    obtain ⟨hvar, hfun⟩ := Context.fresh_eq_ok_iff.mp hentry
    exact .letIn hvar hfun hparts.1 hparts.2.1
  | ifElse _ cond ifTrue ifFalse =>
    obtain ⟨ty₁, ty₂, ty₃, rfl⟩ := List.length_eq_three.mp hlen
    obtain ⟨rfl, rfl⟩ := branchType_eq_ok_iff.mp hty
    rw [Term.parts, leftToRight_cons, leftToRight_cons,
      leftToRight_cons] at hparts
    obtain ⟨hcond, hifTrue, hifFalse, -⟩ := hparts
    exact .ifElse hcond hifTrue hifFalse

/-- **The rules are the plan**: a node has a type where it passes its
entry test and its rule gives that type from types of its parts. -/
theorem hasType_iff {Γ : Context} {e : Expr} {ty : Ty} :
    HasType Γ e ty
      ↔ Γ.entryTest e = .ok ()
        ∧ ∃ tys, tys.length = e.parts.length ∧ PartsHaveType Γ e tys
          ∧ Γ.nodeType e tys = .ok ty := by
  constructor
  · exact HasType.plan
  · rintro ⟨hentry, tys, hlen, hparts, hty⟩
    exact HasType.of_plan hentry hlen hparts hty

/-! ## Soundness and completeness -/

section Decision

variable {limit : UInt64} {budget : Nat} {Γ : Context} {e : Expr} {ty : Ty}

/-- **Soundness**: what is accepted has the type it is accepted with. -/
theorem hasType_of_verdict_ok {t : TypedExpr}
    (h : verdict limit budget Γ e = .ok t) : HasType Γ e t.ty := by
  induction budget generalizing Γ e t with
  | zero => cases h
  | succ budget ih =>
    obtain ⟨hentry, ts, ty, hlen, hts, hty, rfl⟩ :=
      verdict_succ_ok_iff.mp h
    show HasType Γ e (e.rebuild ty ts).note
    rw [Term.note_rebuild]
    refine hasType_iff.mpr ⟨hentry, ts.map TypedExpr.ty,
      (List.length_map _).trans hlen, ?_, hty⟩
    exact LeftToRight.map hts (fun done part t ht => ih ht)

/-- What is accepted is not higher than the levels left. -/
theorem height_le_of_verdict_ok {t : TypedExpr}
    (h : verdict limit budget Γ e = .ok t) : e.height ≤ budget := by
  induction budget generalizing Γ e t with
  | zero => cases h
  | succ budget ih =>
    obtain ⟨-, ts, ty, hlen, hts, -, -⟩ := verdict_succ_ok_iff.mp h
    rw [Term.height_le_succ_iff]
    intro part hpart
    obtain ⟨i, hi⟩ := List.getElem?_of_mem hpart
    obtain ⟨t, -, ht⟩ := hts.exists_at hlen hi
    exact ih ht

/-- **Completeness**: a script that has a type, and for which there are
levels enough, is accepted with that type. -/
theorem exists_verdict_ok (limit : UInt64) (h : HasType Γ e ty)
    (hb : e.height ≤ budget) :
    ∃ t : TypedExpr, t.ty = ty ∧ verdict limit budget Γ e = .ok t := by
  induction budget generalizing Γ e ty with
  | zero => exact absurd e.height_pos (Nat.not_lt.mpr hb)
  | succ budget ih =>
    obtain ⟨hentry, tys, hlen, hparts, hty⟩ := hasType_iff.mp h
    rw [Term.height_le_succ_iff] at hb
    obtain ⟨ts, rfl, hts⟩ := LeftToRight.lift [] hparts hlen
      (fun part hpart done ty hpartTy => ih hpartTy (hb part hpart))
    refine ⟨e.rebuild ty ts, Term.note_rebuild e ty ts,
      verdict_succ_ok_iff.mpr ⟨hentry, ts, ty, ?_, hts, hty, rfl⟩⟩
    exact (List.length_map _).symm.trans hlen

/-- **A script has one type at most.** -/
theorem HasType.unique {ty' : Ty} (h : HasType Γ e ty)
    (h' : HasType Γ e ty') : ty = ty' := by
  -- the checker finds both, and it finds one type
  obtain ⟨t, rfl, ht⟩ := exists_verdict_ok 0 h (Nat.le_refl _)
  obtain ⟨t', rfl, ht'⟩ := exists_verdict_ok 0 h' (Nat.le_refl _)
  rw [Except.ok.inj (ht.symm.trans ht')]

end Decision

/-- **The checker decides the judgement up to the limit**: a script is
accepted with a type exactly where it has that type and is not nested
deeper than the limit allows. -/
theorem Checker.accepted_iff_hasType (Γ : Context) (e : Expr) (ty : Ty)
    (limit : UInt64) (sink : Sink) (hs : sink.tripwire = none) :
    (∃ t, ((Checker.new ⟨limit⟩).run Γ e sink).1 = .accepted t
        ∧ t.ty = ty)
      ↔ e.height ≤ limit.toNat ∧ HasType Γ e ty := by
  constructor
  · rintro ⟨t, hrun, rfl⟩
    have ht := verdict_of_accepted hrun
    rw [budget_new] at ht
    exact ⟨height_le_of_verdict_ok ht, hasType_of_verdict_ok ht⟩
  · rintro ⟨hheight, hty⟩
    obtain ⟨t, rfl, ht⟩ := exists_verdict_ok limit hty hheight
    refine ⟨t, accepts_iff.mpr ?_ sink hs, rfl⟩
    rw [budget_new]
    exact ht

/-- `choose(height, tx.fee)` is accepted by the sample host at the limit
of its height, so it is an integer: the placeholder of `choose` is filled
in by both arguments alike. -/
theorem Checker.accepted_iff_hasType_choose :
    let e : Expr := .call () "choose"
      [.ref () "height", .access () (.ref () "tx") "fee"]
    (Sink.fresh none).tripwire = none
      ∧ e.height ≤ (3 : UInt64).toNat ∧ HasType sampleContext e .long :=
  ⟨rfl, (Checker.accepted_iff_hasType sampleContext _ .long 3
      (Sink.fresh none) rfl).mp
    ⟨.call .long "choose" [.ref .long "height",
      .access .long (.ref (.named "Transaction") "tx") "fee"], rfl, rfl⟩⟩

end PredicateScript
