import PredicateScript.Proofs.Annotation
import PredicateScript.Proofs.Blame
import Mathlib.Data.Nat.Find

/-!
# What a rejection says is so

A rejection names things: a name that was not found, the place of an
argument, two types that do not go together. This module says what has to
be the case at a node for a rejection to be a true statement about it.
`Justified` has a rule for every way in which one can be, in terms of the
script, its scope and the typing judgement; it knows nothing of the order
in which a check asks its questions, except where a rejection claims to
have found the first of several faults. There is no rule for an internal
error, which says nothing about a script.

Every rejection is justified at the node that is to blame for it
(`FailsAt.justified`). The only rejections that need an argument are those
of calls. A placeholder is bound where it is first met, and what is
reported against it is the first type that differs from there on: this is
what `Substitution.meetAll_error` leaves of the reading of the arguments.
-/

namespace PredicateScript

/-- **An operator that fixes the type of its operands**, with that
type. -/
inductive Operator.Fixes : Operator → Ty → Prop where
  | sum : Fixes .sum .long
  | gt : Fixes .gt .long
  | ge : Fixes .ge .long
  | and : Fixes .and .boolean
  | or : Fixes .or .boolean

/-- **The first `n` arguments of a call fit its signature**: an assignment
turns what is declared for them into the types they have. -/
def ArgsFit (S : Context) (sig : Signature) (args : List Expr) (n : Nat) :
    Prop :=
  ∃ ρ : Placeholder → Ty, ∀ k < n, ∀ arg param,
    args[k]? = some arg → sig.params[k]? = some param →
      HasType S arg (param.under ρ)

/-- **What a rejection says is so** of the node it is held against, in the
scope `S` and `depth` levels deep. -/
inductive Justified (limit : UInt64) (depth : Nat) (S : Context) :
    Expr → Rejection → Prop where
  /-- No variable of the name is in scope. -/
  | undefinedReference {name : String} (hvar : S.var? name = none) :
      Justified limit depth S (.ref () name)
        (.undefinedReference name
          (similarNames name S.varNames Suggestion.reach))
  /-- The variable has a type that is not registered. -/
  | variableType {name n : String} (hvar : S.var? name = some (.named n))
      (hn : S.type? n = none) :
      Justified limit depth S (.ref () name)
        (.undefinedType n (similarNames n S.typeNames Suggestion.reach))
  /-- The target is no record. -/
  | fieldOfPrimitive {target : Expr} {field : String} {ty : Ty}
      (htarget : HasType S target ty) (hty : ∀ n, ty ≠ .named n) :
      Justified limit depth S (.access () target field)
        (.fieldOfPrimitive ty field)
  /-- The record declares no field of the name. -/
  | undefinedField {target : Expr} {n field : String} {record : RecordType}
      (htarget : HasType S target (.named n))
      (hrecord : S.type? n = some record)
      (hfield : field ∉ record.fieldNames) :
      Justified limit depth S (.access () target field)
        (.undefinedField n field
          (similarNames field record.fieldNames Suggestion.reach))
  /-- The field is declared with a type that is not registered. -/
  | fieldType {target : Expr} {m n field : String} {record : RecordType}
      (htarget : HasType S target (.named m))
      (hrecord : S.type? m = some record)
      (hfield : record.field? field = some (.named n))
      (hn : S.type? n = none) :
      Justified limit depth S (.access () target field)
        (.undefinedType n (similarNames n S.typeNames Suggestion.reach))
  /-- No function of the name is registered. -/
  | undefinedFunction {name : String} {args : List Expr}
      (hfun : S.function? name = none) :
      Justified limit depth S (.call () name args)
        (.undefinedFunction name
          (similarNames name S.functionNames Suggestion.reach))
  /-- The function is registered for another number of arguments. -/
  | arityMismatch {name : String} {args : List Expr} {sig : Signature}
      (hsig : S.function? name = some sig)
      (harity : sig.params.length ≠ args.length) :
      Justified limit depth S (.call () name args)
        (.arityMismatch name sig.params.length args.length)
  /-- The argument has another type than it is declared with, and it is the
  first that does not fit. -/
  | argumentMismatch {name : String} {args : List Expr} {sig : Signature}
      {i : Nat} {arg : Expr} {expected found : Ty}
      (hsig : S.function? name = some sig)
      (harity : sig.params.length = args.length)
      (hparam : sig.params[i]? = some (.concrete expected))
      (harg : args[i]? = some arg) (hfound : HasType S arg found)
      (hne : expected ≠ found) (hbefore : ArgsFit S sig args i) :
      Justified limit depth S (.call () name args)
        (.argumentMismatch name (i + 1) expected found)
  /-- The placeholder is first declared for an argument of one type, and
  after that for one of another; no argument that it is declared for in
  between has yet another type. -/
  | conflictingPlaceholder {name : String} {args : List Expr}
      {sig : Signature} {param : Placeholder} {i j : Nat}
      {first later : Expr} {bound found : Ty}
      (hsig : S.function? name = some sig)
      (harity : sig.params.length = args.length) (hij : i < j)
      (hparam : sig.params[i]? = some (.param param))
      (hfirst : ∀ k < i, sig.params[k]? ≠ some (.param param))
      (harg : args[i]? = some first) (hbound : HasType S first bound)
      (hparam' : sig.params[j]? = some (.param param))
      (harg' : args[j]? = some later) (hfound : HasType S later found)
      (hne : bound ≠ found)
      (hbetween : ∀ k arg, i < k → k < j →
        sig.params[k]? = some (.param param) → args[k]? = some arg →
        HasType S arg bound)
      (hbefore : ArgsFit S sig args j) :
      Justified limit depth S (.call () name args)
        (.conflictingPlaceholder name param bound found)
  /-- The arguments fit, and the result is a placeholder that is declared
  for none of them. -/
  | unresolvedPlaceholder {name : String} {args : List Expr}
      {sig : Signature} {param : Placeholder}
      (hsig : S.function? name = some sig)
      (harity : sig.params.length = args.length)
      (hresult : sig.result = .param param)
      (hparam : .param param ∉ sig.params)
      (hfit : ArgsFit S sig args args.length) :
      Justified limit depth S (.call () name args)
        (.unresolvedPlaceholder name param)
  /-- The arguments fit, and the result is declared with a type that is not
  registered. -/
  | resultType {name n : String} {args : List Expr} {sig : Signature}
      (hsig : S.function? name = some sig)
      (harity : sig.params.length = args.length)
      (hresult : sig.result = .concrete (.named n))
      (hn : S.type? n = none) (hfit : ArgsFit S sig args args.length) :
      Justified limit depth S (.call () name args)
        (.undefinedType n (similarNames n S.typeNames Suggestion.reach))
  /-- The left operand has another type than the operator asks for. -/
  | leftOperand {op : Operator} {left right : Expr} {expected found ty : Ty}
      (hop : op.Fixes expected) (hleft : HasType S left found)
      (hright : HasType S right ty) (hne : found ≠ expected) :
      Justified limit depth S (.binary () op left right)
        (.operandMismatch op .left expected found)
  /-- The left operand has the type that the operator asks for, and the
  right one has not. -/
  | rightOperand {op : Operator} {left right : Expr} {expected found : Ty}
      (hop : op.Fixes expected) (hleft : HasType S left expected)
      (hright : HasType S right found) (hne : found ≠ expected) :
      Justified limit depth S (.binary () op left right)
        (.operandMismatch op .right expected found)
  /-- The operands of an equality have different types. -/
  | equality {left right : Expr} {leftTy rightTy : Ty}
      (hleft : HasType S left leftTy) (hright : HasType S right rightTy)
      (hne : leftTy ≠ rightTy) :
      Justified limit depth S (.binary () .eq left right)
        (.noCommonType .equality leftTy rightTy)
  /-- The branches of a conditional have different types. -/
  | branches {cond ifTrue ifFalse : Expr} {condTy trueTy falseTy : Ty}
      (hcond : HasType S cond condTy) (hifTrue : HasType S ifTrue trueTy)
      (hifFalse : HasType S ifFalse falseTy) (hne : trueTy ≠ falseTy) :
      Justified limit depth S (.ifElse () cond ifTrue ifFalse)
        (.noCommonType .branches trueTy falseTy)
  /-- The name is bound already. -/
  | boundVariable {name : String} {value body : Expr} {ty : Ty}
      (hvar : S.var? name = some ty) :
      Justified limit depth S (.letIn () name value body)
        (.duplicateBinding name .var)
  /-- The name is that of a function, and not of a variable. -/
  | boundFunction {name : String} {value body : Expr} {sig : Signature}
      (hvar : S.var? name = none) (hfun : S.function? name = some sig) :
      Justified limit depth S (.letIn () name value body)
        (.duplicateBinding name .fn)
  /-- The node is the first on its path that is too deep. -/
  | depthLimitExceeded {e : Expr} (hdepth : depth = limit.toNat) :
      Justified limit depth S e (.depthLimitExceeded limit)

/-! ## What is asked of a node before its parts -/

section Rules

variable {limit : UInt64} {depth : Nat} {S : Context} {cause : Rejection}

theorem Justified.of_callee {name : String} {args : List Expr}
    (h : S.callee name args.length = .error cause) :
    Justified limit depth S (.call () name args) cause := by
  unfold Context.callee at h
  split at h
  · next hfun =>
    cases h
    exact .undefinedFunction hfun
  · next sig hsig =>
    split at h
    · cases h
    · next harity =>
      cases h
      exact .arityMismatch hsig harity

theorem Justified.of_fresh {name : String} {value body : Expr}
    (h : S.fresh name = .error cause) :
    Justified limit depth S (.letIn () name value body) cause := by
  unfold Context.fresh at h
  split at h
  · next hvar =>
    obtain ⟨ty, hvar⟩ := Option.isSome_iff_exists.mp hvar
    cases h
    exact .boundVariable hvar
  · next hvar =>
    have hvar : S.var? name = none :=
      Option.not_isSome_iff_eq_none.mp hvar
    split at h
    · next hfun =>
      obtain ⟨sig, hfun⟩ := Option.isSome_iff_exists.mp hfun
      cases h
      exact .boundFunction hvar hfun
    · cases h

/-- **What a node is turned away for is so.** -/
theorem Justified.of_entryTest {e : Expr}
    (h : S.entryTest e = .error cause) :
    Justified limit depth S e cause := by
  cases e with
  | call _ name args =>
    rw [Context.entryTest] at h
    cases hcallee : S.callee name args.length with
    | ok sig =>
      rw [hcallee] at h
      cases h
    | error cause' =>
      rw [hcallee] at h
      cases h
      exact .of_callee hcallee
  | letIn _ name value body => exact .of_fresh h
  | _ => cases h

/-! ## What is asked of the types of its parts -/

/-- A type that is not known is the name of nothing. -/
theorem Context.known_error {ty : Ty} (h : S.known ty = .error cause) :
    ∃ n, ty = .named n ∧ S.type? n = none ∧ cause = S.missingType n := by
  unfold known at h
  split at h
  · next n =>
    split at h
    · cases h
    · next hn =>
      cases h
      exact ⟨n, rfl, hn, rfl⟩
  · cases h

/-- **What has a type has one that is known.** -/
theorem HasType.knows {e : Expr} {ty : Ty} (h : HasType S e ty) :
    S.knows ty = true := by
  obtain ⟨t, rfl, ht⟩ := exists_verdict_ok 0 h (Nat.le_refl _)
  exact knows_of_verdict_ok ht

theorem Justified.of_reference {name : String}
    (h : S.reference name = .error cause) :
    Justified limit depth S (.ref () name) cause := by
  unfold Context.reference at h
  split at h
  · next ty hvar =>
    obtain ⟨n, rfl, hn, rfl⟩ := Context.known_error h
    exact .variableType hvar hn
  · next hvar =>
    cases h
    exact .undefinedReference hvar

theorem Justified.of_fieldType {target : Expr} {field : String} {ty : Ty}
    (htarget : HasType S target ty)
    (h : S.fieldType ty field = .error cause) :
    Justified limit depth S (.access () target field) cause := by
  unfold Context.fieldType at h
  split at h
  · next m =>
    -- the record type is there, since the target has it
    obtain ⟨record, hrecord⟩ := Context.knows_iff.mp htarget.knows m rfl
    rw [hrecord] at h
    dsimp only at h
    split at h
    · next hfield =>
      cases h
      refine .undefinedField htarget hrecord (fun hmem => ?_)
      obtain ⟨⟨_, ty⟩, hty, rfl⟩ := List.mem_map.mp hmem
      have hne := List.lookup_eq_none_iff.mp hfield _ hty
      exact absurd hne (by simp)
    · next fieldTy hfield =>
      obtain ⟨n, rfl, hn, rfl⟩ := Context.known_error h
      exact .fieldType htarget hrecord hfield hn
  · next hprimitive =>
    cases h
    exact .fieldOfPrimitive htarget hprimitive

theorem Operator.fixes_of_operand? {op : Operator} {expected : Ty}
    (h : op.operand? = some expected) : op.Fixes expected := by
  cases op <;> cases h <;> constructor

theorem Justified.of_typeOf {op : Operator} {left right : Expr}
    {leftTy rightTy : Ty} (hleft : HasType S left leftTy)
    (hright : HasType S right rightTy)
    (h : op.typeOf leftTy rightTy = .error cause) :
    Justified limit depth S (.binary () op left right) cause := by
  unfold Operator.typeOf at h
  split at h
  · next hop =>
    obtain rfl : op = .eq := by
      cases op with
      | eq => rfl
      | _ => cases hop
    split at h
    · cases h
    · next hcommon =>
      cases h
      exact .equality hleft hright (Ty.common?_eq_none_iff.mp hcommon)
  · next expected hop =>
    have hfixes := Operator.fixes_of_operand? hop
    split at h
    · next hne =>
      cases h
      exact .leftOperand hfixes hleft hright hne
    · next heq =>
      obtain rfl : leftTy = expected := not_not.mp heq
      split at h
      · next hne =>
        cases h
        exact .rightOperand hfixes hleft hright hne
      · cases h

theorem Justified.of_branchType {cond ifTrue ifFalse : Expr}
    {condTy trueTy falseTy : Ty} (hcond : HasType S cond condTy)
    (hifTrue : HasType S ifTrue trueTy)
    (hifFalse : HasType S ifFalse falseTy)
    (h : branchType trueTy falseTy = .error cause) :
    Justified limit depth S (.ifElse () cond ifTrue ifFalse) cause := by
  unfold branchType at h
  split at h
  · cases h
  · next hcommon =>
    cases h
    exact .branches hcond hifTrue hifFalse
      (Ty.common?_eq_none_iff.mp hcommon)

end Rules

/-! ## Calls -/

section Calls

variable {limit : UInt64} {depth : Nat} {S : Context} {cause : Rejection}
  {name : String} {args : List Expr} {tys : List Ty} {sig : Signature}
  {σ : Substitution} {n : Nat}

/-- **The arguments of a call have these types.** -/
structure ArgsTyped (S : Context) (args : List Expr) (tys : List Ty) :
    Prop where
  /-- There is a type for every argument. -/
  length_eq : tys.length = args.length
  /-- Each argument has its type. -/
  hasType : ∀ {k : Nat} {arg : Expr} {ty : Ty}, args[k]? = some arg →
    tys[k]? = some ty → HasType S arg ty

/-- The argument at a place has the type at that place. -/
theorem ArgsTyped.exists_ty (h : ArgsTyped S args tys) {k : Nat}
    {arg : Expr} (harg : args[k]? = some arg) :
    ∃ ty, tys[k]? = some ty ∧ HasType S arg ty := by
  have hk : k < tys.length := by
    rw [h.length_eq]
    exact (List.getElem?_eq_some_iff.mp harg).1
  have hty := List.getElem?_eq_getElem hk
  exact ⟨tys[k], hty, h.hasType harg hty⟩

/-- The type at a place is that of an argument. -/
theorem ArgsTyped.exists_arg (h : ArgsTyped S args tys) {k : Nat} {ty : Ty}
    (hty : tys[k]? = some ty) :
    ∃ arg, args[k]? = some arg ∧ HasType S arg ty := by
  have hk : k < args.length := by
    rw [← h.length_eq]
    exact (List.getElem?_eq_some_iff.mp hty).1
  have harg := List.getElem?_eq_getElem hk
  exact ⟨args[k], harg, h.hasType harg hty⟩

/-- What has been read of the first `n` arguments resolves what is declared
for them. -/
theorem resolve_of_unify_take
    (h : unify ((tys.zip sig.params).take n) = .ok σ) {k : Nat} (hk : k < n)
    {ty : Ty} {param : SigTy} (hty : tys[k]? = some ty)
    (hparam : sig.params[k]? = some param) :
    σ.resolve param = .ok ty := by
  have hzip : (tys.zip sig.params)[k]? = some (ty, param) :=
    List.getElem?_zip_eq_some.mpr ⟨hty, hparam⟩
  have hmem : (ty, param) ∈ (tys.zip sig.params).take n :=
    List.mem_of_getElem? (by rw [List.getElem?_take_of_lt hk, hzip])
  obtain ⟨-, hmet, -⟩ := Substitution.meetAll_ok h
  exact hmet _ hmem

/-- The arguments that have been read fit. -/
theorem argsFit_of_unify_take (hargs : ArgsTyped S args tys)
    (h : unify ((tys.zip sig.params).take n) = .ok σ) :
    ArgsFit S sig args n := by
  refine ⟨σ.toAssignment, fun k hk arg param harg hparam => ?_⟩
  obtain ⟨ty, hty, harg⟩ := hargs.exists_ty harg
  have hresolve := resolve_of_unify_take h hk hty hparam
  rw [σ.agrees_toAssignment.under_eq hresolve]
  exact harg

/-- To read as many arguments as there are is to read all of them. -/
theorem ArgsTyped.take_zip (hargs : ArgsTyped S args tys)
    (params : List SigTy) :
    (tys.zip params).take args.length = tys.zip params := by
  refine List.take_of_length_le ?_
  rw [List.length_zip, hargs.length_eq]
  exact Nat.min_le_left _ _

/-- An argument that a placeholder is declared for has the type that the
placeholder stands for once the argument has been read. -/
theorem hasType_bound (hargs : ArgsTyped S args tys)
    (h : unify ((tys.zip sig.params).take n) = .ok σ) {p : Placeholder}
    {bound : Ty} (hbound : σ.find? p = some bound) {k : Nat} (hk : k < n)
    (hparam : sig.params[k]? = some (.param p)) {arg : Expr}
    (harg : args[k]? = some arg) : HasType S arg bound := by
  obtain ⟨ty, hty, harg⟩ := hargs.exists_ty harg
  have hresolve := resolve_of_unify_take h hk hty hparam
  rw [Substitution.resolve_param_eq_ok_iff, hbound] at hresolve
  cases hresolve
  exact harg

/-- **What a placeholder stands for was brought at its first place.** -/
theorem exists_first_place (h : unify ((tys.zip sig.params).take n) = .ok σ)
    {p : Placeholder} {bound : Ty} (hbound : σ.find? p = some bound) :
    ∃ i < n, sig.params[i]? = some (.param p)
      ∧ ∀ k < i, sig.params[k]? ≠ some (.param p) := by
  obtain ⟨-, -, hfrom⟩ := Substitution.meetAll_ok h
  obtain hnone | hmem := hfrom p bound hbound
  · cases hnone
  · obtain ⟨k, hk⟩ := List.getElem?_of_mem hmem
    have hkn : k < n := by
      have hlt := (List.getElem?_eq_some_iff.mp hk).1
      rw [List.length_take] at hlt
      omega
    rw [List.getElem?_take_of_lt hkn, List.getElem?_zip_eq_some] at hk
    have hex : ∃ k, sig.params[k]? = some (SigTy.param p) := ⟨k, hk.2⟩
    exact ⟨Nat.find hex, Nat.lt_of_le_of_lt (Nat.find_min' hex hk.2) hkn,
      Nat.find_spec hex, fun _ => Nat.find_min hex⟩

/-- **What the reading of the arguments fails for is so.** -/
theorem Justified.of_unify {err : UnifyError}
    (hsig : S.function? name = some sig)
    (harity : sig.params.length = args.length)
    (hargs : ArgsTyped S args tys)
    (h : unify (tys.zip sig.params) = .error err) :
    Justified limit depth S (.call () name args)
      (.ofUnifyError name err) := by
  obtain ⟨j, actual, declared, σ, hj, hread, hmeet⟩ :=
    Substitution.meetAll_error h
  obtain ⟨hty, hparam⟩ := List.getElem?_zip_eq_some.mp hj
  obtain ⟨arg, harg, hactual⟩ := hargs.exists_arg hty
  have hbefore := argsFit_of_unify_take hargs hread
  obtain ⟨expected, rfl, hne, rfl⟩ | ⟨p, bound, rfl, hbound, hne, rfl⟩ :=
    Substitution.meet_error hmeet
  · rw [Nat.add_comm 1 j]
    exact .argumentMismatch hsig harity hparam harg hactual hne hbefore
  · obtain ⟨i, hij, hfirst, hnone⟩ := exists_first_place hread hbound
    have hi : i < args.length := by
      rw [← harity]
      exact (List.getElem?_eq_some_iff.mp hfirst).1
    have harg' := List.getElem?_eq_getElem hi
    exact .conflictingPlaceholder hsig harity hij hfirst hnone harg'
      (hasType_bound hargs hread hbound hij hfirst harg') hparam harg
      hactual hne
      (fun k arg _ hk hkparam hkarg =>
        hasType_bound hargs hread hbound hk hkparam hkarg)
      hbefore

/-- **What a call is rejected for is so.** -/
theorem Justified.of_resultType (hsig : S.function? name = some sig)
    (harity : sig.params.length = args.length)
    (hargs : ArgsTyped S args tys)
    (h : S.resultType sig name tys = .error cause) :
    Justified limit depth S (.call () name args) cause := by
  unfold Context.resultType at h
  cases hinst : sig.instantiate name tys with
  | error cause' =>
    rw [hinst] at h
    cases h
    obtain ⟨err, herr, rfl⟩ | ⟨σ, p, hunify, hresult, hp, rfl⟩ :=
      Signature.instantiate_error hinst
    · exact .of_unify hsig harity hargs herr
    · rw [← hargs.take_zip] at hunify
      refine .unresolvedPlaceholder hsig harity hresult (fun hmem => ?_)
        (argsFit_of_unify_take hargs hunify)
      -- an argument that it is declared for would have resolved it
      obtain ⟨k, hk⟩ := List.getElem?_of_mem hmem
      have hlt : k < args.length := by
        rw [← harity]
        exact (List.getElem?_eq_some_iff.mp hk).1
      obtain ⟨ty, hty, -⟩ :=
        hargs.exists_ty (List.getElem?_eq_getElem hlt)
      have hresolve := resolve_of_unify_take hunify hlt hty hk
      rw [Substitution.resolve_param_eq_ok_iff, hp] at hresolve
      cases hresolve
  | ok filled =>
    obtain ⟨σ, ty⟩ := filled
    rw [hinst] at h
    obtain ⟨n, rfl, hn, rfl⟩ := Context.known_error h
    obtain ⟨hunify, hresult⟩ := Signature.instantiate_eq_ok_iff.mp hinst
    cases hr : sig.result with
    | concrete ty =>
      rw [hr] at hresult
      cases hresult
      rw [← hargs.take_zip] at hunify
      exact .resultType hsig harity hr hn
        (argsFit_of_unify_take hargs hunify)
    | param p =>
      -- the result is the type of an argument, and so it is known
      have hmem := Signature.mem_zip_of_instantiate hinst hr
      obtain ⟨k, hk⟩ := List.getElem?_of_mem (List.of_mem_zip hmem).1
      obtain ⟨arg, -, harg⟩ := hargs.exists_arg hk
      obtain ⟨record, hrecord⟩ := Context.knows_iff.mp harg.knows _ rfl
      cases hn.symm.trans hrecord

end Calls

/-! ## The node to blame -/

/-- A part for which nothing is bound is reached in the scope of the
node. -/
theorem Reaches.scope_eq {S S' : Context} {e part : Expr} {i : Nat}
    (h : Reaches S e [i] S' part) (hbinding : e.binding? i = none) :
    S' = S := by
  cases h with
  | part _ _ hroot =>
    cases hroot
    rfl
  | body _ hbinding' _ _ => cases hbinding.symm.trans hbinding'

section Nodes

variable {limit : UInt64} {depth : Nat} {S : Context} {e : Expr}
  {cause : Rejection}

/-- **What a rule rejects the types of the parts for is so**, if the parts
have these types. -/
theorem Justified.of_nodeType {tys : List Ty}
    (hentry : S.entryTest e = .ok ())
    (hlen : tys.length = e.parts.length)
    (hparts : ∀ {i : Nat} {part : Expr} {ty : Ty}, e.binding? i = none →
      e.parts[i]? = some part → tys[i]? = some ty → HasType S part ty)
    (h : S.nodeType e tys = .error cause) :
    Justified limit depth S e cause := by
  cases e with
  | lit _ value =>
    obtain rfl := List.eq_nil_of_length_eq_zero hlen
    cases h
  | ref _ name =>
    obtain rfl := List.eq_nil_of_length_eq_zero hlen
    exact .of_reference h
  | access _ target field =>
    obtain ⟨ty, rfl⟩ := List.length_eq_one_iff.mp hlen
    have htarget : HasType S target ty := hparts (i := 0) rfl rfl rfl
    exact .of_fieldType htarget h
  | call _ name args =>
    obtain ⟨sig, hcallee⟩ := Context.exists_callee_of_entryTest hentry
    obtain ⟨hsig, harity⟩ := Context.callee_eq_ok_iff.mp hcallee
    rw [Context.nodeType_call hcallee] at h
    exact .of_resultType hsig harity
      ⟨hlen, fun harg hty => hparts rfl harg hty⟩ h
  | binary _ op left right =>
    obtain ⟨leftTy, rightTy, rfl⟩ := List.length_eq_two.mp hlen
    have hleft : HasType S left leftTy := hparts (i := 0) rfl rfl rfl
    have hright : HasType S right rightTy := hparts (i := 1) rfl rfl rfl
    exact .of_typeOf hleft hright h
  | block _ body =>
    obtain ⟨ty, rfl⟩ := List.length_eq_one_iff.mp hlen
    cases h
  | letIn _ name value body =>
    obtain ⟨valueTy, bodyTy, rfl⟩ := List.length_eq_two.mp hlen
    cases h
  | ifElse _ cond ifTrue ifFalse =>
    obtain ⟨condTy, trueTy, falseTy, rfl⟩ := List.length_eq_three.mp hlen
    have hcond : HasType S cond condTy := hparts (i := 0) rfl rfl rfl
    have hifTrue : HasType S ifTrue trueTy := hparts (i := 1) rfl rfl rfl
    have hifFalse : HasType S ifFalse falseTy :=
      hparts (i := 2) rfl rfl rfl
    exact .of_branchType hcond hifTrue hifFalse h

/-- **What a node fails for is so.** A node past the limit is not asked
about: nothing lets the walk through to it. -/
theorem FailsAt.justified (h : FailsAt limit depth S e cause)
    (hdepth : depth ≤ limit.toNat) : Justified limit depth S e cause := by
  cases h with
  | tooDeep hlimit =>
    exact .depthLimitExceeded (Nat.le_antisymm hdepth hlimit)
  | entry _ hentry => exact .of_entryTest hentry
  | rule _ hentry hlen hparts hrule =>
    refine .of_nodeType hentry ((List.length_map _).trans hlen) ?_ hrule
    intro i part ty hbinding hpart hty
    rw [List.getElem?_map, Option.map_eq_some_iff] at hty
    obtain ⟨t, ht, rfl⟩ := hty
    obtain ⟨S', hstep, haccepts⟩ := hparts i part t hpart ht
    rw [hstep.scope_eq hbinding] at haccepts
    exact hasType_of_verdict_ok (Checker.accepts_iff.mp haccepts)

/-- The node to blame is not past the limit: its parent let the walk
through. -/
theorem Blamed.depth_le {p : List Nat} (hdepth : depth ≤ limit.toNat)
    (h : Blamed limit depth S e cause p) :
    depth + p.length ≤ limit.toNat := by
  obtain rfl | ⟨q, i, rfl⟩ := p.eq_nil_or_concat
  · exact hdepth
  · obtain ⟨_, _, -, hlt, -⟩ := h.above q i [] (by simp)
    simp only [List.concat_eq_append, List.length_append,
      List.length_singleton]
    omega

/-- **Some node bears a rejection out.** -/
theorem exists_justified
    (h : verdict limit limit.toNat S e = .error cause) :
    ∃ p S' sub, Reaches S e p S' sub
      ∧ Justified limit p.length S' sub cause := by
  obtain ⟨p, hp⟩ := exists_blamed (Nat.zero_le _) (Nat.sub_zero _) h
  have hle := hp.depth_le (Nat.zero_le _)
  obtain ⟨S', sub, hsub, hfails⟩ := hp.own
  rw [Nat.zero_add] at hle hfails
  exact ⟨p, S', sub, hsub, hfails.justified hle⟩

end Nodes

/-- **Every reported error is true of the script.** Where a script is
rejected there is a node of it that bears out, in its own scope, all that
the rejection says. -/
theorem Checker.rejected_justified {limit : UInt64} {Γ : Context}
    {e : Expr} {sink : Sink} {cause : Rejection}
    (h : ((Checker.new ⟨limit⟩).run Γ e sink).1 = .rejected cause) :
    ∃ p S sub, Reaches Γ e p S sub
      ∧ Justified limit p.length S sub cause := by
  have hverdict := verdict_of_rejected h
  rw [budget_new] at hverdict
  exact exists_justified hverdict

/-- In `{ let n = 1; choose(n, "one") }` the placeholder of `choose` is
filled in by `n`, which is an integer in that scope, and then by a text. -/
theorem Checker.rejected_justified_choose :
    let e : Expr := .letIn () "n" (Expr.long 1)
      (.call () "choose" [.ref () "n", .lit () (.text "one")])
    let cause : Rejection :=
      .conflictingPlaceholder "choose" ⟨'T'⟩ .long .string
    ((Checker.new ⟨3⟩).run sampleContext e (Sink.fresh none)).1
        = .rejected cause
      ∧ ∃ p S sub, Reaches sampleContext e p S sub
        ∧ Justified 3 p.length S sub cause := by
  intro e cause
  have h : ((Checker.new ⟨3⟩).run sampleContext e (Sink.fresh none)).1
      = .rejected cause := rfl
  exact ⟨h, Checker.rejected_justified h⟩

end PredicateScript
