import PredicateScript.Proofs.Coincidence

/-!
# Registering more types

A host that learns of more record types may register them without looking
at the scripts it has: what was accepted stays accepted as the same tree,
and what was rejected for another reason than a missing type stays rejected
for that reason, down to the names on offer.

A context asks its types for two things only. It looks a name up, which may
now be found where it was not; and it lists the names, for the offer that
goes with a missing type. Both ways a difference begins where a type is
missing in the smaller context, and there the smaller check ends. So the
check of a script against fewer types is the check against more, cut short
by a missing type if by anything (`transcript_cutBy_of_typesGrow`).
-/

namespace PredicateScript

/-- The rejections for a type that is not registered. -/
def Rejection.IsMissingType (cause : Rejection) : Prop :=
  ∃ name suggestions, cause = .undefinedType name suggestions

/-- **An outcome that more types cannot change**: an acceptance, or a
rejection for another reason than a missing type. -/
def Outcome.Settled : Outcome → Prop
  | accepted _ => True
  | rejected cause => ¬ cause.IsMissingType
  | broken _ => False

namespace Context

/-- **The context with more types registered**, one after the other. -/
def withTypes (Γ : Context) (news : List (String × RecordType)) : Context :=
  news.foldl (fun Γ new => Γ.withType new.1 new.2) Γ

/-- **`Γ'` has the types of `Γ` and maybe more**, and has the functions and
variables of `Γ`. -/
structure TypesGrow (Γ Γ' : Context) : Prop where
  /-- What is registered stays as it is. -/
  types : ∀ n record, Γ.type? n = some record → Γ'.type? n = some record
  /-- The functions are the same. -/
  functions : Γ.functions = Γ'.functions
  /-- The variables are the same. -/
  vars : Γ.vars = Γ'.vars

theorem typesGrow_refl (Γ : Context) : Γ.TypesGrow Γ :=
  ⟨fun _ _ h => h, rfl, rfl⟩

namespace TypesGrow

variable {Γ Γ' : Context}

/-- A name that the smaller context does not have can be registered, also
again. -/
theorem withType (h : Γ.TypesGrow Γ') {name : String}
    (hnew : Γ.type? name = none) (record : RecordType) :
    Γ.TypesGrow (Γ'.withType name record) := by
  refine ⟨fun n r hn => ?_, h.functions, h.vars⟩
  have hne : n ≠ name := by
    rintro rfl
    rw [hnew] at hn
    cases hn
  show (Γ'.types.insert name record).find? n = some r
  rw [Table.find?_insert_of_ne _ _ hne]
  exact h.types n r hn

/-- **Registering new names makes the types grow.** -/
theorem withTypes (h : Γ.TypesGrow Γ') {news : List (String × RecordType)}
    (hnew : ∀ new ∈ news, Γ.type? new.1 = none) :
    Γ.TypesGrow (Γ'.withTypes news) := by
  induction news generalizing Γ' with
  | nil => exact h
  | cons new news ih =>
    obtain ⟨hfirst, hrest⟩ := List.forall_mem_cons.mp hnew
    exact ih (h.withType hfirst new.2) hrest

theorem bind (h : Γ.TypesGrow Γ') (name : String) (ty : Ty) :
    (Γ.bind name ty).TypesGrow (Γ'.bind name ty) :=
  ⟨h.types, h.functions, congrArg ((name, ty) :: ·) h.vars⟩

theorem scopeOf (h : Γ.TypesGrow Γ') (e : Expr) (tys : List Ty) :
    (Γ.scopeOf e tys).TypesGrow (Γ'.scopeOf e tys) := by
  unfold Context.scopeOf
  split
  · exact h.bind _ _
  · exact h

/-! ## The rules with more types -/

/-- What a rule says with fewer types is what it says with more, unless it
misses one. -/
abbrev SameOrMissing {α : Type} (r r' : Except Rejection α) : Prop :=
  r = r' ∨ ∃ cause, r = .error cause ∧ cause.IsMissingType

theorem known (h : Γ.TypesGrow Γ') (ty : Ty) :
    SameOrMissing (Γ.known ty) (Γ'.known ty) := by
  cases ty with
  | named n =>
    unfold Context.known
    dsimp only
    cases hn : Γ.type? n with
    | none => exact Or.inr ⟨_, rfl, n, _, rfl⟩
    | some record =>
      rw [h.types n record hn]
      exact Or.inl rfl
  | _ => exact Or.inl rfl

theorem reference (h : Γ.TypesGrow Γ') (name : String) :
    SameOrMissing (Γ.reference name) (Γ'.reference name) := by
  unfold Context.reference Context.var? Context.varNames
  rw [h.vars]
  cases Γ'.vars.lookup name with
  | none => exact Or.inl rfl
  | some ty => exact h.known ty

/-- A field is looked up in a record that was there, or there was none. -/
theorem fieldType (h : Γ.TypesGrow Γ') (ty : Ty) (field : String) :
    SameOrMissing (Γ.fieldType ty field) (Γ'.fieldType ty field) := by
  cases ty with
  | named n =>
    unfold Context.fieldType
    dsimp only
    cases hn : Γ.type? n with
    | none => exact Or.inr ⟨_, rfl, n, _, rfl⟩
    | some record =>
      rw [h.types n record hn]
      dsimp only
      cases record.field? field with
      | none => exact Or.inl rfl
      | some fieldTy => exact h.known fieldTy
  | _ => exact Or.inl rfl

theorem callee_eq (h : Γ.TypesGrow Γ') (name : String) (argCount : Nat) :
    Γ.callee name argCount = Γ'.callee name argCount := by
  unfold Context.callee function? functionNames
  rw [h.functions]

theorem resultType (h : Γ.TypesGrow Γ') (sig : Signature) (name : String)
    (tys : List Ty) :
    SameOrMissing (Γ.resultType sig name tys)
      (Γ'.resultType sig name tys) := by
  unfold Context.resultType
  cases sig.instantiate name tys with
  | error cause => exact Or.inl rfl
  | ok filled => exact h.known filled.2

theorem entryTest_eq (h : Γ.TypesGrow Γ') (e : Expr) :
    Γ.entryTest e = Γ'.entryTest e := by
  unfold Context.entryTest
  split
  · rw [h.callee_eq]
  · unfold fresh var? function?
    rw [h.vars, h.functions]
  · rfl

theorem nodeEvents_eq (h : Γ.TypesGrow Γ') (e : Expr) (tys : List Ty) :
    Γ.nodeEvents e tys = Γ'.nodeEvents e tys := by
  unfold Context.nodeEvents
  split
  · rw [h.callee_eq]
  · rfl
  · rfl

/-- **The rule of a node** says with fewer types what it says with more,
unless it misses one. -/
theorem nodeType (h : Γ.TypesGrow Γ') (e : Expr) (tys : List Ty) :
    SameOrMissing (Γ.nodeType e tys) (Γ'.nodeType e tys) := by
  unfold Context.nodeType
  split
  case h_2 name => exact h.reference name
  case h_3 field target => exact h.fieldType _ _
  case h_4 name args =>
    rw [h.callee_eq]
    cases Γ'.callee name args.length with
    | error cause => exact Or.inl rfl
    | ok sig => exact h.resultType sig name tys
  all_goals exact Or.inl rfl

end TypesGrow

end Context

/-! ## The check with more types -/

/-- **A check with fewer types is one with more**, cut short by a missing
type if by anything. -/
theorem simulation_typesGrow :
    Simulation (fun _ x y => x.CutBy Rejection.IsMissingType y)
      (fun Γ Γ' _ => Γ.TypesGrow Γ') where
  congruence := Transcript.congruence_cutBy _
  entry h := Or.inl (by rw [h.entryTest_eq])
  scope h _ tys := h.scopeOf _ tys
  rule {Γ Γ' e} h tys := by
    unfold Context.rule
    rw [h.nodeEvents_eq]
    refine Transcript.CutBy.bind (Or.inl rfl) (fun _ => ?_)
    obtain heq | hmissing := h.nodeType e tys
    · rw [heq]
      exact Or.inl rfl
    · exact Or.inr ⟨hmissing, List.nil_prefix⟩

section Answers

variable {Γ Γ' : Context} {config : Config} {e : Expr} {sink : Sink}

theorem transcript_cutBy_of_typesGrow (h : Γ.TypesGrow Γ') (limit : UInt64)
    (budget : Nat) (e : Expr) :
    (transcript limit budget Γ e).CutBy Rejection.IsMissingType
      (transcript limit budget Γ' e) :=
  simulation_typesGrow.transcript_related h limit budget

/-- An answer is the same with more types, or a type is missing. -/
theorem Checker.answer_eq_of_typesGrow (h : Γ.TypesGrow Γ')
    (config : Config) (e : Expr) (sink : Sink) :
    (Checker.new config).answer Γ e sink
        = (Checker.new config).answer Γ' e sink
      ∨ ∃ cause, ((Checker.new config).answer Γ e sink).1 = .rejected cause
        ∧ cause.IsMissingType := by
  rw [answer_eq, answer_eq]
  obtain heq | ⟨hmissing, -⟩ :=
    (transcript_cutBy_of_typesGrow h _ _ e).deliver sink
  · exact Or.inl heq
  · exact Or.inr hmissing

theorem Checker.answer_eq_of_settled (h : Γ.TypesGrow Γ')
    (hsettled : ((Checker.new config).answer Γ e sink).1.Settled) :
    (Checker.new config).answer Γ' e sink
      = (Checker.new config).answer Γ e sink := by
  obtain heq | ⟨cause, hcause, hmissing⟩ :=
    answer_eq_of_typesGrow h config e sink
  · exact heq.symm
  · rw [hcause] at hsettled
    exact absurd hmissing hsettled

/-- What a supervised check comes to is settled only if what the walk comes
to is. -/
theorem settled_of_checkWith_settled
    (h : (checkWith config Γ e sink).1.Settled) {cause : Rejection}
    (hcause : ((Checker.new config).answer Γ e (sink.begun config)).1
      = .rejected cause) : ¬ cause.IsMissingType := by
  rw [(checkWith_of_shielded (shielded_eq_toVerdict config Γ e _)).1,
    hcause] at h
  split at h
  · exact h.elim
  · exact h

theorem checkWith_eq_of_settled (h : Γ.TypesGrow Γ')
    (hsettled : (checkWith config Γ e sink).1.Settled) :
    checkWith config Γ' e sink = checkWith config Γ e sink := by
  have hshielded : shielded config Γ' e (sink.begun config)
      = shielded config Γ e (sink.begun config) := by
    rw [shielded_eq_toVerdict, shielded_eq_toVerdict]
    obtain heq | ⟨cause, hcause, hmissing⟩ :=
      Checker.answer_eq_of_typesGrow h config e (sink.begun config)
    · rw [heq]
    · exact absurd hmissing (settled_of_checkWith_settled hsettled hcause)
  unfold Sink.begun at hshielded
  simp only [checkWith, hshielded]

end Answers

/-- **Registering more types is conservative.** Types are registered under
names that the context does not have, any number of them, with any fields
and again if one likes. A script that was accepted, or rejected for another
reason than a missing type, gets the same answer as before: the same tree,
or the same reason with the same names on offer, and the same log. So it is
with a checker and with a supervised check. -/
theorem Checker.registration_conservative {Γ : Context}
    {news : List (String × RecordType)}
    (hnew : ∀ new ∈ news, Γ.type? new.1 = none) (config : Config) (e : Expr)
    (sink : Sink) :
    (((Checker.new config).answer Γ e sink).1.Settled →
      (Checker.new config).answer (Γ.withTypes news) e sink
        = (Checker.new config).answer Γ e sink)
    ∧ ((checkWith config Γ e sink).1.Settled →
      checkWith config (Γ.withTypes news) e sink
        = checkWith config Γ e sink) := by
  have hgrow : Γ.TypesGrow (Γ.withTypes news) :=
    Γ.typesGrow_refl.withTypes hnew
  exact ⟨answer_eq_of_settled hgrow, checkWith_eq_of_settled hgrow⟩

/-- A host has a record with a field of a type `Owner` that it does not
have. It registers `Owner`, twice, and a type that speaks of one more type
it does not have. Before and after, `box.siz` is rejected with `size` on
offer; while `box.owner`, which was rejected because a type was missing, is
now accepted. -/
theorem Checker.registration_conservative_owner :
    let Γ := Context.empty
      |>.withType "Box" ⟨[("size", .long), ("owner", .named "Owner")]⟩
      |>.bind "box" (.named "Box")
    let news : List (String × RecordType) :=
      [("Owner", ⟨[("name", .string)]⟩), ("Boxes", ⟨[("of", .named "Lid")]⟩),
        ("Owner", ⟨[]⟩)]
    let siz : Expr := .access () (.ref () "box") "siz"
    let owner : Expr := .access () (.ref () "box") "owner"
    let outcome (Γ : Context) (e : Expr) :=
      ((Checker.new ⟨2⟩).answer Γ e (Sink.fresh none)).1
    (∀ new ∈ news, Γ.type? new.1 = none)
      ∧ outcome Γ siz = .rejected (.undefinedField "Box" "siz" ["size"])
      ∧ outcome (Γ.withTypes news) siz = outcome Γ siz
      ∧ outcome Γ owner = .rejected (.undefinedType "Owner" [])
      ∧ outcome (Γ.withTypes news) owner
        = .accepted (.access (.named "Owner") (.ref (.named "Box") "box")
          "owner") := by
  intro Γ news siz owner outcome
  have hnew : ∀ new ∈ news, Γ.type? new.1 = none := by decide
  have hsiz : outcome Γ siz
      = .rejected (.undefinedField "Box" "siz" ["size"]) := rfl
  have hsettled : (outcome Γ siz).Settled := by
    rw [hsiz]
    rintro ⟨name, suggestions, h⟩
    cases h
  refine ⟨hnew, hsiz, ?_, rfl, rfl⟩
  exact congrArg Prod.fst
    ((Checker.registration_conservative hnew ⟨2⟩ siz _).1 hsettled)

end PredicateScript
