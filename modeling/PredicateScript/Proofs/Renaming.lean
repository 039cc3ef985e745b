import PredicateScript.Proofs.Translation
import Mathlib.Logic.Equiv.Defs

/-!
# Renaming

A `Renaming` gives every identifier, every type name and every field name
another one, no two the same. Variables, bindings and functions share one
supply of identifiers, so they are renamed together. This module says what
becomes of scripts, contexts and reasons under a renaming, and that the
rules cannot tell: whatever is looked up is found under its new name
(`Table.find?_rename`, `lookup_map_of_injective`), types are equal where
they were, and a rule answers what it answered, renamed. The names on offer
are the exception, because how alike two names are is not kept by a
renaming.

So a renaming is a translation in the sense of
`PredicateScript.Proofs.Translation` (`Renaming.translation`).
-/

namespace PredicateScript

/-- **A renaming**: new names for old ones, one kind of name at a time. -/
structure Renaming where
  /-- Names of variables, bindings and functions. -/
  identifiers : Equiv.Perm String
  /-- Names of types. -/
  types : Equiv.Perm String
  /-- Names of fields. -/
  fields : Equiv.Perm String

/-! ## Tables and lists under new keys -/

/-- What was found under a key is found under the new key. -/
theorem lookup_map_of_injective {κ κ' υ υ' : Type} [BEq κ] [LawfulBEq κ]
    [BEq κ'] [LawfulBEq κ'] {f : κ → κ'} (hf : f.Injective) (g : υ → υ')
    (l : List (κ × υ)) (k : κ) :
    (l.map (Prod.map f g)).lookup (f k) = (l.lookup k).map g := by
  induction l with
  | nil => rfl
  | cons entry l ih =>
    obtain ⟨k', v⟩ := entry
    rw [List.map_cons, Prod.map_apply, List.lookup_cons, List.lookup_cons, ih]
    by_cases hk : k = k'
    · rw [hk, beq_self_eq_true, beq_self_eq_true]
      rfl
    · rw [beq_eq_false_iff_ne.mpr hk, beq_eq_false_iff_ne.mpr (hf.ne hk)]

namespace Table

section Rename

variable {κ κ' υ υ' : Type} [Ord κ] [Ord κ'] [Std.TransOrd κ']
  [Std.LawfulEqOrd κ']

/-- **The table under new keys**, with every value read through `g`. -/
def rename (f : κ → κ') (g : υ → υ') (t : Table κ υ) : Table κ' υ' :=
  t.entries.foldr (fun entry u => u.insert (f entry.1) (g entry.2)) ∅

variable [BEq κ] [LawfulBEq κ] [BEq κ'] [LawfulBEq κ'] {f : κ → κ'}

theorem find?_rename (hf : f.Injective) (g : υ → υ') (t : Table κ υ)
    (k : κ) : (t.rename f g).find? (f k) = (t.find? k).map g := by
  show (t.entries.foldr (fun entry u => u.insert (f entry.1) (g entry.2))
    (∅ : Table κ' υ')).find? (f k) = (t.entries.lookup k).map g
  induction t.entries with
  | nil => rfl
  | cons entry l ih =>
    obtain ⟨k', v⟩ := entry
    rw [List.foldr_cons, List.lookup_cons]
    by_cases hk : k = k'
    · rw [hk, find?_insert_self, beq_self_eq_true]
      rfl
    · rw [find?_insert_of_ne _ _ (hf.ne hk), ih, beq_eq_false_iff_ne.mpr hk]

/-- A table under new keys is empty where the table is. -/
theorem isEmpty_rename (hf : f.Injective) (g : υ → υ') (t : Table κ υ) :
    (t.rename f g).isEmpty = t.isEmpty := by
  obtain ⟨_ | ⟨⟨k, v⟩, l⟩, hl⟩ := t
  · rfl
  · have hfound := find?_rename hf g ⟨(k, v) :: l, hl⟩ k
    have hself : (⟨(k, v) :: l, hl⟩ : Table κ υ).find? k = some v := by
      simp [find?]
    rw [hself] at hfound
    -- a table with an answer has an entry
    generalize rename f g ⟨(k, v) :: l, hl⟩ = u at hfound ⊢
    obtain ⟨_ | ⟨entry, m⟩, hm⟩ := u
    · cases hfound
    · rfl

end Rename

/-- An entry is inserted under its new key. -/
theorem rename_insert {κ υ υ' : Type} [Ord κ] [Std.TransOrd κ]
    [Std.LawfulEqOrd κ] [BEq κ] [LawfulBEq κ] (f : Equiv.Perm κ) (g : υ → υ')
    (t : Table κ υ) (k : κ) (v : υ) :
    (t.insert k v).rename f g = (t.rename f g).insert (f k) (g v) := by
  refine ext_find? (fun j => ?_)
  obtain ⟨i, rfl⟩ := f.surjective j
  rw [find?_rename f.injective]
  by_cases hi : i = k
  · rw [hi, find?_insert_self, find?_insert_self]
    rfl
  · rw [find?_insert_of_ne _ _ hi,
      find?_insert_of_ne _ _ (f.injective.ne hi), find?_rename f.injective]

end Table

/-! ## What is renamed -/

/-- A primitive type has no name to change. -/
def Ty.rename (ρ : Renaming) : Ty → Ty
  | named name => named (ρ.types name)
  | ty => ty

def SigTy.rename (ρ : Renaming) : SigTy → SigTy
  | concrete ty => concrete (ty.rename ρ)
  | param p => param p

def Signature.rename (ρ : Renaming) (sig : Signature) : Signature :=
  ⟨sig.params.map (SigTy.rename ρ), sig.result.rename ρ⟩

def RecordType.rename (ρ : Renaming) (record : RecordType) : RecordType :=
  ⟨record.fields.map (Prod.map ρ.fields (Ty.rename ρ))⟩

/-- **The renamed context**: types, functions and variables under their new
names, fields and signatures renamed too. -/
def Context.rename (ρ : Renaming) (Γ : Context) : Context :=
  ⟨Γ.types.rename ρ.types (RecordType.rename ρ),
    Γ.functions.rename ρ.identifiers (Signature.rename ρ),
    Γ.vars.map (Prod.map ρ.identifiers (Ty.rename ρ))⟩

def Substitution.rename (ρ : Renaming) (σ : Substitution) : Substitution :=
  Table.rename (Equiv.refl Placeholder) (Ty.rename ρ) σ

namespace Term

variable {α β γ δ : Type} (ρ : Renaming) (f : α → β)

mutual

/-- **The renamed tree**, with every note read through `f`. -/
def rename : Term α → Term β
  | lit n value => .lit (f n) value
  | ref n name => .ref (f n) (ρ.identifiers name)
  | access n target field => .access (f n) target.rename (ρ.fields field)
  | call n function args =>
    .call (f n) (ρ.identifiers function) (renameEach args)
  | binary n op left right => .binary (f n) op left.rename right.rename
  | block n body => .block (f n) body.rename
  | letIn n name value body =>
    .letIn (f n) (ρ.identifiers name) value.rename body.rename
  | ifElse n cond ifTrue ifFalse =>
    .ifElse (f n) cond.rename ifTrue.rename ifFalse.rename

/-- `rename` on each tree of a list. -/
def renameEach : List (Term α) → List (Term β)
  | [] => []
  | t :: ts => t.rename :: renameEach ts

end

@[simp] theorem renameEach_eq_map (ts : List (Term α)) :
    renameEach ρ f ts = ts.map (rename ρ f) := by
  induction ts with
  | nil => rfl
  | cons t ts ih => rw [renameEach, ih, List.map_cons]

@[simp] theorem note_rename (t : Term α) : (t.rename ρ f).note = f t.note := by
  cases t <;> simp [rename, note]

@[simp] theorem parts_rename (t : Term α) :
    (t.rename ρ f).parts = t.parts.map (rename ρ f) := by
  cases t <;> simp [rename, parts]

/-- A node is renamed with its parts. -/
theorem rename_rebuild (g : γ → δ) (n : α) :
    ∀ {t : Term γ} {us : List (Term α)}, us.length = t.parts.length →
      (t.rename ρ g).rebuild (f n) (us.map (rename ρ f))
        = (t.rebuild n us).rename ρ f
  | .call .., us, _ => by simp [rebuild, rename]
  | .lit .., [], _ | .ref .., [], _ | .access .., [_], _
  | .binary .., [_, _], _ | .block .., [_], _ | .letIn .., [_, _], _
  | .ifElse .., [_, _, _], _ => by simp [rebuild, rename]

end Term

def UnifyError.rename (ρ : Renaming) : UnifyError → UnifyError
  | mismatch position expected found =>
    mismatch position (expected.rename ρ) (found.rename ρ)
  | conflict param bound found =>
    conflict param (bound.rename ρ) (found.rename ρ)
  | unresolved param => unresolved param

/-- **The renamed reason**: its names and types, and the names on offer. -/
def Rejection.rename (ρ : Renaming) : Rejection → Rejection
  | undefinedType name offers =>
    undefinedType (ρ.types name) (offers.map ρ.types)
  | undefinedField typeName field offers =>
    undefinedField (ρ.types typeName) (ρ.fields field) (offers.map ρ.fields)
  | fieldOfPrimitive ty field =>
    fieldOfPrimitive (ty.rename ρ) (ρ.fields field)
  | undefinedFunction name offers =>
    undefinedFunction (ρ.identifiers name) (offers.map ρ.identifiers)
  | arityMismatch name expected found =>
    arityMismatch (ρ.identifiers name) expected found
  | argumentMismatch function position expected found =>
    argumentMismatch (ρ.identifiers function) position (expected.rename ρ)
      (found.rename ρ)
  | conflictingPlaceholder function param bound found =>
    conflictingPlaceholder (ρ.identifiers function) param (bound.rename ρ)
      (found.rename ρ)
  | unresolvedPlaceholder function param =>
    unresolvedPlaceholder (ρ.identifiers function) param
  | operandMismatch op side expected found =>
    operandMismatch op side (expected.rename ρ) (found.rename ρ)
  | noCommonType site left right =>
    noCommonType site (left.rename ρ) (right.rename ρ)
  | duplicateBinding name use => duplicateBinding (ρ.identifiers name) use
  | undefinedReference name offers =>
    undefinedReference (ρ.identifiers name) (offers.map ρ.identifiers)
  | depthLimitExceeded limit => depthLimitExceeded limit
  | internal message => internal message

/-- **The renamed outcome.** -/
def Outcome.rename (ρ : Renaming) : Outcome → Outcome
  | accepted t => accepted (t.rename ρ (Ty.rename ρ))
  | rejected cause => rejected (cause.rename ρ)
  | broken fault => broken fault

/-! ## What is found -/

variable (ρ : Renaming)

theorem Ty.rename_injective : (Ty.rename ρ).Injective := by
  intro a b h
  cases a <;> cases b <;> simp_all [rename]

@[simp] theorem Ty.rename_inj {a b : Ty} :
    a.rename ρ = b.rename ρ ↔ a = b :=
  (rename_injective ρ).eq_iff

/-- Types have a common type where their renamings have. -/
theorem Ty.common?_rename (a b : Ty) :
    (a.rename ρ).common? (b.rename ρ) = (a.common? b).map (Ty.rename ρ) := by
  simp only [common?, rename_inj]
  split <;> rfl

@[simp] theorem Ty.rename_eq_boolean_iff {ty : Ty} :
    ty.rename ρ = .boolean ↔ ty = .boolean :=
  rename_inj ρ (b := .boolean)

theorem RecordType.field?_rename (record : RecordType) (field : String) :
    (record.rename ρ).field? (ρ.fields field)
      = (record.field? field).map (Ty.rename ρ) :=
  lookup_map_of_injective ρ.fields.injective _ _ _

namespace Context

variable (Γ : Context)

theorem type?_rename (name : String) :
    (Γ.rename ρ).type? (ρ.types name)
      = (Γ.type? name).map (RecordType.rename ρ) :=
  Table.find?_rename ρ.types.injective _ _ _

theorem function?_rename (name : String) :
    (Γ.rename ρ).function? (ρ.identifiers name)
      = (Γ.function? name).map (Signature.rename ρ) :=
  Table.find?_rename ρ.identifiers.injective _ _ _

theorem var?_rename (name : String) :
    (Γ.rename ρ).var? (ρ.identifiers name)
      = (Γ.var? name).map (Ty.rename ρ) :=
  lookup_map_of_injective ρ.identifiers.injective _ _ _

end Context

@[simp] theorem Signature.arity_rename (sig : Signature) :
    (sig.rename ρ).arity = sig.arity :=
  List.length_map _

/-! ## What the rules answer -/

/-- **The reasons that stand for a reason**: those that are its renaming up
to the names on offer. -/
def Rejection.Renamed (cause cause' : Rejection) : Prop :=
  cause'.withoutSuggestions = (cause.rename ρ).withoutSuggestions

/-- The second answer is the renaming of the first. -/
abbrev Renaming.Answers {α β : Type} (f : α → β) (r : Except Rejection α)
    (r' : Except Rejection β) : Prop :=
  AnswerTranslates (Rejection.Renamed ρ) f r r'

namespace Context

variable (Γ : Context)

theorem known_rename (ty : Ty) :
    ρ.Answers (Ty.rename ρ) (Γ.known ty)
      ((Γ.rename ρ).known (ty.rename ρ)) := by
  cases ty with
  | named name =>
    simp only [known, Ty.rename, type?_rename]
    cases Γ.type? name with
    | none => exact ⟨_, rfl, rfl⟩
    | some record => rfl
  | _ => rfl

theorem reference_rename (name : String) :
    ρ.Answers (Ty.rename ρ) (Γ.reference name)
      ((Γ.rename ρ).reference (ρ.identifiers name)) := by
  simp only [reference, var?_rename]
  cases Γ.var? name with
  | none => exact ⟨_, rfl, rfl⟩
  | some ty => exact Γ.known_rename ρ ty

theorem fieldType_rename (ty : Ty) (field : String) :
    ρ.Answers (Ty.rename ρ) (Γ.fieldType ty field)
      ((Γ.rename ρ).fieldType (ty.rename ρ) (ρ.fields field)) := by
  cases ty with
  | named name =>
    simp only [fieldType, Ty.rename, type?_rename]
    cases Γ.type? name with
    | none => exact ⟨_, rfl, rfl⟩
    | some record =>
      simp only [Option.map_some, RecordType.field?_rename]
      cases record.field? field with
      | none => exact ⟨_, rfl, rfl⟩
      | some fieldTy => exact Γ.known_rename ρ fieldTy
  | _ => exact ⟨_, rfl, rfl⟩

theorem callee_rename (name : String) (argCount : Nat) :
    ρ.Answers (Signature.rename ρ) (Γ.callee name argCount)
      ((Γ.rename ρ).callee (ρ.identifiers name) argCount) := by
  simp only [callee, function?_rename]
  cases Γ.function? name with
  | none => exact ⟨_, rfl, rfl⟩
  | some sig =>
    simp only [Option.map_some, Signature.arity_rename]
    split
    · rfl
    · exact ⟨_, rfl, rfl⟩

theorem fresh_rename (name : String) :
    ρ.Answers id (Γ.fresh name)
      ((Γ.rename ρ).fresh (ρ.identifiers name)) := by
  simp only [fresh, var?_rename, function?_rename, Option.isSome_map]
  split
  · exact ⟨_, rfl, rfl⟩
  · split
    · exact ⟨_, rfl, rfl⟩
    · rfl

end Context

/-! ## What a call answers -/

namespace Substitution

variable (σ : Substitution)

/-- What a signature fails for is renamed as it stands: it offers no
names. -/
abbrev Answers {α β : Type} (f : α → β) (r : Except UnifyError α)
    (r' : Except UnifyError β) : Prop :=
  AnswerTranslates (fun err err' => err' = err.rename ρ) f r r'

theorem find?_rename (p : Placeholder) :
    (σ.rename ρ).find? p = (Table.find? σ p).map (Ty.rename ρ) :=
  Table.find?_rename (Equiv.refl Placeholder).injective _ σ p

theorem resolve_rename (declared : SigTy) :
    Answers ρ (Ty.rename ρ) (σ.resolve declared)
      ((σ.rename ρ).resolve (declared.rename ρ)) := by
  cases declared with
  | concrete ty => rfl
  | param p =>
    simp only [resolve, SigTy.rename, find?_rename]
    cases Table.find? σ p with
    | none => exact ⟨_, rfl, rfl⟩
    | some ty => rfl

theorem meet_rename (position : Nat) (actual : Ty) (declared : SigTy) :
    Answers ρ (rename ρ) (σ.meet position actual declared)
      ((σ.rename ρ).meet position (actual.rename ρ) (declared.rename ρ)) := by
  cases declared with
  | concrete expected =>
    simp only [meet, SigTy.rename, Ty.rename_inj]
    split
    · rfl
    · exact ⟨_, rfl, rfl⟩
  | param p =>
    simp only [meet, SigTy.rename, find?_rename]
    cases Table.find? σ p with
    | none =>
      have hinsert := Table.rename_insert (Equiv.refl Placeholder)
        (Ty.rename ρ) σ p actual
      exact congrArg Except.ok hinsert.symm
    | some bound =>
      simp only [Option.map_some, Ty.rename_inj]
      split
      · rfl
      · exact ⟨_, rfl, rfl⟩

theorem meetAll_cons (position : Nat) (actual : Ty) (declared : SigTy)
    (rest : List (Ty × SigTy)) :
    σ.meetAll position ((actual, declared) :: rest)
      = σ.meet position actual declared
        >>= fun σ => σ.meetAll (position + 1) rest := by
  rw [meetAll]
  cases σ.meet position actual declared <;> rfl

theorem meetAll_rename (position : Nat) (pairs : List (Ty × SigTy)) :
    Answers ρ (rename ρ) (σ.meetAll position pairs)
      ((σ.rename ρ).meetAll position
        (pairs.map (Prod.map (Ty.rename ρ) (SigTy.rename ρ)))) := by
  induction pairs generalizing σ position with
  | nil => rfl
  | cons pair rest ih =>
    obtain ⟨actual, declared⟩ := pair
    rw [List.map_cons, Prod.map_apply, meetAll_cons, meetAll_cons]
    exact (σ.meet_rename ρ position actual declared).bind
      (fun σ => ih σ (position + 1))

end Substitution

theorem unify_rename (pairs : List (Ty × SigTy)) :
    Substitution.Answers ρ (Substitution.rename ρ) (unify pairs)
      (unify (pairs.map (Prod.map (Ty.rename ρ) (SigTy.rename ρ)))) :=
  Substitution.meetAll_rename ρ ∅ 1 pairs

theorem Rejection.ofUnifyError_rename (name : String) (err : UnifyError) :
    ofUnifyError (ρ.identifiers name) (err.rename ρ)
      = (ofUnifyError name err).rename ρ := by
  cases err <;> rfl

section Call

variable (sig : Signature) (name : String) (tys : List Ty)

/-- **A signature is filled in alike.** -/
theorem Signature.instantiate_rename :
    ρ.Answers (Prod.map (Substitution.rename ρ) (Ty.rename ρ))
      (sig.instantiate name tys)
      ((sig.rename ρ).instantiate (ρ.identifiers name)
        (tys.map (Ty.rename ρ))) := by
  have hunify := unify_rename ρ (tys.zip sig.params)
  rw [← List.zip_map] at hunify
  unfold instantiate
  cases hσ : unify (tys.zip sig.params) with
  | error err =>
    rw [hσ] at hunify
    obtain ⟨_, herr, rfl⟩ := hunify
    refine ⟨(Rejection.ofUnifyError name err).rename ρ, ?_, rfl⟩
    rw [rename, herr, ← Rejection.ofUnifyError_rename]
  | ok σ =>
    rw [hσ] at hunify
    have hσ' : unify ((tys.map (Ty.rename ρ)).zip
      (sig.params.map (SigTy.rename ρ))) = .ok (σ.rename ρ) := hunify
    have hresolve := σ.resolve_rename ρ sig.result
    simp only [rename, hσ']
    cases hty : σ.resolve sig.result with
    | error err =>
      rw [hty] at hresolve
      obtain ⟨_, herr, rfl⟩ := hresolve
      refine ⟨(Rejection.ofUnifyError name err).rename ρ, ?_, rfl⟩
      rw [herr, ← Rejection.ofUnifyError_rename]
    | ok ty =>
      rw [hty] at hresolve
      have hty' : (σ.rename ρ).resolve (sig.result.rename ρ)
        = .ok (ty.rename ρ) := hresolve
      rw [hty']
      rfl

/-- **The type of a call** is found alike. -/
theorem Context.resultType_rename (Γ : Context) :
    ρ.Answers (Ty.rename ρ) (Γ.resultType sig name tys)
      ((Γ.rename ρ).resultType (sig.rename ρ) (ρ.identifiers name)
        (tys.map (Ty.rename ρ))) :=
  (sig.instantiate_rename ρ name tys).bind
    (fun filled => Γ.known_rename ρ filled.2)

/-- A call fills placeholders in where the renamed call does. -/
theorem Signature.title_fillEvents_rename :
    (sig.fillEvents name tys).map Event.title
      = ((sig.rename ρ).fillEvents (ρ.identifiers name)
        (tys.map (Ty.rename ρ))).map Event.title := by
  have hfilled := sig.instantiate_rename ρ name tys
  unfold fillEvents
  cases hσ : sig.instantiate name tys with
  | error cause =>
    rw [hσ] at hfilled
    obtain ⟨_, herr, -⟩ := hfilled
    rw [herr]
  | ok filled =>
    obtain ⟨σ, ty⟩ := filled
    rw [hσ] at hfilled
    have hσ' : (sig.rename ρ).instantiate (ρ.identifiers name)
      (tys.map (Ty.rename ρ)) = .ok (σ.rename ρ, ty.rename ρ) := hfilled
    have hempty : (σ.rename ρ).isEmpty = σ.isEmpty :=
      Table.isEmpty_rename (Equiv.refl Placeholder).injective _ σ
    simp only [hσ', hempty]
    split <;> rfl

end Call

/-! ## What operators and conditionals answer -/

theorem Operator.typeOf_rename (op : Operator) (left right : Ty) :
    ρ.Answers (Ty.rename ρ) (op.typeOf left right)
      (op.typeOf (left.rename ρ) (right.rename ρ)) := by
  have hresult : op.result.rename ρ = op.result := by cases op <;> rfl
  unfold typeOf
  cases hop : op.operand? with
  | none =>
    simp only [Ty.common?_rename]
    cases left.common? right with
    | none => exact ⟨_, rfl, rfl⟩
    | some ty => exact congrArg Except.ok hresult.symm
  | some operand =>
    -- the operands an operator asks for are primitive
    have hoperand : operand.rename ρ = operand := by
      cases op <;> cases hop <;> rfl
    have hmeets (ty : Ty) : ty.rename ρ = operand ↔ ty = operand := by
      calc ty.rename ρ = operand
          ↔ ty.rename ρ = operand.rename ρ := by rw [hoperand]
        _ ↔ ty = operand := Ty.rename_inj ρ
    have hmismatch (side : Side) (found : Ty) :
        (Rejection.operandMismatch op side operand found).Renamed ρ
          (.operandMismatch op side operand (found.rename ρ)) := by
      rw [Rejection.Renamed, Rejection.rename, hoperand]
    simp only [ne_eq, hmeets]
    split
    · exact ⟨_, rfl, hmismatch .left left⟩
    · split
      · exact ⟨_, rfl, hmismatch .right right⟩
      · exact congrArg Except.ok hresult.symm

theorem branchType_rename (ifTrue ifFalse : Ty) :
    ρ.Answers (Ty.rename ρ) (branchType ifTrue ifFalse)
      (branchType (ifTrue.rename ρ) (ifFalse.rename ρ)) := by
  simp only [branchType, Ty.common?_rename]
  cases ifTrue.common? ifFalse with
  | none => exact ⟨_, rfl, rfl⟩
  | some ty => rfl

/-! ## A renaming is a translation -/

namespace Context

variable (Γ : Context) (e : Expr) (tys : List Ty)

theorem entryTest_rename :
    ρ.Answers id (Γ.entryTest e)
      ((Γ.rename ρ).entryTest (e.rename ρ id)) := by
  cases e with
  | call _ name args =>
    simp only [entryTest, Term.rename, Term.renameEach_eq_map,
      List.length_map]
    exact (Γ.callee_rename ρ name args.length).map (fun _ => rfl)
  | letIn _ name value body =>
    simp only [entryTest, Term.rename]
    exact Γ.fresh_rename ρ name
  | _ => simp only [entryTest, Term.rename]; rfl

theorem scopeOf_rename :
    (Γ.scopeOf e tys).rename ρ
      = (Γ.rename ρ).scopeOf (e.rename ρ id) (tys.map (Ty.rename ρ)) := by
  cases e with
  | letIn _ name value body =>
    rw [Term.rename]
    match tys with
    | [] | [_] | _ :: _ :: _ => rfl
  | _ => simp only [Term.rename, scopeOf]

theorem title_scopeEvents_rename :
    (scopeEvents e tys).map Event.title
      = (scopeEvents (e.rename ρ id) (tys.map (Ty.rename ρ))).map
        Event.title := by
  cases e with
  | letIn _ name value body =>
    rw [Term.rename]
    match tys with
    | [] | [_] | _ :: _ :: _ => rfl
  | _ => simp only [Term.rename, scopeEvents]

theorem title_nodeEvents_rename :
    (Γ.nodeEvents e tys).map Event.title
      = ((Γ.rename ρ).nodeEvents (e.rename ρ id)
        (tys.map (Ty.rename ρ))).map Event.title := by
  cases e with
  | call _ name args =>
    have hcallee := Γ.callee_rename ρ name args.length
    simp only [nodeEvents, Term.rename, Term.renameEach_eq_map,
      List.length_map]
    cases hsig : Γ.callee name args.length with
    | error cause =>
      rw [hsig] at hcallee
      obtain ⟨_, hsig', -⟩ := hcallee
      rw [hsig']
    | ok sig =>
      rw [hsig] at hcallee
      have hsig' : (Γ.rename ρ).callee (ρ.identifiers name) args.length
        = .ok (sig.rename ρ) := hcallee
      rw [hsig']
      exact sig.title_fillEvents_rename ρ name tys
  | ifElse _ cond ifTrue ifFalse =>
    rw [Term.rename]
    match tys with
    | [condTy, _, _] =>
      simp only [nodeEvents, List.map_cons, List.map_nil,
        Ty.rename_eq_boolean_iff]
      split <;> rfl
    | [] | [_] | [_, _] | _ :: _ :: _ :: _ :: _ => rfl
  | _ => simp only [Term.rename, nodeEvents]

/-- **The rule of a node cannot tell names apart.** -/
theorem nodeType_rename :
    ∀ {e : Expr} {tys : List Ty}, tys.length = e.parts.length →
      ρ.Answers (Ty.rename ρ) (Γ.nodeType e tys)
        ((Γ.rename ρ).nodeType (e.rename ρ id) (tys.map (Ty.rename ρ)))
  | .lit _ value, [], _ => by
    have hty : value.ty.rename ρ = value.ty := by cases value <;> rfl
    rw [Term.rename]
    exact congrArg Except.ok hty.symm
  | .ref _ name, [], _ => by
    rw [Term.rename]
    exact Γ.reference_rename ρ name
  | .access _ _ field, [target], _ => by
    rw [Term.rename]
    exact Γ.fieldType_rename ρ target field
  | .call _ name args, tys, _ => by
    simp only [nodeType, Term.rename, Term.renameEach_eq_map,
      List.length_map]
    exact (Γ.callee_rename ρ name args.length).bind
      (fun sig => Γ.resultType_rename ρ sig name tys)
  | .binary _ op _ _, [left, right], _ => by
    rw [Term.rename]
    exact op.typeOf_rename ρ left right
  | .block .., [_], _ | .letIn .., [_, _], _ => by
    rw [Term.rename]
    rfl
  | .ifElse .., [_, ifTrue, ifFalse], _ => by
    rw [Term.rename]
    exact branchType_rename ρ ifTrue ifFalse

end Context

/-- **A renaming is a translation** between a context and the renamed
context. -/
def Renaming.translation : Translation where
  expr := Term.rename ρ id
  ty := Ty.rename ρ
  tree := Term.rename ρ (Ty.rename ρ)
  Cause := Rejection.Renamed ρ
  Corresponds Γ Γ' := Γ.rename ρ = Γ'
  limit _ := rfl
  internal _ := rfl
  parts := Term.parts_rename ρ id
  root := Term.note_rename ρ (Ty.rename ρ)
  rebuild n h := Term.rename_rebuild ρ (Ty.rename ρ) id n h
  entryTest := by
    rintro Γ _ rfl e
    exact Γ.entryTest_rename ρ e
  scopeOf := by
    rintro Γ _ rfl e tys
    exact Γ.scopeOf_rename ρ e tys
  scopeEvents := Context.title_scopeEvents_rename ρ
  nodeEvents := by
    rintro Γ _ rfl e tys
    exact Γ.title_nodeEvents_rename ρ e tys
  nodeType := by
    rintro Γ _ rfl e tys hlen
    exact Γ.nodeType_rename ρ hlen

/-- An outcome in translation is the renamed outcome, up to the names on
offer. -/
theorem Renaming.withoutSuggestions_eq {outcome outcome' : Outcome}
    (h : ρ.translation.OutcomeRelated outcome outcome') :
    outcome'.withoutSuggestions = (outcome.rename ρ).withoutSuggestions := by
  cases outcome with
  | accepted t => exact congrArg Outcome.withoutSuggestions h
  | rejected cause =>
    obtain ⟨cause', rfl, hcause⟩ := h
    exact congrArg Outcome.rejected hcause
  | broken fault => exact congrArg Outcome.withoutSuggestions h

end PredicateScript
