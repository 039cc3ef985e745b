import PredicateScript.Proofs.Rules
import PredicateScript.Proofs.Translation
import Mathlib.Data.Set.Function
import Mathlib.Logic.Equiv.Basic

/-!
# Placeholders are local to their signature

The letter of a placeholder says which places of a signature stand for one
type, and nothing more. So a host may choose other letters, for each
signature as it likes, if only it does not write two placeholders of a
signature with one letter (`Context.KeptApart`); whether two signatures
share letters is of no account. The checks of every script then come to the
same, down to the letters in the reasons against it
(`Checker.placeholders_local`).

What changes is inside of a call, where the substitution is kept in the
order of the letters. The two calls, with the old letters and with the new
ones, read their pairs in step and find the same under corresponding letters
all the way (`Substitution.LikeUnder`, `Substitution.meet_reletter`,
`unify_reletter`). Of the substitution nothing is seen outside but whether
it is empty and what the result stands for (`Signature.shown_reletter`);
from there on a change of letters is a translation that leaves scripts,
types and trees as they are (`Translation.ofLetters`).
-/

namespace PredicateScript

/-! ## What a change of letters changes -/

/-- The table with another value under each key. -/
def Table.mapValues {κ υ υ' : Type} [Ord κ] (g : κ → υ → υ')
    (t : Table κ υ) : Table κ υ' where
  entries := t.entries.map (fun entry => (entry.1, g entry.1 entry.2))
  ordered := List.pairwise_map.mpr t.ordered

def SigTy.reletter (g : Placeholder → Placeholder) : SigTy → SigTy
  | concrete ty => concrete ty
  | param p => param (g p)

/-- **The signature in other letters**, its parameters and its result. -/
def Signature.reletter (g : Placeholder → Placeholder) (sig : Signature) :
    Signature :=
  ⟨sig.params.map (SigTy.reletter g), sig.result.reletter g⟩

/-- A signature mentions the placeholders of its parameters and of its
result. -/
def Signature.Mentions (sig : Signature) (p : Placeholder) : Prop :=
  .param p ∈ sig.params ∨ sig.result = .param p

/-- **The context in other letters**: for every function its own change of
letters. -/
def Context.reletter (f : String → Placeholder → Placeholder)
    (Γ : Context) : Context :=
  { Γ with functions :=
      Γ.functions.mapValues (fun name sig => sig.reletter (f name)) }

/-- **What was apart stays apart**: no two placeholders of a signature get
the same letter. -/
def Context.KeptApart (f : String → Placeholder → Placeholder)
    (Γ : Context) : Prop :=
  ∀ name sig, Γ.function? name = some sig →
    Set.InjOn (f name) {p | sig.Mentions p}

def UnifyError.reletter (g : Placeholder → Placeholder) :
    UnifyError → UnifyError
  | conflict p bound found => conflict (g p) bound found
  | unresolved p => unresolved (g p)
  | err => err

/-- **The reason in other letters**: a placeholder has the letter that it
has in the signature of the function the reason names. -/
def Rejection.reletter (f : String → Placeholder → Placeholder) :
    Rejection → Rejection
  | conflictingPlaceholder function p bound found =>
    conflictingPlaceholder function (f function p) bound found
  | unresolvedPlaceholder function p =>
    unresolvedPlaceholder function (f function p)
  | cause => cause

@[simp] theorem Rejection.reletter_depthLimitExceeded
    (f : String → Placeholder → Placeholder) (limit : UInt64) :
    (depthLimitExceeded limit).reletter f = depthLimitExceeded limit := rfl

@[simp] theorem Rejection.reletter_internal
    (f : String → Placeholder → Placeholder) (message : String) :
    (internal message).reletter f = internal message := rfl

/-- **The outcome in other letters**: there are none in an accepted
script. -/
def Outcome.reletter (f : String → Placeholder → Placeholder) :
    Outcome → Outcome
  | rejected cause => rejected (cause.reletter f)
  | outcome => outcome

/-! ## What is found -/

section Tables

variable {κ υ υ' : Type} [Ord κ] [BEq κ] [LawfulBEq κ]

@[simp] theorem Table.find?_mapValues (g : κ → υ → υ') (t : Table κ υ)
    (k : κ) : (t.mapValues g).find? k = (t.find? k).map (g k) := by
  show (t.entries.map (fun entry => (entry.1, g entry.1 entry.2))).lookup k
    = (t.entries.lookup k).map (g k)
  induction t.entries with
  | nil => rfl
  | cons entry l ih =>
    obtain ⟨k', v⟩ := entry
    rw [List.map_cons, List.lookup_cons, List.lookup_cons, ih]
    by_cases hk : k = k'
    · rw [hk, beq_self_eq_true]
      rfl
    · rw [beq_eq_false_iff_ne.mpr hk]

omit [BEq κ] [LawfulBEq κ] in
@[simp] theorem Table.keys_mapValues (g : κ → υ → υ') (t : Table κ υ) :
    (t.mapValues g).keys = t.keys := by
  rw [keys, mapValues, List.map_map]
  rfl

@[simp] theorem Table.isEmpty_insert [Std.TransOrd κ] [Std.LawfulEqOrd κ]
    (t : Table κ υ) (k : κ) (v : υ) : (t.insert k v).isEmpty = false := by
  rw [← Bool.not_eq_true, isEmpty_iff]
  intro h
  have := h k
  rw [find?_insert_self] at this
  cases this

end Tables

section Context

variable (f : String → Placeholder → Placeholder) (Γ : Context)

theorem Context.function?_reletter (name : String) :
    (Γ.reletter f).function? name
      = (Γ.function? name).map (Signature.reletter (f name)) :=
  Table.find?_mapValues _ _ _

theorem Context.functionNames_reletter :
    (Γ.reletter f).functionNames = Γ.functionNames :=
  Table.keys_mapValues _ _

end Context

/-! ## What a call finds -/

namespace Substitution

/-- **The same types under corresponding letters**: for the placeholders of
`S` the second substitution has under the new letter what the first one has
under the old one, and it is empty where the first one is. -/
structure LikeUnder (g : Placeholder → Placeholder) (S : Set Placeholder)
    (σ σ' : Substitution) : Prop where
  /-- What is found. -/
  find?_eq : ∀ p ∈ S, σ'.find? (g p) = σ.find? p
  /-- Whether anything is. -/
  isEmpty_eq : σ'.isEmpty = σ.isEmpty

/-- What two calls make of their pairs, with the old letters and with the
new ones: substitutions that are alike, or the same error. -/
inductive InStep (g : Placeholder → Placeholder) (S : Set Placeholder) :
    Except UnifyError Substitution → Except UnifyError Substitution → Prop
  /-- Both go on. -/
  | ok {σ σ' : Substitution} (h : σ.LikeUnder g S σ') :
    InStep g S (.ok σ) (.ok σ')
  /-- Both stop, for one reason. -/
  | error (err : UnifyError) :
    InStep g S (.error err) (.error (err.reletter g))

variable {g : Placeholder → Placeholder} {S : Set Placeholder}
  {σ σ' : Substitution}

/-- A placeholder takes a type under the new letter as it did under the old
one. No other placeholder is touched, because no other has that letter. -/
theorem LikeUnder.insert (h : σ.LikeUnder g S σ') (hg : Set.InjOn g S)
    {p : Placeholder} (hp : p ∈ S) (ty : Ty) :
    LikeUnder g S (σ.insert p ty) (σ'.insert (g p) ty) where
  find?_eq q hq := by
    by_cases hqp : q = p
    · rw [hqp, Table.find?_insert_self, Table.find?_insert_self]
    · rw [Table.find?_insert_of_ne _ _ hqp,
        Table.find?_insert_of_ne _ _ (fun heq => hqp (hg hq hp heq)),
        h.find?_eq q hq]
  isEmpty_eq := by rw [Table.isEmpty_insert, Table.isEmpty_insert]

/-- **One pair is read in step.** -/
theorem meet_reletter (h : σ.LikeUnder g S σ') (hg : Set.InjOn g S)
    (position : Nat) (actual : Ty) (declared : SigTy)
    (hS : ∀ p, declared = .param p → p ∈ S) :
    InStep g S (σ.meet position actual declared)
      (σ'.meet position actual (declared.reletter g)) := by
  cases declared with
  | concrete expected =>
    simp only [meet, SigTy.reletter]
    split
    · exact .ok h
    · exact .error _
  | param p =>
    have hp : p ∈ S := hS p rfl
    simp only [meet, SigTy.reletter, h.find?_eq p hp]
    cases σ.find? p with
    | none => exact .ok (h.insert hg hp actual)
    | some bound =>
      dsimp only
      split
      · exact .ok h
      · exact .error _

/-- **So are all pairs.** -/
theorem meetAll_reletter (h : σ.LikeUnder g S σ') (hg : Set.InjOn g S)
    (position : Nat) {pairs : List (Ty × SigTy)}
    (hS : ∀ ty p, (ty, .param p) ∈ pairs → p ∈ S) :
    InStep g S (σ.meetAll position pairs)
      (σ'.meetAll position (pairs.map (Prod.map id (SigTy.reletter g)))) := by
  induction pairs generalizing σ σ' position with
  | nil => exact .ok h
  | cons pair rest ih =>
    obtain ⟨actual, declared⟩ := pair
    have hmeet := meet_reletter h hg position actual declared
      (fun p hp => hS actual p (by rw [hp]; exact List.mem_cons_self ..))
    rw [List.map_cons, Prod.map_apply, meetAll, meetAll, id]
    generalize σ.meet position actual declared = r,
      σ'.meet position actual (declared.reletter g) = r' at hmeet ⊢
    cases hmeet with
    | ok h => exact ih h _ (fun ty p hp => hS ty p (List.mem_cons_of_mem _ hp))
    | error err => exact .error err

/-- **What the result stands for** is the same. -/
theorem resolve_reletter (h : σ.LikeUnder g S σ') {declared : SigTy}
    (hS : ∀ p, declared = .param p → p ∈ S) :
    σ'.resolve (declared.reletter g)
      = (σ.resolve declared).mapError (UnifyError.reletter g) := by
  cases declared with
  | concrete ty => rfl
  | param p =>
    simp only [resolve, SigTy.reletter, h.find?_eq p (hS p rfl)]
    cases σ.find? p <;> rfl

end Substitution

theorem unify_reletter {g : Placeholder → Placeholder} {S : Set Placeholder}
    (hg : Set.InjOn g S) (pairs : List (Ty × SigTy))
    (hS : ∀ ty p, (ty, .param p) ∈ pairs → p ∈ S) :
    Substitution.InStep g S (unify pairs)
      (unify (pairs.map (Prod.map id (SigTy.reletter g)))) :=
  Substitution.meetAll_reletter (g := g) ⟨fun _ _ => rfl, rfl⟩ hg 1 hS

theorem Rejection.ofUnifyError_reletter
    (f : String → Placeholder → Placeholder) (name : String)
    (err : UnifyError) :
    ofUnifyError name (err.reletter (f name))
      = (ofUnifyError name err).reletter f := by
  cases err <;> rfl

section Call

variable {f : String → Placeholder → Placeholder} {name : String}
  {sig : Signature}

/-- **What a call shows of its substitution**: whether it is empty, and
what the result stands for. -/
def Signature.shown (sig : Signature) (name : String) (tys : List Ty) :
    Except Rejection (Bool × Ty) :=
  (sig.instantiate name tys).map (fun filled => (filled.1.isEmpty, filled.2))

/-- **A signature in other letters is filled in alike.** -/
theorem Signature.shown_reletter
    (hf : Set.InjOn (f name) {p | sig.Mentions p}) (tys : List Ty) :
    (sig.reletter (f name)).shown name tys
      = (sig.shown name tys).mapError (Rejection.reletter f) := by
  have hunify := unify_reletter hf (tys.zip sig.params)
    (fun ty p hp => Or.inl (List.of_mem_zip hp).2)
  rw [← List.zip_map, List.map_id] at hunify
  rw [shown, shown, instantiate, instantiate, reletter]
  generalize unify (tys.zip sig.params) = r,
    unify (tys.zip (sig.params.map (SigTy.reletter (f name)))) = r'
    at hunify ⊢
  cases hunify with
  | error err =>
    exact congrArg Except.error (Rejection.ofUnifyError_reletter f name err)
  | @ok σ σ' h =>
    dsimp only
    rw [Substitution.resolve_reletter h (fun p hp => Or.inr hp)]
    cases σ.resolve sig.result with
    | error err =>
      exact congrArg Except.error
        (Rejection.ofUnifyError_reletter f name err)
    | ok ty => exact congrArg (fun b => Except.ok (b, ty)) h.isEmpty_eq

theorem Signature.title_fillEvents (sig : Signature) (name : String)
    (tys : List Ty) :
    (sig.fillEvents name tys).map Event.title
      = match sig.shown name tys with
        | .ok (empty, _) => if empty then [] else ["generic instantiation"]
        | .error _ => [] := by
  rw [fillEvents, shown]
  cases sig.instantiate name tys with
  | error cause => rfl
  | ok filled =>
    dsimp only [Except.map]
    split <;> rfl

/-- A call fills placeholders in where the call with other letters does. -/
theorem Signature.title_fillEvents_reletter
    (hf : Set.InjOn (f name) {p | sig.Mentions p}) (tys : List Ty) :
    (sig.fillEvents name tys).map Event.title
      = ((sig.reletter (f name)).fillEvents name tys).map Event.title := by
  rw [title_fillEvents, title_fillEvents, shown_reletter hf]
  cases sig.shown name tys <;> rfl

end Call

/-! ## What the rules answer -/

/-- A sequence fails for what one of its steps fails for. -/
theorem mapError_bind {ε ε' α β : Type} (F : ε → ε') (r : Except ε α)
    (k : α → Except ε β) :
    (r >>= k).mapError F = r.mapError F >>= fun a => (k a).mapError F := by
  cases r <;> rfl

section Rules

variable {f : String → Placeholder → Placeholder}

namespace Context

variable (Γ : Context)

theorem known_reletter (ty : Ty) :
    (Γ.reletter f).known ty = (Γ.known ty).mapError (Rejection.reletter f) := by
  show Γ.known ty = _
  cases ty with
  | named name =>
    rw [known]
    cases Γ.type? name <;> rfl
  | _ => rfl

theorem reference_reletter (name : String) :
    (Γ.reletter f).reference name
      = (Γ.reference name).mapError (Rejection.reletter f) := by
  show Γ.reference name = _
  rw [reference]
  cases Γ.var? name with
  | none => rfl
  | some ty => exact Γ.known_reletter ty

theorem fieldType_reletter (ty : Ty) (field : String) :
    (Γ.reletter f).fieldType ty field
      = (Γ.fieldType ty field).mapError (Rejection.reletter f) := by
  show Γ.fieldType ty field = _
  cases ty with
  | named name =>
    simp only [fieldType]
    cases Γ.type? name with
    | none => rfl
    | some record =>
      dsimp only
      cases record.field? field with
      | none => rfl
      | some fieldTy => exact Γ.known_reletter fieldTy
  | _ => rfl

/-- The function that is called is the same, in other letters. -/
theorem callee_reletter (name : String) (argCount : Nat) :
    (Γ.reletter f).callee name argCount
      = ((Γ.callee name argCount).map (Signature.reletter (f name))).mapError
        (Rejection.reletter f) := by
  rw [callee, callee, function?_reletter, functionNames_reletter]
  cases Γ.function? name with
  | none => rfl
  | some sig =>
    have harity : (sig.reletter (f name)).arity = sig.arity :=
      List.length_map _
    simp only [Option.map_some, harity]
    split <;> rfl

theorem fresh_reletter (name : String) :
    (Γ.reletter f).fresh name
      = (Γ.fresh name).mapError (Rejection.reletter f) := by
  rw [fresh, fresh, function?_reletter, Option.isSome_map]
  show (if (Γ.var? name).isSome then _ else _) = _
  split
  · rfl
  · split <;> rfl

theorem resultType_eq (sig : Signature) (name : String) (tys : List Ty) :
    Γ.resultType sig name tys
      = sig.shown name tys >>= fun filled => Γ.known filled.2 := by
  rw [resultType, Signature.shown]
  cases sig.instantiate name tys <;> rfl

/-- **The type of a call** does not depend on the letters. -/
theorem resultType_reletter {name : String} {sig : Signature}
    (hf : Set.InjOn (f name) {p | sig.Mentions p}) (tys : List Ty) :
    (Γ.reletter f).resultType (sig.reletter (f name)) name tys
      = (Γ.resultType sig name tys).mapError (Rejection.reletter f) := by
  rw [resultType_eq, resultType_eq, Signature.shown_reletter hf,
    mapError_bind]
  exact congrArg _ (funext (fun filled => Γ.known_reletter filled.2))

end Context

theorem Operator.typeOf_reletter (op : Operator) (left right : Ty) :
    op.typeOf left right
      = (op.typeOf left right).mapError (Rejection.reletter f) := by
  rw [typeOf]
  cases op.operand? with
  | none =>
    dsimp only
    cases left.common? right <;> rfl
  | some operand =>
    dsimp only
    split
    · rfl
    · split <;> rfl

theorem branchType_reletter (ifTrue ifFalse : Ty) :
    branchType ifTrue ifFalse
      = (branchType ifTrue ifFalse).mapError (Rejection.reletter f) := by
  rw [branchType]
  cases ifTrue.common? ifFalse <;> rfl

end Rules

/-! ## A change of letters is a translation -/

namespace Context

variable {f : String → Placeholder → Placeholder} {Γ : Context}

theorem entryTest_reletter (e : Expr) :
    (Γ.reletter f).entryTest e
      = (Γ.entryTest e).mapError (Rejection.reletter f) := by
  cases e with
  | call _ name args =>
    rw [entryTest, entryTest, callee_reletter]
    cases Γ.callee name args.length <;> rfl
  | letIn _ name value body => exact Γ.fresh_reletter name
  | _ => rfl

theorem scopeOf_reletter (e : Expr) (tys : List Ty) :
    (Γ.reletter f).scopeOf e tys = (Γ.scopeOf e tys).reletter f := by
  unfold scopeOf
  split <;> rfl

theorem KeptApart.scopeOf (hf : Γ.KeptApart f) (e : Expr) (tys : List Ty) :
    (Γ.scopeOf e tys).KeptApart f := by
  intro name sig hsig
  rw [function?, functions_scopeOf] at hsig
  exact hf name sig hsig

theorem title_nodeEvents_reletter (hf : Γ.KeptApart f) (e : Expr)
    (tys : List Ty) :
    (Γ.nodeEvents e tys).map Event.title
      = ((Γ.reletter f).nodeEvents e tys).map Event.title := by
  cases e with
  | call _ name args =>
    rw [nodeEvents, nodeEvents, callee_reletter]
    cases hcallee : Γ.callee name args.length with
    | error cause => rfl
    | ok sig =>
      have hsig := (callee_eq_ok_iff.mp hcallee).1
      exact Signature.title_fillEvents_reletter (hf name sig hsig) tys
  | ifElse _ cond ifTrue ifFalse =>
    match tys with
    | [] | [_] | [_, _] | [_, _, _] | _ :: _ :: _ :: _ :: _ => rfl
  | _ => rfl

/-- **The rule of a node does not depend on the letters.** -/
theorem nodeType_reletter (hf : Γ.KeptApart f) :
    ∀ {e : Expr} {tys : List Ty}, tys.length = e.parts.length →
      (Γ.reletter f).nodeType e tys
        = (Γ.nodeType e tys).mapError (Rejection.reletter f)
  | .lit .., [], _ | .block .., [_], _ | .letIn .., [_, _], _ => rfl
  | .ref _ name, [], _ => Γ.reference_reletter name
  | .access _ _ field, [target], _ => Γ.fieldType_reletter target field
  | .call _ name args, tys, _ => by
    rw [nodeType, nodeType, callee_reletter]
    cases hcallee : Γ.callee name args.length with
    | error cause => rfl
    | ok sig =>
      have hsig := (callee_eq_ok_iff.mp hcallee).1
      exact Γ.resultType_reletter (hf name sig hsig) tys
  | .binary _ op _ _, [left, right], _ => op.typeOf_reletter left right
  | .ifElse .., [_, ifTrue, ifFalse], _ => branchType_reletter ifTrue ifFalse

end Context

theorem AnswerTranslates.of_mapError {α : Type} {F : Rejection → Rejection}
    {r r' : Except Rejection α} (h : r' = r.mapError F) :
    AnswerTranslates (fun cause cause' => cause' = F cause) id r r' := by
  subst h
  cases r with
  | ok a => rfl
  | error cause => exact ⟨_, rfl, rfl⟩

/-- **A change of letters is a translation** that leaves scripts, types and
trees as they are. -/
def Translation.ofLetters (f : String → Placeholder → Placeholder) :
    Translation where
  expr := id
  ty := id
  tree := id
  Cause cause cause' := cause' = cause.reletter f
  Corresponds Γ Γ' := Γ' = Γ.reletter f ∧ Γ.KeptApart f
  limit l := (Rejection.reletter_depthLimitExceeded f l).symm
  internal message := (Rejection.reletter_internal f message).symm
  parts e := (List.map_id e.parts).symm
  root _ := rfl
  rebuild {_ ts} _ _ := by rw [List.map_id]; rfl
  entryTest := by
    rintro Γ _ ⟨rfl, -⟩ e
    exact .of_mapError (Context.entryTest_reletter e)
  scopeOf := by
    rintro Γ _ ⟨rfl, hf⟩ e tys
    rw [List.map_id]
    exact ⟨Context.scopeOf_reletter e tys, hf.scopeOf e tys⟩
  scopeEvents e tys := by rw [List.map_id]; rfl
  nodeEvents := by
    rintro Γ _ ⟨rfl, hf⟩ e tys
    rw [List.map_id]
    exact Context.title_nodeEvents_reletter hf e tys
  nodeType := by
    rintro Γ _ ⟨rfl, hf⟩ e tys hlen
    rw [List.map_id]
    exact .of_mapError (Context.nodeType_reletter hf hlen)

theorem Translation.eq_reletter {f : String → Placeholder → Placeholder}
    {outcome outcome' : Outcome}
    (h : (Translation.ofLetters f).OutcomeRelated outcome outcome') :
    outcome' = outcome.reletter f := by
  cases outcome with
  | accepted t => exact h
  | rejected cause =>
    obtain ⟨_, rfl, rfl⟩ := h
    rfl
  | broken fault => exact h

/-! ## Whole checks -/

/-- **Placeholders are local to their signature.** Let every signature of a
context be written in other letters, each in its own, where only what was
apart stays apart. Then the same scripts are accepted, with the same trees,
and the others are rejected for the same reasons, in which a placeholder
has the letter that it has in the signature of the function the reason
names. So it does not matter to a call which letters are used by the
signatures of the calls around it and inside of it. -/
theorem Checker.placeholders_local
    {f : String → Placeholder → Placeholder} {Γ : Context}
    (hf : Γ.KeptApart f) (config : Config) (e : Expr) (sink : Sink) :
    ((Checker.new config).run (Γ.reletter f) e sink).1
        = ((Checker.new config).run Γ e sink).1.reletter f
      ∧ (checkWith config (Γ.reletter f) e sink).1
        = (checkWith config Γ e sink).1.reletter f := by
  have h : (Translation.ofLetters f).Corresponds Γ (Γ.reletter f) := ⟨rfl, hf⟩
  exact ⟨Translation.eq_reletter
      (Translation.answer_related _ config e sink h).1,
    Translation.eq_reletter (Translation.checkWith_related _ config e sink h)⟩

/-- The script `join(id(1), id(true), id("a"))`, where `id` is declared
`('T) -> 'T` and `join` is declared `('T, 'U, 'T) -> 'U`, and then, with its
letters exchanged, `('U, 'T, 'U) -> 'T`: the third argument does not go
together with the first. -/
theorem Checker.placeholders_local_join :
    let Γ := Context.empty
      |>.withFunction "id" ⟨[.param ⟨'T'⟩], .param ⟨'T'⟩⟩
      |>.withFunction "join"
        ⟨[.param ⟨'T'⟩, .param ⟨'U'⟩, .param ⟨'T'⟩], .param ⟨'U'⟩⟩
    let f : String → Placeholder → Placeholder := fun name =>
      if name = "join" then Equiv.swap ⟨'T'⟩ ⟨'U'⟩ else id
    let e : Expr := .call () "join"
      [.call () "id" [.lit () (.long 1)],
        .call () "id" [.lit () (.bool true)],
        .call () "id" [.lit () (.text "a")]]
    Γ.KeptApart f
      ∧ (Γ.reletter f).function? "join"
        = some ⟨[.param ⟨'U'⟩, .param ⟨'T'⟩, .param ⟨'U'⟩], .param ⟨'T'⟩⟩
      ∧ ((Checker.new {}).run (Γ.reletter f) e (Sink.fresh none)).1
        = .rejected (.conflictingPlaceholder "join" ⟨'U'⟩ .long .string) := by
  intro Γ f e
  have hf : Γ.KeptApart f := by
    intro name sig _
    refine Function.Injective.injOn ?_
    dsimp only [f]
    split
    · exact Equiv.injective _
    · exact Function.injective_id
  exact ⟨hf, rfl, (Checker.placeholders_local hf {} e (Sink.fresh none)).1⟩

end PredicateScript
