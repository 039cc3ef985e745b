import PredicateScript.Proofs.Inlining
import PredicateScript.Proofs.Renaming
import PredicateScript.Proofs.Suggestion
import Mathlib.Logic.Equiv.Basic

/-!
# Names are opaque

A check compares names for equality and does nothing else with them. So a
script that is renamed together with its context gets the renamed outcome
(`Renaming.withoutSuggestions_eq` and the checks of
`PredicateScript.Proofs.Translation`), the names on offer apart.

From that follows what is expected of bound variables. `Term.renameBound`
gives the bindings of a script other names, and the references that they
capture with them. In an accepted script no binding has a name of the
context, and no reference is to a binding that it is not in the scope of
(`HasType.fresh_of_mem_letNames`, `HasType.rename_eq_renameBound`).
Therefore the change of bound variables is a renaming: the exchange of the
old names for the new ones, under which the context stays what it is
(`exists_renaming_of_bound`).
-/

namespace PredicateScript

/-! ## Renaming identifiers only -/

/-- The renaming of variables, bindings and functions by `p`. -/
def Renaming.ofIdentifiers (p : Equiv.Perm String) : Renaming :=
  ⟨p, Equiv.refl String, Equiv.refl String⟩

section Identifiers

variable (p : Equiv.Perm String)

theorem Ty.rename_ofIdentifiers : Ty.rename (.ofIdentifiers p) = id := by
  funext ty
  cases ty <;> rfl

theorem RecordType.rename_ofIdentifiers (record : RecordType) :
    record.rename (.ofIdentifiers p) = record := by
  rw [rename, Ty.rename_ofIdentifiers]
  exact congrArg RecordType.mk (List.map_id _)

theorem SigTy.rename_ofIdentifiers :
    SigTy.rename (.ofIdentifiers p) = id := by
  funext declared
  cases declared with
  | concrete ty => rw [rename, Ty.rename_ofIdentifiers]; rfl
  | param _ => rfl

theorem Signature.rename_ofIdentifiers (sig : Signature) :
    sig.rename (.ofIdentifiers p) = sig := by
  rw [rename, SigTy.rename_ofIdentifiers, List.map_id]
  rfl

end Identifiers

/-- A table stays what it is if no key of it gets another name and no value
of it changes. -/
theorem Table.rename_eq_self {κ υ : Type} [Ord κ] [Std.TransOrd κ]
    [Std.LawfulEqOrd κ] [BEq κ] [LawfulBEq κ] {f : Equiv.Perm κ} {g : υ → υ}
    {t : Table κ υ} (hf : ∀ k, (t.find? k).isSome = true → f k = k)
    (hg : ∀ v, g v = v) : t.rename f g = t := by
  refine ext_find? (fun j => ?_)
  obtain ⟨k, rfl⟩ := f.surjective j
  rw [find?_rename f.injective]
  cases hk : t.find? k with
  | some v =>
    rw [hf k (Option.isSome_of_eq_some hk), hk, Option.map_some, hg]
  | none =>
    -- a key that is found stays, and so is not the new name of another one
    cases hfk : t.find? (f k) with
    | none => rfl
    | some v =>
      have hself := hf (f k) (Option.isSome_of_eq_some hfk)
      rw [f.injective hself, hk] at hfk
      cases hfk

/-- **A context stays what it is** if no variable and no function of it gets
another name. -/
theorem Context.rename_eq_self {Γ : Context} {p : Equiv.Perm String}
    (h : ∀ n, (Γ.var? n).isSome = true ∨ (Γ.function? n).isSome = true →
      p n = n) :
    Γ.rename (.ofIdentifiers p) = Γ := by
  have htypes : Γ.types.rename (Equiv.refl String)
      (RecordType.rename (.ofIdentifiers p)) = Γ.types :=
    Table.rename_eq_self (fun _ _ => rfl) (RecordType.rename_ofIdentifiers p)
  have hfunctions : Γ.functions.rename p
      (Signature.rename (.ofIdentifiers p)) = Γ.functions :=
    Table.rename_eq_self (fun n hn => h n (Or.inr hn))
      (Signature.rename_ofIdentifiers p)
  have hvars : Γ.vars.map
      (Prod.map p (Ty.rename (.ofIdentifiers p))) = Γ.vars := by
    conv_rhs => rw [← List.map_id Γ.vars]
    refine List.map_congr_left (fun entry hentry => ?_)
    have hmem := List.mem_map_of_mem (f := Prod.fst) hentry
    have hname := h entry.1 (Or.inl (mem_map_fst_iff_lookup.mp hmem))
    rw [Ty.rename_ofIdentifiers, Prod.map, hname]
    rfl
  exact congr (congr (congrArg Context.mk htypes) hfunctions) hvars

/-! ## The exchange of names -/

/-- **The exchange of names**: each of the given ones for its image under
`f`, and back. -/
def exchange (f : String → String) (names : List String) (n : String) :
    String :=
  if n ∈ names then f n else (names.find? (fun y => f y == n)).getD n

section Exchange

variable {f : String → String} {names : List String} {n : String}

theorem exchange_of_mem (h : n ∈ names) : exchange f names n = f n :=
  if_pos h

theorem exchange_of_notMem (h : n ∉ names) (hf : ∀ y ∈ names, f y ≠ n) :
    exchange f names n = n := by
  have hnone : names.find? (fun y => f y == n) = none := by
    simpa using hf
  rw [exchange, if_neg h, hnone, Option.getD_none]

theorem exchange_image (hinj : ∀ x ∈ names, ∀ y ∈ names, f x = f y → x = y)
    (hnew : ∀ y ∈ names, f y ∉ names) (h : n ∈ names) :
    exchange f names (f n) = n := by
  rw [exchange, if_neg (hnew n h)]
  cases hfind : names.find? (fun y => f y == f n) with
  | none =>
    have := List.find?_eq_none.mp hfind n h
    simp at this
  | some y =>
    have hy := List.mem_of_find?_eq_some hfind
    have hfy := List.find?_some hfind
    exact hinj y hy n h (eq_of_beq hfy)

/-- Exchanged twice, a name is itself. -/
theorem exchange_involutive (hinj : ∀ x ∈ names, ∀ y ∈ names, f x = f y → x = y)
    (hnew : ∀ y ∈ names, f y ∉ names) :
    Function.Involutive (exchange f names) := by
  intro n
  by_cases hn : n ∈ names
  · rw [exchange_of_mem hn, exchange_image hinj hnew hn]
  · by_cases himage : ∃ y ∈ names, f y = n
    · obtain ⟨y, hy, rfl⟩ := himage
      rw [exchange_image hinj hnew hy, exchange_of_mem hy]
    · have hne : ∀ y ∈ names, f y ≠ n := by
        intro y hy hfy
        exact himage ⟨y, hy, hfy⟩
      rw [exchange_of_notMem hn hne, exchange_of_notMem hn hne]

end Exchange

/-! ## Other names for bound variables -/

namespace Term

variable {α β : Type}

mutual

/-- **The script with other names for its bound variables**: a binding of
`y` becomes one of `f y`, and with it the references that it captures.
`bound` are the variables that are bound around the script. -/
def renameBound (f : String → String) (bound : List String) :
    Term α → Term α
  | lit n value => .lit n value
  | ref n name => .ref n (if name ∈ bound then f name else name)
  | access n target field => .access n (target.renameBound f bound) field
  | call n function args => .call n function (renameBoundEach f bound args)
  | binary n op left right =>
    .binary n op (left.renameBound f bound) (right.renameBound f bound)
  | block n body => .block n (body.renameBound f bound)
  | letIn n name value body =>
    .letIn n (f name) (value.renameBound f bound)
      (body.renameBound f (name :: bound))
  | ifElse n cond ifTrue ifFalse =>
    .ifElse n (cond.renameBound f bound) (ifTrue.renameBound f bound)
      (ifFalse.renameBound f bound)

/-- `renameBound` on each script of a list. -/
def renameBoundEach (f : String → String) (bound : List String) :
    List (Term α) → List (Term α)
  | [] => []
  | t :: ts => t.renameBound f bound :: renameBoundEach f bound ts

end

@[simp] theorem renameBoundEach_eq_map (f : String → String)
    (bound : List String) (ts : List (Term α)) :
    renameBoundEach f bound ts = ts.map (renameBound f bound) := by
  induction ts with
  | nil => rfl
  | cons t ts ih => rw [renameBoundEach, ih, List.map_cons]

/-- The notes of a renamed tree are read where they come from. -/
theorem note_node?_rename (ρ : Renaming) (f : α → β) (t : Term α)
    (p : List Nat) :
    ((t.rename ρ f).node? p).map note = ((t.node? p).map note).map f := by
  induction p generalizing t with
  | nil => exact congrArg some (note_rename ρ f t)
  | cons i p ih =>
    rw [node?_cons, node?_cons, parts_rename, List.getElem?_map]
    cases t.parts[i]? with
    | none => rfl
    | some u => exact ih u

end Term

/-- A name that is not taken in the scope of a part is not taken around
it. -/
theorem Context.fresh_of_scopeOf {Γ : Context} {e : Expr} {tys : List Ty}
    {n : String}
    (h : (Γ.scopeOf e tys).var? n = none
      ∧ (Γ.scopeOf e tys).function? n = none) :
    Γ.var? n = none ∧ Γ.function? n = none := by
  unfold scopeOf at h
  split at h
  · next name _ _ ty =>
    obtain ⟨hvar, hfun⟩ := h
    have hne : n ≠ name := by
      rintro rfl
      rw [var?_bind_self] at hvar
      cases hvar
    rw [var?_bind_of_ne Γ ty hne] at hvar
    exact ⟨hvar, hfun⟩
  · exact h

/-- **What a script with a type binds is new to the context.** -/
theorem HasType.fresh_of_mem_letNames {Γ : Context} {e : Expr} {ty : Ty}
    {n : String} (h : HasType Γ e ty) (hn : n ∈ e.letNames) :
    Γ.var? n = none ∧ Γ.function? n = none := by
  revert hn
  refine h.induction_on_parts (fun {Γ e ty} h ih hn => ?_)
  obtain hroot | ⟨part, hpart, hmem⟩ := Term.mem_letNames_iff.mp hn
  · cases h with
    | letIn hvar hfun _ _ =>
      cases hroot
      exact ⟨hvar, hfun⟩
    | _ => cases hroot
  · obtain ⟨tys, hfresh⟩ := ih part hpart
    exact Context.fresh_of_scopeOf (hfresh hmem)

/-- **A renaming of the variables bound around a script**: of those that are
in scope, the bound ones get the names that `f` gives them, and everything
else keeps its name. -/
structure Context.RenamesBound (Γ : Context) (f : String → String)
    (p : Equiv.Perm String) (bound : List String) : Prop where
  /-- A bound variable is renamed by `f`. -/
  captured : ∀ n ∈ bound, p n = f n
  /-- Any other variable keeps its name. -/
  free : ∀ n, n ∉ bound → (Γ.var? n).isSome = true → p n = n
  /-- A function keeps its name. -/
  function : ∀ n, (Γ.function? n).isSome = true → p n = n

theorem Context.RenamesBound.bind {Γ : Context} {f : String → String}
    {p : Equiv.Perm String} {bound : List String}
    (h : Γ.RenamesBound f p bound) {name : String} (hname : p name = f name)
    (ty : Ty) : (Γ.bind name ty).RenamesBound f p (name :: bound) := by
  refine ⟨List.forall_mem_cons.mpr ⟨hname, h.captured⟩, fun n hn hvar => ?_,
    h.function⟩
  rw [List.mem_cons, not_or] at hn
  obtain ⟨hne, hn⟩ := hn
  rw [var?_bind_of_ne Γ ty hne] at hvar
  exact h.free n hn hvar

/-- **In a script with a type, to rename the bound variables is to rename
the script.** -/
theorem HasType.rename_eq_renameBound {Γ : Context} {e : Expr} {ty : Ty}
    {f : String → String} {p : Equiv.Perm String} {bound : List String}
    (h : HasType Γ e ty) (hΓ : Γ.RenamesBound f p bound)
    (hlet : ∀ n ∈ e.letNames, p n = f n) :
    e.rename (.ofIdentifiers p) id = e.renameBound f bound := by
  have hpart {e part : Expr} (hlet : ∀ n ∈ e.letNames, p n = f n)
      (hmem : part ∈ e.parts) : ∀ n ∈ part.letNames, p n = f n :=
    fun n hn => hlet n (Term.letNames_part_subset hmem hn)
  induction h generalizing bound with
  | long | bytes | text | bool => simp only [Term.rename, Term.renameBound]
  | @ref Γ name _ hvar =>
    have hname : p name = if name ∈ bound then f name else name := by
      split
      · next hmem => exact hΓ.captured name hmem
      · next hmem => exact hΓ.free name hmem (Option.isSome_of_eq_some hvar)
    rw [Term.rename, Term.renameBound, ← hname]
    rfl
  | access _ _ _ _ ih =>
    rw [Term.rename, Term.renameBound,
      ih hΓ (hpart hlet (by simp [Term.parts]))]
    rfl
  | @call Γ name args sig ρ hsig harity _ _ _ ih =>
    have hname : p name = name :=
      hΓ.function name (Option.isSome_of_eq_some hsig)
    have hargs : args.map (Term.rename (.ofIdentifiers p) id)
        = args.map (Term.renameBound f bound) := by
      refine List.map_congr_left (fun arg harg => ?_)
      have hzip : (args.zip (sig.params.map (SigTy.under ρ))).map Prod.fst
          = args :=
        List.map_fst_zip (by rw [List.length_map, harity])
      have harg' := harg
      rw [← hzip] at harg'
      obtain ⟨x, hx, rfl⟩ := List.mem_map.mp harg'
      exact ih x hx hΓ (hpart hlet harg)
    rw [Term.rename, Term.renameBound, Term.renameEach_eq_map,
      Term.renameBoundEach_eq_map, hargs]
    exact congrArg (Term.call _ · _) hname
  | sum _ _ ihl ihr | order _ _ _ ihl ihr | logic _ _ _ ihl ihr
  | equality _ _ ihl ihr =>
    rw [Term.rename, Term.renameBound,
      ihl hΓ (hpart hlet (by simp [Term.parts])),
      ihr hΓ (hpart hlet (by simp [Term.parts]))]
  | block _ ih =>
    rw [Term.rename, Term.renameBound,
      ih hΓ (hpart hlet (by simp [Term.parts]))]
  | @letIn Γ name value body valueTy _ _ _ _ _ ihv ihb =>
    have hname : p name = f name := hlet name (Term.mem_letNames_root rfl)
    rw [Term.rename, Term.renameBound,
      ihv hΓ (hpart hlet (by simp [Term.parts])),
      ihb (hΓ.bind hname valueTy) (hpart hlet (by simp [Term.parts]))]
    exact congrArg (Term.letIn _ · _ _) hname
  | ifElse _ _ _ ihc iht ihf =>
    rw [Term.rename, Term.renameBound,
      ihc hΓ (hpart hlet (by simp [Term.parts])),
      iht hΓ (hpart hlet (by simp [Term.parts])),
      ihf hΓ (hpart hlet (by simp [Term.parts]))]

/-! ## Names are opaque -/

/-- **A name that is used neither in a script nor in its context**, as a
variable or as a function. -/
structure Context.Unused (Γ : Context) (e : Expr) (n : String) : Prop where
  /-- The script does not mention the name. -/
  script : ∀ node ∈ e.nodes, node.mention? ≠ some n
  /-- It is no variable of the context. -/
  var : Γ.var? n = none
  /-- It is no function of the context. -/
  function : Γ.function? n = none

instance (Γ : Context) (e : Expr) (n : String) : Decidable (Γ.Unused e n) :=
  decidable_of_iff
    ((∀ node ∈ e.nodes, node.mention? ≠ some n) ∧ Γ.var? n = none
      ∧ (Γ.function? n).isNone = true)
    ⟨fun ⟨hscript, hvar, hfun⟩ =>
        ⟨hscript, hvar, Option.isNone_iff_eq_none.mp hfun⟩,
      fun h =>
        ⟨h.script, h.var, Option.isNone_iff_eq_none.mpr h.function⟩⟩

theorem Context.Unused.notMem_letNames {Γ : Context} {e : Expr} {n : String}
    (h : Γ.Unused e n) : n ∉ e.letNames := by
  intro hmem
  obtain ⟨node, hnode, hname⟩ := List.mem_filterMap.mp hmem
  refine h.script node hnode ?_
  cases node with
  | letIn => exact hname
  | _ => cases hname

section Bound

variable {Γ : Context} {e : Expr} {ty : Ty} {f : String → String}

/-- **Bound variables are renamed by a renaming** that the context does not
notice. -/
theorem exists_renaming_of_bound (h : HasType Γ e ty)
    (hinj : ∀ x ∈ e.letNames, ∀ y ∈ e.letNames, f x = f y → x = y)
    (hunused : ∀ y ∈ e.letNames, Γ.Unused e (f y)) :
    ∃ p : Equiv.Perm String, Γ.rename (.ofIdentifiers p) = Γ
      ∧ e.rename (.ofIdentifiers p) id = e.renameBound f [] := by
  have hnew : ∀ y ∈ e.letNames, f y ∉ e.letNames :=
    fun y hy => (hunused y hy).notMem_letNames
  -- a name of the context is neither bound in the script nor a new name
  have hkeeps : ∀ n, (Γ.var? n).isSome = true ∨ (Γ.function? n).isSome = true →
      exchange f e.letNames n = n := by
    intro n hn
    have htaken : ¬ (Γ.var? n = none ∧ Γ.function? n = none) := by
      rintro ⟨hvar, hfun⟩
      rw [hvar, hfun] at hn
      simp at hn
    refine exchange_of_notMem (fun hmem => ?_) (fun y hy hfy => ?_)
    · exact htaken (h.fresh_of_mem_letNames hmem)
    · rw [← hfy] at htaken
      exact htaken ⟨(hunused y hy).var, (hunused y hy).function⟩
  refine ⟨(exchange_involutive hinj hnew).toPerm,
    Context.rename_eq_self hkeeps, ?_⟩
  refine h.rename_eq_renameBound ⟨List.forall_mem_nil _, fun n _ hvar => ?_,
    fun n hfun => ?_⟩ (fun n hn => exchange_of_mem hn)
  · exact hkeeps n (Or.inl hvar)
  · exact hkeeps n (Or.inr hfun)

end Bound

/-- **Names are opaque.** A script that is renamed in a renamed context gets
the renamed outcome, up to the names on offer, from a checker and from a
supervised check alike. In particular the bound variables of an accepted
script may be given other names, no two the same, that neither the script
nor the context uses: the script is accepted as before, and every node has
the type that it had. -/
theorem Checker.names_opaque :
    (∀ (ρ : Renaming) (config : Config) (Γ : Context) (e : Expr)
        (sink : Sink),
      ((Checker.new config).answer (Γ.rename ρ) (e.rename ρ id)
          sink).1.withoutSuggestions
        = (((Checker.new config).answer Γ e sink).1.rename
          ρ).withoutSuggestions
      ∧ (checkWith config (Γ.rename ρ) (e.rename ρ id)
          sink).1.withoutSuggestions
        = ((checkWith config Γ e sink).1.rename ρ).withoutSuggestions)
    ∧ ∀ (config : Config) (Γ : Context) (e : Expr) (t : TypedExpr)
        (f : String → String), (Checker.new config).Accepts Γ e t →
      (∀ x ∈ e.letNames, ∀ y ∈ e.letNames, f x = f y → x = y) →
      (∀ y ∈ e.letNames, Γ.Unused e (f y)) →
      ∃ t', (Checker.new config).Accepts Γ (e.renameBound f []) t'
        ∧ ∀ p, (t'.node? p).map Term.note = (t.node? p).map Term.note := by
  constructor
  · intro ρ config Γ e sink
    exact ⟨ρ.withoutSuggestions_eq
        (ρ.translation.answer_related config e sink rfl).1,
      ρ.withoutSuggestions_eq
        (ρ.translation.checkWith_related config e sink rfl)⟩
  · intro config Γ e t f ht hinj hunused
    have hty := hasType_of_verdict_ok (accepts_iff.mp ht)
    obtain ⟨p, hΓ, he⟩ := exists_renaming_of_bound hty hinj hunused
    let ρ := Renaming.ofIdentifiers p
    refine ⟨t.rename ρ (Ty.rename ρ), ?_, fun pos => ?_⟩
    · rw [← he]
      exact ρ.translation.accepts hΓ ht
    · rw [Term.note_node?_rename, Ty.rename_ofIdentifiers, Option.map_id]
      rfl

/-- In `if height > 1 { let x = tx.fee; { let z = x; x + z } } else
{ let x = height; x }` the name `x` is bound twice, side by side. With `a`
for `x` and `b` for `z` the script is accepted as it was. And a host that
says `top` for `height` rejects the misspelt `heigt` as before, with nothing
to offer in its place. -/
theorem Checker.names_opaque_top :
    let body (x z : String) : Expr :=
      .ifElse () (.binary () .gt (.ref () "height") (.lit () (.long 1)))
        (.letIn () x (.access () (.ref () "tx") "fee")
          (.letIn () z (.ref () x)
            (.binary () .sum (.ref () x) (.ref () z))))
        (.letIn () x (.ref () "height") (.ref () x))
    let f (n : String) : String := if n = "x" then "a" else "b"
    let ρ := Renaming.ofIdentifiers (Equiv.swap "height" "top")
    let heigt : Expr := .ref () "heigt"
    let outcome (Γ : Context) (e : Expr) :=
      ((Checker.new ⟨5⟩).answer Γ e (Sink.fresh none)).1
    (body "x" "z").renameBound f [] = body "a" "b"
      ∧ (∃ t t', (Checker.new ⟨5⟩).Accepts sampleContext (body "x" "z") t
        ∧ (Checker.new ⟨5⟩).Accepts sampleContext (body "a" "b") t'
        ∧ ∀ p, (t'.node? p).map Term.note = (t.node? p).map Term.note)
      ∧ outcome sampleContext heigt
        = .rejected (.undefinedReference "heigt" ["height"])
      ∧ outcome (sampleContext.rename ρ) (heigt.rename ρ id)
        = .rejected (.undefinedReference "heigt" [])
      ∧ (outcome (sampleContext.rename ρ)
          (heigt.rename ρ id)).withoutSuggestions
        = ((outcome sampleContext heigt).rename ρ).withoutSuggestions := by
  intro body f ρ heigt outcome
  have hrenamed : (body "x" "z").renameBound f [] = body "a" "b" :=
    rfl
  let t : TypedExpr :=
    .ifElse .long (.binary .boolean .gt (.ref .long "height")
        (.lit .long (.long 1)))
      (.letIn .long "x" (.access .long (.ref (.named "Transaction") "tx") "fee")
        (.letIn .long "z" (.ref .long "x")
          (.binary .long .sum (.ref .long "x") (.ref .long "z"))))
      (.letIn .long "x" (.ref .long "height") (.ref .long "x"))
  have ht : (Checker.new ⟨5⟩).Accepts sampleContext (body "x" "z") t :=
    Checker.accepts_iff.mpr rfl
  obtain ⟨t', ht', htypes⟩ := Checker.names_opaque.2 ⟨5⟩ sampleContext _ t f
    ht (by decide) (by decide)
  have hheigt : outcome (sampleContext.rename ρ) (heigt.rename ρ id)
      = .rejected (.undefinedReference "heigt" []) := by
    unfold outcome ρ heigt
    rfl
  exact ⟨hrenamed, ⟨t, t', ht, hrenamed ▸ ht', htypes⟩, rfl, hheigt,
    (Checker.names_opaque.1 ρ ⟨5⟩ sampleContext heigt _).1⟩

end PredicateScript
