import PredicateScript.Proofs.Justification
import PredicateScript.Proofs.Ranking
import PredicateScript.Proofs.Shadowing

/-!
# Hints name what can be used

A rejection for a name that was not found carries names that may have been
meant. It would be no help to be told of a name that is not there either.
What is there depends on the node: a variable is in reach of a node if the
context has it or a binding has it whose body the node lies in
(`Reaches.isSome_var?_iff`), and a binding of another branch, of a block
that has ended, or whose value the node is part of, is not. Types and
functions are the same everywhere in a script, and the fields in reach are
those of the record at hand.

`GoodOffer` says what an offer owes to the reader in terms of the names in
reach. The offers made for the names in a list are good ones where the list
has all names in reach and no other, and the name looked for is not among
them (`goodOffer_similarNames`). The rejections are gone through at the
node to blame, where each is known to be justified.
-/

namespace PredicateScript

/-- **A good offer** in place of a name, where the names in reach are
those that satisfy `InReach`. -/
structure GoodOffer (name : String) (InReach : String → Prop)
    (offer : List String) : Prop where
  /-- What is offered can be used. -/
  inReach : ∀ n ∈ offer, InReach n
  /-- The name itself is not offered. -/
  other : ∀ n ∈ offer, n ≠ name
  /-- What is offered is two edits away at most. -/
  close : ∀ n ∈ offer, editDistance name n ≤ 2
  /-- No more than three names are offered. -/
  few : offer.length ≤ 3
  /-- A name in reach that is closer than one on offer is on offer. -/
  closest : ∀ n ∈ offer, ∀ m, InReach m → editDistance name m ≤ 2 →
    editDistance name m < editDistance name n → m ∈ offer

/-- **Where names are listed that are in reach, the offer is good.** -/
theorem goodOffer_similarNames {name : String} {InReach : String → Prop}
    {names : List String} (hnames : ∀ n, n ∈ names ↔ InReach n)
    (hname : ¬ InReach name) :
    GoodOffer name InReach (similarNames name names Suggestion.reach) where
  inReach n hn := (hnames n).mp (of_mem_similarNames hn).1
  other n hn := by
    rintro rfl
    exact hname ((hnames n).mp (of_mem_similarNames hn).1)
  close n hn := (of_mem_similarNames hn).2.2
  few := by
    rw [similarNames_eq_take]
    exact List.length_take_le 3 _
  closest n hn m hm hclose hcloser := by
    have hpos : 1 ≤ editDistance name m := by
      refine Nat.one_le_iff_ne_zero.mpr (fun hzero => hname ?_)
      rw [editDistance_eq_zero_iff.mp hzero]
      exact hm
    by_contra hout
    -- left out, it would rank behind the one that is farther away
    rcases ranksBefore_of_notMem ((hnames m).mpr hm) ⟨hpos, hclose⟩ hout hn
      with hlt | ⟨heq, -⟩
    · exact Nat.lt_asymm hcloser hlt
    · exact absurd heq (Nat.ne_of_gt hcloser)

/-! ## The names in reach of a node -/

section Reach

variable {Γ S : Context} {e sub : Expr} {p : List Nat}

/-- Types and functions are the same in every scope of a script. -/
theorem Reaches.types_and_functions_eq (h : Reaches Γ e p S sub) :
    S.types = Γ.types ∧ S.functions = Γ.functions := by
  induction h with
  | root => exact ⟨rfl, rfl⟩
  | part _ _ _ ih => exact ih
  | body _ _ _ _ ih => exact ih

/-- The variables of a scope are those of the bindings around it and those
of the context. -/
theorem Reaches.varNames_eq (h : Reaches Γ e p S sub) :
    S.varNames = ((e.bindings p).map Prod.fst).reverse ++ Γ.varNames := by
  induction h with
  | root => rfl
  | part hpart hbinding _ ih =>
    rw [Term.bindings, hpart, hbinding]
    exact ih
  | @body Γ _ _ _ _ _ _ _ name ty hpart hbinding _ _ ih =>
    rw [Term.bindings, hpart, hbinding, ih]
    show _ ++ name :: Γ.varNames = _
    simp

/-- The bindings around a position are those whose body it lies in, which
is the second part of a binding. -/
theorem Term.mem_bindings_iff {α : Type} {t value : Term α} {p : List Nat}
    {name : String} :
    (name, value) ∈ t.bindings p
      ↔ ∃ q r n body, p = q ++ 1 :: r
        ∧ t.node? q = some (.letIn n name value body) := by
  induction p generalizing t with
  | nil => simp [Term.bindings]
  | cons i p ih =>
    constructor
    · intro h
      rw [Term.bindings] at h
      cases hpart : t.parts[i]? with
      | none => simp [hpart] at h
      | some u =>
        rw [hpart] at h
        rcases List.mem_append.mp h with hroot | hbelow
        · obtain ⟨rfl, n, body, rfl⟩ :=
            Term.eq_letIn_of_binding? (Option.mem_toList.mp hroot)
          exact ⟨[], p, n, body, rfl, rfl⟩
        · obtain ⟨q, r, n, body, rfl, hq⟩ := ih.mp hbelow
          refine ⟨i :: q, r, n, body, rfl, ?_⟩
          rw [Term.node?_cons, hpart]
          exact hq
    · rintro ⟨q, r, n, body, hp, hq⟩
      cases q with
      | nil =>
        obtain ⟨rfl, rfl⟩ := List.cons.inj hp
        obtain rfl := Option.some.inj hq
        exact List.mem_append_left _ (List.mem_singleton.mpr rfl)
      | cons j q =>
        obtain ⟨rfl, rfl⟩ := List.cons.inj hp
        rw [Term.node?_cons, Option.bind_eq_some_iff] at hq
        obtain ⟨u, hpart, hu⟩ := hq
        rw [Term.bindings, hpart]
        exact List.mem_append_right _ (ih.mpr ⟨q, r, n, body, rfl, hu⟩)

theorem Context.mem_varNames_iff (Γ : Context) {n : String} :
    n ∈ Γ.varNames ↔ (Γ.var? n).isSome = true :=
  mem_map_fst_iff_lookup

/-- **The variables in reach of a node**: those of the context, and those
of the bindings whose body the node lies in. -/
theorem Reaches.isSome_var?_iff (h : Reaches Γ e p S sub) (n : String) :
    (S.var? n).isSome = true
      ↔ (Γ.var? n).isSome = true
        ∨ ∃ q r value body, p = q ++ 1 :: r
          ∧ e.node? q = some (.letIn () n value body) := by
  rw [← Context.mem_varNames_iff, ← Context.mem_varNames_iff, h.varNames_eq,
    List.mem_append, List.mem_reverse, List.mem_map, or_comm]
  refine or_congr_right ⟨?_, ?_⟩
  · rintro ⟨⟨_, value⟩, hmem, rfl⟩
    obtain ⟨q, r, _, body, hp, hq⟩ := Term.mem_bindings_iff.mp hmem
    exact ⟨q, r, value, body, hp, hq⟩
  · rintro ⟨q, r, value, body, hp, hq⟩
    exact ⟨(n, value),
      Term.mem_bindings_iff.mpr ⟨q, r, (), body, hp, hq⟩, rfl⟩

end Reach

/-! ## The hints of a rejection -/

/-- **The hints of a rejection can be used** in the scope `S` of a script
that is checked in `Γ`. Only rejections for a name have hints. -/
def Rejection.HintsUsable (Γ S : Context) : Rejection → Prop
  | undefinedReference name offer =>
    GoodOffer name (fun n => (S.var? n).isSome = true) offer
  | undefinedFunction name offer =>
    GoodOffer name (fun n => (Γ.function? n).isSome = true) offer
  | undefinedType name offer =>
    GoodOffer name (fun n => (Γ.type? n).isSome = true) offer
  | undefinedField typeName field offer =>
    ∃ record, Γ.type? typeName = some record
      ∧ GoodOffer field (fun n => n ∈ record.fieldNames) offer
  | cause => cause.suggestions = []

section Hints

variable {limit : UInt64} {depth : Nat} {Γ S : Context} {e : Expr}
  {cause : Rejection}

theorem goodOffer_missingType {n : String} (hn : S.type? n = none) :
    GoodOffer n (fun m => (S.type? m).isSome = true)
      (similarNames n S.typeNames Suggestion.reach) :=
  goodOffer_similarNames (fun _ => Table.mem_keys_iff)
    (by rw [hn]; exact Bool.false_ne_true)

/-- **A justified rejection has usable hints.** -/
theorem Justified.hintsUsable (h : Justified limit depth S e cause) :
    cause.HintsUsable S S := by
  cases h with
  | undefinedReference hvar =>
    exact goodOffer_similarNames (fun _ => S.mem_varNames_iff)
      (by rw [hvar]; exact Bool.false_ne_true)
  | undefinedFunction hfun =>
    exact goodOffer_similarNames (fun _ => Table.mem_keys_iff)
      (by rw [hfun]; exact Bool.false_ne_true)
  | undefinedField _ hrecord hfield =>
    exact ⟨_, hrecord, goodOffer_similarNames (fun _ => Iff.rfl) hfield⟩
  | variableType _ hn => exact goodOffer_missingType hn
  | fieldType _ _ _ hn => exact goodOffer_missingType hn
  | resultType _ _ _ hn => exact goodOffer_missingType hn
  | _ => rfl

/-- Usable hints are so with the types and functions of the context. -/
theorem Rejection.HintsUsable.of_scope (h : cause.HintsUsable S S)
    (htypes : S.types = Γ.types) (hfunctions : S.functions = Γ.functions) :
    cause.HintsUsable Γ S := by
  cases cause <;>
    simpa only [HintsUsable, Context.type?, Context.function?, ← htypes,
      ← hfunctions] using h

end Hints

/-- **Hints only name what is usable at the error.** A rejected script has
one node to blame. Its scope has the variables of the context and those of
the bindings around it, and the hints of the rejection are good offers out
of that scope: a variable that is bound there, a registered function or
type, a declared field. -/
theorem Checker.rejected_hints_usable {limit : UInt64} {Γ : Context}
    {e : Expr} {sink : Sink} {cause : Rejection}
    (h : ((Checker.new ⟨limit⟩).run Γ e sink).1 = .rejected cause) :
    ∃ p S sub, (∀ p', Blamed limit 0 Γ e cause p' ↔ p' = p)
      ∧ Reaches Γ e p S sub
      ∧ (∀ n, (S.var? n).isSome = true
        ↔ (Γ.var? n).isSome = true
          ∨ ∃ q r value body, p = q ++ 1 :: r
            ∧ e.node? q = some (.letIn () n value body))
      ∧ cause.HintsUsable Γ S := by
  have hverdict : verdict limit limit.toNat Γ e = .error cause := by
    have hc := verdict_of_rejected h
    rw [budget_new] at hc
    exact hc
  obtain ⟨p, hp⟩ := exists_blamed (Nat.zero_le _) (Nat.sub_zero _) hverdict
  have hdepth := hp.depth_le (Nat.zero_le _)
  obtain ⟨S, sub, hsub, hfails⟩ := hp.own
  have hhints := (hfails.justified hdepth).hintsUsable
  obtain ⟨htypes, hfunctions⟩ := hsub.types_and_functions_eq
  refine ⟨p, S, sub, fun p' => ⟨fun hp' => hp'.unique hp, ?_⟩, hsub,
    hsub.isSome_var?_iff, hhints.of_scope htypes hfunctions⟩
  rintro rfl
  exact hp

/-- In `if (true) then { let feel = 1; feel } else { let feed = 2; feet }`
the name `feet` is not found. Both bindings are one edit away from it, and
the one that is offered is the one whose body it stands in. -/
theorem Checker.rejected_hints_usable_feet :
    let e : Expr := .ifElse () (.lit () (.bool true))
      (.letIn () "feel" (Expr.long 1) (.ref () "feel"))
      (.letIn () "feed" (Expr.long 2) (.ref () "feet"))
    let cause : Rejection := .undefinedReference "feet" ["feed"]
    ((Checker.new ⟨3⟩).run sampleContext e (Sink.fresh none)).1
        = .rejected cause
      ∧ ∃ p S sub, (∀ p', Blamed 3 0 sampleContext e cause p' ↔ p' = p)
        ∧ Reaches sampleContext e p S sub
        ∧ (∀ n, (S.var? n).isSome = true
          ↔ (sampleContext.var? n).isSome = true
            ∨ ∃ q r value body, p = q ++ 1 :: r
              ∧ e.node? q = some (.letIn () n value body))
        ∧ cause.HintsUsable sampleContext S := by
  intro e cause
  have h : ((Checker.new ⟨3⟩).run sampleContext e (Sink.fresh none)).1
      = .rejected cause := rfl
  exact ⟨h, Checker.rejected_hints_usable h⟩

end PredicateScript
