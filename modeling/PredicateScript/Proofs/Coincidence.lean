import PredicateScript.Proofs.Framing
import PredicateScript.Proofs.Simulation

/-!
# One script in two contexts

A check depends on what its script mentions and on nothing else.
`Context.AgreeOn` says that two contexts have the same types and cannot be
told apart by the names that a script refers to, calls or binds. They give
the script the same tree and the same events, or the same reason against
it. What may differ is which other names are offered in place of one that
is not there, since an offer is made from all names in reach. So the two
checks are compared up to the names on offer
(`Transcript.SameButOffers`), which is a congruence, and contexts that
agree on a script simulate it (`simulation_agreeOn`).
-/

namespace PredicateScript

/-! ## Up to the names on offer -/

/-- The reason without the names on offer. -/
def Rejection.withoutSuggestions : Rejection → Rejection
  | undefinedType name _ => undefinedType name []
  | undefinedField typeName field _ => undefinedField typeName field []
  | undefinedFunction name _ => undefinedFunction name []
  | undefinedReference name _ => undefinedReference name []
  | cause => cause

/-- The outcome without the names on offer. -/
def Outcome.withoutSuggestions : Outcome → Outcome
  | rejected cause => rejected cause.withoutSuggestions
  | outcome => outcome

/-- What a rule says without the names on offer. -/
abbrev plain {α : Type} (r : Except Rejection α) : Except Rejection α :=
  r.mapError Rejection.withoutSuggestions

namespace Transcript

variable {α β : Type}

/-- **Two transcripts are the same but for the names on offer.** -/
def SameButOffers (α : Type) (x y : Transcript α) : Prop :=
  x.events = y.events ∧ plain x.verdict = plain y.verdict

theorem congruence_sameButOffers : Congruence SameButOffers where
  refl x := ⟨rfl, rfl⟩
  bind {α β x y f g} hx hf := by
    obtain ⟨hevents, hverdict⟩ := hx
    cases hxv : x.verdict with
    | ok a =>
      cases hyv : y.verdict with
      | error cause =>
        rw [hxv, hyv] at hverdict
        cases hverdict
      | ok b =>
        rw [hxv, hyv] at hverdict
        cases hverdict
        obtain ⟨hevents', hverdict'⟩ := hf a
        rw [bind_of_ok hxv, bind_of_ok hyv]
        exact ⟨by rw [hevents, hevents'], hverdict'⟩
    | error cause =>
      cases hyv : y.verdict with
      | ok b =>
        rw [hxv, hyv] at hverdict
        cases hverdict
      | error cause' =>
        rw [hxv, hyv] at hverdict
        rw [bind_of_error hxv, bind_of_error hyv]
        exact ⟨hevents, congrArg Except.error (Except.error.inj hverdict)⟩

end Transcript

/-! ## The names a script mentions -/

/-- A tree is a node of itself. -/
theorem Term.mem_nodes_self {α : Type} (t : Term α) : t ∈ t.nodes := by
  rw [nodes_eq]
  exact List.mem_cons_self

/-- The name that a node mentions: of a variable, of a function or of a
binding. -/
def Term.mention? {α : Type} : Term α → Option String
  | ref _ name | call _ name _ | letIn _ name _ _ => some name
  | _ => none

/-- **Two contexts that a script cannot tell apart**: they have the same
types, the same variables where the script refers to one, the same
functions where it calls one, and for every name that it binds the name is
taken in both or in neither. -/
structure Context.AgreeOn (Γ Γ' : Context) (e : Expr) : Prop where
  /-- The types are the same. -/
  types : ∀ n, Γ.type? n = Γ'.type? n
  /-- A variable that is referred to is the same. -/
  refs : ∀ name, .ref () name ∈ e.nodes → Γ.var? name = Γ'.var? name
  /-- A function that is called is the same. -/
  calls : ∀ name args, .call () name args ∈ e.nodes →
    Γ.function? name = Γ'.function? name
  /-- A name that is bound is as good as new in both or in neither. -/
  lets : ∀ name value body, .letIn () name value body ∈ e.nodes →
    (Γ.var? name).isSome = (Γ'.var? name).isSome
      ∧ (Γ.function? name).isSome = (Γ'.function? name).isSome

namespace Context.AgreeOn

variable {Γ Γ' : Context} {e : Expr}

/-- A script that is part of another mentions less. -/
theorem of_part {part : Expr} (h : Γ.AgreeOn Γ' e) (hpart : part ∈ e.parts) :
    Γ.AgreeOn Γ' part := by
  have hnodes : ∀ node ∈ part.nodes, node ∈ e.nodes := by
    intro node hnode
    rw [Term.nodes_eq]
    exact List.mem_cons_of_mem _ (List.mem_flatMap.mpr ⟨part, hpart, hnode⟩)
  exact ⟨h.types, fun name hname => h.refs name (hnodes _ hname),
    fun name args hname => h.calls name args (hnodes _ hname),
    fun name value body hname => h.lets name value body (hnodes _ hname)⟩

/-- A variable that both gain is the same in both. -/
theorem bind (h : Γ.AgreeOn Γ' e) (name : String) (ty : Ty) :
    (Γ.bind name ty).AgreeOn (Γ'.bind name ty) e := by
  refine ⟨h.types, fun n hn => ?_, h.calls, fun n value body hn => ?_⟩
  · by_cases hname : n = name
    · rw [hname, var?_bind_self, var?_bind_self]
    · rw [var?_bind_of_ne _ _ hname, var?_bind_of_ne _ _ hname, h.refs n hn]
  · obtain ⟨hvar, hfun⟩ := h.lets n value body hn
    refine ⟨?_, hfun⟩
    by_cases hname : n = name
    · rw [hname, var?_bind_self, var?_bind_self]
    · rw [var?_bind_of_ne _ _ hname, var?_bind_of_ne _ _ hname, hvar]

theorem scopeOf {part : Expr} (h : Γ.AgreeOn Γ' e) (hpart : part ∈ e.parts)
    (tys : List Ty) :
    (Γ.scopeOf e tys).AgreeOn (Γ'.scopeOf e tys) part := by
  unfold Context.scopeOf
  split
  · exact (h.of_part hpart).bind _ _
  · exact h.of_part hpart

end Context.AgreeOn

/-! ## The rules up to the names on offer -/

namespace Context

variable {Γ Γ' : Context}

/-- A type is known by the types. -/
theorem known_congr (h : Γ.types = Γ'.types) (ty : Ty) :
    Γ.known ty = Γ'.known ty := by
  unfold known missingType type? typeNames
  rw [h]

theorem fieldType_congr (h : Γ.types = Γ'.types) (ty : Ty) (field : String) :
    Γ.fieldType ty field = Γ'.fieldType ty field := by
  unfold fieldType missingType type? typeNames
  rw [h]
  simp only [known_congr h]

theorem resultType_congr (h : Γ.types = Γ'.types) (sig : Signature)
    (name : String) (tys : List Ty) :
    Γ.resultType sig name tys = Γ'.resultType sig name tys := by
  unfold resultType
  simp only [known_congr h]

theorem plain_reference {name : String} (htypes : Γ.types = Γ'.types)
    (hvar : Γ.var? name = Γ'.var? name) :
    plain (Γ.reference name) = plain (Γ'.reference name) := by
  unfold reference
  rw [hvar]
  cases Γ'.var? name with
  | none => rfl
  | some ty =>
    show plain (Γ.known ty) = plain (Γ'.known ty)
    rw [known_congr htypes]

/-- The signature of a call is found, or not, by the name that is
called. -/
theorem callee_congr {name : String}
    (h : Γ.function? name = Γ'.function? name) (argCount : Nat) :
    Γ.callee name argCount = Γ'.callee name argCount
      ∨ ∃ s s', Γ.callee name argCount = .error (.undefinedFunction name s)
        ∧ Γ'.callee name argCount = .error (.undefinedFunction name s') := by
  unfold callee
  rw [h]
  cases Γ'.function? name with
  | none => exact Or.inr ⟨_, _, rfl, rfl⟩
  | some sig => exact Or.inl rfl

theorem fresh_congr {name : String}
    (hvar : (Γ.var? name).isSome = (Γ'.var? name).isSome)
    (hfun : (Γ.function? name).isSome = (Γ'.function? name).isSome) :
    Γ.fresh name = Γ'.fresh name := by
  unfold fresh
  rw [hvar, hfun]

end Context

namespace Context.AgreeOn

variable {Γ Γ' : Context} {e : Expr}

theorem types_eq (h : Γ.AgreeOn Γ' e) : Γ.types = Γ'.types :=
  Table.ext_find? h.types

/-- The entry tests of a node answer alike. -/
theorem plain_entryTest (h : Γ.AgreeOn Γ' e) :
    plain (Γ.entryTest e) = plain (Γ'.entryTest e) := by
  unfold Context.entryTest
  split
  · next name args =>
    obtain heq | ⟨s, s', hs, hs'⟩ := Context.callee_congr
      (h.calls name args (Term.mem_nodes_self _)) args.length
    · rw [heq]
    · rw [hs, hs']
      rfl
  · next name value body =>
    obtain ⟨hvar, hfun⟩ := h.lets name value body (Term.mem_nodes_self _)
    rw [Context.fresh_congr hvar hfun]
  · rfl

/-- A node reports the same. -/
theorem nodeEvents_eq (h : Γ.AgreeOn Γ' e) (tys : List Ty) :
    Γ.nodeEvents e tys = Γ'.nodeEvents e tys := by
  unfold Context.nodeEvents
  split
  · next name args =>
    obtain heq | ⟨s, s', hs, hs'⟩ := Context.callee_congr
      (h.calls name args (Term.mem_nodes_self _)) args.length
    · rw [heq]
    · rw [hs, hs']
  · rfl
  · rfl

/-- The rules of a node answer alike. -/
theorem plain_nodeType (h : Γ.AgreeOn Γ' e) (tys : List Ty) :
    plain (Γ.nodeType e tys) = plain (Γ'.nodeType e tys) := by
  unfold Context.nodeType
  split
  case h_2 name =>
    exact Context.plain_reference h.types_eq
      (h.refs name (Term.mem_nodes_self _))
  case h_3 => rw [Context.fieldType_congr h.types_eq]
  case h_4 name args =>
    simp only [Context.resultType_congr h.types_eq]
    obtain heq | ⟨s, s', hs, hs'⟩ := Context.callee_congr
      (h.calls name args (Term.mem_nodes_self _)) args.length
    · rw [heq]
    · rw [hs, hs']
      rfl
  all_goals rfl

/-- Where two contexts differ in one name at most, a script that does not
mention it cannot tell them apart. -/
theorem of_unmentioned {name : String}
    (htypes : ∀ n, Γ.type? n = Γ'.type? n)
    (hothers : ∀ n, n ≠ name →
      Γ.var? n = Γ'.var? n ∧ Γ.function? n = Γ'.function? n)
    (hname : ∀ node ∈ e.nodes, node.mention? ≠ some name) :
    Γ.AgreeOn Γ' e := by
  have hne : ∀ {node : Expr} {n : String}, node ∈ e.nodes →
      node.mention? = some n → n ≠ name := by
    rintro node n hnode hmention rfl
    exact hname node hnode hmention
  refine ⟨htypes, fun n hn => (hothers n (hne hn rfl)).1,
    fun n args hn => (hothers n (hne hn rfl)).2, fun n value body hn => ?_⟩
  obtain ⟨hvar, hfun⟩ := hothers n (hne hn rfl)
  rw [hvar, hfun]
  exact ⟨rfl, rfl⟩

end Context.AgreeOn

/-- **Contexts that agree on a script make the same check of it**, but for
the names on offer. -/
theorem simulation_agreeOn :
    Simulation Transcript.SameButOffers Context.AgreeOn where
  congruence := Transcript.congruence_sameButOffers
  entry h := ⟨rfl, h.plain_entryTest⟩
  scope h hpart tys := h.scopeOf hpart tys
  rule {Γ Γ' e} h tys := by
    unfold Context.rule
    rw [h.nodeEvents_eq tys]
    exact Transcript.congruence_sameButOffers.bind ⟨rfl, rfl⟩
      (fun _ => ⟨rfl, h.plain_nodeType tys⟩)

/-! ## Answers up to the names on offer -/

theorem Outcome.withoutSuggestions_ofVerdict
    (verdict : Except Rejection TypedExpr) :
    (Outcome.ofVerdict verdict).withoutSuggestions
      = .ofVerdict (plain verdict) := by
  cases verdict <;> rfl

theorem Transcript.SameButOffers.deliver {x y : Transcript TypedExpr}
    (h : SameButOffers TypedExpr x y) (sink : Sink) :
    (x.deliver sink).1.withoutSuggestions
        = (y.deliver sink).1.withoutSuggestions
      ∧ (x.deliver sink).2 = (y.deliver sink).2 := by
  obtain ⟨hevents, hverdict⟩ := h
  rcases hx : sink.receiveAll x.events with ⟨_ | fault, s⟩
  · have hy := hx
    rw [hevents] at hy
    rw [deliver_of_none (congrArg Prod.fst hx),
      deliver_of_none (congrArg Prod.fst hy), hevents]
    refine ⟨?_, rfl⟩
    rw [Outcome.withoutSuggestions_ofVerdict,
      Outcome.withoutSuggestions_ofVerdict, hverdict]
  · have hy := hx
    rw [hevents] at hy
    rw [deliver_of_some hx, deliver_of_some hy]
    exact ⟨rfl, rfl⟩

theorem Event.title_ofVerdict_congr
    {verdict verdict' : Except Rejection TypedExpr}
    (h : plain verdict = plain verdict') :
    (Event.ofVerdict verdict).title = (Event.ofVerdict verdict').title := by
  cases verdict with
  | ok t =>
    cases verdict' with
    | ok t' => rfl
    | error cause' => cases h
  | error cause =>
    cases verdict' with
    | ok t' => cases h
    | error cause' => rfl

/-- The verdict that the shield makes of an outcome. -/
def Outcome.toVerdict : Outcome → Except Rejection TypedExpr
  | accepted t => .ok t
  | rejected cause => .error cause
  | broken fault => .error (.internal fault.describe)

theorem Outcome.plain_toVerdict (outcome : Outcome) :
    plain outcome.toVerdict = outcome.withoutSuggestions.toVerdict := by
  cases outcome <;> rfl

theorem shielded_eq_toVerdict (config : Config) (Γ : Context) (e : Expr)
    (sink : Sink) :
    shielded config Γ e sink
      = (((Checker.new config).answer Γ e sink).1.toVerdict,
        ((Checker.new config).answer Γ e sink).2) := by
  rw [shielded_eq]
  rcases (Checker.new config).answer Γ e sink with
    ⟨⟨t⟩ | ⟨cause⟩ | ⟨fault⟩, sink'⟩
  all_goals rfl

/-- **A script is answered alike in two contexts**: with every sink, a
checker comes to the same outcome but for the names on offer and leaves the
sink the same, and a supervised check comes to the same outcome but for the
names on offer. -/
def AnsweredAlike (config : Config) (Γ Γ' : Context) (e : Expr) : Prop :=
  ∀ sink : Sink,
    ((Checker.new config).answer Γ e sink).1.withoutSuggestions
        = ((Checker.new config).answer Γ' e sink).1.withoutSuggestions
      ∧ ((Checker.new config).answer Γ e sink).2
        = ((Checker.new config).answer Γ' e sink).2
      ∧ (checkWith config Γ e sink).1.withoutSuggestions
        = (checkWith config Γ' e sink).1.withoutSuggestions

section Answers

variable {Γ Γ' : Context} {e : Expr}

theorem answer_congr (h : Γ.AgreeOn Γ' e) (config : Config) (sink : Sink) :
    ((Checker.new config).answer Γ e sink).1.withoutSuggestions
        = ((Checker.new config).answer Γ' e sink).1.withoutSuggestions
      ∧ ((Checker.new config).answer Γ e sink).2
        = ((Checker.new config).answer Γ' e sink).2 := by
  rw [Checker.answer_eq, Checker.answer_eq]
  exact (simulation_agreeOn.transcript_related h _ _).deliver sink

/-- A supervised check comes to the same outcome: it reports the same kind
of verdict to the same sink, which cannot break down on the one and take
the other. -/
theorem checkWith_congr (h : Γ.AgreeOn Γ' e) (config : Config) (sink : Sink) :
    (checkWith config Γ e sink).1.withoutSuggestions
      = (checkWith config Γ' e sink).1.withoutSuggestions := by
  obtain ⟨houtcome, hsink⟩ := answer_congr h config (sink.begun config)
  have hverdict :
      plain ((Checker.new config).answer Γ e (sink.begun config)).1.toVerdict
        = plain ((Checker.new config).answer Γ' e
          (sink.begun config)).1.toVerdict := by
    rw [Outcome.plain_toVerdict, Outcome.plain_toVerdict, houtcome]
  rw [(checkWith_of_shielded (shielded_eq_toVerdict config Γ e _)).1,
    (checkWith_of_shielded (shielded_eq_toVerdict config Γ' e _)).1, hsink,
    (Sink.receive_congr_of_title rfl
      (Event.title_ofVerdict_congr hverdict)).1]
  split
  · rfl
  · rw [Outcome.withoutSuggestions_ofVerdict,
      Outcome.withoutSuggestions_ofVerdict, hverdict]

theorem answeredAlike_of_agreeOn (h : Γ.AgreeOn Γ' e) (config : Config) :
    AnsweredAlike config Γ Γ' e := by
  intro sink
  obtain ⟨houtcome, hsink⟩ := answer_congr h config sink
  exact ⟨houtcome, hsink, checkWith_congr h config sink⟩

end Answers

/-- **Names that a script does not mention do not interfere with its
check.** Two contexts with the same types, in which the script finds the
same variables where it refers to them and the same functions where it
calls them, and in which the names it binds are taken or not alike, answer
it alike. So a variable or a function of a name that the script does not
mention may be added, changed or removed. -/
theorem Checker.noninterference (config : Config) (Γ Γ' : Context)
    (e : Expr) :
    (Γ.AgreeOn Γ' e → AnsweredAlike config Γ Γ' e)
      ∧ ∀ name, (∀ node ∈ e.nodes, node.mention? ≠ some name) →
        (∀ n, Γ.type? n = Γ'.type? n) →
        (∀ n, n ≠ name →
          Γ.var? n = Γ'.var? n ∧ Γ.function? n = Γ'.function? n) →
        AnsweredAlike config Γ Γ' e := by
  refine ⟨fun h => answeredAlike_of_agreeOn h config,
    fun name hname htypes hothers => ?_⟩
  exact answeredAlike_of_agreeOn (.of_unmentioned htypes hothers hname) config

/-- A host that has a variable `heigh` beside `height` rejects `heigt > 1`
for the reason that a host without it does. It offers one name more. -/
theorem Checker.noninterference_heigt :
    let Γ := Context.empty.bind "height" .long
    let e : Expr := .binary () .gt (.ref () "heigt") (.lit () (.long 1))
    let outcome (Γ : Context) :=
      ((Checker.new ⟨2⟩).answer Γ e (Sink.fresh none)).1
    outcome Γ = .rejected (.undefinedReference "heigt" ["height"])
      ∧ outcome (Γ.bind "heigh" .long)
        = .rejected (.undefinedReference "heigt" ["heigh", "height"])
      ∧ AnsweredAlike ⟨2⟩ Γ (Γ.bind "heigh" .long) e := by
  intro Γ e outcome
  refine ⟨rfl, rfl, (Checker.noninterference ⟨2⟩ Γ _ e).2 "heigh" ?_
    (fun n => rfl) (fun n hn => ⟨?_, rfl⟩)⟩
  · decide
  · rw [Context.var?_bind_of_ne Γ .long hn]

end PredicateScript
