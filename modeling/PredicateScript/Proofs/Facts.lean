import PredicateScript.Proofs.Coincidence
import PredicateScript.Proofs.Suggestion
import Mathlib.Data.List.Induction

/-!
# A context is a set of facts

A host builds its context up by declarations, one after the other: a type,
a function, a variable. A later declaration on the same subject takes the
place of an earlier one. Types and functions are replaced, and a variable
is hidden, which leaves its traces in the list of the variables.

The traces do not show. What a context says of a subject is what was last
declared on it (`Context.fact?_ofDeclarations`), and two contexts that say
the same of every subject get the same answers to every script
(`transcript_eq_of_sameFacts`). The names on offer are the same too: they
are made from lists of the names in reach, and any list of the same names
would make the same offer (`Context.Lists`).
-/

namespace PredicateScript

/-! ## Declarations -/

/-- **What a declaration is about.** Types, functions and variables have
their names apart from each other. -/
inductive Subject where
  /-- The type of this name. -/
  | type (name : String)
  /-- The function of this name. -/
  | function (name : String)
  /-- The variable of this name. -/
  | var (name : String)
  deriving DecidableEq

/-- **A declaration**: one step of a host that builds its context. -/
inductive Declaration where
  /-- Register a record type. -/
  | type (name : String) (record : RecordType)
  /-- Register a native function. -/
  | function (name : String) (sig : Signature)
  /-- Bind a variable. -/
  | var (name : String) (ty : Ty)
  deriving DecidableEq

/-- The subject of a declaration. -/
def Declaration.subject : Declaration → Subject
  | type name _ => .type name
  | function name _ => .function name
  | var name _ => .var name

/-- **The last declaration on a subject**, if there is one. -/
def lastOn (k : Subject) (ds : List Declaration) : Option Declaration :=
  ds.reverse.find? (fun d => d.subject = k)

namespace Context

/-- The context after a declaration. -/
def declare (Γ : Context) : Declaration → Context
  | .type name record => Γ.withType name record
  | .function name sig => Γ.withFunction name sig
  | .var name ty => Γ.bind name ty

/-- **The context that declarations build**, in their order. -/
def ofDeclarations (ds : List Declaration) : Context :=
  ds.foldl declare empty

/-- **What a context says of a subject.** -/
def fact? (Γ : Context) : Subject → Option Declaration
  | .type name => (Γ.type? name).map (.type name)
  | .function name => (Γ.function? name).map (.function name)
  | .var name => (Γ.var? name).map (.var name)

/-- **A declaration changes what is said of its subject**, and nothing
else. -/
theorem fact?_declare (Γ : Context) (d : Declaration) (k : Subject) :
    (Γ.declare d).fact? k = if d.subject = k then some d else Γ.fact? k := by
  split
  · next h =>
    subst h
    cases d with
    | type name record =>
      show ((Γ.types.insert name record).find? name).map _ = _
      rw [Table.find?_insert_self]
      rfl
    | function name sig =>
      show ((Γ.functions.insert name sig).find? name).map _ = _
      rw [Table.find?_insert_self]
      rfl
    | var name ty =>
      show ((Γ.bind name ty).var? name).map _ = _
      rw [var?_bind_self]
      rfl
  · next h =>
    have hne : ∀ {m n : String} {f : String → Subject},
        f m ≠ f n → n ≠ m := fun hf hn => hf (by rw [hn])
    cases d with
    | type name record =>
      cases k with
      | type n =>
        show ((Γ.types.insert name record).find? n).map _ = _
        rw [Table.find?_insert_of_ne _ _ (hne h)]
        rfl
      | function n | var n => rfl
    | function name sig =>
      cases k with
      | function n =>
        show ((Γ.functions.insert name sig).find? n).map _ = _
        rw [Table.find?_insert_of_ne _ _ (hne h)]
        rfl
      | type n | var n => rfl
    | var name ty =>
      cases k with
      | var n =>
        show ((Γ.bind name ty).var? n).map _ = _
        rw [var?_bind_of_ne _ _ (hne h)]
        rfl
      | type n | function n => rfl

/-- **A context says of a subject what was last declared on it.** -/
theorem fact?_ofDeclarations (ds : List Declaration) (k : Subject) :
    (ofDeclarations ds).fact? k = lastOn k ds := by
  induction ds using List.reverseRecOn with
  | nil => cases k <;> rfl
  | append_singleton ds d ih =>
    unfold ofDeclarations lastOn at ih ⊢
    rw [List.foldl_append, List.reverse_append]
    show ((ds.foldl declare empty).declare d).fact? k
      = (d :: ds.reverse).find? _
    rw [fact?_declare, ih, List.find?_cons]
    by_cases h : d.subject = k
    · simp [h]
    · simp [h]

/-- **Two contexts that say the same** of every subject. -/
def SameFacts (Γ Γ' : Context) : Prop :=
  ∀ k, Γ.fact? k = Γ'.fact? k

/-! ## Lists of names -/

/-- **A list of the names in reach**, of types, of functions or of
variables: those that the context says something of, in any order and any
number of times. -/
def Lists (Γ : Context) (kind : String → Subject) (names : List String) :
    Prop :=
  ∀ n, n ∈ names ↔ (Γ.fact? (kind n)).isSome = true

section Lists

variable (Γ : Context)

/-- The names of an association list that the context looks its facts up
in. -/
theorem lists_map_fst {υ : Type} {kind : String → Subject}
    {l : List (String × υ)} {f : String → υ → Declaration}
    (h : ∀ n, Γ.fact? (kind n) = (l.lookup n).map (f n)) :
    Γ.Lists kind (l.map Prod.fst) := by
  intro n
  rw [mem_map_fst_iff_lookup, h n, Option.isSome_map]

theorem lists_typeNames : Γ.Lists .type Γ.typeNames :=
  Γ.lists_map_fst (fun _ => rfl)

theorem lists_functionNames : Γ.Lists .function Γ.functionNames :=
  Γ.lists_map_fst (fun _ => rfl)

theorem lists_varNames : Γ.Lists .var Γ.varNames :=
  Γ.lists_map_fst (fun _ => rfl)

end Lists

/-- **Two lists of the names in reach make the same offer**, also when
they are lists of two contexts that say the same. -/
theorem Lists.similarNames_eq {Γ Γ' : Context} {kind : String → Subject}
    {names names' : List String} (h : Γ.Lists kind names)
    (h' : Γ'.Lists kind names') (hfacts : Γ.SameFacts Γ') (name : String)
    (maxDistance : Nat) :
    similarNames name names maxDistance
      = similarNames name names' maxDistance :=
  similarNames_congr (fun n => by rw [h n, h' n, hfacts]) name maxDistance

end Context

/-! ## The same facts, the same check -/

namespace Context.SameFacts

variable {Γ Γ' : Context}

/-- Types are kept in a table, which is no more than its answers. -/
theorem types_eq (h : Γ.SameFacts Γ') : Γ.types = Γ'.types :=
  Table.ext_find? (fun name => Option.map_injective
    (fun _ _ => And.right ∘ Declaration.type.inj) (h (.type name)))

theorem functions_eq (h : Γ.SameFacts Γ') : Γ.functions = Γ'.functions :=
  Table.ext_find? (fun name => Option.map_injective
    (fun _ _ => And.right ∘ Declaration.function.inj) (h (.function name)))

theorem var?_eq (h : Γ.SameFacts Γ') (name : String) :
    Γ.var? name = Γ'.var? name :=
  Option.map_injective (fun _ _ => And.right ∘ Declaration.var.inj)
    (h (.var name))

/-- A binding of the script is one more declaration. -/
theorem bind (h : Γ.SameFacts Γ') (name : String) (ty : Ty) :
    (Γ.bind name ty).SameFacts (Γ'.bind name ty) := by
  intro k
  show (Γ.declare (.var name ty)).fact? k = (Γ'.declare (.var name ty)).fact? k
  rw [fact?_declare, fact?_declare, h k]

theorem scopeOf (h : Γ.SameFacts Γ') (e : Expr) (tys : List Ty) :
    (Γ.scopeOf e tys).SameFacts (Γ'.scopeOf e tys) := by
  unfold Context.scopeOf
  split
  · exact h.bind _ _
  · exact h

/-- A reference is answered the same, with the same names on offer. -/
theorem reference_eq (h : Γ.SameFacts Γ') (name : String) :
    Γ.reference name = Γ'.reference name := by
  unfold Context.reference
  rw [h.var?_eq name, Γ.lists_varNames.similarNames_eq Γ'.lists_varNames h]
  simp only [known_congr h.types_eq]

theorem callee_eq (h : Γ.SameFacts Γ') (name : String) (argCount : Nat) :
    Γ.callee name argCount = Γ'.callee name argCount := by
  unfold Context.callee function? functionNames
  rw [h.functions_eq]

theorem entryTest_eq (h : Γ.SameFacts Γ') (e : Expr) :
    Γ.entryTest e = Γ'.entryTest e := by
  unfold Context.entryTest
  split
  · rw [h.callee_eq]
  · next name value body =>
    exact fresh_congr (by rw [h.var?_eq])
      (by rw [function?, function?, h.functions_eq])
  · rfl

theorem nodeType_eq (h : Γ.SameFacts Γ') (e : Expr) (tys : List Ty) :
    Γ.nodeType e tys = Γ'.nodeType e tys := by
  unfold Context.nodeType
  split
  case h_2 name => exact h.reference_eq name
  case h_3 => exact fieldType_congr h.types_eq _ _
  case h_4 name args =>
    rw [h.callee_eq]
    simp only [resultType_congr h.types_eq]
  all_goals rfl

theorem nodeEvents_eq (h : Γ.SameFacts Γ') (e : Expr) (tys : List Ty) :
    Γ.nodeEvents e tys = Γ'.nodeEvents e tys := by
  unfold Context.nodeEvents
  split
  · rw [h.callee_eq]
  · rfl
  · rfl

end Context.SameFacts

/-- **Contexts that say the same make the same check.** -/
theorem simulation_sameFacts :
    Simulation (fun _ x y => x = y) (fun Γ Γ' _ => Γ.SameFacts Γ') where
  congruence := ⟨fun _ => rfl, fun hx hf => by rw [hx, funext hf]⟩
  entry h := by rw [h.entryTest_eq]
  scope h _ tys := h.scopeOf _ tys
  rule h tys := by
    unfold Context.rule
    rw [h.nodeEvents_eq, h.nodeType_eq]

/-- **The check of a script is the same** in contexts that say the same:
its events, and the tree or the reason with the names on offer. -/
theorem transcript_eq_of_sameFacts {Γ Γ' : Context} (h : Γ.SameFacts Γ')
    (limit : UInt64) (budget : Nat) (e : Expr) :
    transcript limit budget Γ e = transcript limit budget Γ' e :=
  simulation_sameFacts.transcript_related h limit budget

theorem Checker.answer_eq_of_sameFacts {Γ Γ' : Context} (h : Γ.SameFacts Γ')
    (config : Config) (e : Expr) (sink : Sink) :
    (Checker.new config).answer Γ e sink
      = (Checker.new config).answer Γ' e sink := by
  rw [answer_eq, answer_eq, transcript_eq_of_sameFacts h]

theorem shielded_eq_of_sameFacts {Γ Γ' : Context} (h : Γ.SameFacts Γ')
    (config : Config) (e : Expr) (sink : Sink) :
    shielded config Γ e sink = shielded config Γ' e sink := by
  rw [shielded_eq_toVerdict, shielded_eq_toVerdict,
    Checker.answer_eq_of_sameFacts h]

theorem checkWith_eq_of_sameFacts {Γ Γ' : Context} (h : Γ.SameFacts Γ')
    (config : Config) (e : Expr) (sink : Sink) :
    checkWith config Γ e sink = checkWith config Γ' e sink := by
  simp only [checkWith, shielded_eq_of_sameFacts h]

/-! ## The names that were declared -/

/-- **A list of the names that were declared**, in any order and any number
of times. -/
def DeclaredNames (kind : String → Subject) (ds : List Declaration)
    (names : List String) : Prop :=
  ∀ n, n ∈ names ↔ ∃ d ∈ ds, d.subject = kind n

theorem isSome_lastOn_iff {k : Subject} {ds : List Declaration} :
    (lastOn k ds).isSome = true ↔ ∃ d ∈ ds, d.subject = k := by
  unfold lastOn
  simp

theorem DeclaredNames.lists {kind : String → Subject}
    {ds : List Declaration} {names : List String}
    (h : DeclaredNames kind ds names) :
    (Context.ofDeclarations ds).Lists kind names := by
  intro n
  rw [Context.fact?_ofDeclarations, isSome_lastOn_iff]
  exact h n

namespace Context

variable {Γ Γ' : Context} {names : List String} {name : String}

/-- A name that is not listed is not there. -/
theorem Lists.fact?_eq_none {kind : String → Subject}
    (hnames : Γ'.Lists kind names) (h : Γ.SameFacts Γ')
    (hname : name ∉ names) : Γ.fact? (kind name) = none := by
  rw [hnames name, Bool.not_eq_true, Option.isSome_eq_false_iff,
    Option.isNone_iff_eq_none] at hname
  rw [h, hname]

theorem Lists.missingType_eq (hnames : Γ'.Lists .type names)
    (h : Γ.SameFacts Γ') (name : String) :
    Γ.missingType name
      = .undefinedType name (similarNames name names Suggestion.reach) := by
  unfold missingType
  rw [Γ.lists_typeNames.similarNames_eq hnames h]

theorem Lists.callee_eq (hnames : Γ'.Lists .function names)
    (h : Γ.SameFacts Γ') (hname : name ∉ names) (argCount : Nat) :
    Γ.callee name argCount
      = .error (.undefinedFunction name
        (similarNames name names Suggestion.reach)) := by
  have hnone : Γ.function? name = none :=
    Option.map_eq_none_iff.mp (hnames.fact?_eq_none h hname)
  unfold callee
  rw [hnone, Γ.lists_functionNames.similarNames_eq hnames h]

theorem Lists.reference_eq (hnames : Γ'.Lists .var names)
    (h : Γ.SameFacts Γ') (hname : name ∉ names) :
    Γ.reference name
      = .error (.undefinedReference name
        (similarNames name names Suggestion.reach)) := by
  have hnone : Γ.var? name = none :=
    Option.map_eq_none_iff.mp (hnames.fact?_eq_none h hname)
  unfold reference
  rw [hnone, Γ.lists_varNames.similarNames_eq hnames h]

end Context

/-- **A check depends on the context only as a set of facts.** Where two
hosts declare the same last on every subject, in whatever order and after
whatever else, they answer every script the same, down to the names on
offer and the log. And the order in which a context goes through its names
does not show: the offers of the one host are those that any list of the
names of the other would make. -/
theorem Checker.depends_on_facts {ds ds' : List Declaration}
    (h : ∀ k, lastOn k ds = lastOn k ds') :
    (∀ config e sink,
      (Checker.new config).answer (.ofDeclarations ds) e sink
          = (Checker.new config).answer (.ofDeclarations ds') e sink
        ∧ checkWith config (.ofDeclarations ds) e sink
          = checkWith config (.ofDeclarations ds') e sink)
      ∧ ∀ names name,
        let Γ := Context.ofDeclarations ds
        let offer := similarNames name names Suggestion.reach
        (DeclaredNames .type ds' names →
          Γ.missingType name = .undefinedType name offer)
        ∧ (DeclaredNames .function ds' names → name ∉ names →
          ∀ argCount, Γ.callee name argCount
            = .error (.undefinedFunction name offer))
        ∧ (DeclaredNames .var ds' names → name ∉ names →
          Γ.reference name = .error (.undefinedReference name offer)) := by
  have hfacts : (Context.ofDeclarations ds).SameFacts (.ofDeclarations ds') := by
    intro k
    rw [Context.fact?_ofDeclarations, Context.fact?_ofDeclarations, h k]
  refine ⟨fun config e sink => ⟨?_, ?_⟩, fun names name => ⟨?_, ?_, ?_⟩⟩
  · exact answer_eq_of_sameFacts hfacts config e sink
  · exact checkWith_eq_of_sameFacts hfacts config e sink
  · exact fun hnames => hnames.lists.missingType_eq hfacts name
  · exact fun hnames => hnames.lists.callee_eq hfacts
  · exact fun hnames => hnames.lists.reference_eq hfacts

/-- A host changes its mind about a type and a variable, another declares
them once and in another order. Both offer `height` once for `heigt`,
which is the offer also of a list that has it twice. -/
theorem Checker.depends_on_facts_heigt :
    let shape : RecordType := ⟨[("side", .long)]⟩
    let abs : Signature := ⟨[.concrete .long], .concrete .long⟩
    let ds : List Declaration :=
      [.var "height" .boolean, .type "Shape" ⟨[]⟩, .function "abs" abs,
        .var "height" .long, .type "Shape" shape]
    let ds' : List Declaration :=
      [.type "Shape" shape, .function "abs" abs, .var "height" .long]
    let e : Expr := .binary () .gt (.ref () "heigt") (.lit () (.long 1))
    let outcome (ds : List Declaration) :=
      ((Checker.new ⟨2⟩).answer (.ofDeclarations ds) e (Sink.fresh none)).1
    outcome ds' = .rejected (.undefinedReference "heigt" ["height"])
      ∧ outcome ds = outcome ds'
      ∧ (Context.ofDeclarations ds).reference "heigt"
        = .error (.undefinedReference "heigt"
          (similarNames "heigt" ["height", "height"] Suggestion.reach)) := by
  intro shape abs ds ds' e outcome
  have h : ∀ k, lastOn k ds = lastOn k ds' := by
    intro k
    by_cases htype : Subject.type "Shape" = k
    · subst htype
      rfl
    by_cases hfunction : Subject.function "abs" = k
    · subst hfunction
      rfl
    by_cases hvar : Subject.var "height" = k
    · subst hvar
      rfl
    simp [lastOn, ds, ds', Declaration.subject, htype, hfunction, hvar]
  have hnames : DeclaredNames .var ds' ["height", "height"] := by
    intro n
    simp [ds', Declaration.subject, eq_comm]
  refine ⟨rfl, ?_, ?_⟩
  · exact congrArg Prod.fst ((Checker.depends_on_facts h).1 ⟨2⟩ e _).1
  · exact ((Checker.depends_on_facts h).2 _ _).2.2 hnames (by decide)

end PredicateScript
