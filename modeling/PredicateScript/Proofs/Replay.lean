import PredicateScript.Proofs.Annotation
import PredicateScript.Proofs.Exactness
import PredicateScript.Proofs.Framing
import PredicateScript.Proofs.Lexeme
import PredicateScript.Proofs.Shadowing

/-!
# The log of an accepted script is a replay of its tree

A check reports as it goes, in the middle of a walk that may still fail. If
it does not fail, nothing of that is left in what it reports: the lines of
the log can be written from the tree that comes out, with the signatures of
the context at hand and nothing else (`TypedExpr.replay`). A binding is
reported between its value and its body, a condition that is not boolean
after the branches, and a call after its arguments.

Of the three, the call is the one that reports something the tree does not
carry, how the placeholders of the signature were filled in. It can be read
off all the same: a placeholder stands for the type of the first argument
that is declared with it (`firstTypes`). That the substitution which the
call has found is this table follows from unification being exact, since
both solve the pairs of the call (`firstTypes_eq`).
-/

namespace PredicateScript

/-! ## What a tree has to report -/

/-- The placeholder that a parameter is declared as, if it is one. -/
def SigTy.placeholder? : SigTy → Option Placeholder
  | concrete _ => none
  | param p => some p

/-- The placeholders that parameters are declared as, in order and with
repetitions. -/
def Signature.placeholders (sig : Signature) : List Placeholder :=
  sig.params.filterMap SigTy.placeholder?

/-- **What was brought first** for each placeholder. -/
def firstTypes : List (Ty × SigTy) → Substitution
  | [] => ∅
  | (_, .concrete _) :: rest => firstTypes rest
  -- an entry from further right gives way
  | (ty, .param p) :: rest => (firstTypes rest).insert p ty

/-- **What placeholders stand for**, a text each and in their order:
`'T=LONG`. -/
def Substitution.listing (σ : Substitution) : List String :=
  σ.entries.map (fun (p, ty) =>
    "'" ++ String.singleton p.letter ++ "=" ++ ty.render)

/-- **What a call has to report**: nothing if no parameter is declared as a
placeholder, and else what the placeholders stand for and what comes
out. -/
def callLines (functions : Table String Signature) (name : String)
    (tys : List Ty) (ty : Ty) : List LogLine :=
  match functions.find? name with
  | some sig =>
    if sig.placeholders.isEmpty then []
    else
      [.event "generic instantiation"
        [("func", name),
          ("type_args",
            Text.quotedList (firstTypes (tys.zip sig.params)).listing),
          ("result", ty.render)]]
  | none => []

namespace TypedExpr

mutual

/-- **The log of a checked script**, as it can be read off it with the
signatures of the functions. -/
def replay (functions : Table String Signature) : TypedExpr → List LogLine
  | .lit .. | .ref .. => []
  | .access _ target _ => replay functions target
  | .call ty name args =>
    replayEach functions args
      ++ callLines functions name (args.map TypedExpr.ty) ty
  | .binary _ _ left right =>
    replay functions left ++ replay functions right
  | .block _ body => replay functions body
  | .letIn _ name value body =>
    replay functions value
      ++ [.event "let binding"
        [("binding", name), ("ty", value.note.render)]]
      ++ replay functions body
  | .ifElse _ cond ifTrue ifFalse =>
    replay functions cond ++ replay functions ifTrue
      ++ replay functions ifFalse
      ++ if cond.note = .boolean then []
        else
          [.event "non-boolean if condition" [("ty", cond.note.render)]]

/-- The logs of the scripts of a list, one after the other. -/
def replayEach (functions : Table String Signature) :
    List TypedExpr → List LogLine
  | [] => []
  | t :: ts => replay functions t ++ replayEach functions ts

end

end TypedExpr

/-! ## What a call reports -/

section Call

variable {sig : Signature} {name : String} {tys : List Ty} {ty : Ty}
  {σ : Substitution} {p : Placeholder}

theorem Signature.mem_placeholders_iff :
    p ∈ sig.placeholders ↔ .param p ∈ sig.params := by
  rw [placeholders, List.mem_filterMap]
  constructor
  · rintro ⟨declared, hmem, hp⟩
    cases declared with
    | concrete ty => cases hp
    | param q =>
      cases hp
      exact hmem
  · intro hmem
    exact ⟨.param p, hmem, rfl⟩

/-- A placeholder stands for what was brought for it first. -/
theorem find?_firstTypes (pairs : List (Ty × SigTy)) (p : Placeholder) :
    (firstTypes pairs).find? p
      = (pairs.find? (fun x => x.2 = .param p)).map Prod.fst := by
  induction pairs with
  | nil => rfl
  | cons pair rest ih =>
    obtain ⟨ty, declared⟩ := pair
    cases declared with
    | concrete expected =>
      rw [firstTypes, ih, List.find?_cons_of_neg (by simp)]
    | param q =>
      rw [firstTypes]
      by_cases hpq : p = q
      · rw [hpq, Table.find?_insert_self, List.find?_cons_of_pos (by simp)]
        rfl
      · rw [Table.find?_insert_of_ne _ _ hpq, ih,
          List.find?_cons_of_neg (by simpa using Ne.symm hpq)]

/-- **A solution is what was brought first**, since nothing else was
brought after it. -/
theorem firstTypes_eq {pairs : List (Ty × SigTy)} (h : σ.Solves pairs) :
    firstTypes pairs = σ := by
  refine Table.ext_find? (fun p => ?_)
  rw [find?_firstTypes]
  cases hfind : pairs.find? (fun x => x.2 = .param p) with
  | some pair =>
    obtain ⟨ty, declared⟩ := pair
    have hdeclared : declared = .param p := by
      simpa using List.find?_some hfind
    subst hdeclared
    have hmem := List.mem_of_find?_eq_some hfind
    exact (h.find?_eq_some_iff.mpr hmem).symm
  | none =>
    cases hp : σ.find? p with
    | none => rfl
    | some ty =>
      have hnot := List.find?_eq_none.mp hfind _ (h.brought p ty hp)
      simp at hnot

/-- A call finds the solution of its pairs. -/
theorem Signature.solves_of_instantiate
    (h : sig.instantiate name tys = .ok (σ, ty)) :
    σ.Solves (tys.zip sig.params) :=
  unify_eq_ok_iff.mp (instantiate_eq_ok_iff.mp h).1

/-- A call that was given as many arguments as are declared has every
parameter among its pairs. -/
theorem Signature.map_snd_zip_params (hlen : sig.arity = tys.length) :
    (tys.zip sig.params).map Prod.snd = sig.params :=
  List.map_snd_zip (Nat.le_of_eq hlen)

/-- Nothing is filled in where no parameter is declared as a
placeholder. -/
theorem Signature.isEmpty_placeholders_eq (hlen : sig.arity = tys.length)
    (h : sig.instantiate name tys = .ok (σ, ty)) :
    sig.placeholders.isEmpty = σ.isEmpty := by
  have hσ := solves_of_instantiate h
  rw [Bool.eq_iff_iff, List.isEmpty_iff, List.eq_nil_iff_forall_not_mem,
    Table.isEmpty_iff]
  refine forall_congr' (fun p => ?_)
  rw [mem_placeholders_iff, ← map_snd_zip_params hlen,
    ← hσ.isSome_find?_iff, Bool.not_eq_true, Option.isSome_eq_false_iff,
    Option.isNone_iff_eq_none]

/-- **What a call reports can be read off it.** -/
theorem Signature.lines_fillEvents {functions : Table String Signature}
    (hsig : functions.find? name = some sig)
    (hlen : sig.arity = tys.length)
    (h : sig.instantiate name tys = .ok (σ, ty)) :
    (sig.fillEvents name tys).map Event.line
      = callLines functions name tys ty := by
  have hempty := isEmpty_placeholders_eq hlen h
  rw [fillEvents, callLines, h, hsig]
  simp only [hempty, firstTypes_eq (solves_of_instantiate h)]
  split <;> rfl

/-- A call that passes its test and its rule has an instance of the
signature it calls. -/
theorem Context.exists_instantiate_of_call {Γ : Context} {args : List Expr}
    (hentry : Γ.entryTest (.call () name args) = .ok ())
    (hty : Γ.nodeType (.call () name args) tys = .ok ty) :
    ∃ sig σ, Γ.callee name args.length = .ok sig
      ∧ sig.instantiate name tys = .ok (σ, ty) := by
  obtain ⟨sig, hcallee⟩ := exists_callee_of_entryTest hentry
  rw [nodeType_call hcallee, resultType_eq_ok_iff] at hty
  obtain ⟨⟨σ, hσ⟩, -⟩ := hty
  exact ⟨sig, σ, hcallee, hσ⟩

end Call

/-! ## What a node reports -/

/-- The logs of the parts of a node from left to right, each after what
is reported on the way into it; `done` are the parts before them. -/
def partsLines (functions : Table String Signature) (e : Expr)
    (done : List TypedExpr) : List TypedExpr → List LogLine
  | [] => []
  | t :: ts =>
    (Context.scopeEvents e (done.map TypedExpr.ty)).map Event.line
      ++ t.replay functions ++ partsLines functions e (done ++ [t]) ts

/-- Nothing is reported on the way into an argument. -/
theorem partsLines_call (functions : Table String Signature) (name : String)
    (args : List Expr) (done ts : List TypedExpr) :
    partsLines functions (.call () name args) done ts
      = TypedExpr.replayEach functions ts := by
  induction ts generalizing done with
  | nil => rfl
  | cons t ts ih => rw [partsLines, ih, TypedExpr.replayEach]; rfl

/-- **A node replays its parts, and then what its rule reports.** -/
theorem replay_rebuild {Γ : Context} {ty : Ty} :
    ∀ {e : Expr} {ts : List TypedExpr}, ts.length = e.parts.length →
      Γ.entryTest e = .ok () → Γ.nodeType e (ts.map TypedExpr.ty) = .ok ty →
      TypedExpr.replay Γ.functions (e.rebuild ty ts)
        = partsLines Γ.functions e [] ts
          ++ (Γ.nodeEvents e (ts.map TypedExpr.ty)).map Event.line
  | .call _ name args, ts, hlen, hentry, hty => by
    obtain ⟨sig, σ, hcallee, hσ⟩ :=
      Context.exists_instantiate_of_call hentry hty
    obtain ⟨hsig, harity⟩ := Context.callee_eq_ok_iff.mp hcallee
    have htys : sig.arity = (ts.map TypedExpr.ty).length := by
      rw [harity, List.length_map]
      exact hlen.symm
    rw [partsLines_call, Context.nodeEvents_call hcallee,
      Signature.lines_fillEvents hsig htys hσ]
    rfl
  | .lit .., [], _, _, _ | .ref .., [], _, _, _ => rfl
  | .access .., [_], _, _, _ | .binary .., [_, _], _, _, _
  | .block .., [_], _, _, _ | .letIn .., [_, _], _, _, _ => by
    simp [Term.rebuild, TypedExpr.replay, partsLines, Context.scopeEvents,
      Context.nodeEvents, Event.line, Event.title, Event.fields]
  | .ifElse .., [cond, _, _], _, _, _ => by
    by_cases hcond : cond.ty = .boolean
    · simp [Term.rebuild, TypedExpr.replay, partsLines, Context.scopeEvents,
        Context.nodeEvents, hcond]
    · simp [Term.rebuild, TypedExpr.replay, partsLines, Context.scopeEvents,
        Context.nodeEvents, hcond, Event.line, Event.title, Event.fields]

/-! ## What a check reports -/

section Visits

variable {visit : Context → Expr → Transcript TypedExpr} {Γ : Context}
  {e : Expr}

/-- **Parts that are accepted report what can be read off them**, if each
of them does. -/
theorem lines_visitParts {done ts : List TypedExpr} {es : List Expr}
    (hvisit : ∀ tys part t, (visit (Γ.scopeOf e tys) part).verdict = .ok t →
      (visit (Γ.scopeOf e tys) part).events.map Event.line
        = t.replay Γ.functions)
    (h : (visitParts visit Γ e done es).verdict = .ok ts) :
    ∃ us, ts = done ++ us
      ∧ (visitParts visit Γ e done es).events.map Event.line
        = partsLines Γ.functions e done us := by
  induction es generalizing done with
  | nil =>
    cases h
    exact ⟨[], (List.append_nil _).symm, rfl⟩
  | cons part rest ih =>
    rw [visitParts] at h ⊢
    obtain ⟨_, -, h, hevents⟩ := Transcript.exists_of_bind_ok h
    obtain ⟨t, ht, h, hevents'⟩ := Transcript.exists_of_bind_ok h
    obtain ⟨us, rfl, hus⟩ := ih h
    refine ⟨t :: us, List.append_assoc .., ?_⟩
    rw [hevents, hevents', List.map_append, List.map_append,
      hvisit _ part t ht, hus, partsLines, List.append_assoc]
    rfl

/-- **A check that accepts reports what can be read off its tree.** -/
theorem lines_eq_replay {limit : UInt64} {budget : Nat} {t : TypedExpr}
    (h : verdict limit budget Γ e = .ok t) :
    (transcript limit budget Γ e).events.map Event.line
      = t.replay Γ.functions := by
  induction budget generalizing Γ e t with
  | zero => cases h
  | succ budget ih =>
    rw [verdict, transcript, visitNode] at h
    rw [transcript, visitNode]
    obtain ⟨_, hentry, h, hevents₁⟩ := Transcript.exists_of_bind_ok h
    obtain ⟨ts, hts, h, hevents₂⟩ := Transcript.exists_of_bind_ok h
    obtain ⟨_, -, h, hevents₃⟩ := Transcript.exists_of_bind_ok h
    obtain ⟨ty, hty, h, hevents₄⟩ := Transcript.exists_of_bind_ok h
    cases h
    obtain ⟨_, rfl, hlen, -⟩ := visitParts_ok_iff.mp hts
    obtain ⟨_, rfl, hparts⟩ := lines_visitParts
      (fun tys part t ht => by rw [← Γ.functions_scopeOf e tys]; exact ih ht)
      hts
    rw [replay_rebuild hlen hentry hty, ← hparts, ← List.map_append,
      hevents₁, hevents₂, hevents₃, hevents₄]
    -- the tests report nothing, nor does putting the node together
    refine congrArg (List.map Event.line) ?_
    show [] ++ (_ ++ (_ ++ ([] ++ []))) = _
    rw [List.nil_append, List.append_nil, List.append_nil]
    rfl

end Visits

/-- **The log of an accepted check** is the replay of the tree, after what
was there before. -/
theorem Checker.lines_of_accepted {c : Checker} {Γ : Context} {e : Expr}
    {sink : Sink} {t : TypedExpr} (h : (c.run Γ e sink).1 = .accepted t) :
    (c.run Γ e sink).2.2.lines = sink.lines ++ t.replay Γ.functions := by
  have htaken : (sink.receiveAll
      (transcript c.config.maxDepth c.budget Γ e).events).1 = none := by
    rw [fst_run] at h
    split at h
    · cases h
    · assumption
    · cases h
  have hsink := congrArg Prod.snd (c.answer_eq Γ e sink)
  rw [Transcript.deliver_of_none htaken] at hsink
  show (c.answer Γ e sink).2.lines = _
  rw [hsink, Sink.lines_eq_of_log_eq (Sink.log_receiveAll_of_none htaken),
    lines_eq_replay (verdict_of_accepted h)]

/-! ## The calls of an accepted script -/

/-- **A call that was accepted** is an instance of the signature of its
function. -/
theorem exists_instantiate_of_verdict_ok {limit : UInt64} {budget : Nat}
    {Γ : Context} {e : Expr} {ty : Ty} {name : String}
    {args : List TypedExpr}
    (h : verdict limit budget Γ e = .ok (.call ty name args)) :
    ∃ sig σ, Γ.function? name = some sig ∧ sig.arity = args.length
      ∧ sig.instantiate name (args.map TypedExpr.ty) = .ok (σ, ty) := by
  have herase := erase_of_verdict_ok h
  rw [Term.erase, Term.map] at herase
  subst herase
  cases budget with
  | zero => cases h
  | succ budget =>
    obtain ⟨hentry, ts, ty', hlen, -, hty, hts⟩ := verdict_succ_ok_iff.mp h
    cases hts
    obtain ⟨sig, σ, hcallee, hσ⟩ :=
      Context.exists_instantiate_of_call hentry hty
    obtain ⟨hsig, harity⟩ := Context.callee_eq_ok_iff.mp hcallee
    exact ⟨sig, σ, hsig, harity.trans hlen.symm, hσ⟩

/-- The keys of a substitution come in the order of their characters. -/
theorem Substitution.keys_pairwise (σ : Substitution) :
    σ.keys.Pairwise (fun p q => p.letter < q.letter) := by
  rw [Table.keys, List.pairwise_map]
  refine σ.ordered.imp (fun {a b} h => ?_)
  rw [Placeholder.compare_def] at h
  exact compareOfLessAndEq_eq_lt.mp h

/-- **The log of an accepted script is a replay of its tree.** What a check
adds to the log is what can be written from the tree that it accepts the
script as. For a call with placeholders that is a table which lists every
placeholder that a parameter is declared as, and no other, once and in the
order of the characters, with the type that the first argument declared
with it is annotated with, and all the others too. The table is logged as
one text, and can be read off it entry by entry. -/
theorem Checker.accepted_log_replayed {c : Checker} {Γ : Context} {e : Expr}
    {sink : Sink} {t : TypedExpr} (h : (c.run Γ e sink).1 = .accepted t) :
    (c.run Γ e sink).2.2.lines = sink.lines ++ t.replay Γ.functions
      ∧ ∀ p ty name args, t.node? p = some (.call ty name args) →
        ∃ sig, Γ.function? name = some sig ∧ sig.arity = args.length
          ∧ let filled := firstTypes
              ((args.map TypedExpr.ty).zip sig.params)
            filled.keys.Pairwise (fun p q => p.letter < q.letter)
            ∧ (∀ q, q ∈ filled.keys ↔ SigTy.param q ∈ sig.params)
            ∧ (∀ (i : Nat) (q : Placeholder) (arg : TypedExpr),
              sig.params[i]? = some (.param q) → args[i]? = some arg →
              filled.find? q = some arg.ty)
            ∧ Reader.texts (Text.quotedList filled.listing).toList
              = some (filled.listing, []) := by
  refine ⟨lines_of_accepted h, fun p ty name args hcall => ?_⟩
  obtain ⟨sub, -, hsub⟩ := verdict_node? (verdict_of_accepted h) hcall
  obtain ⟨sig, σ, hsig, harity, hσ⟩ := exists_instantiate_of_verdict_ok hsub
  -- the scope of the call has the functions of the context
  rw [TypedExpr.scopeAt_eq] at hsig
  have hsolves := Signature.solves_of_instantiate hσ
  have hlen : sig.arity = (args.map TypedExpr.ty).length := by
    rw [harity, List.length_map]
  refine ⟨sig, hsig, harity, Substitution.keys_pairwise _, fun q => ?_,
    fun i q arg hq harg => ?_, ?_⟩
  · rw [firstTypes_eq hsolves, Table.mem_keys_iff, hsolves.isSome_find?_iff,
      Signature.map_snd_zip_params hlen]
  · rw [firstTypes_eq hsolves, hsolves.find?_eq_some_iff]
    refine List.mem_of_getElem? (i := i) (List.getElem?_zip_eq_some.mpr ?_)
    rw [List.getElem?_map, harg]
    exact ⟨rfl, hq⟩
  · have hread := Reader.texts_append
      (firstTypes ((args.map TypedExpr.ty).zip sig.params)).listing []
    rwa [List.append_nil] at hread

/-- The script `{ let x = mix(true, 7, false); if x then x else x }`, where
`mix` is declared `('Z, 'A, 'Z) -> 'A`: the call is reported with its
placeholders in order, then the binding, and last the condition, which is
no truth value. -/
theorem Checker.accepted_log_replayed_mix :
    let Γ := Context.empty.withFunction "mix"
      ⟨[.param ⟨'Z'⟩, .param ⟨'A'⟩, .param ⟨'Z'⟩], .param ⟨'A'⟩⟩
    let x : TypedExpr := .ref .long "x"
    let t : TypedExpr := .letIn .long "x"
      (.call .long "mix" [.lit .boolean (.bool true), .lit .long (.long 7),
        .lit .boolean (.bool false)])
      (.ifElse .long x x x)
    let result := (Checker.new {}).run Γ t.erase (Sink.fresh none)
    result.1 = .accepted t
      ∧ result.2.2.lines
        = [.event "generic instantiation"
            [("func", "mix"),
              ("type_args", "[\"'A=LONG\", \"'Z=BOOLEAN\"]"),
              ("result", "LONG")],
          .event "let binding" [("binding", "x"), ("ty", "LONG")],
          .event "non-boolean if condition" [("ty", "LONG")]] := by
  intro Γ x t result
  have h : result.1 = .accepted t := rfl
  refine ⟨h, (Checker.accepted_log_replayed h).1.trans ?_⟩
  decide

end PredicateScript
