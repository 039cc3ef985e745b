import PredicateScript.Proofs.Blame
import PredicateScript.Proofs.Lexeme

/-!
# Scripts that are exactly as deep as asked for

`nestedSum n` and `nestedLets n body` are made to meet a limit, so it has
to be known where they do. A sum of `n` additions has its innermost
constant `n` levels below the root, and a limit above `n` is met, whatever
the context. The `n` bindings of `nestedLets` put their body `n` levels
deep, and the value of the innermost one as deep as the body; so again a
limit above `n` is what the bindings need, and what comes of the script is
then the affair of the body.

Both are built from the one end and walked from the other. For a sum this
is harmless, since one more addition is a root above the old one. One more
binding goes in around the *body*, though, below all the others, so what
is said of `nestedLets n body` is said for every body at once, and a
binding is added by saying it of the body inside that binding
(`nestedLets_succ`).

All the names that are bound are new where they are bound: to the context
because it is asked to have none of them, and to one another because no
two numbers are written alike (`letName_injective`).
-/

namespace PredicateScript

/-! ## One transcript after what is reported -/

/-- What an outcome is with the accepted script put into another one. -/
def Outcome.map (f : TypedExpr → TypedExpr) : Outcome → Outcome
  | accepted t => accepted (f t)
  | rejected cause => rejected cause
  | broken fault => broken fault

/-- **Report events and go on**, unless the sink breaks down on one of
them. -/
def Sink.reporting (sink : Sink) (es : List Event)
    (next : Sink → Outcome × Sink) : Outcome × Sink :=
  match sink.receiveAll es with
  | (some fault, sink) => (.broken fault, sink)
  | (none, sink) => next sink

namespace Transcript

theorem tell_append (es fs : List Event) :
    tell (es ++ fs) = (do tell es; tell fs) := rfl

/-- What is told first is reported first. -/
theorem deliver_tell_bind (es : List Event)
    (f : Unit → Transcript TypedExpr) (sink : Sink) :
    (tell es >>= f).deliver sink
      = sink.reporting es (fun s => (f ()).deliver s) := by
  show (⟨es ++ (f ()).events, (f ()).verdict⟩ : Transcript _).deliver sink
    = _
  unfold deliver Sink.reporting
  rcases hes : sink.receiveAll es with ⟨_ | fault, s⟩
  · rw [Sink.receiveAll_append_of_none hes]
  · rw [Sink.receiveAll_append_of_some hes]

/-- A step that only rewrites the result rewrites it in the outcome. -/
theorem deliver_bind_pure (x : Transcript TypedExpr)
    (f : TypedExpr → TypedExpr) (sink : Sink) :
    (x >>= fun t => pure (f t)).deliver sink
      = ((x.deliver sink).1.map f, (x.deliver sink).2) := by
  unfold deliver
  cases hx : x.verdict with
  | ok t =>
    rw [bind_of_ok hx, pure_def, List.append_nil]
    rcases sink.receiveAll x.events with ⟨_ | fault, s⟩ <;> rfl
  | error cause =>
    rw [bind_of_error hx]
    rcases sink.receiveAll x.events with ⟨_ | fault, s⟩ <;> rfl

end Transcript

variable {limit : UInt64} {budget n : Nat} {Γ : Context}

/-- A constant needs one level. -/
theorem transcript_long (k : Int64) :
    transcript limit (budget + 1) Γ (Expr.long k)
      = pure (.lit .long (.long k)) := rfl

/-! ## Sums -/

theorem nestedSum_succ (n : Nat) :
    nestedSum (n + 1)
      = .binary () .sum (nestedSum n) (Expr.long (.ofNat n)) :=
  Nat.fold_succ ..

/-- **Where there are levels enough a sum is an integer**: it has as many
additions as asked for, and a constant more than that. -/
theorem exists_transcript_nestedSum (h : n < budget) :
    ∃ t : TypedExpr, t.ty = .long ∧ t.nodeCount = 2 * n + 1
      ∧ transcript limit budget Γ (nestedSum n) = pure t := by
  induction n generalizing budget with
  | zero =>
    obtain ⟨b, rfl⟩ : ∃ b, budget = b + 1 := ⟨budget - 1, by omega⟩
    exact ⟨.lit .long (.long 0), rfl, rfl, rfl⟩
  | succ n ih =>
    -- one level for the addition and one for its right operand
    obtain ⟨b, rfl⟩ : ∃ b, budget = b + 1 + 1 := ⟨budget - 2, by omega⟩
    obtain ⟨t, hty, hcount, ht⟩ := ih (show n < b + 1 by omega)
    refine ⟨.binary .long .sum t (.lit .long (.long (.ofNat n))), rfl,
      ?_, ?_⟩
    · have hnodes : t.nodes.length = 2 * n + 1 := hcount
      show (t.nodes ++ [_]).length + 1 = _
      rw [List.length_append, hnodes]
      show 2 * n + 1 + 1 + 1 = _
      omega
    · have hsum : Operator.typeOf .sum t.ty .long = .ok .long := by
        rw [hty]
        rfl
      rw [nestedSum_succ, transcript, visitNode_binary, ht,
        transcript_long, pure_bind, pure_bind]
      show Transcript.ofRule (Operator.typeOf .sum t.ty .long) >>= _ = _
      rw [hsum]
      rfl

/-- **Where there are not, the limit is what a sum is rejected for**: the
walk goes down the left side until no level is left. -/
theorem transcript_nestedSum_of_le (h : budget ≤ n) :
    transcript limit budget Γ (nestedSum n)
      = .ofRule (.error (.depthLimitExceeded limit)) := by
  induction budget generalizing n with
  | zero => rfl
  | succ budget ih =>
    obtain ⟨m, rfl⟩ : ∃ m, n = m + 1 := ⟨n - 1, by omega⟩
    rw [nestedSum_succ, transcript, visitNode_binary,
      ih (Nat.le_of_succ_le_succ h)]
    rfl

/-! ## Bindings -/

/-- The name of a binding. -/
def letName (i : Nat) : String := "v" ++ toString i

/-- No two bindings have one name. -/
theorem letName_injective : Function.Injective letName := by
  intro i j h
  have hrepr : i.repr = j.repr := (String.append_right_inj "v").mp h
  have hdigits : Nat.toDigits 10 i = Nat.toDigits 10 j := by
    rw [← Nat.toList_repr, hrepr, Nat.toList_repr]
  calc i
      = numberOf 10 (Nat.toDigits 10 i) :=
        (numberOf_toDigits (by decide) (by decide) i).symm
    _ = numberOf 10 (Nat.toDigits 10 j) := by rw [hdigits]
    _ = j := numberOf_toDigits (by decide) (by decide) j

/-- **The scope inside the first bindings**: the context and the integers
`v0` to `v(n - 1)`. -/
def Context.withLets (Γ : Context) : Nat → Context
  | 0 => Γ
  | n + 1 => (Γ.withLets n).bind (letName n) .long

/-- What is reported by the first bindings, from the outermost inwards. -/
def bindingEvents (n : Nat) : List Event :=
  (List.range n).map (fun i => .binding (letName i) .long)

/-- **A checked script inside the first bindings**, each of which has the
type of the script. -/
def TypedExpr.inLets (n : Nat) (t : TypedExpr) : TypedExpr :=
  n.foldRev (fun i _ acc =>
    .letIn t.ty (letName i) (.lit .long (.long 0)) acc) t

theorem bindingEvents_succ (n : Nat) :
    bindingEvents (n + 1)
      = bindingEvents n ++ [.binding (letName n) .long] := by
  unfold bindingEvents
  rw [List.range_succ, List.map_append]
  rfl

/-- One binding more is one around the script. -/
theorem TypedExpr.inLets_succ (n : Nat) (t : TypedExpr) :
    t.inLets (n + 1)
      = TypedExpr.inLets n
        (.letIn t.ty (letName n) (.lit .long (.long 0)) t) :=
  Nat.foldRev_succ ..

/-- One binding more is one around the body. -/
theorem nestedLets_succ (n : Nat) (body : Expr) :
    nestedLets (n + 1) body
      = nestedLets n (.letIn () (letName n) (Expr.long 0) body) :=
  Nat.foldRev_succ ..

theorem Context.function?_withLets (Γ : Context) (n : Nat)
    (name : String) : (Γ.withLets n).function? name = Γ.function? name := by
  induction n with
  | zero => rfl
  | succ n ih => exact ih

/-- A name that no binding has stands for what it stood for. -/
theorem Context.var?_withLets (Γ : Context) {name : String}
    (h : ∀ i < n, name ≠ letName i) :
    (Γ.withLets n).var? name = Γ.var? name := by
  induction n with
  | zero => rfl
  | succ n ih =>
    show ((Γ.withLets n).bind (letName n) .long).var? name = _
    rw [var?_bind_of_ne _ _ (h n (Nat.lt_succ_self n))]
    exact ih (fun i hi => h i (Nat.lt_succ_of_lt hi))

/-- **The names of the first bindings are free in a context**: it has
neither a variable nor a function of any of them. -/
def Context.LetsFree (Γ : Context) (n : Nat) : Prop :=
  ∀ i < n, Γ.var? (letName i) = none ∧ Γ.function? (letName i) = none

/-- Inside the bindings before it, the name of a binding is new. -/
theorem Context.LetsFree.fresh (h : Γ.LetsFree (n + 1)) :
    (Γ.withLets n).fresh (letName n) = .ok () := by
  obtain ⟨hvar, hfun⟩ := h n (Nat.lt_succ_self n)
  have hother : ∀ i < n, letName n ≠ letName i := fun i hi heq =>
    Nat.ne_of_gt hi (letName_injective heq)
  rw [fresh_eq_ok_iff, Γ.var?_withLets hother, Γ.function?_withLets]
  exact ⟨hvar, hfun⟩

theorem Context.LetsFree.pred (h : Γ.LetsFree (n + 1)) : Γ.LetsFree n :=
  fun i hi => h i (Nat.lt_succ_of_lt hi)

section OneBinding

variable {name : String} {body : Expr}

/-- **A binding of a constant takes two levels**, one for itself and one
for its value, and its body may have what is left below the first. -/
theorem transcript_letIn_long (h : Γ.fresh name = .ok ()) (k : Int64) :
    transcript limit (budget + 1 + 1) Γ
        (.letIn () name (Expr.long k) body)
      = (do
        .tell [.binding name .long]
        let t ← transcript limit (budget + 1) (Γ.bind name .long) body
        return .letIn t.ty name (.lit .long (.long k)) t) := by
  rw [transcript, visitNode_letIn, h, transcript_long]
  rfl

/-- With one level the value is too deep, and nothing is reported. -/
theorem transcript_letIn_one (h : Γ.fresh name = .ok ()) (value : Expr) :
    transcript limit 1 Γ (.letIn () name value body)
      = .ofRule (.error (.depthLimitExceeded limit)) := by
  rw [transcript, visitNode_letIn, h]
  rfl

end OneBinding

/-- **Where there are levels enough the bindings are passed**: each is
reported, and then the body is checked in their scope, with a level less
for each of them. -/
theorem transcript_nestedLets (hfree : Γ.LetsFree n) (h : n < budget)
    (body : Expr) :
    transcript limit budget Γ (nestedLets n body) = (do
      .tell (bindingEvents n)
      let t ← transcript limit (budget - n) (Γ.withLets n) body
      return t.inLets n) := by
  -- on the bindings, for every body: the last one is part of the body of
  -- the others
  induction n generalizing body with
  | zero => exact (bind_pure _).symm
  | succ n ih =>
    obtain ⟨b, hb⟩ : ∃ b, budget - n = b + 1 + 1 :=
      ⟨budget - n - 2, by omega⟩
    have hrest : budget - (n + 1) = b + 1 := by omega
    rw [nestedLets_succ, ih hfree.pred (Nat.lt_of_succ_lt h), hb, hrest,
      transcript_letIn_long hfree.fresh, bindingEvents_succ,
      Transcript.tell_append]
    simp only [bind_assoc, pure_bind, TypedExpr.inLets_succ]
    rfl

/-- **Where there are not, the limit is what the bindings are rejected
for**: the walk comes to the binding on the last level, whose value is too
deep, and has reported the ones before it. -/
theorem transcript_nestedLets_of_le (hfree : Γ.LetsFree n)
    (h : budget ≤ n) (body : Expr) :
    transcript limit budget Γ (nestedLets n body) = (do
      .tell (bindingEvents (budget - 1))
      .ofRule (.error (.depthLimitExceeded limit))) := by
  induction n generalizing body with
  | zero =>
    obtain rfl := Nat.eq_zero_of_le_zero h
    rfl
  | succ n ih =>
    rw [nestedLets_succ]
    rcases Nat.lt_or_eq_of_le h with hlt | rfl
    · exact ih hfree.pred (Nat.le_of_lt_succ hlt) _
    · -- the value of the last binding is on the level of the limit
      rw [transcript_nestedLets hfree.pred (show n < n + 1 by omega),
        Nat.add_sub_cancel_left, transcript_letIn_one hfree.fresh]
      rfl

/-- **The stress scripts meet the limit exactly.** In every context, the
sum of `n` additions is an integer of `2 * n + 1` nodes under a limit
above `n`, and rejected for the limit under every other. The `n` bindings,
in a context that has none of their names, are rejected for the limit
unless it is above `n`; and then what comes of them is what comes of their
body in their scope, from a checker that stands `n` levels deep: the same
rejection, or the checked body inside the bindings, each of the type of
the body. With any sink, one that breaks down on the report of a binding
included; a sink that does not has no say in the outcome. -/
theorem Checker.nesting_exact (limit : UInt64) (Γ : Context) (n : Nat)
    (sink : Sink) :
    let answer (e : Expr) := (Checker.new ⟨limit⟩).answer Γ e sink
    (n < limit.toNat → ∃ t : TypedExpr, t.ty = .long
        ∧ t.nodeCount = 2 * n + 1
        ∧ answer (nestedSum n) = (.accepted t, sink))
    ∧ (limit.toNat ≤ n →
      answer (nestedSum n) = (.rejected (.depthLimitExceeded limit), sink))
    ∧ (Γ.LetsFree n → ∀ body : Expr,
      (limit.toNat ≤ n →
        answer (nestedLets n body)
          = sink.reporting (bindingEvents (limit.toNat - 1))
            (fun s => (.rejected (.depthLimitExceeded limit), s)))
      ∧ (n < limit.toNat →
        answer (nestedLets n body)
          = sink.reporting (bindingEvents n) (fun s =>
            let inner := (Checker.atDepth limit n).answer (Γ.withLets n)
              body s
            (inner.1.map (TypedExpr.inLets n), inner.2)))) := by
  have hanswer : ∀ e, (Checker.new ⟨limit⟩).answer Γ e sink
      = (transcript limit limit.toNat Γ e).deliver sink := fun e => by
    rw [answer_eq, budget_new]
    rfl
  refine ⟨fun h => ?_, fun h => ?_, fun hfree body =>
    ⟨fun h => ?_, fun h => ?_⟩⟩
  · obtain ⟨t, hty, hcount, ht⟩ := exists_transcript_nestedSum h
    refine ⟨t, hty, hcount, ?_⟩
    show (Checker.new ⟨limit⟩).answer Γ (nestedSum n) sink = _
    rw [hanswer, ht]
    rfl
  · show (Checker.new ⟨limit⟩).answer Γ (nestedSum n) sink = _
    rw [hanswer, transcript_nestedSum_of_le h]
    rfl
  · show (Checker.new ⟨limit⟩).answer Γ (nestedLets n body) sink = _
    rw [hanswer, transcript_nestedLets_of_le hfree h,
      Transcript.deliver_tell_bind]
    rfl
  · show (Checker.new ⟨limit⟩).answer Γ (nestedLets n body) sink = _
    rw [hanswer, transcript_nestedLets hfree h, Transcript.deliver_tell_bind]
    simp only [Transcript.deliver_bind_pure, answer_eq,
      budget_atDepth (Nat.le_of_lt h)]
    rfl

/-- Sixteen additions need seventeen levels, and the two bindings of
`{ let v0 = 0; { let v1 = 0; v1 } }` need three. -/
theorem Checker.nesting_exact_three :
    let answer (limit : UInt64) (e : Expr) :=
      (Checker.new ⟨limit⟩).answer sampleContext e (Sink.fresh none)
    (∃ t : TypedExpr, t.ty = .long ∧ t.nodeCount = 33
        ∧ answer 17 (nestedSum 16) = (.accepted t, Sink.fresh none))
      ∧ answer 16 (nestedSum 16)
        = (.rejected (.depthLimitExceeded 16), Sink.fresh none)
      ∧ sampleContext.LetsFree 2
      ∧ (answer 2 (nestedLets 2 (.ref () "v1"))).1
        = .rejected (.depthLimitExceeded 2)
      ∧ (answer 3 (nestedLets 2 (.ref () "v1"))).1
        = .accepted (.letIn .long "v0" (.lit .long (.long 0))
          (.letIn .long "v1" (.lit .long (.long 0))
            (.ref .long "v1"))) := by
  intro answer
  have hfree : sampleContext.LetsFree 2 := by
    unfold Context.LetsFree
    decide
  have hsum (limit : UInt64) :=
    Checker.nesting_exact limit sampleContext 16 (Sink.fresh none)
  have hlets (limit : UInt64) :=
    (Checker.nesting_exact limit sampleContext 2 (Sink.fresh none)).2.2
      hfree (.ref () "v1")
  exact ⟨(hsum 17).1 (by decide), (hsum 16).2.1 (by decide), hfree,
    congrArg Prod.fst ((hlets 2).1 (by decide)),
    congrArg Prod.fst ((hlets 3).2 (by decide))⟩

end PredicateScript
