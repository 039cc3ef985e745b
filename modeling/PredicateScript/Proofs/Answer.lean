import PredicateScript.Proofs.Visit
import PredicateScript.Typing.Supervision

/-!
# What a caller sees of a check

A check is seen through two things, its outcome and the sink it leaves
behind; together they are its **answer**. A transcript has an answer too,
once a sink is there to receive its events (`Transcript.deliver`), and a
walk that does what the transcript says comes to that answer
(`Walk.Tells.answer_eq`). Theorems about answers are therefore theorems
about transcripts, and no sink is excluded from them, not even one that
breaks down.

The log of a sink only ever grows, so a transcript with fewer events leaves
less of a log behind: `Sink.log_prefix_receiveAll`. Where a transcript is
another one cut short by a rejection (`Transcript.CutBy`), the two have the
same answer, or the one has the rejection and less of a log.
-/

namespace PredicateScript

/-! ## The log grows -/

namespace Sink

/-- What was in the log stays there. -/
theorem log_prefix_receiveAll (s : Sink) (es : List Event) :
    s.log.toList <+: (s.receiveAll es).2.log.toList := by
  induction es generalizing s with
  | nil => exact List.prefix_rfl
  | cons e es ih =>
    have hlog : (s.receive e).2.log.toList = s.log.toList ++ [.event e] := by
      rw [log_receive, Array.toList_push]
    have hgrown : s.log.toList <+: (s.receive e).2.log.toList := by
      rw [hlog]
      exact List.prefix_append _ _
    rw [receiveAll]
    split
    · next s' hs' =>
      rw [hs'] at hgrown
      exact hgrown.trans (ih s')
    · next fault s' hs' =>
      rw [hs'] at hgrown
      exact hgrown

end Sink

/-! ## Answers -/

/-- **What comes of a transcript** with a sink: its verdict, unless the
sink breaks down on one of the events. -/
def Transcript.deliver (x : Transcript TypedExpr) (sink : Sink) :
    Outcome × Sink :=
  match sink.receiveAll x.events, x.verdict with
  | (some fault, sink), _ => (.broken fault, sink)
  | (none, sink), .ok t => (.accepted t, sink)
  | (none, sink), .error cause => (.rejected cause, sink)

namespace Walk

/-- **What a walk comes to** from where `p` stands. -/
def answer (w : Walk TypedExpr) (p : Progress) : Outcome × Sink :=
  match w p with
  | .ok t q => (.accepted t, q.sink)
  | .error (.rejection cause) q => (.rejected cause, q.sink)
  | .error (.fault fault) q => (.broken fault, q.sink)

/-- A walk comes to what it tells. -/
theorem Tells.answer_eq {w : Walk TypedExpr} {p : Progress}
    {x : Transcript TypedExpr} (h : Tells w p x) :
    answer w p = x.deliver p.sink := by
  unfold Tells at h
  unfold answer Transcript.deliver
  rcases hes : p.sink.receiveAll x.events with ⟨_ | fault, sink⟩
  · rw [hes] at h
    cases hx : x.verdict with
    | ok t =>
      rw [hx] at h
      rw [h]
    | error cause =>
      rw [hx] at h
      rw [h]
  · rw [hes] at h
    obtain ⟨depth, h⟩ := h
    rw [h]

end Walk

namespace Checker

/-- How many levels a checker has left below its limit. -/
def budget (c : Checker) : Nat := c.config.maxDepth.toNat - c.depth.toNat

/-- A checker that has not been used has all the levels left. -/
@[simp] theorem budget_new (limit : UInt64) :
    (Checker.new ⟨limit⟩).budget = limit.toNat := rfl

/-- **The answer of a checker.** -/
def answer (c : Checker) (Γ : Context) (e : Expr) (sink : Sink) :
    Outcome × Sink :=
  ((c.run Γ e sink).1, (c.run Γ e sink).2.2)

/-- A checker answers what its walk comes to. -/
theorem answer_eq_walk (c : Checker) (Γ : Context) (e : Expr)
    (sink : Sink) :
    c.answer Γ e sink
      = Walk.answer (Walk.check c.config.maxDepth Γ e) ⟨c.depth, sink⟩ := by
  unfold answer run Walk.answer
  rcases Walk.check c.config.maxDepth Γ e ⟨c.depth, sink⟩ with
    ⟨t, q⟩ | ⟨⟨cause⟩ | ⟨fault⟩, q⟩
  all_goals rfl

/-- The walk of a checker does what the transcript says that has the
levels it has left. -/
theorem tells_check (c : Checker) (Γ : Context) (e : Expr) (sink : Sink) :
    Walk.Tells (Walk.check c.config.maxDepth Γ e) ⟨c.depth, sink⟩
      (transcript c.config.maxDepth c.budget Γ e) :=
  Walk.tells_check Γ e ⟨c.depth, sink⟩

/-- **A checker answers what its transcript comes to.** -/
theorem answer_eq (c : Checker) (Γ : Context) (e : Expr) (sink : Sink) :
    c.answer Γ e sink
      = (transcript c.config.maxDepth c.budget Γ e).deliver sink := by
  rw [answer_eq_walk]
  exact (c.tells_check Γ e sink).answer_eq

/-- **The outcome of a check is read off its transcript**: the verdict,
unless the sink breaks down on one of the events. -/
theorem fst_run (c : Checker) (Γ : Context) (e : Expr) (sink : Sink) :
    let x := transcript c.config.maxDepth c.budget Γ e
    (c.run Γ e sink).1
      = match (sink.receiveAll x.events).1, x.verdict with
        | some fault, _ => .broken fault
        | none, .ok t => .accepted t
        | none, .error cause => .rejected cause := by
  intro x
  have h : (c.run Γ e sink).1 = (x.deliver sink).1 :=
    congrArg Prod.fst (c.answer_eq Γ e sink)
  rw [h, Transcript.deliver]
  rcases sink.receiveAll x.events with ⟨_ | fault, sink'⟩
  · cases x.verdict <;> rfl
  · rfl

end Checker

/-! ## Transcripts that are cut short -/

namespace Transcript

variable {α β : Type} {P : Rejection → Prop}

/-- **`x` is `y`, cut short** if need be: the same, or ended by a rejection
of the given kind with some of the first events of `y` reported. -/
def CutBy (P : Rejection → Prop) (x y : Transcript α) : Prop :=
  x = y ∨ (∃ cause, x.verdict = .error cause ∧ P cause)
    ∧ x.events <+: y.events

/-- What comes after is reported after. -/
theorem events_prefix_bind (x : Transcript α) (f : α → Transcript β) :
    x.events <+: (x >>= f).events := by
  cases h : x.verdict with
  | ok a =>
    rw [bind_of_ok h]
    exact List.prefix_append _ _
  | error cause =>
    have hevents : (x >>= f).events = x.events := by rw [bind_of_error h]
    exact hevents ▸ List.prefix_rfl

/-- **Parts cut short make a whole cut short.** A first part that is cut is
the end; a first part that is not leaves it to the second. -/
theorem CutBy.bind {x y : Transcript α} {f g : α → Transcript β}
    (hx : x.CutBy P y) (hf : ∀ a, (f a).CutBy P (g a)) :
    (x >>= f).CutBy P (y >>= g) := by
  obtain rfl | ⟨⟨cause, hx, hcause⟩, hevents⟩ := hx
  · cases h : x.verdict with
    | ok a =>
      rw [bind_of_ok h, bind_of_ok h]
      obtain heq | ⟨hverdict, hevents⟩ := hf a
      · rw [heq]
        exact Or.inl rfl
      · exact Or.inr
          ⟨hverdict, (List.prefix_append_right_inj x.events).mpr hevents⟩
    | error cause =>
      rw [bind_of_error h, bind_of_error h]
      exact Or.inl rfl
  · rw [bind_of_error hx]
    exact Or.inr ⟨⟨cause, rfl, hcause⟩,
      hevents.trans (events_prefix_bind y g)⟩

/-- **What is left of an answer.** Of a transcript that is cut short comes
what comes of the whole one, or a rejection of the kind with less of a log.
A sink that breaks down on the way does not tell the two apart. -/
theorem CutBy.deliver {x y : Transcript TypedExpr} (h : x.CutBy P y)
    (sink : Sink) :
    x.deliver sink = y.deliver sink
      ∨ (∃ cause, (x.deliver sink).1 = .rejected cause ∧ P cause)
        ∧ (x.deliver sink).2.log.toList
          <+: (y.deliver sink).2.log.toList := by
  obtain rfl | ⟨⟨cause, hverdict, hcause⟩, more, hmore⟩ := h
  · exact Or.inl rfl
  · unfold Transcript.deliver
    rcases hx : sink.receiveAll x.events with ⟨_ | fault, sink'⟩
    · right
      rw [hverdict, ← hmore, Sink.receiveAll_append_of_none hx]
      refine ⟨⟨cause, rfl, hcause⟩, ?_⟩
      have hlog := sink'.log_prefix_receiveAll more
      rcases hy : sink'.receiveAll more with ⟨_ | fault, sink''⟩
      · rw [hy] at hlog
        cases y.verdict with
        | ok t => exact hlog
        | error cause => exact hlog
      · rw [hy] at hlog
        exact hlog
    · left
      rw [← hmore, Sink.receiveAll_append_of_some hx]

end Transcript

/-! ## Supervised checks -/

/-- The shield turns the answer of a checker into a verdict. -/
theorem shielded_eq (config : Config) (Γ : Context) (e : Expr)
    (sink : Sink) :
    shielded config Γ e sink
      = match (Checker.new config).answer Γ e sink with
        | (.accepted t, sink) => (.ok t, sink)
        | (.rejected cause, sink) => (.error cause, sink)
        | (.broken fault, sink) =>
          (.error (.internal fault.describe), sink) := by
  unfold shielded Checker.answer
  rcases (Checker.new config).run Γ e sink with
    ⟨⟨t⟩ | ⟨cause⟩ | ⟨fault⟩, c, sink'⟩
  all_goals rfl

end PredicateScript
