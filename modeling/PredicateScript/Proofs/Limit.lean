import PredicateScript.Proofs.Justification
import PredicateScript.Proofs.Simulation

/-!
# A limit cuts a check short and changes nothing else

Without a limit a check would say all it has to say of a script. This
module compares the check under a limit with that one. The check without a
limit is the walk that has nothing to do on its way into a node,
`Walk.through id`, and its answer is `unlimitedAnswer`.

The comparison is between transcripts. With fewer levels left a check
gives what it gives with more, or it is cut short by the limit and has
reported nothing by then that the other does not report too
(`transcript_cutBy_limit`). With as many levels as the script is high it
gives what the walk without a limit gives (`Walk.tells_unlimited`), and the
limit is not what it ends with, for then some node would lie below it.
-/

namespace PredicateScript

/-! ## Fewer levels and more -/

/-- **With fewer levels left a check gives what it gives with more, cut
short by its limit** if by anything. -/
theorem transcript_cutBy_limit {limit limit' : UInt64}
    {budget budget' : Nat} (h : budget ≤ budget') (Γ : Context) (e : Expr) :
    (transcript limit budget Γ e).CutBy (· = .depthLimitExceeded limit)
      (transcript limit' budget' Γ e) := by
  induction budget generalizing budget' Γ e with
  | zero => exact Or.inr ⟨⟨_, rfl, rfl⟩, List.nil_prefix⟩
  | succ budget ih =>
    obtain ⟨more, rfl⟩ : ∃ more, budget' = more + 1 :=
      ⟨budget' - 1, by omega⟩
    have hsim := simulation_eq
      (Transcript.congruence_cutBy (· = .depthLimitExceeded limit))
    exact hsim.visitNode_related rfl
      (fun part _ tys => ih (by omega) (Γ.scopeOf e tys) part)

/-! ## No limit -/

namespace Walk

/-- **The walk without a limit** says what a check says that has as many
levels left as the script is high. -/
theorem tells_unlimited {limit : UInt64} {budget : Nat} {e : Expr}
    (h : e.height ≤ budget) (Γ : Context) (p : Progress) :
    Tells (through id Γ e) p (transcript limit budget Γ e) := by
  induction budget generalizing e Γ p with
  | zero => exact absurd e.height_pos (Nat.not_lt.mpr h)
  | succ budget ih =>
    rw [Term.height_le_succ_iff] at h
    exact tells_through (fun _ _ _ hw => hw)
      (fun part hpart Γ sink => ih (h part hpart) Γ ⟨p.depth, sink⟩) Γ p.sink

end Walk

/-- **The answer of a check without a limit.** -/
def unlimitedAnswer (Γ : Context) (e : Expr) (sink : Sink) :
    Outcome × Sink :=
  Walk.answer (Walk.through id Γ e) ⟨0, sink⟩

section Unlimited

variable {limit : UInt64} {Γ : Context} {e : Expr} {sink : Sink}

theorem unlimitedAnswer_eq (limit : UInt64) {budget : Nat}
    (h : e.height ≤ budget) (Γ : Context) (sink : Sink) :
    unlimitedAnswer Γ e sink
      = (transcript limit budget Γ e).deliver sink :=
  (Walk.tells_unlimited h Γ ⟨0, sink⟩).answer_eq

/-- A position of a script is not longer than the script is high. -/
theorem Reaches.length_lt_height {S : Context} {sub : Expr} {p : List Nat}
    (h : Reaches Γ e p S sub) : p.length < e.height := by
  induction h with
  | @root _ e => exact e.height_pos
  | part hpart _ _ ih | body hpart _ _ _ ih =>
    have hlt := Term.height_lt_of_mem_parts (List.mem_of_getElem? hpart)
    rw [List.length_cons]
    omega

/-- A script that is not higher than the limit is not rejected for it. -/
theorem verdict_ne_depthLimitExceeded (h : e.height ≤ limit.toNat)
    (l : UInt64) :
    verdict limit limit.toNat Γ e ≠ .error (.depthLimitExceeded l) := by
  intro hverdict
  obtain ⟨p, S, sub, hsub, hjust⟩ := exists_justified hverdict
  have hlt := hsub.length_lt_height
  cases hjust with
  | depthLimitExceeded hdepth => omega

namespace Checker

/-- Within the limit a check answers as if there were none. -/
theorem answer_eq_unlimited (h : e.height ≤ limit.toNat) (Γ : Context)
    (sink : Sink) :
    (Checker.new ⟨limit⟩).answer Γ e sink = unlimitedAnswer Γ e sink := by
  rw [answer_eq, budget_new]
  exact (unlimitedAnswer_eq limit h Γ sink).symm

/-- Within the limit, the limit is not what a script is rejected for. -/
theorem answer_ne_depthLimitExceeded (h : e.height ≤ limit.toNat)
    (l : UInt64) :
    ((Checker.new ⟨limit⟩).answer Γ e sink).1
      ≠ .rejected (.depthLimitExceeded l) := by
  intro hrun
  have hverdict := verdict_of_rejected hrun
  rw [budget_new] at hverdict
  exact verdict_ne_depthLimitExceeded h l hverdict

/-- What is accepted is within the limit. -/
theorem height_le_of_accepted {t : TypedExpr}
    (h : ((Checker.new ⟨limit⟩).answer Γ e sink).1 = .accepted t) :
    e.height ≤ limit.toNat := by
  have hverdict := verdict_of_accepted h
  rw [budget_new] at hverdict
  exact height_le_of_verdict_ok hverdict

/-- Past the limit a check answers as if there were none, or it ends with
the limit and part of the log. -/
theorem answer_cut_unlimited (h : limit.toNat < e.height) (Γ : Context)
    (sink : Sink) :
    (Checker.new ⟨limit⟩).answer Γ e sink = unlimitedAnswer Γ e sink
      ∨ ((Checker.new ⟨limit⟩).answer Γ e sink).1
          = .rejected (.depthLimitExceeded limit)
        ∧ ((Checker.new ⟨limit⟩).answer Γ e sink).2.log.toList
          <+: (unlimitedAnswer Γ e sink).2.log.toList := by
  rw [answer_eq, budget_new, unlimitedAnswer_eq limit (Nat.le_refl _) Γ sink]
  obtain heq | ⟨⟨_, hlimit, rfl⟩, hlog⟩ :=
    (transcript_cutBy_limit (Nat.le_of_lt h) Γ e).deliver sink
  · exact Or.inl heq
  · exact Or.inr ⟨hlimit, hlog⟩

/-- An answer that is not about the limit stands under every higher
one. -/
theorem answer_eq_of_le {limit' : UInt64} (hle : limit ≤ limit')
    (h : ((Checker.new ⟨limit⟩).answer Γ e sink).1
      ≠ .rejected (.depthLimitExceeded limit)) :
    (Checker.new ⟨limit'⟩).answer Γ e sink
      = (Checker.new ⟨limit⟩).answer Γ e sink := by
  rw [answer_eq, budget_new] at h
  rw [answer_eq, answer_eq, budget_new, budget_new]
  obtain heq | ⟨⟨_, hlimit, rfl⟩, -⟩ := (transcript_cutBy_limit
    (UInt64.le_iff_toNat_le.mp hle) Γ e).deliver sink
  · exact heq.symm
  · exact absurd hlimit h

/-- What is not accepted is rejected, unless the sink breaks down. -/
theorem exists_rejected {c : Checker} (hs : sink.tripwire = none)
    (h : ∀ t, (c.answer Γ e sink).1 ≠ .accepted t) :
    ∃ cause, (c.answer Γ e sink).1 = .rejected cause := by
  show ∃ cause, (c.run Γ e sink).1 = .rejected cause
  rw [fst_run_of_tripwire_none hs]
  cases hverdict : verdict c.config.maxDepth c.budget Γ e with
  | ok t =>
    have haccepted := accepts_iff.mpr hverdict sink hs
    exact absurd haccepted (h t)
  | error cause => exact ⟨cause, rfl⟩

/-- What is accepted under one limit is accepted under every other that is
not too low for it. -/
theorem answer_eq_of_accepted {limit' : UInt64} {t : TypedExpr}
    (h : ((Checker.new ⟨limit⟩).answer Γ e sink).1 = .accepted t)
    (hheight : e.height ≤ limit'.toNat) :
    (Checker.new ⟨limit'⟩).answer Γ e sink
      = (Checker.new ⟨limit⟩).answer Γ e sink :=
  calc (Checker.new ⟨limit'⟩).answer Γ e sink
      = unlimitedAnswer Γ e sink := answer_eq_unlimited hheight Γ sink
    _ = (Checker.new ⟨limit⟩).answer Γ e sink :=
      (answer_eq_unlimited (height_le_of_accepted h) Γ sink).symm

/-- What is accepted under one limit is rejected under every other that is
too low for it, and for no other reason. -/
theorem rejected_of_lt_height {limit' : UInt64} {t : TypedExpr}
    (h : ((Checker.new ⟨limit⟩).answer Γ e sink).1 = .accepted t)
    (hheight : limit'.toNat < e.height) :
    ((Checker.new ⟨limit'⟩).answer Γ e sink).1
      = .rejected (.depthLimitExceeded limit') := by
  obtain heq | ⟨hlimit, -⟩ := answer_cut_unlimited hheight Γ sink
  · -- without a limit the script is accepted, but here it cannot be
    rw [← answer_eq_unlimited (height_le_of_accepted h) Γ sink] at heq
    rw [← heq] at h
    exact absurd (height_le_of_accepted h) (Nat.not_le.mpr hheight)
  · exact hlimit

end Checker

end Unlimited

/-- **The check under a limit refines the check without one.** A script
within the limit gets the answer, outcome and log, that it would get
without; a script past it is not accepted, and either its check ends with
the limit and the first part of the log, or the answer is again the one it
would get without. So an answer that is not about the limit stands under
every higher limit, and what is accepted is accepted as the same tree from
its height on and rejected below. None of this depends on the sink; one
that does not break down turns "not accepted" into "rejected". -/
theorem Checker.answer_refines_unlimited (limit : UInt64) (Γ : Context)
    (e : Expr) (sink : Sink) :
    let limited (limit : UInt64) := (Checker.new ⟨limit⟩).answer Γ e sink
    let unlimited := unlimitedAnswer Γ e sink
    (e.height ≤ limit.toNat →
      limited limit = unlimited
        ∧ ∀ l, (limited limit).1 ≠ .rejected (.depthLimitExceeded l))
    ∧ (limit.toNat < e.height →
      (∀ t, (limited limit).1 ≠ .accepted t)
        ∧ (sink.tripwire = none → ∃ cause,
          (limited limit).1 = .rejected cause)
        ∧ ((limited limit).1 = .rejected (.depthLimitExceeded limit)
            ∧ (limited limit).2.log.toList <+: unlimited.2.log.toList
          ∨ limited limit = unlimited))
    ∧ ((limited limit).1 ≠ .rejected (.depthLimitExceeded limit) →
      ∀ limit', limit ≤ limit' → limited limit' = limited limit)
    ∧ ∀ t, (limited limit).1 = .accepted t →
      ∀ limit' : UInt64,
        (e.height ≤ limit'.toNat → (limited limit').1 = .accepted t)
          ∧ (limit'.toNat < e.height →
            (limited limit').1
              = .rejected (.depthLimitExceeded limit')) := by
  intro limited unlimited
  refine ⟨fun hheight => ⟨?_, ?_⟩, fun hheight => ?_, fun hne limit' hle => ?_,
    fun t ht limit' => ⟨fun hheight => ?_, fun hheight => ?_⟩⟩
  · exact answer_eq_unlimited hheight Γ sink
  · exact answer_ne_depthLimitExceeded hheight
  · have hreject : ∀ t, (limited limit).1 ≠ .accepted t := fun t ht =>
      absurd (height_le_of_accepted ht) (Nat.not_le.mpr hheight)
    exact ⟨hreject, fun hs => exists_rejected hs hreject,
      (answer_cut_unlimited hheight Γ sink).symm⟩
  · exact answer_eq_of_le hle hne
  · have heq : limited limit' = limited limit :=
      answer_eq_of_accepted ht hheight
    rw [heq]
    exact ht
  · exact rejected_of_lt_height ht hheight

/-- Under a limit of two levels, the check of
`{ let a = 1; { let b = a + 2; b } }` reports the binding of `a` and ends
inside the value of `b`, which a check without a limit would report as
well. -/
theorem Checker.answer_refines_unlimited_two :
    let e : Expr := .letIn () "a" (Expr.long 1)
      (.letIn () "b" (.binary () .sum (.ref () "a") (Expr.long 2))
        (.ref () "b"))
    let limited := (Checker.new ⟨2⟩).answer sampleContext e (Sink.fresh none)
    let unlimited := unlimitedAnswer sampleContext e (Sink.fresh none)
    (2 : UInt64).toNat < e.height
      ∧ limited.2.log.toList = [.event (.binding "a" .long)]
      ∧ unlimited.2.log.toList
        = [.event (.binding "a" .long), .event (.binding "b" .long)]
      ∧ (limited.1 = .rejected (.depthLimitExceeded 2)
          ∧ limited.2.log.toList <+: unlimited.2.log.toList
        ∨ limited = unlimited) := by
  intro e limited unlimited
  have hheight : (2 : UInt64).toNat < e.height := by decide
  exact ⟨hheight, rfl, rfl,
    ((Checker.answer_refines_unlimited 2 sampleContext e
      (Sink.fresh none)).2.1 hheight).2.2⟩

end PredicateScript
