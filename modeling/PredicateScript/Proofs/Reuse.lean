import PredicateScript.Proofs.Answer
import PredicateScript.Sample

/-!
# A checker can be used again

A checker counts how deep it is, up on the way into a node and down on the
way out. The count is a machine word, so it matters that it never leaves
the range from nothing to the limit: past its ends it would wrap around,
and an unbalanced step would be held against the next script.

To say that it stays there *while* a check goes on, the check is repeated
under observation. `Walk.observe limit alarm` is a way into a node that
moves the counter in exact arithmetic, and where the exact value is out of
range it does not move it but lets the alarm go off, which ends the walk.
The walk under observation is the check itself, whatever the alarm
(`Walk.through_observe`), so no alarm goes off.

What has to be known of a walk for that is where it leaves the counter:
where it was if the walk ends by itself, and within the limit in any case
(`Walk.Settles`). A checker that has answered is therefore the checker it
was, and the answers it gives to one script after the other are those of
checkers that have never been used.
-/

namespace PredicateScript

namespace Walk

/-! ## The check under observation -/

/-- Set the counter to an exact value. A value that is out of range is not
set; the alarm goes off instead. -/
def setDepth (limit : UInt64) (alarm : Fault) (n : Int) : Walk Unit :=
  fun p =>
    if 0 ≤ n ∧ n ≤ limit.toNat then
      .ok () { p with depth := .ofNat n.toNat }
    else .error (.fault alarm) p

/-- **The way into a node under observation**: as `descend`, with the
counter moved in exact arithmetic. -/
def observe (limit : UInt64) (alarm : Fault) (walk : Walk TypedExpr) :
    Walk TypedExpr := fun p =>
  if limit ≤ p.depth then
    .error (.rejection (.depthLimitExceeded limit)) p
  else
    match setDepth limit alarm (p.depth.toNat + 1) p with
    | .error halt q => .error halt q
    | .ok () p =>
      match walk p with
      | .ok t q =>
        (do setDepth limit alarm (q.depth.toNat - 1); return t) q
      | .error (.rejection cause) q =>
        (do setDepth limit alarm (q.depth.toNat - 1)
            throw (Halt.rejection cause)) q
      | .error (.fault fault) q => .error (.fault fault) q

/-! ## Where a walk leaves the counter -/

variable {α β : Type} {limit : UInt64} {alarm : Fault}

/-- **Where the counter is left** by a walk from `depth`: back there if the
walk ends by itself, and within the limit if it is broken off. -/
def Settles (limit depth : UInt64) :
    EStateM.Result Halt Progress α → Prop
  | .ok _ q => q.depth = depth
  | .error (.rejection _) q => q.depth = depth
  | .error (.fault _) q => q.depth ≤ limit

/-- **Two walks that agree within the limit**, and leave the counter in its
range. -/
def Alike (limit : UInt64) (w w' : Walk α) : Prop :=
  ∀ p : Progress, p.depth ≤ limit →
    w p = w' p ∧ Settles limit p.depth (w p)

theorem alike_pure (a : α) : Alike limit (pure a) (pure a) :=
  fun _ _ => ⟨rfl, rfl⟩

theorem alike_ofRule (r : Except Rejection α) :
    Alike limit (ofRule r) (ofRule r) := by
  intro p hp
  refine ⟨rfl, ?_⟩
  cases r <;> rfl

theorem alike_emit (e : Event) : Alike limit (emit e) (emit e) := by
  intro p hp
  refine ⟨rfl, ?_⟩
  unfold emit
  rcases p.sink.receive e with ⟨_ | fault, sink⟩
  · rfl
  · exact hp

/-- **Walks in sequence agree where they agree one by one.** -/
theorem Alike.bind {w w' : Walk α} {f f' : α → Walk β}
    (hw : Alike limit w w') (hf : ∀ a, Alike limit (f a) (f' a)) :
    Alike limit (w >>= f) (w' >>= f') := by
  intro p hp
  obtain ⟨heq, hsettles⟩ := hw p hp
  cases hrun : w p with
  | ok a q =>
    rw [hrun] at heq hsettles
    have hq : q.depth = p.depth := hsettles
    rw [bind_of_eq_ok hrun, bind_of_eq_ok heq.symm, ← hq]
    exact hf a q (hq ▸ hp)
  | error halt q =>
    rw [hrun] at heq hsettles
    rw [bind_of_eq_error hrun, bind_of_eq_error heq.symm]
    exact ⟨rfl, by cases halt <;> exact hsettles⟩

theorem alike_callType (Γ : Context) (name : String) (sig : Signature)
    (tys : List Ty) :
    Alike limit (callType Γ name sig tys) (callType Γ name sig tys) := by
  unfold callType
  refine (alike_ofRule _).bind (fun filled => ?_)
  dsimp only
  split
  · exact alike_ofRule _
  · exact (alike_emit _).bind (fun _ => alike_ofRule _)

theorem alike_ifType (cond ifTrue ifFalse : Ty) :
    Alike limit (ifType cond ifTrue ifFalse)
      (ifType cond ifTrue ifFalse) := by
  unfold ifType
  dsimp only
  split
  · exact alike_ofRule _
  · exact (alike_emit _).bind (fun _ => alike_ofRule _)

/-! ## No alarm goes off -/

/-- A value that a word within the limit has is set. -/
theorem setDepth_of_toNat_eq {n : Int} {depth : UInt64}
    (hn : n = depth.toNat) (hdepth : depth ≤ limit) (p : Progress) :
    setDepth limit alarm n p = .ok () ⟨depth, p.sink⟩ := by
  have hle := UInt64.le_iff_toNat_le.mp hdepth
  have hrange : 0 ≤ n ∧ n ≤ limit.toNat := by omega
  unfold setDepth
  rw [if_pos hrange, hn, Int.toNat_natCast, UInt64.ofNat_toNat]

/-- Below the limit there is room to count up. -/
theorem setDepth_up {p : Progress} (hp : p.depth < limit) :
    setDepth limit alarm (p.depth.toNat + 1) p
      = .ok () ⟨p.depth + 1, p.sink⟩ := by
  have hnext := toNat_succ_of_lt hp
  have hlt := UInt64.lt_iff_toNat_lt.mp hp
  refine setDepth_of_toNat_eq ?_ ?_ p
  · omega
  · rw [UInt64.le_iff_toNat_le]
    omega

/-- One level inside there is something to count down. -/
theorem setDepth_down {depth : UInt64} {q : Progress}
    (hdepth : depth < limit) (hq : q.depth = depth + 1) :
    setDepth limit alarm (q.depth.toNat - 1) q
      = .ok () ⟨depth, q.sink⟩ := by
  have hnext := toNat_succ_of_lt hdepth
  refine setDepth_of_toNat_eq ?_ (UInt64.le_of_lt hdepth) q
  rw [hq]
  omega

/-- **Observation changes nothing at a node.** Below the limit there is
room to count up, and a walk that ends by itself comes back to where there
is something to count down. -/
theorem Alike.enter {w w' : Walk TypedExpr} (h : Alike limit w w') :
    Alike limit (descend limit w) (observe limit alarm w') := by
  intro p hp
  by_cases hlimit : limit ≤ p.depth
  · unfold descend observe
    rw [if_pos hlimit, if_pos hlimit]
    exact ⟨rfl, rfl⟩
  · have hlt : p.depth < limit := UInt64.not_le.mp hlimit
    have hnext : p.depth + 1 ≤ limit := by
      have hnat := UInt64.lt_iff_toNat_lt.mp hlt
      rw [UInt64.le_iff_toNat_le, toNat_succ_of_lt hlt]
      omega
    have hback : p.depth + 1 - 1 = p.depth := UInt64.add_sub_cancel ..
    obtain ⟨heq, hsettles⟩ := h ⟨p.depth + 1, p.sink⟩ hnext
    unfold descend observe
    rw [if_neg hlimit, if_neg hlimit, setDepth_up hlt]
    dsimp only
    rw [← heq]
    rcases hrun : w ⟨p.depth + 1, p.sink⟩ with
      ⟨t, q⟩ | ⟨⟨cause⟩ | ⟨fault⟩, q⟩
    · rw [hrun] at hsettles
      have hq : q.depth = p.depth + 1 := hsettles
      dsimp only
      rw [bind_of_eq_ok (setDepth_down hlt hq), hq, hback]
      exact ⟨rfl, rfl⟩
    · rw [hrun] at hsettles
      have hq : q.depth = p.depth + 1 := hsettles
      dsimp only
      rw [bind_of_eq_ok (setDepth_down hlt hq), hq, hback]
      exact ⟨rfl, rfl⟩
    · rw [hrun] at hsettles
      exact ⟨rfl, hsettles⟩

mutual

/-- **The check is the same under observation.** -/
theorem alike_through (Γ : Context) (e : Expr) :
    Alike limit (through (descend limit) Γ e)
      (through (observe limit alarm) Γ e) := by
  rw [through.eq_def, through.eq_def]
  refine Alike.enter ?_
  cases e with
  | lit _ value => exact alike_pure _
  | ref _ name => exact (alike_ofRule _).bind (fun _ => alike_pure _)
  | access _ target field =>
    refine (alike_through Γ target).bind (fun t => ?_)
    exact (alike_ofRule _).bind (fun _ => alike_pure _)
  | call _ name args =>
    refine (alike_ofRule _).bind (fun sig => ?_)
    refine (alike_throughEach Γ args).bind (fun ts => ?_)
    exact (alike_callType _ _ _ _).bind (fun _ => alike_pure _)
  | binary _ op left right =>
    refine (alike_through Γ left).bind (fun l => ?_)
    refine (alike_through Γ right).bind (fun r => ?_)
    exact (alike_ofRule _).bind (fun _ => alike_pure _)
  | block _ body =>
    exact (alike_through Γ body).bind (fun t => alike_pure _)
  | letIn _ name value body =>
    refine (alike_ofRule _).bind (fun _ => ?_)
    refine (alike_through Γ value).bind (fun v => ?_)
    refine (alike_emit _).bind (fun _ => ?_)
    exact (alike_through (Γ.bind name v.ty) body).bind
      (fun b => alike_pure _)
  | ifElse _ cond ifTrue ifFalse =>
    refine (alike_through Γ cond).bind (fun c => ?_)
    refine (alike_through Γ ifTrue).bind (fun t => ?_)
    refine (alike_through Γ ifFalse).bind (fun f => ?_)
    exact (alike_ifType _ _ _).bind (fun _ => alike_pure _)

theorem alike_throughEach (Γ : Context) (es : List Expr) :
    Alike limit (throughEach (descend limit) Γ es)
      (throughEach (observe limit alarm) Γ es) := by
  cases es with
  | nil =>
    rw [throughEach, throughEach]
    exact alike_pure _
  | cons e es =>
    rw [throughEach, throughEach]
    refine (alike_through Γ e).bind (fun t => ?_)
    exact (alike_throughEach Γ es).bind (fun ts => alike_pure _)

end

/-- **No alarm goes off.** From within the limit the walk under observation
is the check: if the alarm ended it anywhere, another alarm would end it in
another way. -/
theorem through_observe {p : Progress} (hp : p.depth ≤ limit)
    (alarm : Fault) (Γ : Context) (e : Expr) :
    through (observe limit alarm) Γ e p = check limit Γ e p := by
  rw [← through_descend]
  exact (alike_through Γ e p hp).1.symm

/-- Within the limit, a check leaves the counter where it was or, broken
off, within the limit. -/
theorem settles_check {p : Progress} (hp : p.depth ≤ limit) (Γ : Context)
    (e : Expr) : Settles limit p.depth (check limit Γ e p) := by
  have halike : Alike limit (through (descend limit) Γ e)
      (through (observe limit .unreadable) Γ e) := alike_through Γ e
  rw [← through_descend]
  exact (halike p hp).2

end Walk

/-! ## Checkers that have been used -/

/-- Whether a check came back to its caller, accepted or rejected. -/
def Outcome.returned : Outcome → Bool
  | accepted _ => true
  | rejected _ => true
  | broken _ => false

namespace Checker

/-- **The states a checker can be in**: new, or left behind by a check,
be it one that was broken off. -/
inductive Reachable (config : Config) : Checker → Prop where
  /-- It has not been used. -/
  | new : Reachable config (.new config)
  /-- It has been used once more. -/
  | run {c : Checker} (hc : Reachable config c) (Γ : Context) (e : Expr)
      (sink : Sink) : Reachable config (c.run Γ e sink).2.1

/-- **A check that comes back leaves the checker as it was**, in whatever
state that is. -/
theorem run_eq_self {c : Checker} {Γ : Context} {e : Expr} {sink : Sink}
    (h : (c.run Γ e sink).1.returned = true) :
    (c.run Γ e sink).2.1 = c := by
  have htells := c.tells_check Γ e sink
  unfold Walk.Tells at htells
  unfold run at h ⊢
  split at htells
  · -- the sink broke down, so the check did not come back
    obtain ⟨depth, hwalk⟩ := htells
    rw [hwalk] at h
    cases h
  · split at htells
    · rw [htells]
    · rw [htells]

/-- A check that does not come back leaves the counter where it was broken
off, here inside `{ let a = 1; a }`. -/
example :
    let sink := Sink.fresh (some ⟨"let binding", 0, .unreadable⟩)
    let e : Expr := .letIn () "a" (Expr.long 1) (.ref () "a")
    ((Checker.new ⟨2⟩).run sampleContext e sink).2.1.depth = 1 := by decide

theorem config_run (c : Checker) (Γ : Context) (e : Expr) (sink : Sink) :
    (c.run Γ e sink).2.1.config = c.config := by
  unfold run
  rcases Walk.check c.config.maxDepth Γ e ⟨c.depth, sink⟩ with
    ⟨t, q⟩ | ⟨⟨cause⟩ | ⟨fault⟩, q⟩
  all_goals rfl

/-- A check leaves the counter of a checker in its range, also where it is
broken off. -/
theorem depth_run_le {c : Checker} (hc : c.depth ≤ c.config.maxDepth)
    (Γ : Context) (e : Expr) (sink : Sink) :
    (c.run Γ e sink).2.1.depth ≤ c.config.maxDepth := by
  have hsettles := Walk.settles_check (p := ⟨c.depth, sink⟩) hc Γ e
  unfold run
  rcases hwalk : Walk.check c.config.maxDepth Γ e ⟨c.depth, sink⟩ with
    ⟨t, q⟩ | ⟨⟨cause⟩ | ⟨fault⟩, q⟩
  · rw [hwalk] at hsettles
    exact UInt64.le_trans (UInt64.le_of_eq hsettles) hc
  · rw [hwalk] at hsettles
    exact UInt64.le_trans (UInt64.le_of_eq hsettles) hc
  · rw [hwalk] at hsettles
    exact hsettles

/-- **The invariant of a checker**: its configuration is the one it was
made with, and its counter is in range. -/
theorem Reachable.config_eq_and_depth_le {config : Config} {c : Checker}
    (h : Reachable config c) :
    c.config = config ∧ c.depth ≤ config.maxDepth := by
  induction h with
  | new => exact ⟨rfl, UInt64.zero_le⟩
  | @run c _ Γ e sink ih =>
    obtain ⟨rfl, hdepth⟩ := ih
    exact ⟨c.config_run Γ e sink, depth_run_le hdepth Γ e sink⟩

end Checker

/-! ## One script after the other -/

/-- **A script to check**, and what it is checked with. -/
structure Job where
  /-- The context of the script. -/
  context : Context
  /-- The script. -/
  script : Expr
  /-- The sink that the check reports to. -/
  sink : Sink

namespace Checker

/-- The answer of a checker to a job. -/
def answerJob (c : Checker) (job : Job) : Outcome × Sink :=
  c.answer job.context job.script job.sink

/-- **The answers of one checker** to one job after the other: each finds
it as the one before has left it. -/
def answerAll (c : Checker) : List Job → List (Outcome × Sink)
  | [] => []
  | job :: jobs =>
    c.answerJob job
      :: (c.run job.context job.script job.sink).2.1.answerAll jobs

/-- While the checks come back, the answers do not depend on what came
before them. -/
theorem answerAll_eq_map {c : Checker} {before : List Job} (job : Job)
    (h : ∀ answer ∈ c.answerAll before, answer.1.returned = true) :
    c.answerAll (before ++ [job]) = (before ++ [job]).map c.answerJob := by
  induction before with
  | nil => rfl
  | cons first before ih =>
    rw [answerAll, List.forall_mem_cons] at h
    obtain ⟨hfirst, hbefore⟩ := h
    have hself := run_eq_self hfirst
    rw [hself] at hbefore
    rw [List.cons_append, answerAll, hself, ih hbefore, List.map_cons]

end Checker

/-- **A checker can be used again**, whatever the limit. A check that comes
back leaves the checker as it was, and so do the checks of the parts of a
script, which find it in whatever state. The counter of a checker that has
been used is in range, and it stays there as long as the next check goes
on: moved in exact arithmetic, it sets off no alarm. Therefore a checker
answers to one job after the other what a new one answers to each. -/
theorem Checker.reusable (config : Config) :
    (∀ (c : Checker) (Γ : Context) (e : Expr) (sink : Sink),
      (c.run Γ e sink).1.returned = true → (c.run Γ e sink).2.1 = c)
    ∧ (∀ c : Checker, c.Reachable config →
      c.config = config ∧ c.depth ≤ config.maxDepth
        ∧ ∀ (alarm : Fault) (Γ : Context) (e : Expr) (sink : Sink),
          Walk.through (Walk.observe config.maxDepth alarm) Γ e
              ⟨c.depth, sink⟩
            = Walk.check config.maxDepth Γ e ⟨c.depth, sink⟩)
    ∧ ∀ (before : List Job) (job : Job),
      (∀ answer ∈ (Checker.new config).answerAll before,
        answer.1.returned = true) →
      (Checker.new config).answerAll (before ++ [job])
        = (before ++ [job]).map (Checker.new config).answerJob := by
  refine ⟨fun c Γ e sink h => run_eq_self h, fun c hc => ?_,
    fun before job h => answerAll_eq_map job h⟩
  obtain ⟨hconfig, hdepth⟩ := hc.config_eq_and_depth_le
  exact ⟨hconfig, hdepth, fun alarm Γ e sink =>
    Walk.through_observe hdepth alarm Γ e⟩

/-- Under a limit of two levels, `(1 + 2) + 3` is rejected while its left
side is checked and `true + 1` for its operand. The checker is left as it
was, no alarm goes off in the next check, and `1 + 2` is accepted as by a
new checker. -/
theorem Checker.reusable_two :
    let job (e : Expr) : Job := ⟨sampleContext, e, Sink.fresh none⟩
    let sum : Expr := .binary () .sum (Expr.long 1) (Expr.long 2)
    let tooDeep : Expr := .binary () .sum sum (Expr.long 3)
    let mismatch : Expr :=
      .binary () .sum (.lit () (.bool true)) (Expr.long 1)
    let c := Checker.new ⟨2⟩
    let used := (c.run sampleContext tooDeep (Sink.fresh none)).2.1
    (c.answerJob (job tooDeep)).1 = .rejected (.depthLimitExceeded 2)
      ∧ used = c
      ∧ Walk.through (Walk.observe 2 .unreadable) sampleContext mismatch
          ⟨used.depth, Sink.fresh none⟩
        = Walk.check 2 sampleContext mismatch ⟨used.depth, Sink.fresh none⟩
      ∧ c.answerAll ([job tooDeep, job mismatch] ++ [job sum])
        = ([job tooDeep, job mismatch] ++ [job sum]).map c.answerJob := by
  intro job sum tooDeep mismatch c used
  obtain ⟨hself, hobserved, hanswers⟩ := Checker.reusable ⟨2⟩
  have hused : used.Reachable ⟨2⟩ :=
    .run .new sampleContext tooDeep (Sink.fresh none)
  have hback : ∀ answer ∈ c.answerAll [job tooDeep, job mismatch],
      answer.1.returned = true := by decide +kernel
  exact ⟨rfl, hself c sampleContext tooDeep (Sink.fresh none) rfl,
    (hobserved used hused).2.2 .unreadable sampleContext mismatch _,
    hanswers [job tooDeep, job mismatch] (job sum) hback⟩

end PredicateScript
