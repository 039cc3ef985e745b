import PredicateScript.Proofs.Answer

/-!
# Verdicts

The verdict on a script is what its transcript ends with. This module says
how a verdict comes about, one level of the script at a time: a node is
accepted where it passes its entry test, its parts are accepted from left
to right, and its rule gives a type (`verdict_succ_ok_iff`); it is
rejected where one of these fails and all before it went well
(`verdict_succ_error_iff`). Nothing is left to add about a single node, so
the theorems about whole scripts are inductions over these two.

`Checker.accepts_iff` ties the verdict to the outcome of a checker.
-/

namespace PredicateScript

/-- **The verdict on a script** with `budget` levels left below the
limit. -/
def verdict (limit : UInt64) (budget : Nat) (Γ : Context) (e : Expr) :
    Except Rejection TypedExpr :=
  (transcript limit budget Γ e).verdict

/-! ## The outcome of a checker -/

namespace Checker

variable {c : Checker} {Γ : Context} {e : Expr} {sink : Sink}

/-- **A checker accepts a script** as the tree `t`: that is its outcome
with every sink that does not break down. -/
def Accepts (c : Checker) (Γ : Context) (e : Expr) (t : TypedExpr) : Prop :=
  ∀ sink : Sink, sink.tripwire = none → (c.run Γ e sink).1 = .accepted t

/-- A sink that does not break down has no say in the outcome. -/
theorem fst_run_of_tripwire_none (hs : sink.tripwire = none) :
    (c.run Γ e sink).1
      = match verdict c.config.maxDepth c.budget Γ e with
        | .ok t => .accepted t
        | .error cause => .rejected cause := by
  rw [fst_run, Sink.receiveAll_of_tripwire_none hs, verdict]
  cases (transcript c.config.maxDepth c.budget Γ e).verdict <;> rfl

/-- What is accepted has that verdict, whatever the sink. -/
theorem verdict_of_accepted {t : TypedExpr}
    (h : (c.run Γ e sink).1 = .accepted t) :
    verdict c.config.maxDepth c.budget Γ e = .ok t := by
  rw [fst_run] at h
  split at h
  · cases h
  · next hx =>
    cases h
    exact hx
  · cases h

/-- What is rejected has that verdict, whatever the sink. -/
theorem verdict_of_rejected {cause : Rejection}
    (h : (c.run Γ e sink).1 = .rejected cause) :
    verdict c.config.maxDepth c.budget Γ e = .error cause := by
  rw [fst_run] at h
  split at h
  · cases h
  · cases h
  · next hx =>
    cases h
    exact hx

/-- To accept a script is to have that verdict on it. -/
theorem accepts_iff {t : TypedExpr} :
    c.Accepts Γ e t ↔ verdict c.config.maxDepth c.budget Γ e = .ok t := by
  constructor
  · intro h
    exact verdict_of_accepted (h (Sink.fresh none) rfl)
  · intro h sink hs
    rw [fst_run_of_tripwire_none hs, h]

end Checker

/-! ## One after the other -/

section LeftToRight

variable {α β γ : Type} {P : List β → α → β → Prop}

/-- **Each of the `as` is answered by one of the `bs`**, as far as they
go, where the answer may depend on the answers before it; `done` are the
answers from before the first. -/
def LeftToRight (P : List β → α → β → Prop) (done : List β)
    (as : List α) (bs : List β) : Prop :=
  ∀ i a b, as[i]? = some a → bs[i]? = some b → P (done ++ bs.take i) a b

@[simp] theorem leftToRight_nil (done : List β) (as : List α) :
    LeftToRight P done as [] := by
  intro i a b _ hb
  cases hb

@[simp] theorem leftToRight_cons {done : List β} {a : α} {as : List α}
    {b : β} {bs : List β} :
    LeftToRight P done (a :: as) (b :: bs)
      ↔ P done a b ∧ LeftToRight P (done ++ [b]) as bs := by
  constructor
  · intro h
    refine ⟨by simpa using h 0 a b rfl rfl, fun i a' b' ha hb => ?_⟩
    simpa using h (i + 1) a' b' ha hb
  · rintro ⟨hb, h⟩ i a' b' ha' hb'
    cases i with
    | zero =>
      cases ha'
      cases hb'
      simpa using hb
    | succ i => simpa using h i a' b' ha' hb'

/-- Where there are as many answers, each of the `as` has one. -/
theorem LeftToRight.exists_at {done : List β} {as : List α} {bs : List β}
    (h : LeftToRight P done as bs) (hlen : bs.length = as.length) {i : Nat}
    {a : α} (ha : as[i]? = some a) :
    ∃ b, bs[i]? = some b ∧ P (done ++ bs.take i) a b := by
  have hi : i < bs.length := by
    rw [hlen]
    exact (List.getElem?_eq_some_iff.mp ha).1
  exact ⟨bs[i], List.getElem?_eq_getElem hi,
    h i a bs[i] ha (List.getElem?_eq_getElem hi)⟩

/-- Where what is asked can be read off each answer, it can be read off
all of them. -/
theorem LeftToRight.map_eq {f : β → α} {done : List β} {as : List α}
    {bs : List β} (h : LeftToRight P done as bs)
    (hlen : bs.length = as.length) (hf : ∀ bs a b, P bs a b → f b = a) :
    bs.map f = as := by
  refine List.ext_getElem? (fun i => ?_)
  rw [List.getElem?_map]
  cases ha : as[i]? with
  | none =>
    rw [List.getElem?_eq_none_iff, ← hlen] at ha
    rw [List.getElem?_eq_none ha]
    rfl
  | some a =>
    obtain ⟨b, hb, hab⟩ := h.exists_at hlen ha
    rw [hb]
    exact congrArg some (hf _ a b hab)

/-- Answers read through a function are answered for by what they were
read from. -/
theorem LeftToRight.map {Q : List γ → α → γ → Prop} {f : β → γ}
    {done : List β} {as : List α} {bs : List β}
    (h : LeftToRight P done as bs)
    (hPQ : ∀ bs a b, P bs a b → Q (bs.map f) a (f b)) :
    LeftToRight Q (done.map f) as (bs.map f) := by
  intro i a c ha hc
  rw [List.getElem?_map, Option.map_eq_some_iff] at hc
  obtain ⟨b, hb, rfl⟩ := hc
  rw [← List.map_take, ← List.map_append]
  exact hPQ _ a b (h i a b ha hb)

/-- Where every answer can be had as the reading of another, so can all of
them together. -/
theorem LeftToRight.lift {P : List γ → α → γ → Prop}
    {Q : List γ → α → β → Prop} {f : β → γ} (done : List β) {as : List α}
    {cs : List γ} (h : LeftToRight P (done.map f) as cs)
    (hlen : cs.length = as.length)
    (hPQ : ∀ a ∈ as, ∀ cs c, P cs a c → ∃ b, f b = c ∧ Q cs a b) :
    ∃ bs, bs.map f = cs
      ∧ LeftToRight (fun bs a b => Q (bs.map f) a b) done as bs := by
  induction as generalizing done cs with
  | nil =>
    refine ⟨[], ?_, leftToRight_nil done []⟩
    rw [List.eq_nil_of_length_eq_zero hlen, List.map_nil]
  | cons a as ih =>
    cases cs with
    | nil => cases hlen
    | cons c cs =>
      obtain ⟨hc, h⟩ := leftToRight_cons.mp h
      obtain ⟨ha, has⟩ := List.forall_mem_cons.mp hPQ
      obtain ⟨b, rfl, hb⟩ := ha _ c hc
      rw [← List.map_singleton, ← List.map_append] at h
      obtain ⟨bs, rfl, hbs⟩ := ih _ h (Nat.succ.inj hlen) has
      exact ⟨b :: bs, List.map_cons, leftToRight_cons.mpr ⟨hb, hbs⟩⟩

end LeftToRight

section Parts

variable {visit : Context → Expr → Transcript TypedExpr} {Γ : Context}
  {e : Expr}

/-- One of the parts of `e` is accepted as `t`, after the parts `done`. -/
def PartAccepted (visit : Context → Expr → Transcript TypedExpr)
    (Γ : Context) (e : Expr) (done : List TypedExpr) (part : Expr)
    (t : TypedExpr) : Prop :=
  (visit (Γ.scopeOf e (done.map TypedExpr.ty)) part).verdict = .ok t

/-- The parts are accepted where each is, in the scope the parts before it
make. -/
theorem visitParts_ok_iff {done ts : List TypedExpr} {es : List Expr} :
    (visitParts visit Γ e done es).verdict = .ok ts
      ↔ ∃ us, ts = done ++ us ∧ us.length = es.length
        ∧ LeftToRight (PartAccepted visit Γ e) done es us := by
  induction es generalizing done with
  | nil =>
    constructor
    · intro h
      have hts : done = ts := Except.ok.inj h
      exact ⟨[], by rw [hts, List.append_nil], rfl, leftToRight_nil _ _⟩
    · rintro ⟨us, rfl, hlen, -⟩
      rw [List.eq_nil_of_length_eq_zero hlen, List.append_nil]
      rfl
  | cons part rest ih =>
    simp only [visitParts, Transcript.verdict_tell_bind,
      Transcript.verdict_bind_ok_iff, ih]
    constructor
    · rintro ⟨u, hu, us, rfl, hlen, hus⟩
      exact ⟨u :: us, by simp, by simp [hlen],
        leftToRight_cons.mpr ⟨hu, hus⟩⟩
    · rintro ⟨_ | ⟨u, us⟩, rfl, hlen, hus⟩
      · cases hlen
      · obtain ⟨hu, hus⟩ := leftToRight_cons.mp hus
        exact ⟨u, hu, us, by simp, Nat.succ.inj hlen, hus⟩

/-- The parts are rejected where one of them is, all before it being
accepted. -/
theorem visitParts_error_iff {done : List TypedExpr} {es : List Expr}
    {cause : Rejection} :
    (visitParts visit Γ e done es).verdict = .error cause
      ↔ ∃ us part, es[us.length]? = some part
        ∧ LeftToRight (PartAccepted visit Γ e) done es us
        ∧ (visit (Γ.scopeOf e ((done ++ us).map TypedExpr.ty))
          part).verdict = .error cause := by
  induction es generalizing done with
  | nil => simp [visitParts]
  | cons part rest ih =>
    simp only [visitParts, Transcript.verdict_tell_bind,
      Transcript.verdict_bind_error_iff, ih]
    constructor
    · rintro (h | ⟨u, hu, us, p, hp, hus, h⟩)
      · exact ⟨[], part, rfl, leftToRight_nil _ _, by simpa using h⟩
      · exact ⟨u :: us, p, hp, leftToRight_cons.mpr ⟨hu, hus⟩,
          by simpa using h⟩
    · rintro ⟨_ | ⟨u, us⟩, p, hp, hus, h⟩
      · cases hp
        exact Or.inl (by simpa using h)
      · obtain ⟨hu, hus⟩ := leftToRight_cons.mp hus
        exact Or.inr ⟨u, hu, us, p, hp, hus, by simpa using h⟩

end Parts

/-! ## One level of a script -/

section Levels

variable {limit : UInt64} {budget : Nat} {Γ : Context} {e : Expr}

/-- **The first parts of a node are typed** as `ts`, each in its own scope
and with `budget` levels left. -/
def PartsTyped (limit : UInt64) (budget : Nat) (Γ : Context) (e : Expr)
    (ts : List TypedExpr) : Prop :=
  LeftToRight
    (fun done part t => verdict limit budget
      (Γ.scopeOf e (done.map TypedExpr.ty)) part = .ok t)
    [] e.parts ts

theorem leftToRight_partAccepted_iff {ts : List TypedExpr} :
    LeftToRight (PartAccepted (transcript limit budget) Γ e) [] e.parts ts
      ↔ PartsTyped limit budget Γ e ts := Iff.rfl

/-- At the limit nothing is accepted. -/
@[simp] theorem verdict_zero :
    verdict limit 0 Γ e = .error (.depthLimitExceeded limit) := rfl

/-- **How a node is accepted.** -/
theorem verdict_succ_ok_iff {t : TypedExpr} :
    verdict limit (budget + 1) Γ e = .ok t
      ↔ Γ.entryTest e = .ok ()
        ∧ ∃ ts ty, ts.length = e.parts.length
          ∧ PartsTyped limit budget Γ e ts
          ∧ Γ.nodeType e (ts.map TypedExpr.ty) = .ok ty
          ∧ e.rebuild ty ts = t := by
  simp only [verdict, transcript, visitNode,
    Transcript.verdict_bind_ok_iff,
    Transcript.verdict_ofRule, Transcript.verdict_tell_bind,
    Transcript.verdict_pure, visitParts_ok_iff, Except.ok.injEq,
    List.nil_append, leftToRight_partAccepted_iff]
  constructor
  · rintro ⟨_, he, ts, ⟨_, rfl, hlen, hts⟩, ty, hty, ht⟩
    exact ⟨he, ts, ty, hlen, hts, hty, ht⟩
  · rintro ⟨he, ts, ty, hlen, hts, hty, ht⟩
    exact ⟨(), he, ts, ⟨ts, rfl, hlen, hts⟩, ty, hty, ht⟩

/-- **How a node is rejected.** -/
theorem verdict_succ_error_iff {cause : Rejection} :
    verdict limit (budget + 1) Γ e = .error cause
      ↔ Γ.entryTest e = .error cause
        ∨ Γ.entryTest e = .ok ()
          ∧ ((∃ ts part, e.parts[ts.length]? = some part
              ∧ PartsTyped limit budget Γ e ts
              ∧ verdict limit budget
                (Γ.scopeOf e (ts.map TypedExpr.ty)) part = .error cause)
            ∨ ∃ ts, ts.length = e.parts.length
              ∧ PartsTyped limit budget Γ e ts
              ∧ Γ.nodeType e (ts.map TypedExpr.ty) = .error cause) := by
  simp only [verdict, transcript, visitNode,
    Transcript.verdict_bind_error_iff,
    Transcript.verdict_ofRule, Transcript.verdict_tell_bind,
    Transcript.verdict_pure, visitParts_ok_iff, visitParts_error_iff,
    reduceCtorEq, and_false, exists_false, or_false, List.nil_append,
    leftToRight_partAccepted_iff]
  constructor
  · rintro (he | ⟨_, he, h | ⟨ts, ⟨_, rfl, hlen, hts⟩, h⟩⟩)
    · exact Or.inl he
    · exact Or.inr ⟨he, Or.inl h⟩
    · exact Or.inr ⟨he, Or.inr ⟨ts, hlen, hts, h⟩⟩
  · rintro (he | ⟨he, h | ⟨ts, hlen, hts, h⟩⟩)
    · exact Or.inl he
    · exact Or.inr ⟨(), he, Or.inl h⟩
    · exact Or.inr ⟨(), he, Or.inr ⟨ts, ⟨ts, rfl, hlen, hts⟩, h⟩⟩

end Levels

end PredicateScript
