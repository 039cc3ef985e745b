import PredicateScript.Proofs.Scope

/-!
# Who is to blame for a rejection

A script can be wrong in many places, and one of them is reported. Which
one is said here without the walk. A node **fails** by itself if it is too
deep, if it does not pass its entry test, or if all of its parts are
accepted and its own rule rejects (`FailsAt`). It is **to blame** if it
fails, everything above it lets the walk through to its parts, and
everything to the left of the way to it is accepted (`Blamed`).

A rejected script has one node to blame, and only one
(`Checker.rejected_existsUnique_blamed`). There is one, because the walk
stops at it. There is no other: of two, the way to one would lead through
the other, or pass it on the right, and so the other would be a node that
fails inside a script that is accepted.
-/

namespace PredicateScript

/-- A checker that stands `depth` levels deep in a script. -/
def Checker.atDepth (limit : UInt64) (depth : Nat) : Checker :=
  ⟨⟨limit⟩, .ofNat depth⟩

/-- **A node fails by itself**, `depth` levels deep and in the scope `S`,
and `cause` is why. -/
inductive FailsAt (limit : UInt64) (depth : Nat) (S : Context) (e : Expr) :
    Rejection → Prop where
  /-- It is too deep to be looked at. -/
  | tooDeep (hdepth : limit.toNat ≤ depth) :
      FailsAt limit depth S e (.depthLimitExceeded limit)
  /-- It does not pass what is asked before its parts are looked at. -/
  | entry {cause : Rejection} (hdepth : depth < limit.toNat)
      (hentry : S.entryTest e = .error cause) :
      FailsAt limit depth S e cause
  /-- Its parts are all accepted, and its rule rejects their types. -/
  | rule {cause : Rejection} {ts : List TypedExpr}
      (hdepth : depth < limit.toNat) (hentry : S.entryTest e = .ok ())
      (hlen : ts.length = e.parts.length)
      (hparts : ∀ i part t, e.parts[i]? = some part → ts[i]? = some t →
        ∃ S', Reaches S e [i] S' part
          ∧ (Checker.atDepth limit (depth + 1)).Accepts S' part t)
      (hrule : S.nodeType e (ts.map TypedExpr.ty) = .error cause) :
      FailsAt limit depth S e cause

/-- **The node at `p` is to blame** for the rejection of `e`, which stands
`depth` levels deep. -/
structure Blamed (limit : UInt64) (depth : Nat) (Γ : Context) (e : Expr)
    (cause : Rejection) (p : List Nat) : Prop where
  /-- The node fails by itself, for this reason. -/
  own : ∃ S sub, Reaches Γ e p S sub
    ∧ FailsAt limit (depth + p.length) S sub cause
  /-- The nodes above it let the walk through to their parts. -/
  above : ∀ q i r, p = q ++ i :: r →
    ∃ S sub, Reaches Γ e q S sub ∧ depth + q.length < limit.toNat
      ∧ S.entryTest sub = .ok ()
  /-- What lies to the left of the way to it is accepted. -/
  before : ∀ q i r, p = q ++ i :: r → ∀ j < i,
    ∃ S sub t, Reaches Γ e (q ++ [j]) S sub
      ∧ (Checker.atDepth limit (depth + q.length + 1)).Accepts S sub t

section Levels

variable {limit : UInt64} {depth : Nat} {Γ : Context} {e : Expr}
  {t : TypedExpr} {cause : Rejection}

/-- A checker that is not past the limit has the rest of the levels
left. -/
theorem Checker.budget_atDepth (h : depth ≤ limit.toNat) :
    (Checker.atDepth limit depth).budget = limit.toNat - depth := by
  have hlt : depth < 2 ^ 64 := Nat.lt_of_le_of_lt h limit.toNat_lt
  show limit.toNat - (UInt64.ofNat depth).toNat = limit.toNat - depth
  rw [UInt64.toNat_ofNat_of_lt' hlt]

theorem Checker.atDepth_accepts_iff (h : depth ≤ limit.toNat) :
    (Checker.atDepth limit depth).Accepts Γ e t
      ↔ verdict limit (limit.toNat - depth) Γ e = .ok t := by
  rw [accepts_iff, budget_atDepth h]
  rfl

/-- The root is to blame where it fails by itself. -/
theorem blamed_nil_iff :
    Blamed limit depth Γ e cause [] ↔ FailsAt limit depth Γ e cause := by
  constructor
  · intro h
    obtain ⟨S, sub, hsub, hfails⟩ := h.own
    cases hsub
    exact hfails
  · intro h
    exact ⟨⟨Γ, e, .root, h⟩, fun q i r hq => by simp at hq,
      fun q i r hq => by simp at hq⟩

/-- **One level of the way to the node to blame**: the root lets the walk
through, the parts to the left are accepted, and the node is to blame for
the rejection of the part it lies in. -/
theorem blamed_cons_iff {i : Nat} {p : List Nat} :
    Blamed limit depth Γ e cause (i :: p)
      ↔ depth < limit.toNat ∧ Γ.entryTest e = .ok ()
        ∧ (∀ j < i, ∃ S sub t, Reaches Γ e [j] S sub
          ∧ (Checker.atDepth limit (depth + 1)).Accepts S sub t)
        ∧ ∃ Γ' part, Reaches Γ e [i] Γ' part
          ∧ Blamed limit (depth + 1) Γ' part cause p := by
  have hlevel : ∀ q : List Nat,
      depth + (i :: q).length = depth + 1 + q.length := fun q => by
    rw [List.length_cons]
    omega
  constructor
  · intro h
    obtain ⟨S, sub, hroot, hdepth, hentry⟩ := h.above [] i p rfl
    cases hroot
    refine ⟨hdepth, hentry, h.before [] i p rfl, ?_⟩
    obtain ⟨S, sub, hsub, hfails⟩ := h.own
    obtain ⟨Γ', part, hstep, hsub⟩ := Reaches.cons_iff.mp hsub
    refine ⟨Γ', part, hstep, ⟨S, sub, hsub, ?_⟩, ?_, ?_⟩
    · rw [← hlevel]
      exact hfails
    · intro q i' r hq
      obtain ⟨S, sub, hsub, hdepth, hentry⟩ :=
        h.above (i :: q) i' r (by rw [hq, List.cons_append])
      refine ⟨S, sub, hstep.step_iff.mp hsub, ?_, hentry⟩
      rw [← hlevel]
      exact hdepth
    · intro q i' r hq j hj
      obtain ⟨S, sub, t, hsub, ht⟩ :=
        h.before (i :: q) i' r (by rw [hq, List.cons_append]) j hj
      refine ⟨S, sub, t, hstep.step_iff.mp hsub, ?_⟩
      rw [← hlevel]
      exact ht
  · rintro ⟨hdepth, hentry, hleft, Γ', part, hstep, h⟩
    obtain ⟨S, sub, hsub, hfails⟩ := h.own
    refine ⟨⟨S, sub, hstep.step_iff.mpr hsub, ?_⟩, ?_, ?_⟩
    · rw [hlevel]
      exact hfails
    · intro q i' r hq
      cases q with
      | nil => exact ⟨Γ, e, .root, hdepth, hentry⟩
      | cons _ q =>
        obtain ⟨rfl, hp⟩ := List.cons.inj hq
        obtain ⟨S, sub, hsub, hdepth, hentry⟩ := h.above q i' r hp
        refine ⟨S, sub, hstep.step_iff.mpr hsub, ?_, hentry⟩
        rw [hlevel]
        exact hdepth
    · intro q i' r hq
      cases q with
      | nil =>
        obtain ⟨rfl, rfl⟩ := List.cons.inj hq
        exact hleft
      | cons _ q =>
        obtain ⟨rfl, hp⟩ := List.cons.inj hq
        intro j hj
        obtain ⟨S, sub, t, hsub, ht⟩ := h.before q i' r hp j hj
        refine ⟨S, sub, t, hstep.step_iff.mpr hsub, ?_⟩
        rw [hlevel]
        exact ht

/-! ## There is a node to blame -/

/-- Typed parts are accepted in their scopes, a level deeper. -/
theorem PartsTyped.exists_accepts {ts : List TypedExpr} {i : Nat}
    {part : Expr} (hdepth : depth < limit.toNat)
    (hts : PartsTyped limit (limit.toNat - (depth + 1)) Γ e ts)
    (hpart : e.parts[i]? = some part) (ht : ts[i]? = some t) :
    ∃ S, Reaches Γ e [i] S part
      ∧ (Checker.atDepth limit (depth + 1)).Accepts S part t := by
  have hi : i < ts.length := (List.getElem?_eq_some_iff.mp ht).1
  refine ⟨_, reaches_part hts (Nat.le_of_lt hi) hpart, ?_⟩
  exact (Checker.atDepth_accepts_iff hdepth).mpr (hts i part t hpart ht)

/-- **A rejected script has a node to blame.** -/
theorem exists_blamed {budget : Nat} (hdepth : depth ≤ limit.toNat)
    (hbudget : limit.toNat - depth = budget)
    (h : verdict limit budget Γ e = .error cause) :
    ∃ p, Blamed limit depth Γ e cause p := by
  induction budget generalizing depth Γ e with
  | zero =>
    cases h
    exact ⟨[], blamed_nil_iff.mpr (.tooDeep (by omega))⟩
  | succ budget ih =>
    have hlt : depth < limit.toNat := by omega
    obtain rfl : limit.toNat - (depth + 1) = budget := by omega
    obtain hentry | ⟨hentry, ⟨ts, part, hpart, hts, h⟩ | ⟨ts, hlen, hts, h⟩⟩ :=
      verdict_succ_error_iff.mp h
    · exact ⟨[], blamed_nil_iff.mpr (.entry hlt hentry)⟩
    · -- the part after the last typed one is rejected
      have hstep := reaches_part hts (Nat.le_refl _) hpart
      rw [List.take_length] at hstep
      obtain ⟨p, hp⟩ := ih hlt rfl h
      refine ⟨ts.length :: p, blamed_cons_iff.mpr
        ⟨hlt, hentry, fun j hj => ?_, _, part, hstep, hp⟩⟩
      have hj' : j < e.parts.length :=
        Nat.lt_trans hj (List.getElem?_eq_some_iff.mp hpart).1
      obtain ⟨S, hS, ht⟩ := hts.exists_accepts hlt
        (List.getElem?_eq_getElem hj') (List.getElem?_eq_getElem hj)
      exact ⟨S, _, _, hS, ht⟩
    · exact ⟨[], blamed_nil_iff.mpr (.rule hlt hentry hlen
        (fun i part t hpart ht => hts.exists_accepts hlt hpart ht) h)⟩

/-! ## There is no other -/

/-- The parts of a node are typed in one way at most. -/
theorem PartsTyped.eq_of_accepts {ts us : List TypedExpr}
    (hdepth : depth < limit.toNat)
    (hts : PartsTyped limit (limit.toNat - (depth + 1)) Γ e ts)
    (hlen : ts.length = e.parts.length) (hlen' : us.length = e.parts.length)
    (hus : ∀ i part u, e.parts[i]? = some part → us[i]? = some u →
      ∃ S, Reaches Γ e [i] S part
        ∧ (Checker.atDepth limit (depth + 1)).Accepts S part u) :
    us = ts := by
  refine List.ext_getElem (hlen'.trans hlen.symm) (fun i hi hi' => ?_)
  have hpart : i < e.parts.length := by omega
  obtain ⟨S, hS, hu⟩ := hus i _ _ (List.getElem?_eq_getElem hpart)
    (List.getElem?_eq_getElem hi)
  obtain ⟨S', hS', ht⟩ := hts.exists_accepts hdepth
    (List.getElem?_eq_getElem hpart) (List.getElem?_eq_getElem hi')
  obtain ⟨rfl, -⟩ := hS.unique hS'
  rw [Checker.atDepth_accepts_iff hdepth] at hu ht
  exact Except.ok.inj (hu.symm.trans ht)

/-- What the root of a script that is accepted has gone through. -/
theorem root_of_verdict_ok
    (h : verdict limit (limit.toNat - depth) Γ e = .ok t) :
    depth < limit.toNat ∧ Γ.entryTest e = .ok ()
      ∧ ∃ ts ty, ts.length = e.parts.length
        ∧ PartsTyped limit (limit.toNat - (depth + 1)) Γ e ts
        ∧ Γ.nodeType e (ts.map TypedExpr.ty) = .ok ty := by
  cases hbudget : limit.toNat - depth with
  | zero =>
    rw [hbudget, verdict_zero] at h
    cases h
  | succ budget =>
    obtain rfl : limit.toNat - (depth + 1) = budget := by omega
    rw [hbudget] at h
    obtain ⟨hentry, ts, ty, hlen, hts, hty, -⟩ := verdict_succ_ok_iff.mp h
    exact ⟨by omega, hentry, ts, ty, hlen, hts, hty⟩

/-- A script that is accepted does not fail at its root. -/
theorem not_failsAt_root
    (h : verdict limit (limit.toNat - depth) Γ e = .ok t) :
    ¬ FailsAt limit depth Γ e cause := by
  obtain ⟨hlt, hentry, ts, ty, hlen, hts, hty⟩ := root_of_verdict_ok h
  intro hfails
  cases hfails with
  | tooDeep hdepth => omega
  | entry _ hentry' => cases hentry.symm.trans hentry'
  | rule _ _ hlen' hparts hrule =>
    rw [hts.eq_of_accepts hlt hlen hlen' hparts] at hrule
    cases hty.symm.trans hrule

/-- **Nothing fails inside a script that is accepted.** -/
theorem not_failsAt_of_verdict_ok {S : Context} {sub : Expr} {p : List Nat}
    (h : verdict limit (limit.toNat - depth) Γ e = .ok t)
    (hsub : Reaches Γ e p S sub) :
    ¬ FailsAt limit (depth + p.length) S sub cause := by
  induction p generalizing depth Γ e t with
  | nil =>
    cases hsub
    exact not_failsAt_root h
  | cons i p ih =>
    obtain ⟨hlt, -, ts, -, hlen, hts, -⟩ := root_of_verdict_ok h
    obtain ⟨Γ', part, hstep, hsub⟩ := Reaches.cons_iff.mp hsub
    obtain ⟨u, hu, -⟩ := hts.exists_at hlen hstep.parts_eq
    obtain ⟨S', hstep', ht⟩ := hts.exists_accepts hlt hstep.parts_eq hu
    obtain ⟨rfl, -⟩ := hstep.unique hstep'
    rw [List.length_cons, ← Nat.add_assoc, Nat.add_right_comm]
    exact ih ((Checker.atDepth_accepts_iff hlt).mp ht) hsub

/-- A script that is accepted has nothing to blame for a rejection. -/
theorem not_blamed_of_verdict_ok {p : List Nat}
    (h : verdict limit (limit.toNat - depth) Γ e = .ok t) :
    ¬ Blamed limit depth Γ e cause p := by
  intro hp
  obtain ⟨S, sub, hsub, hfails⟩ := hp.own
  exact not_failsAt_of_verdict_ok h hsub hfails

/-- Where the root fails by itself, it alone is to blame. -/
theorem FailsAt.not_blamed_cons {cause' : Rejection} {i : Nat}
    {p : List Nat} (h : FailsAt limit depth Γ e cause) :
    ¬ Blamed limit depth Γ e cause' (i :: p) := by
  intro hp
  obtain ⟨hlt, hentry, -, Γ', part, hstep, hp⟩ := blamed_cons_iff.mp hp
  cases h with
  | tooDeep hdepth => omega
  | entry _ hentry' => cases hentry.symm.trans hentry'
  | @rule _ ts _ _ hlen hparts _ =>
    -- all parts are accepted, and so is the one with the node to blame
    have hi : i < ts.length := by
      rw [hlen]
      exact (List.getElem?_eq_some_iff.mp hstep.parts_eq).1
    obtain ⟨S, hstep', ht⟩ :=
      hparts i part _ hstep.parts_eq (List.getElem?_eq_getElem hi)
    obtain ⟨rfl, -⟩ := hstep.unique hstep'
    exact not_blamed_of_verdict_ok
      ((Checker.atDepth_accepts_iff hlt).mp ht) hp

/-- The way to the node to blame does not pass another one on the
right. -/
theorem Blamed.not_lt {cause' : Rejection} {i i' : Nat} {p p' : List Nat}
    (h : Blamed limit depth Γ e cause (i :: p))
    (h' : Blamed limit depth Γ e cause' (i' :: p')) : ¬ i < i' := by
  intro hlt
  obtain ⟨-, -, -, Γ', part, hstep, hp⟩ := blamed_cons_iff.mp h
  obtain ⟨hdepth, -, hleft, -⟩ := blamed_cons_iff.mp h'
  obtain ⟨S, sub, t, hstep', ht⟩ := hleft i hlt
  obtain ⟨rfl, rfl⟩ := hstep.unique hstep'
  exact not_blamed_of_verdict_ok
    ((Checker.atDepth_accepts_iff hdepth).mp ht) hp

/-- **One node at most is to blame**, whatever for. -/
theorem Blamed.unique {cause' : Rejection} {p p' : List Nat}
    (h : Blamed limit depth Γ e cause p)
    (h' : Blamed limit depth Γ e cause' p') : p = p' := by
  induction p generalizing depth Γ e p' with
  | nil =>
    cases p' with
    | nil => rfl
    | cons i' p' => exact absurd h' (blamed_nil_iff.mp h).not_blamed_cons
  | cons i p ih =>
    cases p' with
    | nil => exact absurd h (blamed_nil_iff.mp h').not_blamed_cons
    | cons i' p' =>
      -- neither way passes the other on the right, so they start alike
      obtain rfl : i = i' :=
        Nat.le_antisymm (Nat.le_of_not_lt (h'.not_lt h))
          (Nat.le_of_not_lt (h.not_lt h'))
      obtain ⟨-, -, -, Γ', part, hstep, hp⟩ := blamed_cons_iff.mp h
      obtain ⟨-, -, -, Γ'', part', hstep', hp'⟩ := blamed_cons_iff.mp h'
      obtain ⟨rfl, rfl⟩ := hstep.unique hstep'
      rw [ih hp hp']

end Levels

/-! ## The report -/

/-- **The first error wins.** A rejected script has exactly one node to
blame, and the reported cause is why that node fails. -/
theorem Checker.rejected_existsUnique_blamed {limit : UInt64} {Γ : Context}
    {e : Expr} {sink : Sink} {cause : Rejection}
    (h : ((Checker.new ⟨limit⟩).run Γ e sink).1 = .rejected cause) :
    ∃! p, Blamed limit 0 Γ e cause p := by
  have hverdict : verdict limit limit.toNat Γ e = .error cause := by
    have hc := verdict_of_rejected h
    rw [budget_new] at hc
    exact hc
  obtain ⟨p, hp⟩ := exists_blamed (Nat.zero_le _) (Nat.sub_zero _) hverdict
  exact ⟨p, hp, fun p' hp' => hp'.unique hp⟩

/-- Two things are wrong with `choose(height, tx.fee.low) + gone(1)` in the
sample host: an integer has no fields, and there is no function `gone`.
The one on the left is reported. -/
theorem Checker.rejected_existsUnique_blamed_low :
    let e : Expr := .binary () .sum
      (.call () "choose" [.ref () "height",
        .access () (.access () (.ref () "tx") "fee") "low"])
      (.call () "gone" [Expr.long 1])
    let cause : Rejection := .fieldOfPrimitive .long "low"
    ((Checker.new ⟨5⟩).run sampleContext e (Sink.fresh none)).1
        = .rejected cause
      ∧ ∃! p, Blamed 5 0 sampleContext e cause p := by
  intro e cause
  have h : ((Checker.new ⟨5⟩).run sampleContext e (Sink.fresh none)).1
      = .rejected cause := rfl
  exact ⟨h, Checker.rejected_existsUnique_blamed h⟩

end PredicateScript
