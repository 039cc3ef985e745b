import PredicateScript.Typing.Engine

/-!
# What a walk says

A walk depends on two things it does not choose: the depth it starts at
and the sink it reports to. A **transcript** is what is left of it without
them: the events it reports, in order, and the verdict it ends with.

`Walk.Tells w p x` says that the walk `w`, started where `p` stands, does
what the transcript `x` says. The events go to the sink one by one; a sink
that breaks down on one of them breaks the walk off there, and a sink that
takes them all leaves the walk with the verdict, back at the depth it
started from. Each way to put walks together has a lemma here that puts
their transcripts together, so what is proved about transcripts holds of
walks under every sink.
-/

namespace PredicateScript

/-- **A transcript**: what is reported, and how it ends. -/
@[ext] structure Transcript (α : Type) where
  /-- The events, in order. -/
  events : List Event
  /-- The result, or the reason to reject. -/
  verdict : Except Rejection α

namespace Transcript

variable {α β : Type}

/-- A rule reports nothing. -/
def ofRule (r : Except Rejection α) : Transcript α := ⟨[], r⟩

/-- One event after the other, and then on. -/
def tell (es : List Event) : Transcript Unit := ⟨es, .ok ()⟩

/-- **One transcript after another**; a rejection is the end. -/
protected def bind (x : Transcript α) (f : α → Transcript β) :
    Transcript β :=
  match x.verdict with
  | .ok a => ⟨x.events ++ (f a).events, (f a).verdict⟩
  | .error cause => ⟨x.events, .error cause⟩

instance : Monad Transcript where
  pure a := ofRule (.ok a)
  bind := Transcript.bind

theorem pure_def (a : α) : (pure a : Transcript α) = ⟨[], .ok a⟩ := rfl

theorem bind_of_ok {x : Transcript α} {a : α} (h : x.verdict = .ok a)
    (f : α → Transcript β) :
    x >>= f = ⟨x.events ++ (f a).events, (f a).verdict⟩ := by
  show x.bind f = _
  rw [Transcript.bind, h]

theorem bind_of_error {x : Transcript α} {cause : Rejection}
    (h : x.verdict = .error cause) (f : α → Transcript β) :
    x >>= f = ⟨x.events, .error cause⟩ := by
  show x.bind f = _
  rw [Transcript.bind, h]

protected theorem id_map (x : Transcript α) : id <$> x = x := by
  cases h : x.verdict with
  | ok a =>
    show x >>= (fun a => pure (id a)) = x
    rw [bind_of_ok h, pure_def]
    exact Transcript.ext (List.append_nil _) h.symm
  | error cause =>
    show x >>= (fun a => pure (id a)) = x
    rw [bind_of_error h]
    exact Transcript.ext rfl h.symm

protected theorem bind_assoc {γ : Type} (x : Transcript α)
    (f : α → Transcript β) (g : β → Transcript γ) :
    x >>= f >>= g = x >>= fun a => f a >>= g := by
  cases h : x.verdict with
  | error cause =>
    rw [bind_of_error h, bind_of_error h]
    rfl
  | ok a =>
    rw [bind_of_ok h, bind_of_ok h]
    cases hf : (f a).verdict with
    | ok b => rw [bind_of_ok rfl, bind_of_ok hf, List.append_assoc]
    | error cause => rw [bind_of_error rfl, bind_of_error hf]

instance : LawfulMonad Transcript :=
  LawfulMonad.mk' Transcript Transcript.id_map (fun _ _ => rfl)
    Transcript.bind_assoc

@[simp] theorem tell_nil : tell [] = pure () := rfl

@[simp] theorem ofRule_ok (a : α) : ofRule (.ok a) = pure a := rfl

/-- Two transcripts in sequence accept where both do. -/
theorem verdict_bind_ok_iff {x : Transcript α} {f : α → Transcript β}
    {b : β} :
    (x >>= f).verdict = .ok b
      ↔ ∃ a, x.verdict = .ok a ∧ (f a).verdict = .ok b := by
  cases h : x.verdict with
  | ok a => simp [bind_of_ok h]
  | error cause => simp [bind_of_error h]

/-- A sequence that accepts reports what its two steps report. -/
theorem exists_of_bind_ok {x : Transcript α} {f : α → Transcript β}
    {b : β} (h : (x >>= f).verdict = .ok b) :
    ∃ a, x.verdict = .ok a ∧ (f a).verdict = .ok b
      ∧ (x >>= f).events = x.events ++ (f a).events := by
  obtain ⟨a, hx, hf⟩ := verdict_bind_ok_iff.mp h
  exact ⟨a, hx, hf, by rw [bind_of_ok hx]⟩

/-- Two transcripts in sequence reject where the first does, or where it
accepts and the second rejects. -/
theorem verdict_bind_error_iff {x : Transcript α} {f : α → Transcript β}
    {cause : Rejection} :
    (x >>= f).verdict = .error cause
      ↔ x.verdict = .error cause
        ∨ ∃ a, x.verdict = .ok a ∧ (f a).verdict = .error cause := by
  cases h : x.verdict with
  | ok a => simp [bind_of_ok h]
  | error cause => simp [bind_of_error h]

@[simp] theorem verdict_pure (a : α) :
    (pure a : Transcript α).verdict = .ok a := rfl

@[simp] theorem verdict_ofRule (r : Except Rejection α) :
    (ofRule r).verdict = r := rfl

/-- What is reported has no say in the verdict. -/
@[simp] theorem verdict_tell_bind (es : List Event)
    (f : Unit → Transcript α) : (tell es >>= f).verdict = (f ()).verdict :=
  rfl

end Transcript

/-! ## Events into a sink -/

namespace Sink

/-- **Receive events** one after the other, up to the first that the sink
breaks down on. -/
def receiveAll (s : Sink) : List Event → Option Fault × Sink
  | [] => (none, s)
  | e :: es =>
    match s.receive e with
    | (none, s) => s.receiveAll es
    | (some fault, s) => (some fault, s)

theorem receiveAll_append_of_none {s s' : Sink} {es : List Event}
    (h : s.receiveAll es = (none, s')) (fs : List Event) :
    s.receiveAll (es ++ fs) = s'.receiveAll fs := by
  induction es generalizing s with
  | nil =>
    cases h
    rfl
  | cons e es ih =>
    rw [receiveAll] at h
    rw [List.cons_append, receiveAll]
    split at h
    · exact ih h
    · cases h

theorem receiveAll_append_of_some {s s' : Sink} {es : List Event}
    {fault : Fault} (h : s.receiveAll es = (some fault, s'))
    (fs : List Event) : s.receiveAll (es ++ fs) = (some fault, s') := by
  induction es generalizing s with
  | nil => cases h
  | cons e es ih =>
    rw [receiveAll] at h
    rw [List.cons_append, receiveAll]
    split at h
    · exact ih h
    · exact h

/-- A sink without a tripwire takes all events. -/
theorem receiveAll_of_tripwire_none {s : Sink} (h : s.tripwire = none)
    (es : List Event) : (s.receiveAll es).1 = none := by
  induction es generalizing s with
  | nil => rfl
  | cons e es ih =>
    rw [receiveAll, receive_of_tripwire_none h]
    exact ih (s := s.note (.event e)) h

end Sink

/-! ## Walks and their transcripts -/

namespace Walk

variable {α β : Type}

/-- **The walk does what the transcript says**, from where `p` stands. Of
a walk that was broken off nothing is said about the depth, since only a
walk that ends by itself comes back to where it started. -/
def Tells (w : Walk α) (p : Progress) (x : Transcript α) : Prop :=
  match p.sink.receiveAll x.events with
  | (some fault, sink) => ∃ depth, w p = .error (.fault fault) ⟨depth, sink⟩
  | (none, sink) =>
    match x.verdict with
    | .ok a => w p = .ok a ⟨p.depth, sink⟩
    | .error cause => w p = .error (.rejection cause) ⟨p.depth, sink⟩

/-- A walk that comes back with a result was told to. -/
theorem Tells.verdict_of_ok {w : Walk α} {p q : Progress}
    {x : Transcript α} {a : α} (hw : Tells w p x) (h : w p = .ok a q) :
    x.verdict = .ok a := by
  rw [Tells] at hw
  split at hw
  · obtain ⟨depth, hw⟩ := hw
    cases h.symm.trans hw
  · split at hw
    · next hx =>
      cases h.symm.trans hw
      exact hx
    · cases h.symm.trans hw

theorem tells_pure (a : α) (p : Progress) :
    Tells (pure a) p (pure a) := rfl

theorem tells_ofRule (r : Except Rejection α) (p : Progress) :
    Tells (ofRule r) p (.ofRule r) := by
  cases r <;> rfl

theorem tells_emit (e : Event) (p : Progress) :
    Tells (emit e) p (.tell [e]) := by
  unfold Tells emit Transcript.tell Sink.receiveAll
  rcases p.sink.receive e with ⟨_ | fault, sink⟩
  · rfl
  · exact ⟨p.depth, rfl⟩

theorem bind_of_eq_ok {w : Walk α} {p q : Progress} {a : α}
    (h : w p = .ok a q) (f : α → Walk β) : (w >>= f) p = f a q := by
  show EStateM.bind w f p = f a q
  rw [EStateM.bind, h]

theorem bind_of_eq_error {w : Walk α} {p q : Progress} {halt : Halt}
    (h : w p = .error halt q) (f : α → Walk β) :
    (w >>= f) p = .error halt q := by
  show EStateM.bind w f p = .error halt q
  rw [EStateM.bind, h]

/-- Two walks in sequence come back where both do. -/
theorem bind_eq_ok {w : Walk α} {f : α → Walk β} {p r : Progress} {b : β}
    (h : (w >>= f) p = .ok b r) :
    ∃ a q, w p = .ok a q ∧ f a q = .ok b r := by
  cases hw : w p with
  | ok a q =>
    rw [bind_of_eq_ok hw] at h
    exact ⟨a, q, rfl, h⟩
  | error halt q =>
    rw [bind_of_eq_error hw] at h
    cases h

/-- **Walks in sequence tell their transcripts in sequence.** The second
walk starts at the depth of the first, with the sink as the first left
it. -/
theorem Tells.bind {w : Walk α} {f : α → Walk β} {p : Progress}
    {x : Transcript α} {g : α → Transcript β} (hw : Tells w p x)
    (hf : ∀ a sink, x.verdict = .ok a →
      Tells (f a) ⟨p.depth, sink⟩ (g a)) :
    Tells (w >>= f) p (x >>= g) := by
  rcases hes : p.sink.receiveAll x.events with ⟨_ | fault, sink⟩
  · cases hx : x.verdict with
    | ok a =>
      -- the second walk goes on where the first has left the sink
      rw [Tells, hes, hx] at hw
      have hnext := hf a sink hx
      rw [Transcript.bind_of_ok hx]
      unfold Tells at hnext ⊢
      rw [Sink.receiveAll_append_of_none hes, bind_of_eq_ok hw]
      exact hnext
    | error cause =>
      rw [Tells, hes, hx] at hw
      rw [Transcript.bind_of_error hx, Tells, hes]
      exact bind_of_eq_error hw f
  · rw [Tells, hes] at hw
    obtain ⟨depth, hw⟩ := hw
    have hrun := bind_of_eq_error hw f
    cases hx : x.verdict with
    | ok a =>
      rw [Transcript.bind_of_ok hx, Tells,
        Sink.receiveAll_append_of_some hes]
      exact ⟨depth, hrun⟩
    | error cause =>
      rw [Transcript.bind_of_error hx, Tells, hes]
      exact ⟨depth, hrun⟩

/-- Below the limit the count of levels does not wrap around. -/
theorem toNat_succ_of_lt {depth limit : UInt64} (h : depth < limit) :
    (depth + 1).toNat = depth.toNat + 1 := by
  have hlt := UInt64.lt_iff_toNat_lt.mp h
  have hword := limit.toNat_lt
  rw [UInt64.toNat_add, UInt64.toNat_one]
  omega

/-- **A level deeper is a level of the budget.** Below the limit the depth
counts up before the walk and down after it; a walk through `w` from one
level deeper tells what the step into it tells. -/
theorem Tells.descend {limit : UInt64} {w : Walk α} {p : Progress}
    {x : Transcript α} (hp : p.depth < limit)
    (hw : Tells w ⟨p.depth + 1, p.sink⟩ x) :
    Tells (descend limit w) p x := by
  have hback : p.depth + 1 - 1 = p.depth := UInt64.add_sub_cancel ..
  have hlt : ¬ limit ≤ p.depth := UInt64.not_le.mpr hp
  rcases hes : p.sink.receiveAll x.events with ⟨_ | fault, sink⟩
  · rw [Tells, hes] at hw ⊢
    cases hx : x.verdict with
    | ok a =>
      rw [hx] at hw
      show Walk.descend limit w p = .ok a ⟨p.depth, sink⟩
      rw [Walk.descend, if_neg hlt, hw]
      simp only [hback]
    | error cause =>
      rw [hx] at hw
      show Walk.descend limit w p
        = .error (.rejection cause) ⟨p.depth, sink⟩
      rw [Walk.descend, if_neg hlt, hw]
      simp only [hback]
  · rw [Tells, hes] at hw ⊢
    obtain ⟨depth, hw⟩ := hw
    refine ⟨depth, ?_⟩
    rw [Walk.descend, if_neg hlt, hw]

/-- At the limit a node is rejected unseen. -/
theorem tells_descend_of_le {limit : UInt64} {p : Progress}
    (hp : limit ≤ p.depth) (w : Walk α) :
    Tells (descend limit w) p
      (.ofRule (.error (.depthLimitExceeded limit))) :=
  if_pos hp

end Walk

end PredicateScript
