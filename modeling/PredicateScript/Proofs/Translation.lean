import PredicateScript.Proofs.Coincidence
import PredicateScript.Proofs.Verdict

/-!
# A check and the check of a translation

A script may be written in other words, against a context that is written
in those words too. A **translation** says how: which script stands for a
script, which type for a type, and which contexts correspond. It has to be
faithful to one node at a time. The entry test and the rule of a node are
to answer the translated node as they answer the node, up to translation of
the answer, and corresponding contexts are to stay so on the way into the
parts. Then whole checks correspond (`Translation.transcript_related`).

Reasons against a script are translated by a relation and not by a
function, since not everything in a reason has to be determined by the
reason it stands for: the names on offer are not. Of the events only the
titles are compared, which is all that a sink goes by; so the outcome
corresponds with every sink, for a checker and for a supervised check
(`Translation.answer_related`, `Translation.checkWith_related`).
-/

namespace PredicateScript

/-- **What a rule answers, in translation**: the translated result, or a
reason that stands for the reason. -/
def AnswerTranslates {ε α β : Type} (E : ε → ε → Prop) (f : α → β)
    (r : Except ε α) (r' : Except ε β) : Prop :=
  match r with
  | .ok a => r' = .ok (f a)
  | .error cause => ∃ cause', r' = .error cause' ∧ E cause cause'

/-- **A translation** of scripts and of what is said about them. -/
structure Translation where
  /-- The script that stands for a script. -/
  expr : Expr → Expr
  /-- The type that stands for a type. -/
  ty : Ty → Ty
  /-- The checked script that stands for a checked script. -/
  tree : TypedExpr → TypedExpr
  /-- The reasons that may stand for a reason. -/
  Cause : Rejection → Rejection → Prop
  /-- The contexts that correspond. -/
  Corresponds : Context → Context → Prop
  /-- The limit is the same. -/
  limit (l : UInt64) : Cause (.depthLimitExceeded l) (.depthLimitExceeded l)
  /-- A reason that is not about the script needs no translation. -/
  internal (message : String) : Cause (.internal message) (.internal message)
  /-- The parts are translated one by one. -/
  parts (e : Expr) : (expr e).parts = e.parts.map expr
  /-- The type of a checked script is translated with it. -/
  root (t : TypedExpr) : (tree t).ty = ty t.ty
  /-- A node is put together from translated parts in translation. -/
  rebuild {e : Expr} {ts : List TypedExpr} (n : Ty)
    (h : ts.length = e.parts.length) :
    (expr e).rebuild (ty n) (ts.map tree) = tree (e.rebuild n ts)
  /-- The entry test answers in translation. -/
  entryTest {Γ Γ' : Context} (h : Corresponds Γ Γ') (e : Expr) :
    AnswerTranslates Cause id (Γ.entryTest e) (Γ'.entryTest (expr e))
  /-- Contexts correspond also inside of a node. -/
  scopeOf {Γ Γ' : Context} (h : Corresponds Γ Γ') (e : Expr)
    (tys : List Ty) :
    Corresponds (Γ.scopeOf e tys) (Γ'.scopeOf (expr e) (tys.map ty))
  /-- On the way into a part the same kinds of event are reported. -/
  scopeEvents (e : Expr) (tys : List Ty) :
    (Context.scopeEvents e tys).map Event.title
      = (Context.scopeEvents (expr e) (tys.map ty)).map Event.title
  /-- At the end of a node the same kinds of event are reported. -/
  nodeEvents {Γ Γ' : Context} (h : Corresponds Γ Γ') (e : Expr)
    (tys : List Ty) :
    (Γ.nodeEvents e tys).map Event.title
      = (Γ'.nodeEvents (expr e) (tys.map ty)).map Event.title
  /-- The rule of a node answers in translation. -/
  nodeType {Γ Γ' : Context} (h : Corresponds Γ Γ') {e : Expr}
    {tys : List Ty} (hlen : tys.length = e.parts.length) :
    AnswerTranslates Cause ty (Γ.nodeType e tys)
      (Γ'.nodeType (expr e) (tys.map ty))

/-! ## Answers and transcripts in translation -/

section Answers

variable {ε α β γ δ : Type} {E : ε → ε → Prop} {f : α → β} {g : γ → δ}
  {r : Except ε α} {r' : Except ε β}

/-- Rules in sequence answer in translation where each of them does. -/
theorem AnswerTranslates.bind {k : α → Except ε γ} {k' : β → Except ε δ}
    (hr : AnswerTranslates E f r r')
    (hk : ∀ a, AnswerTranslates E g (k a) (k' (f a))) :
    AnswerTranslates E g (r >>= k) (r' >>= k') := by
  cases r with
  | ok a =>
    obtain rfl : r' = .ok (f a) := hr
    exact hk a
  | error cause =>
    obtain ⟨cause', rfl, hcause⟩ := hr
    exact ⟨cause', rfl, hcause⟩

theorem AnswerTranslates.map {k : α → γ} {k' : β → δ}
    (hr : AnswerTranslates E f r r') (hk : ∀ a, k' (f a) = g (k a)) :
    AnswerTranslates E g (r.map k) (r'.map k') := by
  cases r with
  | ok a =>
    obtain rfl : r' = .ok (f a) := hr
    exact congrArg Except.ok (hk a)
  | error cause =>
    obtain ⟨cause', rfl, hcause⟩ := hr
    exact ⟨cause', rfl, hcause⟩

end Answers

namespace Translation

variable {α β γ δ : Type} (T : Translation)

/-- **A transcript in translation**: events of the same titles, and a
verdict that answers in translation. -/
def Related (f : α → β) (x : Transcript α) (y : Transcript β) : Prop :=
  x.events.map Event.title = y.events.map Event.title
    ∧ AnswerTranslates T.Cause f x.verdict y.verdict

variable {T} {f : α → β} {g : γ → δ}

theorem related_ofRule {r : Except Rejection α} {r' : Except Rejection β}
    (h : AnswerTranslates T.Cause f r r') :
    T.Related f (.ofRule r) (.ofRule r') :=
  ⟨rfl, h⟩

theorem related_tell {es es' : List Event}
    (h : es.map Event.title = es'.map Event.title) :
    T.Related id (.tell es) (.tell es') :=
  ⟨h, rfl⟩

/-- **Transcripts in sequence** are in translation where each of them is;
the second matters only where the first accepts. -/
theorem Related.bind {x : Transcript α} {y : Transcript β}
    {k : α → Transcript γ} {k' : β → Transcript δ} (hx : T.Related f x y)
    (hk : ∀ a, x.verdict = .ok a → T.Related g (k a) (k' (f a))) :
    T.Related g (x >>= k) (y >>= k') := by
  obtain ⟨hevents, hverdict⟩ := hx
  cases hxv : x.verdict with
  | ok a =>
    rw [hxv] at hverdict
    have hyv : y.verdict = .ok (f a) := hverdict
    obtain ⟨hevents', hverdict'⟩ := hk a hxv
    rw [Transcript.bind_of_ok hxv, Transcript.bind_of_ok hyv]
    refine ⟨?_, hverdict'⟩
    rw [List.map_append, List.map_append, hevents, hevents']
  | error cause =>
    rw [hxv] at hverdict
    obtain ⟨cause', hyv, hcause⟩ := hverdict
    rw [Transcript.bind_of_error hxv, Transcript.bind_of_error hyv]
    exact ⟨hevents, cause', rfl, hcause⟩

/-! ## Whole checks -/

section Visits

variable {Γ Γ' : Context} {e : Expr}
  {visit visit' : Context → Expr → Transcript TypedExpr}

/-- The types of translated trees are the translated types. -/
theorem map_ty_map_tree (T : Translation) (ts : List TypedExpr) :
    (ts.map T.tree).map TypedExpr.ty = (ts.map TypedExpr.ty).map T.ty := by
  rw [List.map_map, List.map_map]
  exact List.map_congr_left (fun t _ => T.root t)

theorem visitParts_related (h : T.Corresponds Γ Γ')
    (hvisit : ∀ {Γ Γ' : Context}, T.Corresponds Γ Γ' → ∀ part : Expr,
      T.Related T.tree (visit Γ part) (visit' Γ' (T.expr part)))
    (done : List TypedExpr) (es : List Expr) :
    T.Related (List.map T.tree) (visitParts visit Γ e done es)
      (visitParts visit' Γ' (T.expr e) (done.map T.tree)
        (es.map T.expr)) := by
  induction es generalizing done with
  | nil => exact ⟨rfl, rfl⟩
  | cons part rest ih =>
    rw [List.map_cons, visitParts, visitParts, T.map_ty_map_tree]
    refine (related_tell (T.scopeEvents e _)).bind (fun _ _ => ?_)
    refine (hvisit (T.scopeOf h e _) part).bind (fun t _ => ?_)
    have hrest := ih (done ++ [t])
    rwa [List.map_append, List.map_singleton] at hrest

/-- **If the visits to the parts are in translation, so is the visit to the
node.** -/
theorem visitNode_related (h : T.Corresponds Γ Γ')
    (hvisit : ∀ {Γ Γ' : Context}, T.Corresponds Γ Γ' → ∀ part : Expr,
      T.Related T.tree (visit Γ part) (visit' Γ' (T.expr part)))
    (e : Expr) :
    T.Related T.tree (visitNode visit Γ e)
      (visitNode visit' Γ' (T.expr e)) := by
  unfold visitNode
  refine (related_ofRule (T.entryTest h e)).bind (fun _ _ => ?_)
  have hparts := visitParts_related (e := e) h hvisit [] e.parts
  rw [List.map_nil, ← T.parts e] at hparts
  refine hparts.bind (fun ts hts => ?_)
  -- the parts that were accepted are as many as the node has
  obtain ⟨us, rfl, hlen, -⟩ := visitParts_ok_iff.mp hts
  rw [T.map_ty_map_tree]
  refine (related_tell (T.nodeEvents h e _)).bind (fun _ _ => ?_)
  have htys := (ts.length_map TypedExpr.ty).trans hlen
  refine (related_ofRule (T.nodeType h htys)).bind (fun n _ => ?_)
  exact ⟨rfl, congrArg Except.ok (T.rebuild n hlen)⟩

/-- **A check of a translation is the check in translation.** -/
theorem transcript_related (T : Translation) (h : T.Corresponds Γ Γ')
    (limit : UInt64) (budget : Nat) (e : Expr) :
    T.Related T.tree (transcript limit budget Γ e)
      (transcript limit budget Γ' (T.expr e)) := by
  induction budget generalizing Γ Γ' e with
  | zero => exact ⟨rfl, _, rfl, T.limit limit⟩
  | succ budget ih => exact visitNode_related h (fun h part => ih h part) e

/-- **The translation of an accepted script is accepted**, as the
translated tree. -/
theorem accepts (T : Translation) (h : T.Corresponds Γ Γ') {c : Checker}
    {t : TypedExpr} (ht : c.Accepts Γ e t) :
    c.Accepts Γ' (T.expr e) (T.tree t) := by
  rw [Checker.accepts_iff, verdict] at ht ⊢
  obtain ⟨-, hverdict⟩ := T.transcript_related h c.config.maxDepth c.budget e
  rwa [ht] at hverdict

end Visits

/-! ## Outcomes -/

/-- **An outcome in translation.** A fault is not about the script and
stays what it is. -/
def OutcomeRelated (T : Translation) : Outcome → Outcome → Prop
  | .accepted t, outcome' => outcome' = .accepted (T.tree t)
  | .rejected cause, outcome' =>
    ∃ cause', outcome' = .rejected cause' ∧ T.Cause cause cause'
  | .broken fault, outcome' => outcome' = .broken fault

/-- A sink goes by the titles of the events. -/
theorem receiveAll_congr_of_title {es es' : List Event}
    (htitles : es.map Event.title = es'.map Event.title) {s s' : Sink}
    (hs : s.tripwire = s'.tripwire) :
    (s.receiveAll es).1 = (s'.receiveAll es').1
      ∧ (s.receiveAll es).2.tripwire = (s'.receiveAll es').2.tripwire := by
  induction es generalizing es' s s' with
  | nil =>
    obtain rfl := List.map_eq_nil_iff.mp htitles.symm
    exact ⟨rfl, hs⟩
  | cons event es ih =>
    obtain ⟨event', es', rfl, htitle, hrest⟩ :=
      List.map_eq_cons_iff.mp htitles.symm
    obtain ⟨hfault, hwire⟩ := Sink.receive_congr_of_title hs htitle.symm
    rw [Sink.receiveAll, Sink.receiveAll]
    rcases h : s.receive event with ⟨_ | fault, s₁⟩ <;>
      rcases h' : s'.receive event' with ⟨_ | fault', s₁'⟩ <;>
      rw [h, h'] at hfault hwire
    · exact ih hrest.symm hwire
    · cases hfault
    · cases hfault
    · exact ⟨hfault, hwire⟩

theorem Related.deliver {x y : Transcript TypedExpr}
    (h : T.Related T.tree x y) {s s' : Sink}
    (hs : s.tripwire = s'.tripwire) :
    T.OutcomeRelated (x.deliver s).1 (y.deliver s').1
      ∧ (x.deliver s).2.tripwire = (y.deliver s').2.tripwire := by
  obtain ⟨hevents, hverdict⟩ := h
  obtain ⟨hfault, hwire⟩ := receiveAll_congr_of_title hevents hs
  rcases hx : s.receiveAll x.events with ⟨_ | fault, s₁⟩
  · rw [hx] at hfault
    rw [Transcript.deliver_of_none (congrArg Prod.fst hx),
      Transcript.deliver_of_none hfault.symm]
    refine ⟨?_, hwire⟩
    cases hxv : x.verdict with
    | ok t =>
      rw [hxv] at hverdict
      exact congrArg Outcome.ofVerdict hverdict
    | error cause =>
      rw [hxv] at hverdict
      obtain ⟨cause', hyv, hcause⟩ := hverdict
      exact ⟨cause', congrArg Outcome.ofVerdict hyv, hcause⟩
  · rcases hy : s'.receiveAll y.events with ⟨_ | fault', s₁'⟩
    · rw [hx, hy] at hfault
      cases hfault
    · rw [hx, hy] at hfault hwire
      rw [Transcript.deliver_of_some hx, Transcript.deliver_of_some hy]
      exact ⟨congrArg Outcome.broken (Option.some.inj hfault.symm), hwire⟩

section Checks

variable {Γ Γ' : Context} (T : Translation) (config : Config) (e : Expr)
  (sink : Sink)

/-- **A checker answers a translation in translation**, with every sink. -/
theorem answer_related (h : T.Corresponds Γ Γ') :
    T.OutcomeRelated ((Checker.new config).answer Γ e sink).1
        ((Checker.new config).answer Γ' (T.expr e) sink).1
      ∧ ((Checker.new config).answer Γ e sink).2.tripwire
        = ((Checker.new config).answer Γ' (T.expr e) sink).2.tripwire := by
  rw [Checker.answer_eq, Checker.answer_eq]
  exact (T.transcript_related h _ _ e).deliver rfl

/-- The shield makes of a fault a reason that is not about the script. -/
theorem toVerdict_translates {outcome outcome' : Outcome}
    (h : T.OutcomeRelated outcome outcome') :
    AnswerTranslates T.Cause T.tree outcome.toVerdict outcome'.toVerdict := by
  cases outcome with
  | accepted t =>
    obtain rfl : outcome' = .accepted (T.tree t) := h
    rfl
  | rejected cause =>
    obtain ⟨cause', rfl, hcause⟩ := h
    exact ⟨cause', rfl, hcause⟩
  | broken fault =>
    obtain rfl : outcome' = .broken fault := h
    exact ⟨_, rfl, T.internal _⟩

/-- **So does a supervised check.** -/
theorem checkWith_related (h : T.Corresponds Γ Γ') :
    T.OutcomeRelated (checkWith config Γ e sink).1
      (checkWith config Γ' (T.expr e) sink).1 := by
  obtain ⟨houtcome, hwire⟩ := T.answer_related config e (sink.begun config) h
  have hverdict := T.toVerdict_translates houtcome
  rw [(checkWith_of_shielded (shielded_eq_toVerdict config Γ e _)).1,
    (checkWith_of_shielded (shielded_eq_toVerdict config Γ' _ _)).1]
  generalize ((Checker.new config).answer Γ e (sink.begun config)).1.toVerdict
    = verdict at hverdict ⊢
  cases verdict with
  | ok t =>
    have hverdict' : _ = Except.ok (T.tree t) := hverdict
    have htitle : (Event.ofVerdict (.ok t)).title
        = (Event.ofVerdict (.ok (T.tree t))).title := rfl
    rw [hverdict', ← (Sink.receive_congr_of_title hwire htitle).1]
    split
    · rfl
    · rfl
  | error cause =>
    obtain ⟨cause', hverdict', hcause⟩ := hverdict
    have htitle : (Event.ofVerdict (.error cause)).title
        = (Event.ofVerdict (.error cause')).title := rfl
    rw [hverdict', ← (Sink.receive_congr_of_title hwire htitle).1]
    split
    · rfl
    · exact ⟨cause', rfl, hcause⟩

end Checks

end Translation

end PredicateScript
