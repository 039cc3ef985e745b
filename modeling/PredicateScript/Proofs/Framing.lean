import PredicateScript.Proofs.Answer

/-!
# The log of a supervised check, and the shield around it

A supervised check writes a frame into the log: it is opened and entered,
then come the events of the walk, then the verdict, and it is exited
(`framed`, `closing`). What is said here of a frame is said of its lines,
the texts that the log can be read as.

The frame is closed whatever happens. What can happen is that the sink
breaks down, and it does so at most once. `Sink.BreaksOn s before e fault`
says that the sink takes the events `before` and then breaks down on `e`.
If `e` is an event of the walk, the walk is broken off there, and the shield
makes it a rejection that quotes the fault. If `e` is the verdict, nothing
is around it and the caller is broken off.

Events are all that a tripwire sees of a check. So it is enough to know the
events and the verdict of the walk with a sink that never breaks down, and
what comes of it with any other sink follows from the place where that sink
breaks down (`checkWith_framed_and_shielded`).
-/

namespace PredicateScript

/-! ## Where a sink breaks down -/

namespace Sink

variable {s s' : Sink} {es before after : List Event} {e : Event}
  {fault : Fault}

/-- **The sink breaks down on an event**, after it has taken others. -/
def BreaksOn (s : Sink) (before : List Event) (e : Event) (fault : Fault) :
    Prop :=
  (s.receiveAll before).1 = none
    ∧ ((s.receiveAll before).2.receive e).1 = some fault

theorem breaksOn_nil_iff :
    s.BreaksOn [] e fault ↔ (s.receive e).1 = some fault := by
  constructor
  · exact fun h => h.2
  · exact fun h => ⟨rfl, h⟩

/-- To break down on an event after others is to take the first of them
and to break down after the rest. -/
theorem breaksOn_cons_iff {b : Event} :
    s.BreaksOn (b :: before) e fault
      ↔ (s.receive b).1 = none ∧ (s.receive b).2.BreaksOn before e fault := by
  unfold BreaksOn
  rw [receiveAll]
  rcases s.receive b with ⟨_ | fault', s'⟩
  · simp
  · simp

/-- A sink breaks down once. -/
theorem tripwire_receive_of_some (h : (s.receive e).1 = some fault) :
    (s.receive e).2.tripwire = none := by
  unfold receive at h ⊢
  dsimp only at h ⊢
  split at h
  · cases h
  · split at h
    · split at h
      · rw [if_pos ‹_›]
      · cases h
    · cases h

/-- **Of an event a sink sees the title**, and of what went before it sees
the tripwire that is left. -/
theorem receive_congr_of_title {e' : Event} (h : s.tripwire = s'.tripwire)
    (htitle : e.title = e'.title) :
    (s.receive e).1 = (s'.receive e').1
      ∧ (s.receive e).2.tripwire = (s'.receive e').2.tripwire := by
  unfold receive
  rw [h, htitle]
  cases s'.tripwire with
  | none => exact ⟨rfl, rfl⟩
  | some wire =>
    dsimp only
    split
    · split <;> exact ⟨rfl, rfl⟩
    · exact ⟨rfl, rfl⟩

theorem receive_congr (h : s.tripwire = s'.tripwire) (e : Event) :
    (s.receive e).1 = (s'.receive e).1
      ∧ (s.receive e).2.tripwire = (s'.receive e).2.tripwire :=
  receive_congr_of_title h rfl

theorem breaksOn_congr (h : s.tripwire = s'.tripwire) :
    s.BreaksOn before e fault ↔ s'.BreaksOn before e fault := by
  induction before generalizing s s' with
  | nil => rw [breaksOn_nil_iff, breaksOn_nil_iff, (receive_congr h e).1]
  | cons b before ih =>
    obtain ⟨hfault, hwire⟩ := receive_congr h b
    rw [breaksOn_cons_iff, breaksOn_cons_iff, hfault, ih hwire]

/-- **Every event can be the one that a sink breaks down on**, and every
fault can be what is left behind. -/
theorem exists_breaksOn (log : Array LogEntry) (before : List Event)
    (e : Event) (fault : Fault) :
    ∃ wire, (Sink.mk log (some wire)).BreaksOn before e fault := by
  -- the wire skips as many events of the title as come before
  refine ⟨⟨e.title, before.countP (fun b => b.title = e.title), fault⟩, ?_⟩
  induction before generalizing log with
  | nil =>
    rw [breaksOn_nil_iff]
    simp [receive]
  | cons b before ih =>
    rw [breaksOn_cons_iff]
    by_cases hb : b.title = e.title
    · simp only [List.countP_cons, hb, receive, decide_true, if_true]
      exact ⟨trivial, ih _⟩
    · simp only [List.countP_cons, receive, decide_eq_true_eq, if_neg hb,
        if_neg (Ne.symm hb)]
      exact ⟨trivial, ih _⟩

/-! ## What a sink has received -/

theorem log_receiveAll_of_none (h : (s.receiveAll es).1 = none) :
    (s.receiveAll es).2.log.toList = s.log.toList ++ es.map .event := by
  induction es generalizing s with
  | nil => simp [receiveAll]
  | cons e es ih =>
    have hlog := s.log_receive e
    rw [receiveAll] at h ⊢
    rcases hs : s.receive e with ⟨_ | fault, s'⟩
    · rw [hs] at h hlog
      have hlog' : s'.log = s.log.push (.event e) := hlog
      show (s'.receiveAll es).2.log.toList = _
      rw [ih h, hlog', Array.toList_push, List.append_assoc]
      rfl
    · rw [hs] at h
      cases h

/-- A sink that does not take all events breaks down on one of them. -/
theorem exists_breaksOn_of_some (h : (s.receiveAll es).1 = some fault) :
    ∃ before e after, es = before ++ e :: after
      ∧ s.BreaksOn before e fault := by
  induction es generalizing s with
  | nil => cases h
  | cons b es ih =>
    rw [receiveAll] at h
    rcases hs : s.receive b with ⟨_ | fault', s'⟩
    · rw [hs] at h
      obtain ⟨before, e, after, rfl, hbreaks⟩ := ih h
      refine ⟨b :: before, e, after, rfl, breaksOn_cons_iff.mpr ?_⟩
      rw [hs]
      exact ⟨rfl, hbreaks⟩
    · rw [hs] at h
      refine ⟨[], b, es, rfl, rfl, ?_⟩
      show (s.receive b).1 = some fault
      rw [hs]
      exact h

/-- A sink that breaks down on none of the events takes them all. -/
theorem receiveAll_eq_none
    (h : ∀ before e after fault, es = before ++ e :: after →
      ¬ s.BreaksOn before e fault) : (s.receiveAll es).1 = none := by
  cases hes : (s.receiveAll es).1 with
  | none => rfl
  | some fault =>
    obtain ⟨before, e, after, hsplit, hbreaks⟩ := exists_breaksOn_of_some hes
    exact absurd hbreaks (h before e after fault hsplit)

/-- **Broken down on an event, a sink has received it and what came
before**, and nothing of what was to come. -/
theorem BreaksOn.receiveAll_eq (h : s.BreaksOn before e fault)
    (after : List Event) :
    ∃ s', s.receiveAll (before ++ e :: after) = (some fault, s')
      ∧ s'.tripwire = none
      ∧ s'.log.toList = s.log.toList ++ (before ++ [e]).map .event := by
  obtain ⟨hbefore, hfault⟩ := h
  refine ⟨((s.receiveAll before).2.receive e).2, ?_,
    tripwire_receive_of_some hfault, ?_⟩
  · rw [receiveAll_append_of_none (Prod.ext hbefore rfl), receiveAll]
    rcases hs : (s.receiveAll before).2.receive e with ⟨_ | fault', s'⟩
    · rw [hs] at hfault
      cases hfault
    · rw [hs] at hfault
      cases hfault
      rfl
  · rw [log_receive, Array.toList_push, log_receiveAll_of_none hbefore]
    simp

end Sink

/-! ## The verdict -/

/-- A verdict as a caller gets it. -/
def Outcome.ofVerdict : Except Rejection TypedExpr → Outcome
  | .ok t => .accepted t
  | .error cause => .rejected cause

/-- The event that a verdict is reported with. -/
def Event.ofVerdict : Except Rejection TypedExpr → Event
  | .ok t => .accepted t.ty
  | .error cause => .rejected cause

/-- **The lines that close the log** after a verdict on a script: that it
is rejected, and for which reason; or that it is accepted, and as what, with
the text of the script in front. -/
def closing (e : Expr) : Except Rejection TypedExpr → List LogLine
  | .ok t =>
    [.recorded [("expr", e.render)],
      .event "script accepted" [("ty", t.ty.render)]]
  | .error cause => [.event "script rejected" [("error", cause.message)]]

/-- **The frame** of a supervised check around what is logged inside. -/
def framed (config : Config) (lines : List LogLine) : List LogLine :=
  .opened [("max_depth", toString config.maxDepth.toNat)] :: .entered
    :: (lines ++ [.exited])

section Verdict

variable {e : Expr} {verdict : Except Rejection TypedExpr} {s : Sink}

/-- Whether the sink breaks down on a verdict does not depend on the text
in front of it. -/
theorem fst_reportVerdict (e : Expr)
    (verdict : Except Rejection TypedExpr) (s : Sink) :
    (reportVerdict e verdict s).1
      = (s.receive (.ofVerdict verdict)).1 := by
  cases verdict with
  | ok t =>
    have hwire : (s.note (.recorded e.render)).tripwire = s.tripwire := rfl
    exact (Sink.receive_congr hwire (.accepted t.ty)).1
  | error cause => rfl

theorem lines_reportVerdict (e : Expr)
    (verdict : Except Rejection TypedExpr) (s : Sink) :
    (reportVerdict e verdict s).2.lines = s.lines ++ closing e verdict := by
  cases verdict with
  | ok t =>
    show ((s.note (.recorded e.render)).receive (.accepted t.ty)).2.lines = _
    rw [Sink.lines_receive, Sink.lines_note, List.append_assoc]
    rfl
  | error cause => exact s.lines_receive (.rejected cause)

/-- **A transcript that a sink takes** comes to its verdict. -/
theorem Transcript.deliver_of_none {x : Transcript TypedExpr}
    (h : (s.receiveAll x.events).1 = none) :
    x.deliver s = (.ofVerdict x.verdict, (s.receiveAll x.events).2) := by
  unfold Transcript.deliver
  rcases hs : s.receiveAll x.events with ⟨_ | fault, s'⟩
  · cases x.verdict <;> rfl
  · rw [hs] at h
    cases h

theorem Transcript.deliver_of_some {x : Transcript TypedExpr} {s' : Sink}
    {fault : Fault} (h : s.receiveAll x.events = (some fault, s')) :
    x.deliver s = (.broken fault, s') := by
  unfold Transcript.deliver
  rw [h]

end Verdict

/-! ## The whole of a supervised check -/

section Supervised

variable {config : Config} {Γ : Context} {e : Expr} {sink : Sink}

/-- The sink as the walk of a supervised check finds it: the frame is
begun. -/
def Sink.begun (sink : Sink) (config : Config) : Sink :=
  (sink.note (.opened config.maxDepth)).note .entered

/-- **A frame that was begun holds the events received since**, and after
them what it is closed with. -/
theorem Sink.lines_framed {s : Sink} {events : List Event}
    (h : s.log.toList
      = (sink.begun config).log.toList ++ events.map .event)
    (closed : List LogLine) :
    s.lines ++ closed ++ [.exited]
      = sink.lines ++ framed config (events.map Event.line ++ closed) := by
  rw [lines_eq_of_log_eq h]
  simp [begun, framed, LogEntry.line]

theorem Sink.breaksOn_begun_iff {before : List Event} {event : Event}
    {fault : Fault} :
    (sink.begun config).BreaksOn before event fault
      ↔ sink.BreaksOn before event fault :=
  Sink.breaksOn_congr rfl

/-- **A supervised check after the walk**: the verdict that the shield lets
through is reported, and the frame is closed. -/
theorem checkWith_of_shielded {verdict : Except Rejection TypedExpr}
    {s : Sink}
    (h : shielded config Γ e (sink.begun config) = (verdict, s)) :
    (checkWith config Γ e sink).1
        = (match (s.receive (.ofVerdict verdict)).1 with
          | some fault => .broken fault
          | none => .ofVerdict verdict)
      ∧ (checkWith config Γ e sink).2.lines
        = s.lines ++ closing e verdict ++ [.exited] := by
  have hfault := fst_reportVerdict e verdict s
  have hlines := lines_reportVerdict e verdict s
  unfold Sink.begun at h
  unfold checkWith
  dsimp only
  rw [h]
  rcases hreport : reportVerdict e verdict s with ⟨fault?, s'⟩
  rw [hreport] at hfault hlines
  refine ⟨?_, ?_⟩
  · rw [← hfault]
    cases fault? with
    | some fault => rfl
    | none => cases verdict <;> rfl
  · show (s'.note .exited).lines = _
    rw [Sink.lines_note, hlines]
    rfl

/-- What the walk of a new checker says of a script. -/
abbrev walkTranscript (config : Config) (Γ : Context) (e : Expr) :
    Transcript TypedExpr :=
  transcript config.maxDepth config.maxDepth.toNat Γ e

/-- A sink that takes the events of the walk lets it come to its
verdict. -/
theorem answer_of_taken
    (h : (sink.receiveAll (walkTranscript config Γ e).events).1 = none) :
    (Checker.new config).answer Γ e sink
      = (.ofVerdict (walkTranscript config Γ e).verdict,
        (sink.receiveAll (walkTranscript config Γ e).events).2) := by
  rw [Checker.answer_eq]
  exact Transcript.deliver_of_none h

/-- A sink that breaks down on an event of the walk breaks it off
there. -/
theorem answer_of_breaksOn {before after : List Event} {event : Event}
    {fault : Fault}
    (hevents : (walkTranscript config Γ e).events = before ++ event :: after)
    (h : sink.BreaksOn before event fault) :
    ∃ s, (Checker.new config).answer Γ e sink = (.broken fault, s)
      ∧ s.tripwire = none
      ∧ s.log.toList
        = sink.log.toList ++ (before ++ [event]).map .event := by
  obtain ⟨s, hs, hwire, hlog⟩ := h.receiveAll_eq after
  rw [← hevents] at hs
  refine ⟨s, ?_, hwire, hlog⟩
  rw [Checker.answer_eq]
  exact Transcript.deliver_of_some hs

/-- **With a sink that takes the events of the walk**, the frame holds them
and the verdict. What is left to the sink is to break down on the
verdict. -/
theorem checkWith_of_taken
    (h : ((sink.begun config).receiveAll
      (walkTranscript config Γ e).events).1 = none) :
    let x := walkTranscript config Γ e
    (checkWith config Γ e sink).2.lines
        = sink.lines
          ++ framed config (x.events.map Event.line ++ closing e x.verdict)
      ∧ ((∀ fault, ¬ sink.BreaksOn x.events (.ofVerdict x.verdict) fault) →
        (checkWith config Γ e sink).1 = .ofVerdict x.verdict)
      ∧ ∀ fault, sink.BreaksOn x.events (.ofVerdict x.verdict) fault →
        (checkWith config Γ e sink).1 = .broken fault := by
  intro x
  have htaken : ((sink.begun config).receiveAll x.events).1 = none := h
  have hshielded : shielded config Γ e (sink.begun config)
      = (x.verdict, ((sink.begun config).receiveAll x.events).2) := by
    rw [shielded_eq, answer_of_taken h]
    cases x.verdict <;> rfl
  obtain ⟨houtcome, hlines⟩ := checkWith_of_shielded hshielded
  refine ⟨?_, fun hnot => ?_, fun fault hbreaks => ?_⟩
  · rw [hlines]
    exact Sink.lines_framed (Sink.log_receiveAll_of_none htaken) _
  · rw [houtcome]
    cases hfault : (((sink.begun config).receiveAll x.events).2.receive
        (.ofVerdict x.verdict)).1 with
    | none => rfl
    | some fault =>
      exact absurd (Sink.breaksOn_begun_iff.mp ⟨htaken, hfault⟩) (hnot fault)
  · rw [houtcome, (Sink.breaksOn_begun_iff.mpr hbreaks).2]

/-- **With a sink that breaks down on an event of the walk**, the frame
holds the events up to that one and the rejection for it. -/
theorem checkWith_of_breaksOn {before after : List Event} {event : Event}
    {fault : Fault}
    (hevents : (walkTranscript config Γ e).events = before ++ event :: after)
    (h : sink.BreaksOn before event fault) :
    let reason : Rejection := .internal fault.describe
    (checkWith config Γ e sink).1 = .rejected reason
      ∧ (checkWith config Γ e sink).2.lines
        = sink.lines
          ++ framed config ((before ++ [event]).map Event.line
            ++ closing e (.error reason)) := by
  intro reason
  obtain ⟨s, hanswer, hwire, hslog⟩ :=
    answer_of_breaksOn hevents (Sink.breaksOn_begun_iff.mpr h)
  have hshielded : shielded config Γ e (sink.begun config)
      = (.error reason, s) := by
    rw [shielded_eq, hanswer]
  obtain ⟨houtcome, hlines⟩ := checkWith_of_shielded hshielded
  refine ⟨?_, ?_⟩
  · -- the sink has broken down already and takes the rejection
    rw [houtcome, Sink.receive_of_tripwire_none hwire]
    rfl
  · rw [hlines]
    exact Sink.lines_framed hslog _

end Supervised

/-- **What a supervised check does with every sink**, from what the walk
does with a sink that never breaks down: the events it reports and the
verdict it comes to.

A sink that breaks down on none of the events sees a frame with the events
and the verdict in it: that the script is rejected, with the message of the
reason; or its text, and that it is accepted, with its type. The caller
gets the verdict, unless the sink breaks down on the verdict itself, and
the log is the same then. A sink that breaks down on one of the events sees
a frame with the events up to that one, and that the script is rejected for
an internal error, with the text that the sink has left behind or words for
there being none. That rejection is what the caller gets; without
supervision the caller is broken off and the log ends with the event. Each
event, and the verdict, can be the one. -/
theorem checkWith_framed_and_shielded (config : Config) (Γ : Context)
    (e : Expr) :
    ∃ (events : List Event) (verdict : Except Rejection TypedExpr),
      (∀ sink : Sink, sink.tripwire = none →
        ((Checker.new config).answer Γ e sink).1 = .ofVerdict verdict
          ∧ ((Checker.new config).answer Γ e sink).2.log.toList
            = sink.log.toList ++ events.map .event)
      ∧ (∀ log before event after fault,
        events ++ [.ofVerdict verdict] = before ++ event :: after →
        ∃ wire, (Sink.mk log (some wire)).BreaksOn before event fault)
      ∧ ∀ sink : Sink,
        ((∀ before event after fault, events = before ++ event :: after →
            ¬ sink.BreaksOn before event fault) →
          ((Checker.new config).answer Γ e sink).1 = .ofVerdict verdict
          ∧ (checkWith config Γ e sink).2.lines
            = sink.lines
              ++ framed config (events.map Event.line ++ closing e verdict)
          ∧ ((∀ fault, ¬ sink.BreaksOn events (.ofVerdict verdict) fault) →
            (checkWith config Γ e sink).1 = .ofVerdict verdict)
          ∧ ∀ fault, sink.BreaksOn events (.ofVerdict verdict) fault →
            (checkWith config Γ e sink).1 = .broken fault)
        ∧ ∀ before event after fault, events = before ++ event :: after →
          sink.BreaksOn before event fault →
          let words : String := match fault with
            | .literal message => message
            | .text message => message
            | .unreadable => "unknown panic"
          (checkWith config Γ e sink).1 = .rejected (.internal words)
          ∧ (checkWith config Γ e sink).2.lines
            = sink.lines
              ++ framed config ((before ++ [event]).map Event.line
                ++ [.event "script rejected"
                  [("error", "internal error while checking: " ++ words)]])
          ∧ ((Checker.new config).answer Γ e sink).1 = .broken fault
          ∧ ((Checker.new config).answer Γ e sink).2.log.toList
            = sink.log.toList ++ (before ++ [event]).map .event := by
  refine ⟨(walkTranscript config Γ e).events,
    (walkTranscript config Γ e).verdict, fun sink hwire => ?_,
    fun log before event after fault _ =>
      Sink.exists_breaksOn log before event fault,
    fun sink => ⟨fun hnone => ?_, fun before event after fault hevents h => ?_⟩⟩
  · have htaken := Sink.receiveAll_of_tripwire_none hwire
      (walkTranscript config Γ e).events
    rw [answer_of_taken htaken]
    exact ⟨rfl, Sink.log_receiveAll_of_none htaken⟩
  · have hbegun : ((sink.begun config).receiveAll
        (walkTranscript config Γ e).events).1 = none :=
      Sink.receiveAll_eq_none (fun before event after fault hsplit hbreaks =>
        hnone before event after fault hsplit
          (Sink.breaksOn_begun_iff.mp hbreaks))
    have hanswer := answer_of_taken (Sink.receiveAll_eq_none hnone)
    exact ⟨congrArg Prod.fst hanswer, checkWith_of_taken hbegun⟩
  · obtain ⟨s, hanswer, -, hlog⟩ := answer_of_breaksOn hevents h
    obtain ⟨houtcome, hframed⟩ := checkWith_of_breaksOn hevents h
    rw [hanswer]
    cases fault <;> exact ⟨houtcome, hframed, rfl, hlog⟩

/-- The check of `{ let a = true; { let b = a; b } }` with a sink that
breaks down on the second binding: what the sink has left behind is quoted
in the rejection, and the log is closed after it. -/
theorem checkWith_framed_and_shielded_second :
    let e : Expr := .letIn () "a" (.lit () (.bool true))
      (.letIn () "b" (.ref () "a") (.ref () "b"))
    let sink := Sink.fresh (some ⟨"let binding", 1, .text "disk full"⟩)
    let result := checkWith {} Context.empty e sink
    result.1 = .rejected (.internal "disk full")
      ∧ result.2.lines
        = [.opened [("max_depth", "100")], .entered,
          .event "let binding" [("binding", "a"), ("ty", "BOOLEAN")],
          .event "let binding" [("binding", "b"), ("ty", "BOOLEAN")],
          .event "script rejected"
            [("error", "internal error while checking: disk full")],
          .exited] := by
  intro e sink result
  obtain ⟨events, verdict, hquiet, -, hsinks⟩ :=
    checkWith_framed_and_shielded {} Context.empty e
  have hlog : [LogEntry.event (.binding "a" .boolean),
      .event (.binding "b" .boolean)] = events.map .event :=
    (hquiet (Sink.fresh none) rfl).2
  have hevents : events = [.binding "a" .boolean, .binding "b" .boolean] := by
    simpa [List.map_eq_cons_iff] using hlog.symm
  obtain ⟨houtcome, hframed, -, -⟩ := (hsinks sink).2
    [.binding "a" .boolean] (.binding "b" .boolean) [] (.text "disk full")
    hevents ⟨rfl, rfl⟩
  exact ⟨houtcome, hframed⟩

end PredicateScript
