import PredicateScript.Event

/-!
# Log sinks

A check hands its events to a sink that the host supplies. The sink keeps
what it receives; it may also break down on an event, and whoever reported
the event is then broken off with a **fault**. A sink breaks down at most
once: `Tripwire` says at which event, and is gone once it has fired. The
event at which the sink breaks down is still in the log.
-/

namespace PredicateScript

/-- **What a broken-down sink leaves behind.** -/
inductive Fault where
  /-- A text that was fixed beforehand. -/
  | literal (message : String)
  /-- A text that was made up for the occasion. -/
  | text (message : String)
  /-- Something that holds no text. -/
  | unreadable
  deriving DecidableEq, Repr, Inhabited

/-- The fault in words. -/
def Fault.describe : Fault → String
  | literal message => message
  | text message => message
  | unreadable => "unknown panic"

/-- **Where a sink breaks down**: at the first event of the given title
after `skip` such events went well. -/
structure Tripwire where
  /-- The title of the event. -/
  title : String
  /-- How many events of this title go well before. -/
  skip : Nat
  /-- What is left behind. -/
  fault : Fault
  deriving DecidableEq, Repr, Inhabited

/-- **A log sink.** -/
structure Sink where
  /-- What was received so far. -/
  log : Array LogEntry
  /-- Where the sink will break down, if it will. -/
  tripwire : Option Tripwire
  deriving Inhabited

namespace Sink

/-- A sink that has received nothing yet. -/
def fresh (tripwire : Option Tripwire) : Sink := ⟨#[], tripwire⟩

/-- Append an entry that no sink breaks down on. -/
def note (s : Sink) (entry : LogEntry) : Sink :=
  { s with log := s.log.push entry }

/-- **The log as it is written out.** -/
def lines (s : Sink) : List LogLine :=
  s.log.toList.map LogEntry.line

/-- **Receive an event**: it is appended to the log, and if it trips the
wire, the fault comes back with the sink. -/
def receive (s : Sink) (e : Event) : Option Fault × Sink :=
  let log := s.log.push (.event e)
  match s.tripwire with
  | none => (none, ⟨log, none⟩)
  | some wire =>
    if wire.title = e.title then
      match wire.skip with
      | 0 => (some wire.fault, ⟨log, none⟩)
      | skip + 1 => (none, ⟨log, some { wire with skip := skip }⟩)
    else (none, ⟨log, some wire⟩)

/-- The event is in the log, whatever else happens. -/
theorem log_receive (s : Sink) (e : Event) :
    (s.receive e).2.log = s.log.push (.event e) := by
  unfold receive
  split
  · rfl
  · split
    · split <;> rfl
    · rfl

@[simp] theorem lines_note (s : Sink) (entry : LogEntry) :
    (s.note entry).lines = s.lines ++ [entry.line] := by
  simp [lines, note]

@[simp] theorem lines_receive (s : Sink) (e : Event) :
    (s.receive e).2.lines = s.lines ++ [e.line] := by
  simp [lines, log_receive, LogEntry.line]

/-- Where events are added to a log, their lines are added to it as it is
written out. -/
theorem lines_eq_of_log_eq {s s' : Sink} {es : List Event}
    (h : s'.log.toList = s.log.toList ++ es.map .event) :
    s'.lines = s.lines ++ es.map Event.line := by
  rw [lines, h, List.map_append, List.map_map]
  rfl

/-- A sink without a tripwire never breaks down. -/
theorem receive_of_tripwire_none {s : Sink} (h : s.tripwire = none)
    (e : Event) : s.receive e = (none, s.note (.event e)) := by
  unfold receive note
  rw [h]

end Sink

end PredicateScript
