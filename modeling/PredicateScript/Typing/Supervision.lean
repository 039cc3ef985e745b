import PredicateScript.Typing.Engine
import PredicateScript.Term.Printer

/-!
# Supervised checks

What a host calls. A supervised check is framed in the log: opened and
entered before, the verdict after, and exited at the end. It also shields
the caller from a sink that breaks down while the script is walked: the
script is then rejected, for an internal reason that quotes the fault. The
verdict itself is reported outside of that shield, so a sink that breaks
down on the verdict breaks off the caller; the log is closed all the same.

The text of a script is noted only once the script is accepted, when its
nesting is known to be within the limit.
-/

namespace PredicateScript

/-- **The verdict on a script**, and the sink after the walk: a fault
inside the walk is a reason to reject. -/
def shielded (config : Config) (Γ : Context) (e : Expr) (sink : Sink) :
    Except Rejection TypedExpr × Sink :=
  match (Checker.new config).run Γ e sink with
  | (.accepted t, _, sink) => (.ok t, sink)
  | (.rejected cause, _, sink) => (.error cause, sink)
  | (.broken fault, _, sink) => (.error (.internal fault.describe), sink)

/-- Report a verdict; with an acceptance, the text of the script goes in
front. -/
def reportVerdict (e : Expr) (verdict : Except Rejection TypedExpr)
    (sink : Sink) : Option Fault × Sink :=
  match verdict with
  | .ok t => (sink.note (.recorded e.render)).receive (.accepted t.ty)
  | .error cause => sink.receive (.rejected cause)

/-- **A supervised check** under a configuration. -/
def checkWith (config : Config) (Γ : Context) (e : Expr) (sink : Sink) :
    Outcome × Sink :=
  let sink := (sink.note (.opened config.maxDepth)).note .entered
  let (verdict, sink) := shielded config Γ e sink
  let (fault?, sink) := reportVerdict e verdict sink
  let outcome : Outcome :=
    match fault?, verdict with
    | some fault, _ => .broken fault
    | none, .ok t => .accepted t
    | none, .error cause => .rejected cause
  (outcome, sink.note .exited)

/-- **A supervised check** under the default configuration. -/
def check (Γ : Context) (e : Expr) (sink : Sink) : Outcome × Sink :=
  checkWith {} Γ e sink

end PredicateScript
