import PredicateScript.Rejection
import PredicateScript.Substitution
import PredicateScript.Text.Quoted

/-!
# What a check reports as it goes

A check tells a log what it does. Three events come from the walk over the
script, one for each decision that the type of the root does not show: how
a call filled in the placeholders of its signature, what type a binding
gave its name, and that a condition was taken although it is not a truth
value. Two more close a supervised check with its verdict. Around the
events the log shows when the check was opened, entered and left, and the
text of an accepted script.

A log is kept as entries and read as lines. `LogEntry.line` is how an entry
is written out: by then an event is a title and a list of texts, each with
a name, and nothing else of it is left.
-/

namespace PredicateScript

/-- **An event of a check.** -/
inductive Event where
  /-- A call filled in the placeholders of a signature. -/
  | instantiation (function : String) (filled : Substitution) (result : Ty)
  /-- A binding gave its name a type. -/
  | binding (name : String) (ty : Ty)
  /-- A condition of this type, which is not the boolean one. -/
  | looseCondition (ty : Ty)
  /-- The script is accepted and has this type. -/
  | accepted (ty : Ty)
  /-- The script is rejected. -/
  | rejected (cause : Rejection)

namespace Event

/-- **What an event says**, the same for all events of its kind. -/
def title : Event → String
  | instantiation .. => "generic instantiation"
  | binding .. => "let binding"
  | looseCondition .. => "non-boolean if condition"
  | accepted .. => "script accepted"
  | rejected .. => "script rejected"

/-- One filled-in placeholder: `'T=LONG`. -/
def filledText (entry : Placeholder × Ty) : String :=
  entry.1.render ++ "=" ++ entry.2.render

/-- **The particulars of an event**, each with its name, as texts. -/
def fields : Event → List (String × String)
  | instantiation function filled result =>
    [("func", function),
      ("type_args", Text.quotedList (filled.entries.map filledText)),
      ("result", result.render)]
  | binding name ty => [("binding", name), ("ty", ty.render)]
  | looseCondition ty => [("ty", ty.render)]
  | accepted ty => [("ty", ty.render)]
  | rejected cause => [("error", cause.message)]

end Event

/-- **An entry of the log.** -/
inductive LogEntry where
  /-- A supervised check under this depth limit was set up. -/
  | opened (maxDepth : UInt64)
  /-- The check began. -/
  | entered
  /-- The text of the script, noted once the script is accepted. -/
  | recorded (script : String)
  /-- An event was reported. -/
  | event (event : Event)
  /-- The check was left. -/
  | exited

/-- **A line of the log**, as it is written out. -/
inductive LogLine where
  /-- A check was set up, with these settings. -/
  | opened (settings : List (String × String))
  /-- The check began. -/
  | entered
  /-- Something to be known of the check was noted. -/
  | recorded (notes : List (String × String))
  /-- An event, by its title and its particulars. -/
  | event (title : String) (fields : List (String × String))
  /-- The check was left. -/
  | exited
  deriving DecidableEq, Repr, Inhabited

/-- The line that an event is written as. -/
def Event.line (e : Event) : LogLine := .event e.title e.fields

/-- **The line that an entry is written as.** -/
def LogEntry.line : LogEntry → LogLine
  | opened maxDepth => .opened [("max_depth", toString maxDepth.toNat)]
  | entered => .entered
  | recorded script => .recorded [("expr", script)]
  | event e => e.line
  | exited => .exited

end PredicateScript
