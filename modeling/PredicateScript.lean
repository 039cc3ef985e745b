import PredicateScript.Table
import PredicateScript.Ty
import PredicateScript.Signature
import PredicateScript.RecordType
import PredicateScript.Operator
import PredicateScript.Text.Invisible
import PredicateScript.Text.Quoted
import PredicateScript.Literal
import PredicateScript.Term
import PredicateScript.Term.Printer
import PredicateScript.Context
import PredicateScript.Substitution
import PredicateScript.EditDistance
import PredicateScript.Suggestion
import PredicateScript.Rejection
import PredicateScript.Rejection.Report
import PredicateScript.Event
import PredicateScript.Sink
import PredicateScript.Typing.Rules
import PredicateScript.Typing.Engine
import PredicateScript.Typing.Supervision
import PredicateScript.Sample
import PredicateScript.Proofs.Position
import PredicateScript.Proofs.Transcript
import PredicateScript.Proofs.Traversal
import PredicateScript.Proofs.Visit
import PredicateScript.Proofs.Answer
import PredicateScript.Proofs.Simulation
import PredicateScript.Proofs.Verdict
import PredicateScript.Proofs.Unification
import PredicateScript.Proofs.Exactness
import PredicateScript.Proofs.Rules
import PredicateScript.Proofs.Judgement
import PredicateScript.Proofs.Annotation
import PredicateScript.Proofs.Scope
import PredicateScript.Proofs.Blame
import PredicateScript.Proofs.Justification
import PredicateScript.Proofs.Limit
import PredicateScript.Proofs.Levels
import PredicateScript.Proofs.Reuse
import PredicateScript.Proofs.Shadowing
import PredicateScript.Proofs.Framing
import PredicateScript.Proofs.EditDistance
import PredicateScript.Proofs.Replay
import PredicateScript.Proofs.Suggestion
import PredicateScript.Proofs.Ranking
import PredicateScript.Proofs.Hints
import PredicateScript.Proofs.Lexeme
import PredicateScript.Proofs.Reading
import PredicateScript.Proofs.Readability
import PredicateScript.Proofs.Coincidence
import PredicateScript.Proofs.Facts
import PredicateScript.Proofs.Registration
import PredicateScript.Proofs.Replacement
import PredicateScript.Proofs.Inlining
import PredicateScript.Proofs.Translation
import PredicateScript.Proofs.Placeholders
import PredicateScript.Proofs.Renaming
import PredicateScript.Proofs.Opacity
import PredicateScript.Proofs.Ansi
import PredicateScript.Proofs.Colour
import PredicateScript.Proofs.Nesting
