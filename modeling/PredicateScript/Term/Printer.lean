import PredicateScript.Term

/-!
# The text of a script

A script is written on one line. An operator application has parentheses
around it and a block has braces, so both can stand anywhere; a
conditional has nothing around it. A checked script is written in the same
way, with a colon and the type after every node: one printer serves both,
and what it writes after a node is a function of the node's note.
-/

namespace PredicateScript

namespace Term

variable {α : Type}

mutual

/-- **The text of a tree**, with `tag` of the note written after every
node. -/
def renderWith (tag : α → String) : Term α → String
  | lit n value => value.render ++ tag n
  | ref n name => name ++ tag n
  | access n target field =>
    target.renderWith tag ++ "." ++ field ++ tag n
  | call n function args =>
    function ++ "(" ++ ", ".intercalate (renderEach tag args) ++ ")" ++ tag n
  | binary n op left right =>
    "(" ++ left.renderWith tag ++ " " ++ op.symbol ++ " "
      ++ right.renderWith tag ++ ")" ++ tag n
  | block n body => "\x7b " ++ body.renderWith tag ++ " \x7d" ++ tag n
  | letIn n name value body =>
    "\x7b let " ++ name ++ " = " ++ value.renderWith tag ++ "; "
      ++ body.renderWith tag ++ " \x7d" ++ tag n
  | ifElse n cond ifTrue ifFalse =>
    "if (" ++ cond.renderWith tag ++ ") then " ++ ifTrue.renderWith tag
      ++ " else " ++ ifFalse.renderWith tag ++ tag n

/-- The texts of the trees of a list. -/
def renderEach (tag : α → String) : List (Term α) → List String
  | [] => []
  | t :: ts => t.renderWith tag :: renderEach tag ts

end

@[simp] theorem renderEach_eq_map (tag : α → String)
    (ts : List (Term α)) :
    renderEach tag ts = ts.map (renderWith tag) := by
  induction ts with
  | nil => rfl
  | cons t ts ih => rw [renderEach, ih, List.map_cons]

end Term

/-- **The text of a script.** -/
def Expr.render (e : Expr) : String :=
  e.renderWith (fun _ => "")

/-- **The text of a checked script**, its types included. -/
def TypedExpr.render (t : TypedExpr) : String :=
  t.renderWith (fun ty => ": " ++ ty.render)

end PredicateScript
