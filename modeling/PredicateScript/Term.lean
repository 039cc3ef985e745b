import PredicateScript.Literal
import PredicateScript.Operator

/-!
# Script trees

A script is a tree, before and after it is checked; a checked script is
the same tree with a type on every node. So there is one tree type,
`Term α`, whose nodes all carry a note of type `α`. A script as it is
handed over is an `Expr`, a tree with nothing noted, and a checked script
is a `TypedExpr`, a tree of types. `Term.erase` forgets the notes.

A tree is read from the left: the nodes of `Term.nodes` come parent first,
a binding's value before its body, a condition before its branches.
-/

namespace PredicateScript

/-- **A script tree** with a note of type `α` on every node. -/
inductive Term (α : Type) where
  /-- A constant. -/
  | lit (note : α) (value : Literal)
  /-- A reference to a variable. -/
  | ref (note : α) (name : String)
  /-- A field of a record. -/
  | access (note : α) (target : Term α) (field : String)
  /-- A call of a native function. -/
  | call (note : α) (function : String) (args : List (Term α))
  /-- A binary operator between two operands. -/
  | binary (note : α) (op : Operator) (left right : Term α)
  /-- A block that binds nothing. -/
  | block (note : α) (body : Term α)
  /-- A block that binds a name for its body. -/
  | letIn (note : α) (name : String) (value body : Term α)
  /-- A conditional. -/
  | ifElse (note : α) (cond ifTrue ifFalse : Term α)
  deriving Repr, Inhabited

/-- **A script** as it is handed over. -/
abbrev Expr := Term Unit

/-- **A checked script**: every node carries its type. -/
abbrev TypedExpr := Term Ty

namespace Term

variable {α β : Type}

/-- The note of the root. -/
def note : Term α → α
  | lit n _ | ref n _ | access n _ _ | call n _ _ | binary n _ _ _
  | block n _ | letIn n _ _ _ | ifElse n _ _ _ => n

mutual

/-- The same tree with every note read through `f`. -/
def map (f : α → β) : Term α → Term β
  | lit n value => .lit (f n) value
  | ref n name => .ref (f n) name
  | access n target field => .access (f n) (target.map f) field
  | call n function args => .call (f n) function (mapEach f args)
  | binary n op left right => .binary (f n) op (left.map f) (right.map f)
  | block n body => .block (f n) (body.map f)
  | letIn n name value body =>
    .letIn (f n) name (value.map f) (body.map f)
  | ifElse n cond ifTrue ifFalse =>
    .ifElse (f n) (cond.map f) (ifTrue.map f) (ifFalse.map f)

/-- `map` on each tree of a list. -/
def mapEach (f : α → β) : List (Term α) → List (Term β)
  | [] => []
  | t :: ts => t.map f :: mapEach f ts

end

/-- **The script of an annotated tree**: the same tree, nothing noted. -/
def erase (t : Term α) : Expr :=
  t.map (fun _ => ())

mutual

/-- **The nodes of a tree**, each as the subtree it is the root of,
parents before their children and children from left to right. -/
def nodes : Term α → List (Term α)
  | t@(lit ..) | t@(ref ..) => [t]
  | t@(access _ target _) => t :: target.nodes
  | t@(call _ _ args) => t :: nodesEach args
  | t@(binary _ _ left right) => t :: (left.nodes ++ right.nodes)
  | t@(block _ body) => t :: body.nodes
  | t@(letIn _ _ value body) => t :: (value.nodes ++ body.nodes)
  | t@(ifElse _ cond ifTrue ifFalse) =>
    t :: (cond.nodes ++ ifTrue.nodes ++ ifFalse.nodes)

/-- The nodes of each tree of a list, one tree after the other. -/
def nodesEach : List (Term α) → List (Term α)
  | [] => []
  | t :: ts => t.nodes ++ nodesEach ts

end

/-- The number of nodes. -/
def nodeCount (t : Term α) : Nat :=
  t.nodes.length

mutual

/-- **The height of a tree**: the number of nodes on its longest path
from the root. -/
def height : Term α → Nat
  | lit _ _ | ref _ _ => 1
  | access _ target _ => target.height + 1
  | call _ _ args => heightEach args + 1
  | binary _ _ left right => max left.height right.height + 1
  | block _ body => body.height + 1
  | letIn _ _ value body => max value.height body.height + 1
  | ifElse _ cond ifTrue ifFalse =>
    max cond.height (max ifTrue.height ifFalse.height) + 1

/-- The height of the highest tree of a list. -/
def heightEach : List (Term α) → Nat
  | [] => 0
  | t :: ts => max t.height (heightEach ts)

end

@[simp] theorem mapEach_eq_map (f : α → β) (ts : List (Term α)) :
    mapEach f ts = ts.map (Term.map f) := by
  induction ts with
  | nil => rfl
  | cons t ts ih => rw [mapEach, ih, List.map_cons]

@[simp] theorem nodesEach_eq_flatMap (ts : List (Term α)) :
    nodesEach ts = ts.flatMap nodes := by
  induction ts with
  | nil => rfl
  | cons t ts ih => rw [nodesEach, ih, List.flatMap_cons]

/-- Reading the notes through a function reads the root's note so. -/
@[simp] theorem note_map (f : α → β) (t : Term α) :
    (t.map f).note = f t.note := by
  cases t <;> rfl

end Term

/-- The type of a checked script is that of its root. -/
abbrev TypedExpr.ty (t : TypedExpr) : Ty := t.note

end PredicateScript
