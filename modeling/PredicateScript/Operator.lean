import PredicateScript.Ty

/-!
# Binary operators

The six operators of the script language. Five of them are monomorphic:
both operands have one fixed type and so does the result. Equality is the
exception, it compares any two values of one type; `Operator.operand?`
says which case an operator is in.
-/

namespace PredicateScript

/-- **A binary operator.** -/
inductive Operator where
  /-- Addition. -/
  | sum
  /-- Strictly greater. -/
  | gt
  /-- Greater or equal. -/
  | ge
  /-- Conjunction. -/
  | and
  /-- Disjunction. -/
  | or
  /-- Equality. -/
  | eq
  deriving DecidableEq, Repr, Inhabited

namespace Operator

/-- The operator as scripts write it. -/
def symbol : Operator → String
  | sum => "+"
  | gt => ">"
  | ge => ">="
  | and => "&&"
  | or => "||"
  | eq => "=="

/-- The operator's name, as messages give it. -/
def name : Operator → String
  | sum => "SUM"
  | gt => "GT"
  | ge => "GE"
  | and => "AND"
  | or => "OR"
  | eq => "EQ"

/-- The operator of a name. -/
def ofName? : String → Option Operator
  | "SUM" => some sum
  | "GT" => some gt
  | "GE" => some ge
  | "AND" => some and
  | "OR" => some or
  | "EQ" => some eq
  | _ => none

@[simp] theorem ofName?_name (op : Operator) : ofName? op.name = some op := by
  cases op <;> rfl

/-- The type both operands must have; equality asks for none. -/
def operand? : Operator → Option Ty
  | sum | gt | ge => some .long
  | and | or => some .boolean
  | eq => none

/-- The type of the result. -/
def result : Operator → Ty
  | sum => .long
  | gt | ge | and | or | eq => .boolean

end Operator

end PredicateScript
