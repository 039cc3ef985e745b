/-!
# Types

A script computes with four primitive kinds of value and with the records
a host supplies. A record type is nominal: a `Ty` holds its name only, and
what the name stands for is the context's business
(`PredicateScript.Context`). There is no subtyping, so two types have a
common type exactly where they are the same (`Ty.common?_eq_some_iff`).
-/

namespace PredicateScript

/-- **A type**, as the nodes of a checked script carry it. -/
inductive Ty where
  /-- Signed 64-bit integers. -/
  | long
  /-- Truth values. -/
  | boolean
  /-- Sequences of bytes. -/
  | byteVector
  /-- Text. -/
  | string
  /-- The record type a host registered under this name. -/
  | named (name : String)
  deriving DecidableEq, Repr, Inhabited

namespace Ty

/-- The type as it is written in messages and logs. -/
def render : Ty → String
  | long => "LONG"
  | boolean => "BOOLEAN"
  | byteVector => "BYTEVECTOR"
  | string => "STRING"
  | named name => "TYPEREF(" ++ name ++ ")"

/-- The place of a type's kind among the kinds. -/
def rank : Ty → Nat
  | long => 0
  | boolean => 1
  | byteVector => 2
  | string => 3
  | named _ => 4

/-- The name of a record type, and nothing for a primitive one. -/
def name? : Ty → Option String
  | named name => some name
  | _ => none

/-- **The order of types**: by kind, record types among themselves by
name. -/
def le : Ty → Ty → Bool
  | named a, named b => decide (a ≤ b)
  | a, b => decide (a.rank ≤ b.rank)

/-- The given types, in increasing order. -/
def sorted (tys : List Ty) : List Ty :=
  tys.mergeSort le

/-- **The common type of two types**, for the operands of an equality and
the branches of a conditional. -/
def common? (a b : Ty) : Option Ty :=
  if a = b then some a else none

/-- Only identical types have a common type, and it is that type. -/
theorem common?_eq_some_iff {a b c : Ty} :
    a.common? b = some c ↔ a = b ∧ c = a := by
  unfold common?
  split <;> simp_all [eq_comm]

/-- Types that differ have none. -/
theorem common?_eq_none_iff {a b : Ty} : a.common? b = none ↔ a ≠ b := by
  simp [Option.eq_none_iff_forall_ne_some, common?_eq_some_iff]

end Ty

end PredicateScript
