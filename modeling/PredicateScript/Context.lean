import PredicateScript.RecordType
import PredicateScript.Signature
import PredicateScript.Table

/-!
# Contexts

What a script is checked against: the record types and native functions
of the host, and the variables in scope. Types and functions are tables, a
later registration replacing an earlier one of its name. Variables are a
stack, innermost first: binding a name again hides the earlier binding and
does not remove it.

A context is a value. Entering a scope gives a new context with one more
variable (`Context.bind`), and the enclosing one is as it was.
-/

namespace PredicateScript

/-- **What is known where a script is checked.** -/
structure Context where
  /-- The registered record types, by name. -/
  types : Table String RecordType
  /-- The registered native functions, by name. -/
  functions : Table String Signature
  /-- The variables in scope, the innermost first. -/
  vars : List (String × Ty)
  deriving Inhabited

namespace Context

/-- The context that knows nothing. -/
def empty : Context := ⟨∅, ∅, []⟩

/-- Register a record type. -/
def withType (Γ : Context) (name : String) (record : RecordType) : Context :=
  { Γ with types := Γ.types.insert name record }

/-- Register a native function. -/
def withFunction (Γ : Context) (name : String) (sig : Signature) : Context :=
  { Γ with functions := Γ.functions.insert name sig }

/-- **The scope with one more variable.** -/
def bind (Γ : Context) (name : String) (ty : Ty) : Context :=
  { Γ with vars := (name, ty) :: Γ.vars }

/-- The record type of a name. -/
def type? (Γ : Context) (name : String) : Option RecordType :=
  Γ.types.find? name

/-- The signature of a function. -/
def function? (Γ : Context) (name : String) : Option Signature :=
  Γ.functions.find? name

/-- The type of a variable: that of its innermost binding. -/
def var? (Γ : Context) (name : String) : Option Ty :=
  Γ.vars.lookup name

/-- The names of the registered types, in increasing order. -/
def typeNames (Γ : Context) : List String :=
  Γ.types.keys

/-- The names of the registered functions, in increasing order. -/
def functionNames (Γ : Context) : List String :=
  Γ.functions.keys

/-- The names of the variables, innermost first and with repetitions. -/
def varNames (Γ : Context) : List String :=
  Γ.vars.map Prod.fst

/-- Whether a type stands for something: a primitive one does, and a
named one where its name is registered. -/
def knows (Γ : Context) : Ty → Bool
  | .named name => (Γ.type? name).isSome
  | _ => true

@[simp] theorem type?_bind (Γ : Context) (name : String) (ty : Ty)
    (n : String) : (Γ.bind name ty).type? n = Γ.type? n := rfl

@[simp] theorem function?_bind (Γ : Context) (name : String) (ty : Ty)
    (n : String) : (Γ.bind name ty).function? n = Γ.function? n := rfl

/-- **The innermost binding counts**: whatever it hides. -/
theorem var?_eq_some_iff {Γ : Context} {name : String} {ty : Ty} :
    Γ.var? name = some ty
      ↔ ∃ inner outer, Γ.vars = inner ++ (name, ty) :: outer
        ∧ ∀ var ∈ inner, var.1 ≠ name := by
  rw [var?, List.lookup_eq_some_iff]
  simp only [bne_iff_ne, ne_comm]

/-- The new variable is the innermost one of its name. -/
@[simp] theorem var?_bind_self (Γ : Context) (name : String)
    (ty : Ty) : (Γ.bind name ty).var? name = some ty := by
  simp [bind, var?]

/-- Binding a name hides no other. -/
theorem var?_bind_of_ne (Γ : Context) {name n : String} (ty : Ty)
    (h : n ≠ name) : (Γ.bind name ty).var? n = Γ.var? n := by
  simp [bind, var?, List.lookup_cons, beq_eq_false_iff_ne.mpr h]

end Context

end PredicateScript
