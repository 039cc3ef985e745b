import PredicateScript.Ty

/-!
# Record types

What a host registers under a type name: the fields of the record, in the
order of their declaration. A field may be declared twice; the first
declaration is the one that counts.
-/

namespace PredicateScript

/-- **A record type**: its fields, in declaration order. -/
structure RecordType where
  /-- Each field with its type. -/
  fields : List (String × Ty)
  deriving DecidableEq, Repr, Inhabited

namespace RecordType

/-- The type of a field; of several declarations the first counts. -/
def field? (r : RecordType) (name : String) : Option Ty :=
  r.fields.lookup name

/-- **The first declaration counts**: whatever is declared after it. -/
theorem field?_eq_some_iff {r : RecordType} {name : String} {ty : Ty} :
    r.field? name = some ty
      ↔ ∃ before after, r.fields = before ++ (name, ty) :: after
        ∧ ∀ field ∈ before, field.1 ≠ name := by
  rw [field?, List.lookup_eq_some_iff]
  simp only [bne_iff_ne, ne_comm]

/-- The declared field names, in order and with repetitions. -/
def fieldNames (r : RecordType) : List String :=
  r.fields.map Prod.fst

end RecordType

end PredicateScript
