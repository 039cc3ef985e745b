import PredicateScript.EditDistance
import PredicateScript.Table

/-!
# Names that may have been meant

When a name is not found, the names in reach that are a few edits away
are offered instead, the closest first and names equally close in
alphabetical order. The name itself is never offered, and a name is
offered once however often it is in reach. The offer is the front of an
ordered table of the eligible names, so it does not depend on the order
they were found in.
-/

namespace PredicateScript

/-- **A name with its distance** from the one looked for. -/
structure Ranked where
  /-- How many edits away the name is. -/
  distance : Nat
  /-- The name. -/
  name : String
  deriving DecidableEq, Repr, Inhabited

namespace Ranked

/-- The closer name comes first, of equally close ones the smaller. -/
instance : Ord Ranked :=
  ⟨compareLex (compareOn Ranked.distance) (compareOn Ranked.name)⟩

instance : Std.TransOrd Ranked :=
  inferInstanceAs (Std.TransCmp
    (compareLex (compareOn Ranked.distance) (compareOn Ranked.name)))

instance : Std.LawfulEqOrd Ranked where
  compare_self := Std.ReflCmp.compare_self
  eq_of_compare := by
    intro a b h
    obtain ⟨hd, hn⟩ := compareLex_eq_eq.mp h
    have hd' : a.distance = b.distance := Std.LawfulEqOrd.eq_of_compare hd
    have hn' : a.name = b.name := Std.LawfulEqOrd.eq_of_compare hn
    cases a
    cases b
    simp_all

end Ranked

namespace Suggestion

/-- At most this many names are offered. -/
def limit : Nat := 3

/-- A name more edits away than this is not offered to a script's
author. -/
def reach : Nat := 2

/-- The candidates that are at least one and at most `maxDistance` edits
away from the name, each once and in the order they are offered in. -/
def eligible (name : String) (candidates : List String)
    (maxDistance : Nat) : Table Ranked Unit :=
  candidates.foldl (fun acc candidate =>
    let distance := editDistance name candidate
    if 1 ≤ distance ∧ distance ≤ maxDistance then
      acc.insert ⟨distance, candidate⟩ ()
    else acc) ∅

end Suggestion

/-- **The names offered for a name**, from the candidates within
`maxDistance` edits. -/
def similarNames (name : String) (candidates : List String)
    (maxDistance : Nat) : List String :=
  ((Suggestion.eligible name candidates maxDistance).keys.take
    Suggestion.limit).map Ranked.name

end PredicateScript
