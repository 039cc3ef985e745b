import PredicateScript.Suggestion
import PredicateScript.Context

/-!
# The names on offer do not depend on how they are listed

The offer for a name is made from a list of the names in reach. Of that
list it shows nothing but which names are in it: neither their order nor
how often a name comes (`similarNames_congr`). So wherever names are kept,
they may be listed in any way, and what has to be listed is what can be
looked up (`mem_map_fst_iff_lookup`).
-/

namespace PredicateScript

namespace Suggestion

variable {name : String} {maxDistance : Nat}

/-- A candidate is close enough to be offered, as `r` ranks it. -/
def Eligible (name : String) (maxDistance : Nat) (r : Ranked) : Prop :=
  r.distance = editDistance name r.name
    ∧ 1 ≤ r.distance ∧ r.distance ≤ maxDistance

/-- One candidate: it is added to those before it if it is close
enough. -/
def consider (name : String) (maxDistance : Nat) (acc : Table Ranked Unit)
    (candidate : String) : Table Ranked Unit :=
  if 1 ≤ editDistance name candidate
      ∧ editDistance name candidate ≤ maxDistance then
    acc.insert ⟨editDistance name candidate, candidate⟩ ()
  else acc

theorem eligible_eq_foldl (name : String) (candidates : List String)
    (maxDistance : Nat) :
    eligible name candidates maxDistance
      = candidates.foldl (consider name maxDistance) ∅ := rfl

theorem find?_consider_iff {acc : Table Ranked Unit} {candidate : String}
    {r : Ranked} :
    (consider name maxDistance acc candidate).find? r = some ()
      ↔ acc.find? r = some ()
        ∨ r.name = candidate ∧ Eligible name maxDistance r := by
  by_cases hr : r = ⟨editDistance name candidate, candidate⟩
  · -- the entry is the one that the candidate would have
    subst hr
    unfold consider Eligible
    split
    · next hclose => simp [hclose]
    · next hfar => simp [hfar]
  · have hne : ¬ (r.name = candidate ∧ Eligible name maxDistance r) := by
      rintro ⟨rfl, hdistance, -⟩
      exact hr (by rw [← hdistance])
    rw [or_iff_left hne]
    unfold consider
    split
    · rw [Table.find?_insert_of_ne acc () hr]
    · rfl

/-- **The names that are eligible** are those of the candidates that are
close enough. -/
theorem find?_eligible_iff {candidates : List String} {r : Ranked} :
    (eligible name candidates maxDistance).find? r = some ()
      ↔ r.name ∈ candidates ∧ Eligible name maxDistance r := by
  -- the candidates are added to a table that holds some already
  suffices h : ∀ acc : Table Ranked Unit,
      (candidates.foldl (consider name maxDistance) acc).find? r = some ()
        ↔ acc.find? r = some ()
          ∨ r.name ∈ candidates ∧ Eligible name maxDistance r by
    have hempty : ¬ (∅ : Table Ranked Unit).find? r = some () := nofun
    rw [eligible_eq_foldl, h, or_iff_right hempty]
  induction candidates with
  | nil => simp
  | cons candidate rest ih =>
    intro acc
    rw [List.foldl_cons, ih, find?_consider_iff, or_assoc, ← or_and_right,
      List.mem_cons]

end Suggestion

/-- **The offer shows of the candidates only which they are**, not how
they are listed. -/
theorem similarNames_congr {candidates candidates' : List String}
    (h : ∀ n, n ∈ candidates ↔ n ∈ candidates') (name : String)
    (maxDistance : Nat) :
    similarNames name candidates maxDistance
      = similarNames name candidates' maxDistance := by
  have htable : Suggestion.eligible name candidates maxDistance
      = Suggestion.eligible name candidates' maxDistance := by
    refine Table.ext_find? (fun r => Option.ext (fun _ => ?_))
    rw [Suggestion.find?_eligible_iff, Suggestion.find?_eligible_iff,
      h r.name]
  unfold similarNames
  rw [htable]

end PredicateScript
