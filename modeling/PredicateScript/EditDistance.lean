/-!
# Edit distance

How far a name is from another one: the least number of single-character
insertions, deletions and replacements that turn the one into the other.

The distances from the prefixes of one word to the prefixes of the other
make a table. It is filled in row by row, and only one row of it is kept:
the row of the prefix of length `i` is written over the row of the prefix
that is a character shorter. An entry of the table is found from three of
its neighbours. The one above it is what its place still holds, the one to
its left has just been written, and the one above that is the entry that
was written over last, which is put aside for one step
(`EditDistance.Pass.diagonal`).

Rows and words are arrays, and every access to one is checked. An index
that is out of bounds ends the computation with nothing; there is no such
index, as `PredicateScript.Proofs.EditDistance` shows.
-/

namespace PredicateScript

namespace EditDistance

/-- What stands right before the given place, if the place is there. -/
def before? {α : Type} (as : Array α) : Nat → Option α
  | 0 => none
  | j + 1 => as[j]?

/-- Write an entry of a row, if the row has its place. -/
def write? (row : Array Nat) (j entry : Nat) : Option (Array Nat) :=
  if h : j < row.size then some (row.set j entry h) else none

/-- **A row that is being written over.** -/
structure Pass where
  /-- The row: entries of the new one up to some place, and entries of
  the old one from there on. -/
  row : Array Nat
  /-- The entry that the last one was written over. -/
  diagonal : Nat

/-- Write the entry `j` of the row `i`. -/
def Pass.step? (xs ys : Array Char) (i : Nat) (pass : Pass) (j : Nat) :
    Option Pass := do
  let ⟨row, diagonal⟩ := pass
  let above ← row[j]?
  let left ← before? row j
  let x ← before? xs i
  let y ← before? ys j
  let facing := diagonal + if x = y then 0 else 1
  let row ← write? row j (min (min (above + 1) (left + 1)) facing)
  return ⟨row, above⟩

/-- Write the row `i` over the row before it. -/
def nextRow? (xs ys : Array Char) (row : Array Nat) (i : Nat) :
    Option (Array Nat) := do
  let diagonal ← row[0]?
  let row ← write? row 0 i
  let pass ← (List.range' 1 ys.size).foldlM (Pass.step? xs ys i)
    ⟨row, diagonal⟩
  return pass.row

/-- **The distance of two words**: the last entry of the last row. -/
def distance? (xs ys : Array Char) : Option Nat :=
  if xs.isEmpty then some ys.size
  else if ys.isEmpty then some xs.size
  else do
    let row ← (List.range' 1 xs.size).foldlM (nextRow? xs ys)
      (List.range (ys.size + 1)).toArray
    row[ys.size]?

end EditDistance

/-- **The edit distance of two texts**, counted in characters. -/
def editDistance (a b : String) : Nat :=
  (EditDistance.distance? a.toList.toArray b.toList.toArray).getD 0

end PredicateScript
