/-! # Edit distance

How many insertions, deletions and substitutions of single characters lead from one list of
characters to another. One row of distances is kept, to all beginnings of the second list.
-/

namespace Conductor

/-- The row after one more character `c` of the first list. `left` is the new distance to the
beginning before the next character, `row` the old distances from that beginning on. -/
def nextEntries (c : Char) : List Char → Nat → List Nat → List Nat
  | d :: target, left, diagonal :: above :: row =>
    let entry := min (min (left + 1) (above + 1)) (if c = d then diagonal else diagonal + 1)
    entry :: nextEntries c target entry (above :: row)
  | _, _, _ => []

def nextRow (target : List Char) (row : List Nat) (c : Char) : List Nat :=
  let first := row.headD 0 + 1
  first :: nextEntries c target first row

/-- The least number of edits that lead from `source` to `target`. -/
def editDistance (source target : List Char) : Nat :=
  (source.foldl (nextRow target) (List.range (target.length + 1))).getLastD 0

end Conductor
