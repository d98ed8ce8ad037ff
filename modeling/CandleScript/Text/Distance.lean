namespace CandleScript.Text

-- One row of the edit-distance table. `above` is the previous row from the
-- current column on, `corner` its value one column to the left, and `left`
-- the value just computed in this row.
def distanceRow (c : Char) : (corner left : Nat) → List Char → (above : List Nat) → List Nat
  | corner, left, d :: ds, up :: above =>
    let cost := if c = d then 0 else 1
    let here := min (min (left + 1) (up + 1)) (corner + cost)
    here :: distanceRow c up here ds above
  | _, _, _, _ => []

def distanceFrom (target : List Char) : (taken : Nat) → (row : List Nat) → List Char → Nat
  | _, row, [] => row.getLast?.getD 0
  | taken, row, c :: rest =>
    let next := (taken + 1) :: distanceRow c taken (taken + 1) target row.tail
    distanceFrom target (taken + 1) next rest

-- The least number of insertions, deletions and replacements of characters
-- that turn one text into the other.
def distance (source target : String) : Nat :=
  distanceFrom target.toList 0 (List.range (target.length + 1)) source.toList

end CandleScript.Text
