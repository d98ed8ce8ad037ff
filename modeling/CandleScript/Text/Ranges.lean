namespace CandleScript.Text

-- Membership in a table of closed intervals sorted by their lower ends.
def inRanges : List (Nat × Nat) → Nat → Bool
  | [], _ => false
  | (low, high) :: rest, n =>
    if n < low then false else if n ≤ high then true else inRanges rest n

end CandleScript.Text
