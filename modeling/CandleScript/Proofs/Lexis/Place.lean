import Mathlib.Data.List.Induction
import CandleScript.Source.Position

namespace CandleScript.Position

-- The place behind a text that begins at the start of a source: one more than
-- its line breaks, and one more than the characters since the last of them.
def place (before : List Char) : Position :=
  ⟨1 + before.count '\n', 1 + (before.reverse.takeWhile (· ≠ '\n')).length⟩

theorem after_append (p : Position) (cs ds : List Char) :
    p.after (cs ++ ds) = (p.after cs).after ds := List.foldl_append

theorem place_concat (cs : List Char) (c : Char) : place (cs ++ [c]) = (place cs).advance c := by
  by_cases hc : c = '\n'
  · subst hc
    simp [place, advance, Nat.add_assoc]
  · simp [place, advance, hc, Nat.add_assoc]

-- Counting character by character comes to the same place.
theorem start_after (cs : List Char) : start.after cs = place cs := by
  induction cs using List.reverseRecOn with
  | nil => rfl
  | append_singleton cs c ih =>
      rw [after_append, ih, place_concat]
      rfl

theorem place_after (before cs : List Char) :
    (place before).after cs = place (before ++ cs) := by
  rw [← start_after, ← after_append, start_after]

end CandleScript.Position
