import CandleScript.Source.Position

namespace CandleScript

-- A stretch of a source text; `stop` is the place just past its last character.
structure Span where
  start : Position
  stop : Position
  deriving DecidableEq, Repr

namespace Span

-- The stretch of `length` characters on one line. It is never empty.
def spanning (start : Position) (length : Nat) : Span :=
  ⟨start, ⟨start.line, start.column + max length 1⟩⟩

-- The smallest stretch that holds both.
def cover (a b : Span) : Span := ⟨a.start.earlier b.start, a.stop.later b.stop⟩

end Span

end CandleScript
