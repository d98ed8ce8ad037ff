namespace CandleScript

-- A place in a source text; lines and columns count from one, columns in
-- characters.
structure Position where
  line : Nat
  column : Nat
  deriving DecidableEq, Repr

namespace Position

def start : Position := ⟨1, 1⟩

-- The place after a character.
def advance (p : Position) (c : Char) : Position :=
  if c = '\n' then ⟨p.line + 1, 1⟩ else ⟨p.line, p.column + 1⟩

-- The place after a text.
def after (p : Position) (cs : List Char) : Position := cs.foldl advance p

-- Source order: by line, then by column.
def isBefore (p q : Position) : Bool := p.line < q.line || (p.line == q.line && p.column < q.column)

def earlier (p q : Position) : Position := if q.isBefore p then q else p

def later (p q : Position) : Position := if p.isBefore q then q else p

def text (p : Position) : String := s!"{p.line}:{p.column}"

end Position

end CandleScript
