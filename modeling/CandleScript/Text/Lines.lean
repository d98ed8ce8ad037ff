namespace CandleScript.Text

-- `current` holds the line read so far, last character first. A carriage
-- return belongs to the line break only when the line feed follows it.
def linesFrom : (current : List Char) → List Char → List (List Char)
  | [], [] => []
  | current, [] => [current.reverse]
  | '\r' :: current, '\n' :: rest => current.reverse :: linesFrom [] rest
  | current, '\n' :: rest => current.reverse :: linesFrom [] rest
  | current, c :: rest => linesFrom (c :: current) rest

-- The lines of a text without their line breaks. A break at the end of the
-- text does not start another line.
def lines (text : String) : List (List Char) := linesFrom [] text.toList

end CandleScript.Text
