namespace CandleScript.Json

-- Why a document cannot be read: its text is not well formed, it is well
-- formed but not of the expected shape, or it ends too early.
inductive Fault where
  | malformed
  | mismatch
  | truncated
  deriving DecidableEq, Repr

-- A reader takes what it needs from the front of the text and leaves the rest.
abbrev Reader (α : Type) := List Char → Except Fault (α × List Char)

end CandleScript.Json
