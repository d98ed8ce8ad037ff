import CandleScript.Script.Operator
import CandleScript.Source.Span

namespace CandleScript

-- A script is a list of nodes. Assignments stand at the top of the tree in
-- every parsed script, yet nothing here depends on it.
inductive Node where
  | assign (name : String) (value : Node) (span : Span)
  | binary (op : Operator) (left right : Node) (span : Span)
  | call (callee : String) (args : List Node) (span : Span)
  | name (name : String) (span : Span)
  | number (value : Float) (span : Span)
  | text (value : String) (span : Span)

namespace Node

def span : Node → Span
  | assign _ _ span | binary _ _ _ span | call _ _ span | name _ span | number _ span | text _ span =>
    span

end Node

abbrev Script := List Node

end CandleScript
