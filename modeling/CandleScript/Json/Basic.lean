namespace CandleScript

-- A document value. Whole numbers of at most 64 bits are kept apart from all
-- other numbers; the members of an object stand in the order of the text.
inductive Json where
  | null
  | bool (value : Bool)
  | integer (value : Int)
  | real (value : Float)
  | text (value : String)
  | list (items : List Json)
  | object (members : List (String × Json))

namespace Json

def count (n : Nat) : Json := .integer n

-- A member that is left out when it has no value.
def optional (key : String) : Option Json → List (String × Json)
  | none => []
  | some value => [(key, value)]

end Json

end CandleScript
