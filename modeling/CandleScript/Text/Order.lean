namespace CandleScript.Text

-- The order of texts by the code points of their characters.
def precedesChars : List Char → List Char → Bool
  | _, [] => false
  | [], _ :: _ => true
  | c :: cs, d :: ds => c.toNat < d.toNat || (c.toNat == d.toNat && precedesChars cs ds)

def precedes (a b : String) : Bool := precedesChars a.toList b.toList

end CandleScript.Text
