import CandleScript.Text.Blank

namespace CandleScript.Text

def trimStart (cs : List Char) : List Char := cs.dropWhile isBlank

def trimEnd (cs : List Char) : List Char := (cs.reverse.dropWhile isBlank).reverse

-- Blank characters, in the Unicode sense, are dropped at both ends.
def trimChars (cs : List Char) : List Char := trimEnd (trimStart cs)

def trim (s : String) : String := String.ofList (trimChars s.toList)

end CandleScript.Text
