import CandleScript.Script.Lexeme

namespace CandleScript

namespace Token

def atEnd (position : Position) : Token := ⟨.ending, "", position, 0⟩

-- A token whose string runs over a line break counts as one character wide.
def ofLexeme (lexeme : Lexeme) (start : Position) : Token :=
  let stop := start.after lexeme.source
  let width := if start.line = stop.line then stop.column - start.column else 1
  ⟨lexeme.kind, String.ofList lexeme.literal, start, width⟩

-- Every token takes at least one character, so the number of characters
-- bounds the number of tokens.
def listFrom : (fuel : Nat) → Position → List Char → Except LexError (List Token)
  | 0, position, _ => .ok [atEnd position]
  | fuel + 1, position, cs =>
    let (trivia, rest) := Lexeme.spanTrivia false cs
    let start := position.after trivia
    match rest with
    | [] => .ok [atEnd start]
    | c :: rest =>
      match Lexeme.read c rest with
      | .error fault => .error ⟨fault, start⟩
      | .ok lexeme =>
        (listFrom fuel (start.after lexeme.source) lexeme.rest).map (ofLexeme lexeme start :: ·)

end Token

-- The tokens of a source text, closed by one token for its end.
def tokenize (source : String) : Except LexError (List Token) :=
  Token.listFrom (source.length + 1) .start source.toList

end CandleScript
