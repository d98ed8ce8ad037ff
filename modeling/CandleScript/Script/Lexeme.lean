import CandleScript.Number.Read
import CandleScript.Script.SourceError
import CandleScript.Text.Alphabetic
import CandleScript.Text.Blank
import CandleScript.Text.Numeric

namespace CandleScript

-- The first token of a text: `source` is what was read of the text and `rest`
-- what follows.
structure Lexeme where
  kind : Token.Kind
  literal : List Char
  source : List Char
  rest : List Char

namespace Lexeme

def isNameStart (c : Char) : Bool := Text.isAlphabetic c || c = '_'

def isWordChar (c : Char) : Bool := Text.isAlphabetic c || Text.isNumeric c || c = '_'

def startsName : List Char → Bool
  | [] => false
  | c :: _ => isNameStart c

-- Names may have several segments. A dot belongs to a name only if another
-- segment follows it.
def spanName : List Char → List Char × List Char
  | [] => ([], [])
  | c :: rest =>
    if isWordChar c || (c = '.' && startsName rest) then
      let (name, rest) := spanName rest
      (c :: name, rest)
    else ([], c :: rest)

def name (cs : List Char) : Lexeme :=
  let (word, rest) := spanName cs
  ⟨.ofWord (String.ofList word), word, word, rest⟩

-- Digits, or digits on both sides of one point.
def isPlainNumber (word : List Char) : Bool :=
  match word.span Char.isDigit with
  | (_, []) => true
  | (_, c :: part) => c = '.' && part ≠ [] && part.all Char.isDigit

def isFiniteNumber (word : List Char) : Bool :=
  match Number.read word with
  | .ok x => x.isFinite
  | .error _ => false

-- All characters that could belong to a word are taken, so that a fault shows
-- the whole word.
def number (cs : List Char) : Except LexFault Lexeme :=
  let (word, rest) := cs.span fun c => isWordChar c || c = '.'
  if isPlainNumber word && isFiniteNumber word then .ok ⟨.number, word, word, rest⟩
  else .error (.invalidNumber (String.ofList word))

-- The value of a character after a backslash. An unknown pair stands for
-- itself.
def unescape (c : Char) : List Char :=
  if c = 'n' then ['\n']
  else if c = '"' ∨ c = '\'' ∨ c = '\\' then [c]
  else ['\\', c]

-- The value and the source of a string up to its closing quote, which has to
-- stand on the same line unless a backslash stands before the line break.
def stringBody (quote : Char) : List Char → Option (List Char × List Char × List Char)
  | [] => none
  | '\\' :: [] => none
  | '\\' :: c :: rest => do
    let (value, source, rest) ← stringBody quote rest
    return (unescape c ++ value, '\\' :: c :: source, rest)
  | c :: rest =>
    if c = '\n' then none
    else if c = quote then some ([], [c], rest)
    else do
      let (value, source, rest) ← stringBody quote rest
      return (c :: value, c :: source, rest)

def string (quote : Char) (cs : List Char) : Except LexFault Lexeme :=
  match stringBody quote cs with
  | some (value, source, rest) => .ok ⟨.text, value, quote :: source, rest⟩
  | none => .error .unterminatedString

def pairKind? (c d : Char) : Option Token.Kind :=
  if d ≠ '=' then none
  else if c = '=' then some (.op .eq)
  else if c = '!' then some (.op .ne)
  else if c = '>' then some (.op .ge)
  else if c = '<' then some (.op .le)
  else none

def symbolKind? (c : Char) : Option Token.Kind :=
  match c with
  | '+' => some (.op .add)
  | '-' => some (.op .sub)
  | '*' => some (.op .mul)
  | '/' => some (.op .div)
  | '=' => some .assign
  | '>' => some (.op .gt)
  | '<' => some (.op .lt)
  | '(' => some .openParen
  | ')' => some .closeParen
  | ',' => some .comma
  | _ => none

def single (c : Char) (rest : List Char) : Except LexFault Lexeme :=
  match symbolKind? c with
  | some kind => .ok ⟨kind, [c], [c], rest⟩
  | none => .error (.illegalCharacter c)

-- Operators of two characters win over those of one.
def symbol (c : Char) : List Char → Except LexFault Lexeme
  | [] => single c []
  | d :: rest =>
    match pairKind? c d with
    | some kind => .ok ⟨kind, [c, d], [c, d], rest⟩
    | none => single c (d :: rest)

-- The token that starts with `c`.
def read (c : Char) (rest : List Char) : Except LexFault Lexeme :=
  if isNameStart c then .ok (name (c :: rest))
  else if c.isDigit then number (c :: rest)
  else if c = '"' ∨ c = '\'' then string c rest
  else symbol c rest

-- Blanks and comments at the front of a text. A comment starts with two
-- slashes and runs to the end of its line.
def spanTrivia : (inComment : Bool) → List Char → List Char × List Char
  | _, [] => ([], [])
  | inComment, c :: rest =>
    if inComment ∧ c ≠ '\n' then
      let (trivia, rest) := spanTrivia true rest
      (c :: trivia, rest)
    else if Text.isBlank c then
      let (trivia, rest) := spanTrivia false rest
      (c :: trivia, rest)
    else if c = '/' ∧ rest.head? = some '/' then
      let (trivia, rest) := spanTrivia true rest
      (c :: trivia, rest)
    else ([], c :: rest)

end Lexeme

end CandleScript
