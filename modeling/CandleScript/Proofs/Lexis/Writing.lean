import CandleScript.Proofs.Lexis.Tiling

namespace CandleScript

namespace Lexeme

-- A character as it is written between quotes.
def escape (quote c : Char) : List Char :=
  if c = '\n' then ['\\', 'n']
  else if c = '\\' ∨ c = quote then ['\\', c]
  else [c]

example : "it's\n".toList.flatMap (escape '\'') = "it\\'s\\n".toList := by decide

theorem Trivia.atEnd {cs : List Char} (h : Trivia false cs) : Trivia true cs := by
  induction h with
  | nil => exact .nil
  | blank hc _ ih => exact .blank hc ih
  | comment htext _ ih => exact .comment htext ih
  | lastComment hend _ => cases hend

end Lexeme

namespace Token

open Lexeme (Trivia)

-- No token goes on with a blank.
theorem Kind.endsBefore_blank {c : Char} (h : Text.isBlank c = true) (kind : Kind)
    (cs : List Char) : kind.EndsBefore (c :: cs) := by
  have hword := Lexeme.not_isWordChar_of_isBlank h
  have hapart {d : Char} (hd : Text.isBlank d = false) : c ≠ d := by
    rintro rfl
    cases h.symm.trans hd
  have hdot : c ≠ '.' := hapart (by decide)
  have hname : Lexeme.EndsName (c :: cs) := by
    rintro _ _ ⟨⟩
    exact ⟨hword, fun h => hdot h.1⟩
  have hnumber : Lexeme.EndsNumber (c :: cs) := by
    rintro _ ⟨⟩
    exact ⟨hword, hdot⟩
  have hhead {d : Char} (hd : Text.isBlank d = false) : (c :: cs).head? ≠ some d := by
    rintro ⟨⟩
    exact hapart hd rfl
  cases kind with
  | name | ifWord | elseWord => exact hname
  | number => exact hnumber
  | assign => exact hhead (by decide)
  | op operator =>
      cases operator with
      | both | either => exact hname
      | div | gt | lt => exact hhead (by decide)
      | add | sub | mul | eq | ne | ge | le => trivial
  | text | openParen | closeParen | comma | ending => trivial

-- What a token is apart from its place.
def content (token : Token) : Kind × String := (token.kind, token.literal)

-- A token to be written, with the quote to take if it is a string.
inductive Writing where
  | word (text : List Char) (h : Lexeme.IsName text)
  | number (text : List Char) (h : Lexeme.IsNumber text)
    (hfinite : Lexeme.isFiniteNumber text = true)
  | quoted (quote : Char) (hquote : quote = '"' ∨ quote = '\'') (value : List Char)
  | sign (kind : Kind) (text : List Char) (h : kind.sign? = some text)

namespace Writing

def kind : Writing → Kind
  | .word text _ => .ofWord (String.ofList text)
  | .number _ _ _ => .number
  | .quoted _ _ _ => .text
  | .sign kind _ _ => kind

def literal : Writing → List Char
  | .word text _ | .number text _ _ | .sign _ text _ => text
  | .quoted _ _ value => value

def chars : Writing → List Char
  | .word text _ | .number text _ _ | .sign _ text _ => text
  | .quoted quote _ value => quote :: (value.flatMap (Lexeme.escape quote) ++ [quote])

def content (writing : Writing) : Kind × String := (writing.kind, String.ofList writing.literal)

end Writing

-- A blank, and whatever trivia after it.
structure Separator where
  blank : Char
  more : List Char
  isBlank_blank : Text.isBlank blank = true
  trivia_more : Trivia false more

namespace Separator

def chars (separator : Separator) : List Char := separator.blank :: separator.more

end Separator

-- Tokens, each with what is written behind it.
def written (pieces : List (Writing × Separator)) : List Char :=
  pieces.flatMap fun piece => piece.1.chars ++ piece.2.chars

end Token

end CandleScript
