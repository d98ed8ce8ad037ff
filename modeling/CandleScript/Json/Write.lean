import CandleScript.Json.Basic
import CandleScript.Number.Style

namespace CandleScript.Json

-- Only the quote, the backslash and control characters are escaped.
def escapeChar (c : Char) : List Char :=
  match c with
  | '"' => ['\\', '"']
  | '\\' => ['\\', '\\']
  | '\n' => ['\\', 'n']
  | '\r' => ['\\', 'r']
  | '\t' => ['\\', 't']
  | '\x08' => ['\\', 'b']
  | '\x0c' => ['\\', 'f']
  | c =>
    if c.toNat < 0x20 then
      ['\\', 'u', '0', '0', Nat.digitChar (c.toNat / 16), Nat.digitChar (c.toNat % 16)]
    else [c]

def quote (s : String) : List Char := '"' :: s.toList.flatMap escapeChar ++ ['"']

def scalarText : Json → List Char
  | .null => "null".toList
  | .bool value => (if value then "true" else "false").toList
  | .integer value => (toString value).toList
  | .real value => (Number.documentText value).toList
  | .text value => quote value
  | .list _ => []
  | .object _ => []

mutual

-- The text without any space between its parts.
def compactChars : Json → List Char
  | .list [] => ['[', ']']
  | .list (first :: rest) => '[' :: compactChars first ++ compactItems rest ++ [']']
  | .object [] => ['\x7b', '\x7d']
  | .object ((key, value) :: rest) =>
    '\x7b' :: quote key ++ ':' :: compactChars value ++ compactMembers rest ++ ['\x7d']
  | value => scalarText value

def compactItems : List Json → List Char
  | [] => []
  | item :: rest => ',' :: compactChars item ++ compactItems rest

def compactMembers : List (String × Json) → List Char
  | [] => []
  | (key, value) :: rest => ',' :: quote key ++ ':' :: compactChars value ++ compactMembers rest

end

-- A line break and the indentation of one nesting level, two spaces each.
def newline (level : Nat) : List Char := '\n' :: List.replicate (2 * level) ' '

mutual

-- One item or member a line. Empty lists and objects stay on their line.
def prettyChars (level : Nat) : Json → List Char
  | .list [] => ['[', ']']
  | .list (first :: rest) =>
    '[' :: newline (level + 1) ++ prettyChars (level + 1) first ++
      prettyItems (level + 1) rest ++ newline level ++ [']']
  | .object [] => ['\x7b', '\x7d']
  | .object ((key, value) :: rest) =>
    '\x7b' :: newline (level + 1) ++ quote key ++ ':' :: ' ' :: prettyChars (level + 1) value ++
      prettyMembers (level + 1) rest ++ newline level ++ ['\x7d']
  | value => scalarText value

def prettyItems (level : Nat) : List Json → List Char
  | [] => []
  | item :: rest => ',' :: newline level ++ prettyChars level item ++ prettyItems level rest

def prettyMembers (level : Nat) : List (String × Json) → List Char
  | [] => []
  | (key, value) :: rest =>
    ',' :: newline level ++ quote key ++ ':' :: ' ' :: prettyChars level value ++
      prettyMembers level rest

end

def compact (value : Json) : String := String.ofList (compactChars value)

def pretty (value : Json) : String := String.ofList (prettyChars 0 value)

end CandleScript.Json
