import CandleScript.Number.Decimal

namespace CandleScript.Number

inductive ReadError where
  | empty
  | invalid
  deriving DecidableEq, Repr

def ReadError.message : ReadError → String
  | .empty => "cannot parse float from empty string"
  | .invalid => "invalid float literal"

def digitValue (c : Char) : Nat := c.toNat - '0'.toNat

-- The number written by a run of decimal digits.
def digitsValue (ds : List Char) : Nat := ds.foldl (fun n c => n * 10 + digitValue c) 0

def spanDigits (cs : List Char) : List Char × List Char := cs.span Char.isDigit

-- An optional sign; true stands for minus.
def readSign : List Char → Bool × List Char
  | '-' :: rest => (true, rest)
  | '+' :: rest => (false, rest)
  | cs => (false, cs)

-- The exponent after the digits: nothing, or a mark and at least one digit up
-- to the end of the text.
def readExponent : List Char → Option Int
  | [] => some 0
  | mark :: rest =>
    if mark = 'e' ∨ mark = 'E' then
      let (negative, digits) := readSign rest
      if digits ≠ [] ∧ digits.all Char.isDigit then
        let size : Int := digitsValue digits
        some (if negative then -size else size)
      else none
    else none

-- Digits with an optional point among them, before or after it at least one.
def readMantissa (cs : List Char) : Option (Decimal × List Char) :=
  let (whole, rest) := spanDigits cs
  match rest with
  | '.' :: more =>
    let (part, rest) := spanDigits more
    if whole = [] ∧ part = [] then none
    else some (⟨digitsValue (whole ++ part), -(part.length : Int)⟩, rest)
  | _ => if whole = [] then none else some (⟨digitsValue whole, 0⟩, rest)

def readDecimal (cs : List Char) : Option Decimal := do
  let (mantissa, rest) ← readMantissa cs
  let exponent ← readExponent rest
  return ⟨mantissa.digits, mantissa.exponent + exponent⟩

-- The words for what is not finite, in any letter case.
def readWord (cs : List Char) : Option Float :=
  let word := String.ofList (cs.map Char.toLower)
  if word = "inf" ∨ word = "infinity" then some (1.0 / 0.0)
  else if word = "nan" then some (0.0 / 0.0)
  else none

-- The nearest double of a number text: an optional sign, then a decimal or
-- one of the words.
def read (cs : List Char) : Except ReadError Float :=
  if cs = [] then .error .empty
  else
    let (negative, size) := readSign cs
    match (readDecimal size).map Decimal.toFloat <|> readWord size with
    | some x => .ok (if negative then -x else x)
    | none => .error .invalid

end CandleScript.Number
