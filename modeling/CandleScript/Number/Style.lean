import CandleScript.Number.Decimal

namespace CandleScript.Number

-- How the digits of a number are laid out as text.
structure Style where
  -- which of two equally near decimals is written
  tie : Tie
  -- whether a whole number keeps a point and one zero
  keepsPoint : Bool
  -- whether a number with this exponent of its first digit is written with an
  -- exponent mark
  scientific : Int → Bool

-- Numbers in documents: a point is always there, and an exponent mark is used
-- below 1e-5 and from 1e16 on.
def Style.document : Style := ⟨.even, true, fun e => e < -5 || 16 ≤ e⟩

-- Numbers in messages: never an exponent mark, no point for whole numbers.
def Style.message : Style := ⟨.up, false, fun _ => false⟩

def zeros (n : Nat) : List Char := List.replicate n '0'

def positional (keepsPoint : Bool) (digits : List Char) (exponent : Int) : List Char :=
  if 0 ≤ exponent then
    digits ++ zeros exponent.toNat ++ (if keepsPoint then ['.', '0'] else [])
  else
    let places := (-exponent).toNat
    if places < digits.length then
      digits.take (digits.length - places) ++ '.' :: digits.drop (digits.length - places)
    else '0' :: '.' :: zeros (places - digits.length) ++ digits

def withExponent (digits : List Char) (leading : Int) : List Char :=
  let mark := 'e' :: (if leading < 0 then '-' else '+') :: Nat.toDigits 10 leading.natAbs
  match digits with
  | [] => mark
  | [d] => d :: mark
  | d :: more => d :: '.' :: more ++ mark

def Style.decimal (style : Style) (d : Decimal) : List Char :=
  let digits := Nat.toDigits 10 d.digits
  let leading := d.exponent + digits.length - 1
  if style.scientific leading then withExponent digits leading
  else positional style.keepsPoint digits d.exponent

-- The text of a finite number.
def Style.finite (style : Style) (x : Float) : List Char :=
  let size := if x == 0 then style.decimal ⟨0, 0⟩ else style.decimal (shortest style.tie x.abs)
  if isNegative x then '-' :: size else size

-- A document has no text for what is not finite.
def documentText (x : Float) : String :=
  if x.isFinite then String.ofList (Style.document.finite x) else "null"

def messageText (x : Float) : String :=
  if x.isNaN then "NaN"
  else if x.isInf then (if x < 0 then "-inf" else "inf")
  else String.ofList (Style.message.finite x)

end CandleScript.Number
