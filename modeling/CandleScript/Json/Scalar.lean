import CandleScript.Json.Basic
import CandleScript.Json.Fault
import CandleScript.Number.Read

namespace CandleScript.Json

open Number (Decimal digitsValue spanDigits)

def hexValue? (c : Char) : Option Nat :=
  if c.isDigit then some (c.toNat - 48)
  else if 'a' ≤ c ∧ c ≤ 'f' then some (c.toNat - 87)
  else if 'A' ≤ c ∧ c ≤ 'F' then some (c.toNat - 55)
  else none

def hexUnit? (a b c d : Char) : Option Nat := do
  return (((← hexValue? a) * 16 + (← hexValue? b)) * 16 + (← hexValue? c)) * 16 + (← hexValue? d)

def isLeading (unit : Nat) : Bool := 0xd800 ≤ unit && unit < 0xdc00

def isTrailing (unit : Nat) : Bool := 0xdc00 ≤ unit && unit < 0xe000

-- The character that a pair of units of sixteen bits stands for.
def pairChar (leading trailing : Nat) : Char :=
  Char.ofNat (0x10000 + (leading - 0xd800) * 0x400 + (trailing - 0xdc00))

def shortEscape? (c : Char) : Option Char :=
  match c with
  | '"' => some '"'
  | '\\' => some '\\'
  | '/' => some '/'
  | 'b' => some '\x08'
  | 'f' => some '\x0c'
  | 'n' => some '\n'
  | 'r' => some '\r'
  | 't' => some '\t'
  | _ => none

-- Four digits were expected and are not there. The text is cut off if it has
-- fewer than four bytes left.
def hexFault (rest : List Char) : Fault :=
  if (rest.take 4).foldl (fun n c => n + c.utf8Size) 0 < 4 then .truncated else .malformed

-- The second half of a pair was expected and is not there.
def pairFault : List Char → Fault
  | [] => .truncated
  | ['\\'] => .truncated
  | '\\' :: 'u' :: rest => hexFault rest
  | _ => .malformed

def push (c : Char) (tail : Except Fault (List Char × List Char)) :
    Except Fault (List Char × List Char) :=
  tail.map fun (cs, rest) => (c :: cs, rest)

-- The characters up to the closing quote, the opening one being read already.
def textBody : Reader (List Char)
  | [] => .error .truncated
  | '"' :: rest => .ok ([], rest)
  | '\\' :: [] => .error .truncated
  | '\\' :: 'u' :: a :: b :: c :: d :: rest =>
    match hexUnit? a b c d with
    | none => .error .malformed
    | some unit =>
      if isTrailing unit then .error .malformed
      else if isLeading unit then
        match rest with
        | '\\' :: 'u' :: e :: f :: g :: h :: more =>
          match hexUnit? e f g h with
          | none => .error .malformed
          | some other =>
            if isTrailing other then push (pairChar unit other) (textBody more)
            else .error .malformed
        | _ => .error (pairFault rest)
      else push (Char.ofNat unit) (textBody rest)
  | '\\' :: 'u' :: rest => .error (hexFault rest)
  | '\\' :: c :: rest =>
    match shortEscape? c with
    | some d => push d (textBody rest)
    | none => .error .malformed
  | c :: rest => if c.toNat < 0x20 then .error .malformed else push c (textBody rest)

-- The same for a text whose value is not wanted: its escapes may stand for
-- halves of pairs.
def skipTextBody : Reader Unit
  | [] => .error .truncated
  | '"' :: rest => .ok ((), rest)
  | '\\' :: [] => .error .truncated
  | '\\' :: 'u' :: a :: b :: c :: d :: rest =>
    match hexUnit? a b c d with
    | none => .error .malformed
    | some _ => skipTextBody rest
  | '\\' :: 'u' :: rest => .error (hexFault rest)
  | '\\' :: c :: rest =>
    match shortEscape? c with
    | some _ => skipTextBody rest
    | none => .error .malformed
  | c :: rest => if c.toNat < 0x20 then .error .malformed else skipTextBody rest

-- A number as it is written.
structure NumberText where
  negative : Bool
  whole : List Char
  part : Option (List Char)
  exponent : Option Int

-- At least one digit; `atEnd` is the fault of a text that ends before it.
def someDigits (atEnd : Fault) (cs : List Char) : Except Fault (List Char × List Char) :=
  match spanDigits cs with
  | ([], []) => .error atEnd
  | ([], _ :: _) => .error .malformed
  | (digits, rest) => .ok (digits, rest)

-- No digit may follow a leading zero.
def wholeDigits (atEnd : Fault) (cs : List Char) : Except Fault (List Char × List Char) := do
  let (digits, rest) ← someDigits atEnd cs
  if digits.head? = some '0' ∧ digits.length ≠ 1 then .error .malformed else .ok (digits, rest)

def partDigits (atEnd : Fault) :
    List Char → Except Fault (Option (List Char) × List Char)
  | '.' :: rest => do
    let (digits, rest) ← someDigits atEnd rest
    return (some digits, rest)
  | rest => .ok (none, rest)

def exponentDigits (atEnd : Fault) (cs : List Char) : Except Fault (Option Int × List Char) :=
  match cs with
  | [] => .ok (none, [])
  | mark :: rest =>
    if mark = 'e' ∨ mark = 'E' then do
      let (negative, rest) := Number.readSign rest
      let (digits, rest) ← someDigits atEnd rest
      let size : Int := digitsValue digits
      return (some (if negative then -size else size), rest)
    else .ok (none, cs)

def numberText (atEnd : Fault) (cs : List Char) : Except Fault (NumberText × List Char) := do
  let (negative, rest) := match cs with
    | '-' :: rest => (true, rest)
    | _ => (false, cs)
  let (whole, rest) ← wholeDigits atEnd rest
  let (part, rest) ← partDigits atEnd rest
  let (exponent, rest) ← exponentDigits atEnd rest
  return (⟨negative, whole, part, exponent⟩, rest)

def NumberText.toDecimal (n : NumberText) : Decimal :=
  let part := n.part.getD []
  ⟨digitsValue (n.whole ++ part), n.exponent.getD 0 - part.length⟩

def NumberText.toFloat (n : NumberText) : Float :=
  if n.negative then -n.toDecimal.toFloat else n.toDecimal.toFloat

-- Whole numbers of 64 bits keep their exact value. Minus zero is not one of
-- them, because its sign would be lost.
def NumberText.integer? (n : NumberText) : Option Int :=
  let size := digitsValue n.whole
  if n.part.isSome ∨ n.exponent.isSome then none
  else if n.negative then (if 0 < size ∧ size ≤ Nat.pow 2 63 then some (-(size : Int)) else none)
  else if size < Nat.pow 2 64 then some size else none

-- A number too large for a double is malformed.
def NumberText.toJson (n : NumberText) : Except Fault Json :=
  match n.integer? with
  | some value => .ok (.integer value)
  | none => if n.toFloat.isInf then .error .malformed else .ok (.real n.toFloat)

def number : Reader Json := fun cs => do
  let (written, rest) ← numberText .truncated cs
  return (← written.toJson, rest)

def skipNumber : Reader Unit := fun cs => do
  let (_, rest) ← numberText .malformed cs
  return ((), rest)

-- The rest of one of the words null, true and false.
def word (expected : List Char) : Reader Unit
  | cs =>
    match expected, cs with
    | [], cs => .ok ((), cs)
    | _ :: _, [] => .error .truncated
    | e :: es, c :: rest => if e = c then word es rest else .error .malformed

end CandleScript.Json
