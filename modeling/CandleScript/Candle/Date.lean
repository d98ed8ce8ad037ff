import CandleScript.Text.Trim

namespace CandleScript

-- A day of the Gregorian calendar, also before its introduction.
structure Date where
  year : Int
  month : Nat
  day : Nat
  deriving DecidableEq, Repr

namespace Date

inductive Fault where
  | invalid
  | tooShort
  | trailing
  | outOfRange
  deriving DecidableEq, Repr

def Fault.message : Fault → String
  | .invalid => "input contains invalid characters"
  | .tooShort => "premature end of input"
  | .trailing => "trailing input"
  | .outOfRange => "input is out of range"

def isLeapYear (year : Int) : Bool := year % 4 = 0 && (year % 100 ≠ 0 || year % 400 = 0)

def daysIn (year : Int) (month : Nat) : Nat :=
  if month = 2 then (if isLeapYear year then 29 else 28)
  else if month = 4 ∨ month = 6 ∨ month = 9 ∨ month = 11 then 30
  else 31

def of? (year : Int) (month day : Nat) : Option Date :=
  if -262143 ≤ year ∧ year ≤ 262142 ∧ 1 ≤ month ∧ month ≤ 12 ∧ 1 ≤ day ∧ day ≤ daysIn year month then
    some ⟨year, month, day⟩
  else none

-- Whether the first date is not after the second.
def isOrdered (a b : Date) : Bool :=
  if a.year ≠ b.year then a.year < b.year
  else if a.month ≠ b.month then a.month < b.month
  else a.day ≤ b.day

def padded (width n : Nat) : String :=
  let digits := toString n
  String.ofList (List.replicate (width - digits.length) '0') ++ digits

-- Years of four digits stand alone, all others have a sign.
def yearText (year : Int) : String :=
  if 0 ≤ year ∧ year ≤ 9999 then padded 4 year.toNat
  else (if year < 0 then "-" else "+") ++ padded 4 year.natAbs

def text (date : Date) : String :=
  s!"{yearText date.year}-{padded 2 date.month}-{padded 2 date.day}"

-- A number of at most `most` digits, where that is given, and its rest. It has
-- to fit into 63 bits.
def readNumber (most : Option Nat) (cs : List Char) : Except Fault (Nat × List Char) :=
  match cs with
  | [] => .error .tooShort
  | _ =>
    let run := cs.takeWhile Char.isDigit
    let digits := match most with
      | some n => run.take n
      | none => run
    if digits = [] then .error .invalid
    else
      let value := digits.foldl (fun n c => n * 10 + (c.toNat - '0'.toNat)) 0
      if value < Nat.pow 2 63 then .ok (value, cs.drop digits.length) else .error .outOfRange

-- A year has at most four digits, or any number of them after a sign.
def readYear (cs : List Char) : Except Fault (Int × List Char) := do
  let (value, rest) ← match Text.trimStart cs with
    | '-' :: rest => (readNumber none rest).map fun (n, rest) => (-(n : Int), rest)
    | '+' :: rest => (readNumber none rest).map fun (n, rest) => ((n : Int), rest)
    | cs => (readNumber (some 4) cs).map fun (n, rest) => ((n : Int), rest)
  if -2147483648 ≤ value ∧ value ≤ 2147483647 then .ok (value, rest) else .error .outOfRange

def readPart (greatest : Nat) (cs : List Char) : Except Fault (Nat × List Char) := do
  let (value, rest) ← readNumber (some 2) (Text.trimStart cs)
  if 1 ≤ value ∧ value ≤ greatest then .ok (value, rest) else .error .outOfRange

def dash : List Char → Except Fault (List Char)
  | [] => .error .tooShort
  | '-' :: rest => .ok rest
  | _ => .error .invalid

-- Reads year, month and day with dashes between them. Blanks may stand before
-- each number.
def read (cs : List Char) : Except Fault Date := do
  let (y, rest) ← readYear cs
  let (m, rest) ← readPart 12 (← dash rest)
  let (d, rest) ← readPart 31 (← dash rest)
  if rest ≠ [] then .error .trailing
  else match of? y m d with
    | some date => .ok date
    | none => .error .outOfRange

end Date

end CandleScript
