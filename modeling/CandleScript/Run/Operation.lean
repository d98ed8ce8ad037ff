import CandleScript.Run.Error

namespace CandleScript

namespace Operator

-- An operator on two values that are not series. Booleans count as numbers.
def onNumbers (op : Operator) (a b : Float) : Except RuntimeError Value :=
  match op with
  | add => .ok (.number (a + b))
  | sub => .ok (.number (a - b))
  | mul => .ok (.number (a * b))
  | div => if b == 0.0 then .error .divisionByZero else .ok (.number (a / b))
  | gt => .ok (.bool (b < a))
  | lt => .ok (.bool (a < b))
  | ge => .ok (.bool (b ≤ a))
  | le => .ok (.bool (a ≤ b))
  | eq => .ok (.bool (a == b))
  | ne => .ok (.bool (a != b))
  | both => .ok (.bool (truthy (some a) && truthy (some b)))
  | either => .ok (.bool (truthy (some a) || truthy (some b)))

-- A comparison or logical operator on two present numbers.
def holds (op : Operator) (x y : Float) : Bool :=
  match op with
  | gt => y < x
  | lt => x < y
  | ge => y ≤ x
  | le => x ≤ y
  | eq => x == y
  | ne => x != y
  | both => truthy (some x) && truthy (some y)
  | _ => truthy (some x) || truthy (some y)

-- An arithmetic operator on two present numbers. A division by zero has no
-- value.
def computes (op : Operator) (x y : Float) : Option Float :=
  match op with
  | add => some (x + y)
  | sub => some (x - y)
  | mul => some (x * y)
  | _ => if y != 0.0 then some (x / y) else none

-- An operator position by position; absent operands make a comparison false
-- and a result absent.
def onSeries (op : Operator) (a b : Series) (length : Nat) : Value :=
  let a := Series.fit length a
  let b := Series.fit length b
  if op.isComparison || op.isLogical then
    .boolSeries (List.zipWith (fun x y => match x, y with
      | some x, some y => op.holds x y
      | _, _ => false) a b)
  else
    .series (List.zipWith (fun x y => match x, y with
      | some x, some y => op.computes x y
      | _, _ => none) a b)

-- With a string on one side and a series on the other every position is
-- absent.
def spread (op : Operator) (left right : Value) (length : Nat) : Value :=
  match left.toSeries? length, right.toSeries? length with
  | some a, some b => op.onSeries a b length
  | _, _ => .series (List.replicate length none)

def longer : Option Nat → Option Nat → Option Nat
  | some a, some b => some (max a b)
  | some a, none => some a
  | none, b => b

-- Strings can be compared for equality with strings.
def onTexts (op : Operator) (a b : String) : Except RuntimeError Value :=
  match op with
  | eq => .ok (.bool (a == b))
  | ne => .ok (.bool (a != b))
  | _ => .error (.typeMismatch op .text .text)

def apply (op : Operator) (left right : Value) : Except RuntimeError Value :=
  match left.number?, right.number? with
  | some a, some b => op.onNumbers a b
  | _, _ =>
    match left, right with
    | .text a, .text b => op.onTexts a b
    | _, _ =>
      match longer left.seriesLength? right.seriesLength? with
      | some length => .ok (op.spread left right length)
      | none => .error (.typeMismatch op left.type right.type)

end Operator

end CandleScript
