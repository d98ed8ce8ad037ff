namespace CandleScript.Number

-- The larger of two numbers; a NaN gives way to the other one.
def larger (a b : Float) : Float := if a.isNaN then b else if a < b then b else a

-- The smaller of two numbers; a NaN gives way to the other one.
def smaller (a b : Float) : Float := if a.isNaN then b else if b < a then b else a

-- Sums run from left to right and start at minus zero, so that a sum of minus
-- zeros is a minus zero.
def sum (xs : List Float) : Float := xs.foldl (· + ·) (-0.0)

-- Every double from 2 ^ 53 on is a whole number.
def isWhole (x : Float) : Bool :=
  9007199254740992.0 ≤ x.abs || x.abs.toUInt64.toFloat == x.abs

-- The whole part of a number as a count of 64 bits: nothing for negative
-- numbers and NaN, the largest count for what is too large.
def toCount (x : Float) : Nat := x.toUInt64.toNat

def ofCount (n : Nat) : Float := Float.ofNat n

end CandleScript.Number
