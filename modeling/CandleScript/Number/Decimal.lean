namespace CandleScript.Number

-- The number `digits * 10 ^ exponent`.
structure Decimal where
  digits : Nat
  exponent : Int
  deriving DecidableEq, Repr

-- The nearest double, ties to the even one.
def Decimal.toFloat (d : Decimal) : Float :=
  Float.ofScientific d.digits (d.exponent < 0) d.exponent.natAbs

-- The size of a finite double is `significand * 2 ^ power`.
structure Magnitude where
  significand : Nat
  power : Int

def magnitude (x : Float) : Magnitude :=
  let bits := x.toBits.toNat
  let biased : Nat := bits / Nat.pow 2 52 % Nat.pow 2 11
  let fraction : Nat := bits % Nat.pow 2 52
  if biased = 0 then ⟨fraction, -1074⟩ else ⟨fraction + Nat.pow 2 52, (biased : Int) - 1075⟩

def isNegative (x : Float) : Bool := Nat.pow 2 63 ≤ x.toBits.toNat

-- Numerator and denominator of a magnitude.
def Magnitude.fraction (m : Magnitude) : Nat × Nat :=
  (m.significand * Nat.pow 2 m.power.toNat, Nat.pow 2 (-m.power).toNat)

-- All digits of a magnitude: a power of two below one is a power of five over
-- a power of ten.
def Magnitude.exact (m : Magnitude) : Decimal :=
  if 0 ≤ m.power then ⟨m.significand * Nat.pow 2 m.power.toNat, 0⟩
  else ⟨m.significand * Nat.pow 5 (-m.power).toNat, m.power⟩

def digitCount (n : Nat) : Nat := (Nat.toDigits 10 n).length

-- The exponent `e` with `10 ^ e ≤ num / den < 10 ^ (e + 1)`. Below one the
-- fraction is never a power of ten, because its denominator is a power of two.
def leadingExponent (num den : Nat) : Int :=
  if den ≤ num then (digitCount (num / den) : Int) - 1 else -(digitCount (den / num) : Int)

-- Which of two decimals at the same distance is written.
inductive Tie where
  | even
  | up
  deriving DecidableEq, Repr

-- Of the two multiples of `10 ^ unit` around the positive double `x`, which is
-- `num / den`, the one that reads back as `x`; if both do, the nearer one.
def nearestOf (tie : Tie) (x : Float) (num den : Nat) (unit : Int) : Option Decimal :=
  let top := num * Nat.pow 10 (-unit).toNat
  let bottom := den * Nat.pow 10 unit.toNat
  let below : Decimal := ⟨top / bottom, unit⟩
  let above : Decimal := ⟨top / bottom + 1, unit⟩
  let rest := top % bottom
  let reads (d : Decimal) : Bool := d.toFloat == x
  if reads below then
    if reads above then
      if 2 * rest < bottom then some below
      else if bottom < 2 * rest then some above
      else match tie with
        | .up => some above
        | .even => if below.digits % 2 = 0 then some below else some above
    else some below
  else if reads above then some above
  else none

-- Trailing zeros carry no information once the exponent is kept.
def stripZeros : (fuel : Nat) → Decimal → Decimal
  | 0, d => d
  | fuel + 1, d =>
    if d.digits ≠ 0 ∧ d.digits % 10 = 0 then stripZeros fuel ⟨d.digits / 10, d.exponent + 1⟩ else d

-- The decimal with the fewest digits that reads back as the positive finite
-- double `x`. Seventeen digits are enough for every double.
def shortest (tie : Tie) (x : Float) : Decimal :=
  let (num, den) := (magnitude x).fraction
  let leading := leadingExponent num den
  let found := (List.range 17).findSome? fun n => nearestOf tie x num den (leading - (n : Nat))
  stripZeros 20 (found.getD (magnitude x).exact)

end CandleScript.Number
