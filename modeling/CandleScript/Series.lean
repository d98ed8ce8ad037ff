namespace CandleScript

-- One value per candle, oldest first; `none` where there is no value.
abbrev Series := List (Option Float)

namespace Series

-- A mapping that carries a state along the list.
def scan {σ α β : Type} (step : σ → α → β × σ) : σ → List α → List β
  | _, [] => []
  | state, x :: rest =>
    let (y, state) := step state x
    y :: scan step state rest

-- The first `length` values, filled up with absent ones.
def fit (length : Nat) (s : Series) : Series :=
  s.take length ++ List.replicate (length - s.length) none

-- Position by position, absent where either side is absent.
def combine (f : Float → Float → Float) (a b : Series) : Series :=
  List.zipWith (fun x y => match x, y with
    | some x, some y => some (f x y)
    | _, _ => none) a b

-- The values of a list that has no absent ones.
def present {α : Type} : List (Option α) → Option (List α)
  | [] => some []
  | none :: _ => none
  | some x :: rest => (present rest).map (x :: ·)

-- The windows of `period` values, each ending at its position and written
-- oldest first. A window is absent if it starts before the list or holds an
-- absent value. `recent` holds up to `period` values, the latest first.
def windowStep {α : Type} (period : Nat) (recent : List (Option α)) (x : Option α) :
    Option (List α) × List (Option α) :=
  let recent := (x :: recent).take period
  (if recent.length = period ∧ period ≠ 0 then present recent.reverse else none, recent)

def windows {α : Type} (period : Nat) (s : List (Option α)) : List (Option (List α)) :=
  scan (windowStep period) [] s

end Series

end CandleScript
