namespace CandleScript

-- A computation that looks at a clock on its way. It goes on once it is given
-- the time in nanoseconds.
inductive Timed (α : Type) where
  | done (result : α)
  | reading (resume : (now : Nat) → Timed α)

namespace Timed

def map {α β : Type} (f : α → β) : Timed α → Timed β
  | done result => done (f result)
  | reading resume => reading fun now => map f (resume now)

-- The result when the clock shows `clock n` at reading `n`, of which `count`
-- are over.
def resultFrom {α : Type} (clock : Nat → Nat) : (count : Nat) → Timed α → α
  | _, done result => result
  | count, reading resume => resultFrom clock (count + 1) (resume (clock count))

def result {α : Type} (clock : Nat → Nat) (timed : Timed α) : α := resultFrom clock 0 timed

theorem resultFrom_map {α β : Type} (f : α → β) (clock : Nat → Nat) (count : Nat)
    (timed : Timed α) : resultFrom clock count (timed.map f) = f (resultFrom clock count timed) := by
  induction timed generalizing count with
  | done result => rfl
  | reading resume ih => exact ih (clock count) (count + 1)

end Timed

end CandleScript
