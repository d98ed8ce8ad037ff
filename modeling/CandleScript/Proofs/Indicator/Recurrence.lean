import CandleScript.Proofs.Indicator.Warmup

namespace CandleScript

namespace Series

variable {α β γ σ τ τ' ρ ρ' : Type}

-- An average that is first made of a number of values and then carried on from
-- value to value.
structure Recurrence (α τ ρ : Type) where
  start : τ
  add : τ → α → τ
  first : τ → ρ
  next : ρ → α → ρ

namespace Recurrence

-- The average behind a list of at least `period` values.
def average (r : Recurrence α τ ρ) (period : Nat) (xs : List α) : ρ :=
  (xs.drop period).foldl r.next (r.first ((xs.take period).foldl r.add r.start))

theorem average_take_period (r : Recurrence α τ ρ) (period : Nat) (xs : List α) :
    r.average period (xs.take period) = r.first ((xs.take period).foldl r.add r.start) := by
  rw [average, List.drop_take_self, List.take_take, Nat.min_self, List.foldl_nil]

theorem average_append (r : Recurrence α τ ρ) {period : Nat} {xs : List α}
    (h : period ≤ xs.length) (x : α) :
    r.average period (xs ++ [x]) = r.next (r.average period xs) x := by
  rw [average, List.drop_append_of_le_length h, List.take_append_of_le_length h,
    List.foldl_append, List.foldl_cons, List.foldl_nil, average]

theorem average_take_succ (r : Recurrence α τ ρ) {period i : Nat} {xs : List α} {x : α}
    (hi : period ≤ i) (hx : xs[i]? = some x) :
    r.average period (xs.take (i + 1)) = r.next (r.average period (xs.take i)) x := by
  have hlt : i < xs.length := (List.getElem?_eq_some_iff.mp hx).1
  rw [List.take_add_one, hx, Option.toList_some]
  exact r.average_append (by rw [List.length_take]; omega) x

-- Two averages of what is taken from the same values.
def pair (r : Recurrence β τ ρ) (r' : Recurrence γ τ' ρ') (f : α → β) (g : α → γ) :
    Recurrence α (τ × τ') (ρ × ρ') where
  start := (r.start, r'.start)
  add total x := (r.add total.1 (f x), r'.add total.2 (g x))
  first total := (r.first total.1, r'.first total.2)
  next average x := (r.next average.1 (f x), r'.next average.2 (g x))

theorem foldl_pair (n : ρ → β → ρ) (n' : ρ' → γ → ρ') (f : α → β) (g : α → γ) (xs : List α)
    (start : ρ × ρ') :
    xs.foldl (fun average x => (n average.1 (f x), n' average.2 (g x))) start =
      ((xs.map f).foldl n start.1, (xs.map g).foldl n' start.2) := by
  induction xs generalizing start with
  | nil => rfl
  | cons x rest ih => exact ih _

theorem average_pair (r : Recurrence β τ ρ) (r' : Recurrence γ τ' ρ') (f : α → β) (g : α → γ)
    (period : Nat) (xs : List α) :
    (r.pair r' f g).average period xs =
      (r.average period (xs.map f), r'.average period (xs.map g)) := by
  simp only [average, pair, foldl_pair, List.map_take, List.map_drop]

-- A step that counts values, and their total, until it has the first average.
structure Drives (r : Recurrence α τ ρ) (period : Nat) (seeding : τ → Nat → σ) (running : ρ → σ)
    (shown : ρ → β) (step : σ → Option α → Option β × σ) : Prop where
  early : ∀ total {seen : Nat} x, seen + 1 < period →
    step (seeding total seen) (some x) = (none, seeding (r.add total x) (seen + 1))
  first : ∀ total {seen : Nat} x, seen + 1 = period → step (seeding total seen) (some x) =
    (some (shown (r.first (r.add total x))), running (r.first (r.add total x)))
  late : ∀ average x,
    step (running average) (some x) = (some (shown (r.next average x)), running (r.next average x))

namespace Drives

variable {r : Recurrence α τ ρ} {period : Nat} {seeding : τ → Nat → σ} {running : ρ → σ}
  {shown : ρ → β} {step : σ → Option α → Option β × σ}

-- Induction on the values from the front: the counter is their number, and the
-- running value their average.
theorem stateAfter_eq (h : r.Drives period seeding running shown step) (hperiod : 0 < period)
    (xs : List α) : stateAfter step (seeding r.start 0) (xs.map some) =
      if xs.length < period then seeding (xs.foldl r.add r.start) xs.length
      else running (r.average period xs) := by
  induction xs using List.reverseRecOn with
  | nil => rw [List.length_nil, if_pos hperiod]; rfl
  | append_singleton xs x ih =>
      rw [List.map_append, List.map_singleton, stateAfter_concat, ih, List.length_append,
        List.length_singleton]
      by_cases hearly : xs.length + 1 < period
      · rw [if_pos (by omega), if_pos hearly, h.early _ _ hearly, List.foldl_append]
        rfl
      · rw [if_neg hearly]
        by_cases hfirst : xs.length + 1 = period
        · have hall : (xs ++ [x]).length = period := by
            rw [List.length_append, List.length_singleton, hfirst]
          rw [if_pos (by omega), h.first _ _ hfirst, average, List.drop_of_length_le (by omega),
            List.take_of_length_le (by omega), List.foldl_append]
          rfl
        · rw [if_neg (by omega), h.late, r.average_append (by omega)]

-- What is shown at a position is the average of the values up to it.
theorem getElem?_scan (h : r.Drives period seeding running shown step) (hperiod : 0 < period)
    (xs : List α) {i : Nat} (hi : i < xs.length) :
    (scan step (seeding r.start 0) (xs.map some))[i]? =
      some
        (if i + 1 < period then none else some (shown (r.average period (xs.take (i + 1))))) := by
  have hlength : (xs.take i).length = i := by rw [List.length_take]; omega
  have hx := List.getElem?_eq_getElem hi
  rw [Series.getElem?_scan, List.getElem?_map, hx, Option.map_some, Option.map_some,
    ← List.map_take, h.stateAfter_eq hperiod, hlength]
  by_cases hearly : i + 1 < period
  · rw [if_pos (by omega), if_pos hearly, h.early _ _ hearly]
  · rw [if_neg hearly]
    by_cases hfirst : i + 1 = period
    · rw [if_pos (by omega), h.first _ _ hfirst, hfirst, r.average_take_period, ← hfirst,
        List.take_add_one, hx, Option.toList_some, List.foldl_append, List.foldl_cons,
        List.foldl_nil]
    · rw [if_neg (by omega), h.late, r.average_take_succ (by omega) hx]

end Drives

end Recurrence

end Series

namespace Indicator

open Series (Recurrence)

-- The sum of a list from the left, from zero on.
def total (xs : List Float) : Float := xs.foldl (· + ·) 0.0

-- An average that starts as the mean of the first values.
def meanFirst (period : Nat) (next : Float → Float → Float) : Recurrence Float Float Float where
  start := 0.0
  add := (· + ·)
  first sum := sum / Number.ofCount period
  next := next

theorem average_meanFirst_take_period (period : Nat) (next : Float → Float → Float)
    (xs : List Float) : (meanFirst period next).average period (xs.take period) =
      total (xs.take period) / Number.ofCount period :=
  Recurrence.average_take_period ..

-- The exponential average: each value counts with one weight, and the last
-- average with what is left of it.
def exponential (period : Nat) : Recurrence Float Float Float :=
  let weight := 2.0 / (Number.ofCount period + 1.0)
  meanFirst period fun average x => x * weight + average * (1.0 - weight)

theorem Ema.drives_step (period : Nat) :
    (exponential period).Drives period Ema.seeding Ema.running id
      (Ema.step period (2.0 / (Number.ofCount period + 1.0))) where
  early := by
    intro total seen x hearly
    have hseen : ¬seen + 1 = period := by omega
    simp only [Ema.step, if_neg hseen]
    rfl
  first := by
    intro total seen x hfirst
    simp only [Ema.step, if_pos hfirst]
    rfl
  late _ _ := rfl

-- Wilder's average: the last one counts for all values but one.
def wilder (period : Nat) : Recurrence Float Float Float :=
  meanFirst period fun average x =>
    (average * (Number.ofCount period - 1.0) + x) / Number.ofCount period

-- The changes between the neighbours of a list, and what they gain and lose.
def moves (xs : List Float) : List Float := List.zipWith (fun before now => now - before) xs xs.tail

def gains (xs : List Float) : List Float := (moves xs).map fun change => Number.larger change 0.0

def losses (xs : List Float) : List Float :=
  (moves xs).map fun change => Number.larger (-change) 0.0

theorem Rsi.drives_observe (period : Nat) :
    ((wilder period).pair (wilder period) (fun change : Float => Number.larger change 0.0)
        fun change => Number.larger (-change) 0.0).Drives period
      (fun sums => Rsi.seeding sums.1 sums.2) (fun averages => Rsi.running averages.1 averages.2)
      (fun averages => strength averages.1 averages.2) (Rsi.observe period) where
  early := by
    intro total seen x hearly
    simp only [Rsi.observe, Rsi.change, if_pos hearly]
    rfl
  first := by
    intro total seen x hfirst
    have hseen : ¬seen + 1 < period := by omega
    simp only [Rsi.observe, Rsi.change, if_neg hseen]
    rfl
  late _ _ := rfl

theorem changes_map_some (x : Float) (xs : List Float) :
    changes ((x :: xs).map some) = none :: (moves (x :: xs)).map some := by
  have hpairs : ((x :: xs).map some).zip (xs.map some) =
      ((x :: xs).zip xs).map fun pair => (some pair.1, some pair.2) := List.zip_map ..
  rw [changes, List.map_cons, List.zip_cons_cons, List.map_cons, ← @List.map_cons _ _ some, hpairs,
    List.map_map, moves, ← List.map_uncurry_zip_eq_zipWith, List.map_map, List.tail_cons]
  rfl

theorem length_moves (xs : List Float) : (moves xs).length = xs.length - 1 := by
  simp [moves]

-- From the position on that ends the first `period` moves, an average at each
-- position: first their mean, and then each move with the average before it.
structure Smooths (period : Nat) (moves : List Float) (average : Nat → Float) : Prop where
  first : average period = total (moves.take period) / Number.ofCount period
  next : ∀ i move, period ≤ i → moves[i]? = some move → average (i + 1) =
    (average i * (Number.ofCount period - 1.0) + move) / Number.ofCount period

theorem smooths_wilder (period : Nat) (moves : List Float) :
    Smooths period moves fun i => (wilder period).average period (moves.take i) where
  first := average_meanFirst_take_period ..
  next _ _ hi hmove := (wilder period).average_take_succ hi hmove

theorem getElem?_ema {period : Nat} (hperiod : 0 < period) (xs : List Float) {i : Nat}
    (hi : i < xs.length) : (ema (xs.map some) period)[i]? = some (if i + 1 < period then none
      else some ((exponential period).average period (xs.take (i + 1)))) := by
  rw [ema, if_neg (by omega)]
  exact (Ema.drives_step period).getElem?_scan hperiod xs hi

theorem getElem?_rsi {period : Nat} (hperiod : 0 < period) (xs : List Float) {i : Nat}
    (hi : i < xs.length) :
    (rsi (xs.map some) period)[i]? = some (if i < period then none
      else some (strength ((wilder period).average period ((gains xs).take i))
        ((wilder period).average period ((losses xs).take i)))) := by
  cases xs with
  | nil => cases hi
  | cons x xs =>
      rw [rsi_eq_scan hperiod, changes_map_some]
      cases i with
      | zero => rw [if_pos hperiod]; rfl
      | succ i =>
          have hmove : i < (moves (x :: xs)).length := by
            rw [length_moves, List.length_cons]
            exact Nat.lt_of_succ_lt_succ hi
          have hvalue := (Rsi.drives_observe period).getElem?_scan hperiod _ hmove
          rw [Recurrence.average_pair] at hvalue
          rw [gains, losses, ← List.map_take, ← List.map_take]
          exact hvalue

-- On values without gaps both averages are the documented ones, operation by
-- operation. The exponential average is the mean of the first values, and then
-- each value with the weight `k` and the average before it with the rest. The
-- strength index compares the averages of what is gained and lost, from the
-- position on that ends the first `period` changes.
theorem ema_rsi_recurrences {period : Nat} (hperiod : 0 < period) (xs : List Float) :
    let p := Number.ofCount period
    let k := 2.0 / (p + 1.0)
    let average := ema (xs.map some) period
    let index := rsi (xs.map some) period
    (average.length = xs.length ∧ index.length = xs.length) ∧
    (∀ i < xs.length, i < period - 1 → average[i]? = some none) ∧
    (period ≤ xs.length → average[period - 1]? = some (some (total (xs.take period) / p))) ∧
    (∀ i x, period ≤ i → xs[i]? = some x → ∃ before, average[i - 1]? = some (some before) ∧
      average[i]? = some (some (x * k + before * (1.0 - k)))) ∧
    (∀ i < xs.length, i < period → index[i]? = some none) ∧
    ∃ gain loss, Smooths period (gains xs) gain ∧ Smooths period (losses xs) loss ∧
      ∀ i < xs.length, period ≤ i → index[i]? = some (some (if loss i == 0.0 then 100.0
        else 100.0 - 100.0 / (1.0 + gain i / loss i))) := by
  intro p k average index
  refine ⟨⟨?_, ?_⟩, ?_, ?_, ?_, ?_, _, _, smooths_wilder period (gains xs),
    smooths_wilder period (losses xs), ?_⟩
  · exact (length_ema _ period).trans (List.length_map _)
  · exact (length_rsi _ period).trans (List.length_map _)
  · intro i hi hearly
    have hvalue := getElem?_ema hperiod xs hi
    rwa [if_pos (by omega)] at hvalue
  · intro hlength
    have hvalue := getElem?_ema hperiod xs (i := period - 1) (by omega)
    rw [Nat.sub_add_cancel hperiod] at hvalue
    rwa [if_neg (Nat.lt_irrefl _), exponential, average_meanFirst_take_period] at hvalue
  · intro i x hi hx
    have hlt : i < xs.length := (List.getElem?_eq_some_iff.mp hx).1
    have hbefore := getElem?_ema hperiod xs (i := i - 1) (by omega)
    have hvalue := getElem?_ema hperiod xs hlt
    rw [Nat.sub_add_cancel (Nat.le_trans hperiod hi), if_neg (Nat.not_lt.mpr hi)] at hbefore
    rw [if_neg (by omega), Recurrence.average_take_succ _ hi hx] at hvalue
    exact ⟨_, hbefore, hvalue⟩
  · intro i hi hearly
    have hvalue := getElem?_rsi hperiod xs hi
    rwa [if_pos hearly] at hvalue
  · intro i hi hlate
    have hvalue := getElem?_rsi hperiod xs hi
    rwa [if_neg (by omega)] at hvalue

-- Changes of 2, -1 and 3, the last of which is smoothed into both averages.
theorem ema_rsi_recurrences_smoothed :
    let xs := [10.0, 12.0, 11.0, 14.0]
    let k := 2.0 / (Number.ofCount 2 + 1.0)
    0 < 2 ∧ (ema (xs.map some) 2)[0]? = some none ∧ (ema (xs.map some) 2)[1]? = some (some 11.0) ∧
      (ema (xs.map some) 2)[2]? = some (some (11.0 * k + 11.0 * (1.0 - k))) ∧
      (rsi (xs.map some) 2)[1]? = some none ∧
      (rsi (xs.map some) 2)[3]? = some (some (100.0 - 100.0 / (1.0 + 2.0 / 0.25))) := by
  intro xs k
  obtain ⟨-, hearly, hmean, hnext, hnone, gain, loss, hgain, hloss, hvalue⟩ :=
    ema_rsi_recurrences (by decide : 0 < 2) xs
  have hseed : (ema (xs.map some) 2)[1]? = some (some 11.0) :=
    (hmean (by decide)).trans (by decide +kernel)
  obtain ⟨before, hbefore, hafter⟩ := hnext 2 11.0 (by decide) rfl
  cases hseed.symm.trans hbefore
  have hgain' : gain 3 = 2.0 := by
    rw [hgain.next 2 3.0 (by decide) (by decide +kernel), hgain.first]
    decide +kernel
  have hloss' : loss 3 = 0.25 := by
    rw [hloss.next 2 0.0 (by decide) (by decide +kernel), hloss.first]
    decide +kernel
  have hindex := hvalue 3 (by decide) (by decide)
  rw [hgain', hloss'] at hindex
  exact ⟨by decide, hearly 0 (by decide) (by decide), hseed, hafter,
    hnone 1 (by decide) (by decide), hindex⟩

end Indicator

end CandleScript
