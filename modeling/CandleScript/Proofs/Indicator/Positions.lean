import CandleScript.Indicator.Trend
import CandleScript.Indicator.Volume

namespace CandleScript

namespace Series

variable {α β γ δ σ : Type}

theorem length_scan (step : σ → α → β × σ) (state : σ) (s : List α) :
    (scan step state s).length = s.length := by
  induction s generalizing state with
  | nil => rfl
  | cons x rest ih => simp only [scan, List.length_cons, ih]

-- The state of a scan behind a list.
def stateAfter (step : σ → α → β × σ) : σ → List α → σ :=
  List.foldl fun state x => (step state x).2

theorem stateAfter_concat (step : σ → α → β × σ) (state : σ) (s : List α) (x : α) :
    stateAfter step state (s ++ [x]) = (step (stateAfter step state s) x).2 := by
  rw [stateAfter, List.foldl_append, List.foldl_cons, List.foldl_nil]

theorem stateAfter_take_succ (step : σ → α → β × σ) (state : σ) {s : List α} {i : Nat} {x : α}
    (h : s[i]? = some x) : stateAfter step state (s.take (i + 1)) =
      (step (stateAfter step state (s.take i)) x).2 := by
  rw [List.take_add_one, h, Option.toList_some, stateAfter_concat]

-- At a position a scan gives what its step gives in the state behind the
-- positions before it.
theorem getElem?_scan (step : σ → α → β × σ) (state : σ) (s : List α) (i : Nat) :
    (scan step state s)[i]? =
      s[i]?.map fun x => (step (stateAfter step state (s.take i)) x).1 := by
  induction s generalizing state i with
  | nil => rfl
  | cons x rest ih =>
      cases i with
      | zero => rfl
      | succ i => exact ih (step state x).2 i

theorem length_windows (period : Nat) (s : List (Option α)) :
    (windows period s).length = s.length :=
  length_scan ..

theorem length_fit (length : Nat) (s : Series) : (fit length s).length = length := by
  rw [fit, List.length_append, List.length_take, List.length_replicate]
  omega

theorem fit_length (s : Series) : fit s.length s = s := by
  rw [fit, List.take_length, Nat.sub_self, List.replicate_zero, List.append_nil]

theorem getElem?_fit {length i : Nat} (h : i < length) (s : Series) :
    (fit length s)[i]? = some s[i]?.join := by
  rw [fit, List.getElem?_append, List.length_take, List.getElem?_take_of_lt h,
    List.getElem?_replicate]
  by_cases hi : i < s.length
  · rw [if_pos (Nat.lt_min.mpr ⟨h, hi⟩), List.getElem?_eq_getElem hi]
    rfl
  · rw [if_neg (fun h => hi (Nat.lt_min.mp h).2), List.getElem?_eq_none (Nat.le_of_not_lt hi),
      if_pos (by omega)]
    rfl

-- Whether a list has a value at a position.
def has (s : List (Option α)) (i : Nat) : Bool := s[i]?.join.isSome

@[simp] theorem has_nil (i : Nat) : has ([] : List (Option α)) i = false := rfl

@[simp] theorem has_cons_zero (x : Option α) (s : List (Option α)) :
    has (x :: s) 0 = x.isSome := rfl

@[simp] theorem has_cons_succ (x : Option α) (s : List (Option α)) (i : Nat) :
    has (x :: s) (i + 1) = has s i := rfl

theorem has_none_cons (s : List (Option α)) (i : Nat) :
    has (none :: s) i = (decide (1 ≤ i) && has s (i - 1)) := by
  cases i <;> simp

theorem has_of_le {s : List (Option α)} {i : Nat} (h : s.length ≤ i) : has s i = false := by
  rw [has, List.getElem?_eq_none h]
  rfl

theorem lt_length_of_has {s : List (Option α)} {i : Nat} (h : has s i = true) : i < s.length := by
  refine Nat.lt_of_not_le fun hi => ?_
  rw [has_of_le hi] at h
  cases h

-- What an operation on values does with gaps decides where its result has any.
theorem has_map {f : Option α → Option β} (hf : ∀ x, (f x).isSome = x.isSome)
    (s : List (Option α)) (i : Nat) : has (s.map f) i = has s i := by
  rw [has, has, List.getElem?_map]
  cases s[i]? with
  | none => rfl
  | some x => exact hf x

theorem has_map_zip {f : Option α × Option β → Option γ}
    (hf : ∀ x y, (f (x, y)).isSome = (x.isSome && y.isSome)) (s : List (Option α))
    (t : List (Option β)) (i : Nat) : has ((s.zip t).map f) i = (has s i && has t i) := by
  simp only [has, List.getElem?_map, List.zip, List.getElem?_zipWith]
  cases s[i]? with
  | none => rfl
  | some x =>
      cases t[i]? with
      | none => simp
      | some y => exact hf x y

theorem has_map_zip_zip {f : Option α × Option β × Option γ → Option δ}
    (hf : ∀ x y z, (f (x, y, z)).isSome = (x.isSome && y.isSome && z.isSome))
    (s : List (Option α)) (t : List (Option β)) (u : List (Option γ)) (i : Nat) :
    has ((s.zip (t.zip u)).map f) i = (has s i && has t i && has u i) := by
  simp only [has, List.getElem?_map, List.zip, List.getElem?_zipWith]
  cases s[i]? with
  | none => rfl
  | some x =>
      cases t[i]? with
      | none => simp
      | some y =>
          cases u[i]? with
          | none => simp
          | some z => exact hf x y z

theorem has_combine (f : Float → Float → Float) (s t : Series) (i : Nat) :
    has (combine f s t) i = (has s i && has t i) := by
  rw [combine, ← List.map_uncurry_zip_eq_zipWith]
  apply has_map_zip
  intro x y
  cases x <;> cases y <;> rfl

theorem has_fit (length : Nat) (s : Series) (i : Nat) :
    has (fit length s) i = (decide (i < length) && has s i) := by
  by_cases hi : i < length
  · simp [has, getElem?_fit hi, hi]
  · rw [has_of_le (by rw [length_fit]; omega)]
    simp [hi]

-- The `period` positions up to `stop` exist, and all of them satisfy a condition.
def Filled (q : Nat → Bool) (period stop : Nat) : Prop :=
  period ≤ stop + 1 ∧ ∀ back < period, q (stop - back) = true

-- The `period` values of a list up to `stop`.
def window (period stop : Nat) (s : List (Option α)) : Option (List α) :=
  if period ≤ stop + 1 ∧ period ≠ 0 then present ((s.take (stop + 1)).drop (stop + 1 - period))
  else none

theorem take_cons_take (n : Nat) (x : α) (s : List α) :
    (x :: s.take n).take n = (x :: s).take n := by
  cases n with
  | zero => rfl
  | succ n => simp [List.take_take]

-- What is kept of the values in front is the end of them, the latest first.
theorem getElem?_scan_windowStep (period : Nat) (front s : List (Option α)) (i : Nat) :
    (scan (windowStep period) (front.reverse.take period) s)[i]? =
      s[i]?.map fun _ => window period (front.length + i) (front ++ s) := by
  induction s generalizing front i with
  | nil => rfl
  | cons x rest ih =>
      have hrecent : (x :: front.reverse.take period).take period =
          (front ++ [x]).reverse.take period := by
        rw [take_cons_take, List.reverse_append]
        rfl
      have hall : front ++ x :: rest = front ++ [x] ++ rest := by simp
      simp only [scan, windowStep, hrecent]
      cases i with
      | zero =>
          have hfront : (front ++ [x]).length = front.length + 1 := List.length_append
          have hcount : ((front ++ [x]).reverse.take period).length = period ↔
              period ≤ front.length + 1 := by
            rw [List.length_take, List.length_reverse, hfront]
            omega
          have hvalues : ((front ++ [x]).reverse.take period).reverse =
              (front ++ [x]).drop (front.length + 1 - period) := by
            rw [List.take_reverse, List.reverse_reverse, hfront]
          rw [hall, window, Nat.add_zero, List.take_left' hfront, ← hvalues]
          simp only [hcount]
          rfl
      | succ i =>
          have hindex : front.length + (i + 1) = (front ++ [x]).length + i := by
            rw [List.length_append, List.length_singleton]
            omega
          rw [List.getElem?_cons_succ, List.getElem?_cons_succ, ih, hall, hindex]

theorem getElem?_windows (period : Nat) (s : List (Option α)) (i : Nat) :
    (windows period s)[i]? = s[i]?.map fun _ => window period i s := by
  have hscan := getElem?_scan_windowStep period [] s i
  rw [List.reverse_nil, List.take_nil, List.length_nil, Nat.zero_add, List.nil_append] at hscan
  exact hscan

theorem isSome_present (s : List (Option α)) :
    (present s).isSome = true ↔ ∀ x ∈ s, x.isSome = true := by
  induction s with
  | nil => simp [present]
  | cons x rest ih =>
      cases x with
      | none => simp [present]
      | some x => simp [present, ih]

theorem isSome_window {period stop : Nat} (hperiod : 0 < period) {s : List (Option α)}
    (hstop : stop < s.length) : (window period stop s).isSome = true ↔ Filled (has s) period stop := by
  unfold window Filled
  by_cases hfits : period ≤ stop + 1
  · rw [if_pos ⟨hfits, by omega⟩, isSome_present]
    have hslice (k : Nat) (hk : k < period) :
        ((s.take (stop + 1)).drop (stop + 1 - period))[k]? = s[stop + 1 - period + k]? := by
      rw [List.getElem?_drop, List.getElem?_take_of_lt (by omega)]
    constructor
    · intro hall
      refine ⟨hfits, fun back hback => ?_⟩
      have hindex : stop + 1 - period + (period - 1 - back) = stop - back := by omega
      have hin : stop - back < s.length := by omega
      have hat := hslice (period - 1 - back) (by omega)
      rw [hindex, List.getElem?_eq_getElem hin] at hat
      rw [has, List.getElem?_eq_getElem hin]
      exact hall _ (List.mem_of_getElem? hat)
    · rintro ⟨-, hall⟩ x hx
      obtain ⟨k, hk⟩ := List.getElem?_of_mem hx
      have hlength : k < period := by
        have hbound := (List.getElem?_eq_some_iff.mp hk).1
        rw [List.length_drop, List.length_take] at hbound
        omega
      have hindex : stop - (period - 1 - k) = stop + 1 - period + k := by omega
      have hhas := hall (period - 1 - k) (by omega)
      rw [hslice k hlength] at hk
      rw [hindex, has, hk] at hhas
      exact hhas
  · rw [if_neg (fun h => hfits h.1)]
    simp [hfits]

theorem has_windows {period : Nat} (hperiod : 0 < period) (s : List (Option α)) (i : Nat) :
    has (windows period s) i = true ↔ Filled (has s) period i := by
  by_cases hi : i < s.length
  · rw [has, getElem?_windows, List.getElem?_eq_getElem hi, Option.map_some, Option.join_some,
      isSome_window hperiod hi]
  · rw [has_of_le (by rw [length_windows]; omega)]
    constructor
    · exact fun h => nomatch h
    · rintro ⟨-, hall⟩
      have hlast := lt_length_of_has (hall 0 hperiod)
      omega

theorem has_windows_zero (s : List (Option α)) (i : Nat) : has (windows 0 s) i = false := by
  rw [has, getElem?_windows]
  cases s[i]? <;> simp [window]

end Series

namespace Indicator

open Series (has Filled)

variable (high low close volume : Series)

-- Whether a bar has all three prices.
def complete (i : Nat) : Bool := has high i && has low i && has close i

theorem length_bars : (bars high low close).length = close.length := by
  simp [bars, Series.length_fit]

theorem has_bars (i : Nat) : has (bars high low close) i = complete high low close i := by
  rw [bars, Series.has_map_zip_zip (by rintro (_ | _) (_ | _) (_ | _) <;> rfl), Series.has_fit,
    Series.has_fit, complete]
  by_cases hi : i < close.length
  · simp [hi]
  · simp [Series.has_of_le (Nat.le_of_not_lt hi)]

theorem length_typicalPrices : (typicalPrices high low close).length = close.length := by
  rw [typicalPrices, List.length_map, length_bars]

theorem has_typicalPrices (i : Nat) :
    has (typicalPrices high low close) i = complete high low close i := by
  rw [typicalPrices, Series.has_map (by rintro (_ | _) <;> rfl), has_bars]

variable (typical : Series)

theorem length_moneyFlows : (moneyFlows typical volume).length = typical.length := by
  simp [moneyFlows, Series.length_fit]

-- A money flow looks back at the price before it.
theorem has_moneyFlows (i : Nat) : has (moneyFlows typical volume) i =
    (has (none :: typical) i && has typical i && has volume i) := by
  rw [moneyFlows, Series.has_map_zip_zip (by rintro (_ | _) (_ | _) (_ | _) <;> rfl),
    Series.has_fit]
  by_cases hi : i < typical.length
  · simp [hi]
  · simp [Series.has_of_le (Nat.le_of_not_lt hi)]

end Indicator

end CandleScript
