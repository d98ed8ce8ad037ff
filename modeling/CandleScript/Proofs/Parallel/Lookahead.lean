import CandleScript.Proofs.Indicator.Positions
import CandleScript.Proofs.Parallel.Runs

namespace CandleScript

-- A value as it is at the first `m` candles.
def Value.cut (m : Nat) : Value → Value
  | .series values => .series (values.take m)
  | .boolSeries values => .boolSeries (values.take m)
  | value => value

def Context.cut (m : Nat) (context : Context) : Context :=
  ⟨context.entries.map fun (name, value) => (name, value.cut m)⟩

def Event.cut (m : Nat) : Event → Event
  | .entry e => .entry { e with condition := e.condition.take m }
  | .close e => .close { e with condition := e.condition.take m }

def Record.cut (m : Nat) : Record → Record
  | .plot p => .plot { p with values := p.values.cut m }
  | .event e => .event (e.cut m)

-- Every series is as long as the close.
def Context.Aligned (context : Context) : Prop :=
  Bindings.Each (fun value => ∀ length, value.seriesLength? = some length →
    length = context.candleCount) context

theorem Context.seriesLength?_column (values : List Float) :
    (column values).seriesLength? = some values.length :=
  congrArg some (List.length_map _)

theorem Context.candleCount_ofBars (bars : List Bar) : (ofBars bars).candleCount = bars.length := by
  simp only [candleCount, ofBars, Bindings.get?_set, reduceIte, String.reduceEq, Option.bind_some,
    seriesLength?_column, List.length_map, Option.getD_some]

-- Runs on candles start from an aligned context.
theorem Context.aligned_ofBars (bars : List Bar) : (ofBars bars).Aligned := by
  have hcolumn (field : Bar → Float) (length : Nat)
      (hlength : (column (bars.map field)).seriesLength? = some length) :
      length = (ofBars bars).candleCount := by
    rw [seriesLength?_column, List.length_map] at hlength
    rw [candleCount_ofBars]
    exact (Option.some.inj hlength).symm
  exact (Bindings.each_empty _).set "open" (hcolumn Bar.opening)
    |>.set "high" (hcolumn Bar.high)
    |>.set "low" (hcolumn Bar.low)
    |>.set "close" (hcolumn Bar.close)
    |>.set "volume" (hcolumn Bar.volume)

theorem Context.get?_cut (m : Nat) (context : Context) (name : String) :
    (context.cut m).get? name = (context.get? name).map (Value.cut m) :=
  Bindings.find_map (Value.cut m) name context.entries

namespace Value

theorem seriesLength?_cut (m : Nat) (value : Value) :
    (value.cut m).seriesLength? = value.seriesLength?.map (min m) := by
  cases value with
  | series values | boolSeries values => exact congrArg some (List.length_take ..)
  | number _ | bool _ | text _ => rfl

end Value

theorem Context.candleCount_cut {context : Context} {m : Nat} (hm : m ≤ context.candleCount) :
    (context.cut m).candleCount = m := by
  unfold candleCount at hm ⊢
  rw [get?_cut]
  cases hclose : context.get? "close" with
  | none =>
      rw [hclose] at hm
      exact (Nat.le_zero.mp hm).symm
  | some value =>
      rw [hclose] at hm
      simp only [Option.map_some, Option.bind_some, Value.seriesLength?_cut] at hm ⊢
      cases hlength : value.seriesLength? with
      | none =>
          rw [hlength] at hm
          exact (Nat.le_zero.mp hm).symm
      | some length =>
          rw [hlength] at hm
          exact Nat.min_eq_left hm

namespace Series

variable {σ α β : Type}

-- A scan has no look-ahead: what it makes of a beginning is the beginning of
-- what it makes of the whole.
theorem scan_take (step : σ → α → β × σ) (state : σ) (s : List α) (m : Nat) :
    scan step state (s.take m) = (scan step state s).take m := by
  induction s generalizing state m with
  | nil => simp only [List.take_nil, scan]
  | cons x rest ih =>
      cases m with
      | zero => rfl
      | succ m => simp only [List.take_succ_cons, scan, ih]

end Series

-- Lists of `n` values in one run, and their first `m` in the other one.
def Pairing.cut {n m : Nat} (hm : m ≤ n) : Pairing where
  lists s t := s.length = n ∧ t = s.take m
  counts k k' := k = n ∧ k' = m
  length := by
    rintro α s _ ⟨hs, rfl⟩
    exact ⟨hs, List.length_take_of_le (hs ▸ hm)⟩
  max := by
    rintro a a' b b' ⟨rfl, rfl⟩ ⟨rfl, rfl⟩
    exact ⟨Nat.max_self _, Nat.max_self _⟩
  replicate := by
    rintro α x k k' ⟨rfl, rfl⟩
    exact ⟨List.length_replicate, by rw [List.take_replicate, Nat.min_eq_left hm]⟩
  scan := by
    rintro σ α β step state s _ ⟨hs, rfl⟩
    exact ⟨(Series.length_scan ..).trans hs, Series.scan_take ..⟩
  zip := by
    rintro α β s _ u _ ⟨hs, rfl⟩ ⟨hu, rfl⟩
    exact ⟨by rw [List.length_zip, hs, hu, Nat.min_self], List.take_zipWith.symm⟩
  fit := by
    rintro k k' s _ ⟨rfl, rfl⟩ ⟨hs, rfl⟩
    subst hs
    have hlength : (s.take k').length = k' := List.length_take_of_le hm
    have hshort := Series.fit_length (s.take k')
    rw [hlength] at hshort
    rw [Series.fit_length, hshort]
    exact ⟨rfl, rfl⟩

section

variable {n m : Nat} (hm : m ≤ n)

theorem Value.paired_cut {value : Value}
    (hlength : ∀ length, value.seriesLength? = some length → length = n) :
    Value.Paired (.cut hm) value (value.cut m) := by
  cases value with
  | number x => exact .number x
  | bool b => exact .bool b
  | text s => exact .text s
  | series values => exact .series ⟨hlength _ rfl, rfl⟩
  | boolSeries values => exact .boolSeries ⟨hlength _ rfl, rfl⟩

theorem Value.Paired.cut_eq {v w : Value} (h : Value.Paired (.cut hm) v w) : v.cut m = w := by
  cases h with
  | number _ | bool _ | text _ => rfl
  | series h => exact congrArg Value.series h.2.symm
  | boolSeries h => exact congrArg Value.boolSeries h.2.symm

theorem Record.Paired.cut_eq {r r' : Record} (h : Record.Paired (.cut hm) r r') :
    r.cut m = r' := by
  cases h with
  | plot title color style h => rw [← h.cut_eq hm]; rfl
  | entry id direction stop profit h => rw [h.2]; rfl
  | close id h => rw [h.2]; rfl

end

theorem Context.paired_cut {context : Context} (haligned : context.Aligned) {m : Nat}
    (hm : m ≤ context.candleCount) : context.Paired (.cut hm) (context.cut m) := by
  intro name
  rw [get?_cut]
  cases hvalue : context.get? name with
  | none => exact .none
  | some value => exact .some (Value.paired_cut hm (haligned name value hvalue))

-- No look-ahead. A run on the first `m` candles ends like the run on all of
-- them, and leaves the first `m` values of its bindings and records behind.
theorem execute_cut (limits : Limits) (program : Ir.Program) (context : Context)
    (haligned : context.Aligned) (hcount : context.candleCount ≤ limits.maxSeriesLength) {m : Nat}
    (hm : m ≤ context.candleCount) (clock clock' : Nat → Nat)
    (htime : ((execute .records limits program context []).result clock).endsOn .executionTime =
      false)
    (htime' : ((execute .records limits program (context.cut m) []).result clock').endsOn
      .executionTime = false) :
    let whole := (execute .records limits program context []).result clock
    let short := (execute .records limits program (context.cut m) []).result clock'
    short.result = whole.result ∧
      (∀ name, short.context.get? name = (whole.context.get? name).map (Value.cut m)) ∧
      short.kept = whole.kept.map (Record.cut m) := by
  have hshort := Context.candleCount_cut hm
  have hfits : (context.cut m).candleCount ≤ limits.maxSeriesLength := by
    rw [hshort]
    exact Nat.le_trans hm hcount
  have hpaired := execute_paired (Channel.paired_records _) limits program
    (Context.paired_cut haligned hm) ⟨rfl, hshort⟩ .nil hcount hfits clock clock' htime htime'
  refine ⟨hpaired.result.symm, ?_, ?_⟩
  · intro name
    rcases absent_or_present (hpaired.context name) with ⟨hv, hw⟩ | ⟨v, w, hv, hw, hvalue⟩
    · rw [hv, hw]
      rfl
    · rw [hv, hw, Option.map_some, hvalue.cut_eq hm]
  · have hkept := hpaired.kept.imp fun r r' h => Record.Paired.cut_eq hm h
    rw [← List.forall₂_map_left_iff, List.forall₂_eq_eq_eq] at hkept
    exact hkept.symm

-- Marks the candles where the price rises above its average over two candles.
def risingProgram : Ir.Program :=
  let average : Ir.Node := .call "sma" [.var "close", .const (.number 2.0)]
  ⟨[.assign "rising" (.call "crossover" [.var "close", average]),
    .call "plotshape" [.var "rising"]]⟩

-- Candles that open, close and stay at one price.
def flatBars (prices : List Float) : List Bar :=
  prices.map fun price => ⟨⟨2024, 1, 1⟩, price, price, price, price, 1.0⟩

theorem execute_cut_rising :
    let context := Context.ofBars (flatBars [2.0, 1.0, 3.0, 2.0])
    let short := (execute .records .standard risingProgram (context.cut 3) []).result fun _ => 0
    short.result = .ok 8 ∧
      short.kept = [.plot ⟨"Shape", "#26A69A", .shape, .boolSeries [false, false, true]⟩] := by
  obtain ⟨hresult, -, hkept⟩ := execute_cut .standard risingProgram _
    (Context.aligned_ofBars (flatBars [2.0, 1.0, 3.0, 2.0])) (by decide) (by decide : 3 ≤ _)
    (fun _ => 0) (fun _ => 0) rfl rfl
  exact ⟨hresult.trans rfl, hkept.trans rfl⟩

end CandleScript
