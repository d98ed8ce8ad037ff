import Mathlib.Data.Nat.Count
import CandleScript.Proofs.Indicator.Positions

namespace CandleScript

namespace Series

variable {α β σ : Type}

-- How many positions up to one satisfy a condition.
def upTo (q : Nat → Bool) (i : Nat) : Nat := Nat.count (fun j => q j = true) (i + 1)

theorem upTo_zero (q : Nat → Bool) : upTo q 0 = if q 0 = true then 1 else 0 := by
  rw [upTo, Nat.count_succ, Nat.count_zero, Nat.zero_add]

theorem upTo_has_cons (x : Option α) (s : List (Option α)) (i : Nat) :
    upTo (has (x :: s)) (i + 1) = upTo (has s) i + if x.isSome = true then 1 else 0 :=
  Nat.count_succ' ..

-- A position satisfies a condition, and so do enough positions up to it.
def Reached (q : Nat → Bool) (count i : Nat) : Prop := q i = true ∧ count ≤ upTo q i

theorem upTo_pos {q : Nat → Bool} {i : Nat} (h : q i = true) : 0 < upTo q i := by
  rw [upTo, Nat.count_succ, if_pos h]
  exact Nat.succ_pos _

-- A step that passes over gaps. A state that lacks `n` values takes `n` of them
-- without a result, and has a result for every value after that.
structure WarmsUp (step : σ → Option α → Option β × σ) (lacks : σ → Nat → Prop) : Prop where
  gap : ∀ state, step state none = (none, state)
  early : ∀ {state : σ} {n : Nat}, lacks state (n + 1) → ∀ x,
    (step state (some x)).1 = none ∧ lacks (step state (some x)).2 n
  late : ∀ {state : σ}, lacks state 0 → ∀ x,
    (step state (some x)).1.isSome = true ∧ lacks (step state (some x)).2 0

-- Induction on the list: each value takes one from what the state lacks.
theorem WarmsUp.has_scan {step : σ → Option α → Option β × σ} {lacks : σ → Nat → Prop}
    (h : WarmsUp step lacks) {state : σ} {n : Nat} (hlacks : lacks state n)
    (s : List (Option α)) (i : Nat) :
    has (scan step state s) i = true ↔ Reached (has s) (n + 1) i := by
  unfold Reached
  induction s generalizing state n i with
  | nil => simp [scan]
  | cons x rest ih =>
      cases x with
      | none =>
          simp only [scan, h.gap]
          cases i with
          | zero => simp
          | succ i => simpa [upTo_has_cons] using ih hlacks i
      | some x =>
          simp only [scan]
          cases n with
          | zero =>
              obtain ⟨hvalue, hnext⟩ := h.late hlacks x
              cases i with
              | zero => simp [hvalue, upTo_zero]
              | succ i =>
                  have hrest := ih hnext i
                  simp only [has_cons_succ, upTo_has_cons, hrest]
                  refine and_congr_right fun hi => ?_
                  have hpos := upTo_pos hi
                  simp only [Option.isSome_some, if_true]
                  omega
          | succ n =>
              obtain ⟨hnone, hnext⟩ := h.early hlacks x
              cases i with
              | zero => simp [hnone, upTo_zero]
              | succ i => simpa [upTo_has_cons] using ih hnext i

-- Of the positions that satisfy a condition, all but the first ones.
theorem upTo_late {late : Nat} (hlate : 0 < late) (q : Nat → Bool) (i : Nat) :
    upTo (fun j => q j && decide (late ≤ upTo q j)) i = upTo q i - (late - 1) := by
  unfold upTo
  induction i + 1 with
  | zero => simp
  | succ n ih =>
      rw [Nat.count_succ, ih, Nat.count_succ]
      by_cases hq : q n = true
      · by_cases hreached : late ≤ Nat.count (fun j => q j = true) n + 1
        · simp [hq, hreached, Nat.count_succ]
          omega
        · simp [hq, hreached, Nat.count_succ]
          omega
      · simp [hq]

end Series

namespace Indicator

open Series (has upTo Reached)

-- How many values an average lacks in front of its first result.
inductive Ema.Lacks (period : Nat) : Ema → Nat → Prop where
  | seeding {total : Float} {seen n : Nat} (h : seen + n + 1 = period) :
    Lacks period (.seeding total seen) n
  | running {average : Float} : Lacks period (.running average) 0

theorem Ema.warmsUp_step (period : Nat) (weight : Float) :
    Series.WarmsUp (Ema.step period weight) (Ema.Lacks period) where
  gap := by rintro (_ | _) <;> rfl
  early := by
    intro state n h x
    cases h with
    | @seeding total seen _ h =>
        have hseen : ¬seen + 1 = period := by omega
        simp only [Ema.step, if_neg hseen]
        exact ⟨trivial, .seeding (by omega)⟩
  late := by
    intro state h x
    cases h with
    | @seeding total seen _ h =>
        simp only [Ema.step, if_pos h]
        exact ⟨rfl, .running⟩
    | running => exact ⟨rfl, .running⟩

theorem length_ema (source : Series) (period : Nat) :
    (ema source period).length = source.length := by
  unfold ema
  split
  · exact List.length_map _
  · exact Series.length_scan ..

theorem has_absent (source : Series) (i : Nat) : has (absent source) i = false := by
  rw [has, absent, List.getElem?_map]
  cases source[i]? <;> rfl

theorem has_ema {period : Nat} (hperiod : 0 < period) (source : Series) (i : Nat) :
    has (ema source period) i = true ↔ Reached (has source) period i := by
  have hstart : Ema.Lacks period (.seeding 0.0 0) (period - 1) := .seeding (by omega)
  rw [ema, if_neg (by omega), (Ema.warmsUp_step period _).has_scan hstart,
    Nat.sub_add_cancel hperiod]

-- The change that ends at each position.
def change? : Option Float × Option Float → Option Float
  | (some before, some now) => some (now - before)
  | _ => none

def changes (source : Series) : List (Option Float) :=
  ((none :: source).zip source).map change?

-- The index on changes instead of values: a gap leaves its averages as they are.
def Rsi.observe (period : Nat) (state : Rsi) : Option Float → Option Float × Rsi
  | none => (none, state)
  | some change => state.change period change

theorem Rsi.scan_step (period : Nat) (previous : Option Float) (state : Rsi) (source : Series) :
    Series.scan (Rsi.step period) (previous, state) source =
      Series.scan (Rsi.observe period) state
        (((previous :: source).zip source).map change?) := by
  induction source generalizing previous state with
  | nil => rfl
  | cons x rest ih =>
      simp only [Series.scan, List.zip_cons_cons, List.map_cons]
      cases previous <;> cases x <;> simp only [Rsi.step, change?, Rsi.observe, ih]

theorem rsi_eq_scan {period : Nat} (hperiod : 0 < period) (source : Series) :
    rsi source period =
      Series.scan (Rsi.observe period) (.seeding 0.0 0.0 0) (changes source) := by
  rw [rsi, if_neg (by omega), Rsi.scan_step, changes]

-- How many changes an index lacks in front of its first value.
inductive Rsi.Lacks (period : Nat) : Rsi → Nat → Prop where
  | seeding {gains losses : Float} {seen n : Nat} (h : seen + n + 1 = period) :
    Lacks period (.seeding gains losses seen) n
  | running {gain loss : Float} : Lacks period (.running gain loss) 0

theorem Rsi.warmsUp_observe (period : Nat) :
    Series.WarmsUp (Rsi.observe period) (Rsi.Lacks period) where
  gap _ := rfl
  early := by
    intro state n h x
    cases h with
    | @seeding gains losses seen _ h =>
        have hseen : seen + 1 < period := by omega
        simp only [Rsi.observe, Rsi.change, if_pos hseen]
        exact ⟨trivial, .seeding (by omega)⟩
  late := by
    intro state h x
    cases h with
    | @seeding gains losses seen _ h =>
        have hseen : ¬seen + 1 < period := by omega
        simp only [Rsi.observe, Rsi.change, if_neg hseen]
        exact ⟨rfl, .running⟩
    | running => exact ⟨rfl, .running⟩

-- Whether a position and the one before it have values.
def paired (source : Series) (i : Nat) : Bool :=
  decide (1 ≤ i) && has source (i - 1) && has source i

theorem has_changes (source : Series) (i : Nat) : has (changes source) i = paired source i := by
  rw [changes, Series.has_map_zip (by rintro (_ | _) (_ | _) <;> rfl), Series.has_none_cons,
    paired]

theorem length_rsi (source : Series) (period : Nat) :
    (rsi source period).length = source.length := by
  unfold rsi
  split
  · exact List.length_map _
  · exact Series.length_scan ..

theorem has_rsi {period : Nat} (hperiod : 0 < period) (source : Series) (i : Nat) :
    has (rsi source period) i = true ↔ Reached (paired source) period i := by
  have hstart : Rsi.Lacks period (.seeding 0.0 0.0 0) (period - 1) := .seeding (by omega)
  have hchanges : has (changes source) = paired source := funext (has_changes source)
  rw [rsi_eq_scan hperiod, (Rsi.warmsUp_observe period).has_scan hstart, hchanges,
    Nat.sub_add_cancel hperiod]

-- How many bars an average range lacks in front of its first value.
inductive RangeAverage.Lacks (period : Nat) : RangeAverage → Nat → Prop where
  | seeding {total : Float} {seen n : Nat} (h : seen + n + 1 = period) :
    Lacks period (.seeding total seen) n
  | running {average : Float} : Lacks period (.running average) 0

namespace RangeAverage

variable {period n : Nat} {range : Float} {average next : RangeAverage}

theorem exists_seeding_of_lacks (h : average.Lacks period (n + 1))
    (hnext : average.add period range = next) :
    ∃ total seen, next = .seeding total seen ∧ seen + n + 1 = period := by
  cases h with
  | @seeding total seen _ h =>
      have hseen : ¬seen + 1 = period := by omega
      rw [add, if_neg hseen] at hnext
      exact ⟨total + range, seen + 1, hnext.symm, by omega⟩

theorem exists_running_of_lacks (h : average.Lacks period 0)
    (hnext : average.add period range = next) : ∃ mean, next = .running mean := by
  cases h with
  | seeding h =>
      rw [add, if_pos h] at hnext
      exact ⟨_, hnext.symm⟩
  | running => exact ⟨_, hnext.symm⟩

end RangeAverage

theorem Supertrend.warmsUp_step (period : Nat) (multiplier : Float) :
    Series.WarmsUp (Supertrend.step period multiplier)
      (fun state n => state.range.Lacks period n) where
  gap _ := rfl
  early := by
    rintro state n h ⟨high, low, close⟩
    simp only [Supertrend.step]
    split
    · rename_i hnext
      obtain ⟨_, _, hseeding, hseen⟩ := RangeAverage.exists_seeding_of_lacks h hnext
      cases hseeding
      exact ⟨rfl, .seeding hseen⟩
    · rename_i hnext
      obtain ⟨_, _, hseeding, -⟩ := RangeAverage.exists_seeding_of_lacks h hnext
      cases hseeding
  late := by
    rintro state h ⟨high, low, close⟩
    simp only [Supertrend.step]
    split
    · rename_i hnext
      obtain ⟨_, hrunning⟩ := RangeAverage.exists_running_of_lacks h hnext
      cases hrunning
    · exact ⟨rfl, .running⟩

theorem length_supertrend (high low close : Series) (period : Nat) (multiplier : Float) :
    (supertrend high low close period multiplier).length = close.length := by
  unfold supertrend
  split
  · exact List.length_map _
  · rw [Series.length_scan, length_bars]

theorem has_supertrend {period : Nat} (hperiod : 0 < period) (multiplier : Float)
    (high low close : Series) (i : Nat) :
    has (supertrend high low close period multiplier) i = true ↔
      Reached (complete high low close) period i := by
  have hstart : RangeAverage.Lacks period Supertrend.start.range (period - 1) :=
    .seeding (by omega)
  have hbars : has (bars high low close) = complete high low close :=
    funext (has_bars high low close)
  rw [supertrend, if_neg (by omega), (Supertrend.warmsUp_step period multiplier).has_scan hstart,
    hbars, Nat.sub_add_cancel hperiod]

-- The line of two averages starts with the slower one; its own average counts
-- from there on.
theorem has_macd_line {fast slow : Nat} (hfast : 0 < fast) (hslow : 0 < slow) (signal : Nat)
    (source : Series) (i : Nat) :
    has (macd source fast slow signal).line i = true ↔
      Reached (has source) (max fast slow) i := by
  rw [macd, Series.has_combine, Bool.and_eq_true, has_ema hfast, has_ema hslow, Reached, Reached,
    Reached, Nat.max_le, ← and_and_left]

theorem has_macd_signal {fast slow signal : Nat} (hfast : 0 < fast) (hslow : 0 < slow)
    (hsignal : 0 < signal) (source : Series) (i : Nat) :
    has (macd source fast slow signal).signal i = true ↔
      Reached (has source) (max fast slow + signal - 1) i := by
  have hline : has (macd source fast slow signal).line =
      fun j => has source j && decide (max fast slow ≤ upTo (has source) j) := by
    funext j
    rw [Bool.eq_iff_iff, has_macd_line hfast hslow, Reached, Bool.and_eq_true, decide_eq_true_eq]
  have hmax : 0 < max fast slow := Nat.lt_of_lt_of_le hfast (Nat.le_max_left ..)
  change has (ema (macd source fast slow signal).line signal) i = true ↔ _
  rw [has_ema hsignal, hline, Reached, Series.upTo_late hmax, Bool.and_eq_true, decide_eq_true_eq,
    and_assoc]
  exact and_congr_right fun _ => by omega

theorem has_macd_histogram {fast slow signal : Nat} (hfast : 0 < fast) (hslow : 0 < slow)
    (hsignal : 0 < signal) (source : Series) (i : Nat) :
    has (macd source fast slow signal).histogram i = true ↔
      Reached (has source) (max fast slow + signal - 1) i := by
  change has (Series.combine _ (macd source fast slow signal).line
    (macd source fast slow signal).signal) i = true ↔ _
  rw [Series.has_combine, Bool.and_eq_true, has_macd_line hfast hslow,
    has_macd_signal hfast hslow hsignal]
  constructor
  · exact fun h => h.2
  · rintro ⟨hsource, hcount⟩
    exact ⟨⟨hsource, by omega⟩, hsource, hcount⟩

end Indicator

end CandleScript
