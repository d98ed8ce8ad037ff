import Mathlib.Data.Prod.Lex
import CandleScript.Candle.Bar

namespace CandleScript

namespace Date

-- Days are compared by their years, then by their months.
def key (date : Date) : ℤ ×ₗ ℕ ×ₗ ℕ := toLex (date.year, toLex (date.month, date.day))

theorem key_injective : Function.Injective key := by
  rintro ⟨year, month, day⟩ ⟨year', month', day'⟩ h
  cases h
  rfl

instance : LinearOrder Date := .lift' key key_injective

theorem le_iff {a b : Date} :
    a ≤ b ↔ a.year < b.year ∨ a.year = b.year ∧
      (a.month < b.month ∨ a.month = b.month ∧ a.day ≤ b.day) := by
  change key a ≤ key b ↔ _
  rw [key, key, Prod.Lex.toLex_le_toLex, Prod.Lex.toLex_le_toLex]

theorem isOrdered_iff {a b : Date} : a.isOrdered b = true ↔ a ≤ b := by
  rw [le_iff, isOrdered]
  split
  · rw [decide_eq_true_iff]
    omega
  · split
    · rw [decide_eq_true_iff]
      omega
    · rw [decide_eq_true_iff]
      omega

end Date

namespace Bar

-- The order in which bars are loaded.
def isOrdered (a b : Bar) : Bool := a.date.isOrdered b.date

theorem isOrdered_iff {a b : Bar} : a.isOrdered b = true ↔ a.date ≤ b.date := Date.isOrdered_iff

theorem isOrdered_trans (a b c : Bar) (hab : a.isOrdered b = true) (hbc : b.isOrdered c = true) :
    a.isOrdered c = true :=
  isOrdered_iff.mpr ((isOrdered_iff.mp hab).trans (isOrdered_iff.mp hbc))

theorem isOrdered_total (a b : Bar) : (a.isOrdered b || b.isOrdered a) = true := by
  rw [Bool.or_eq_true, isOrdered_iff, isOrdered_iff]
  exact le_total a.date b.date

theorem pairwise_mergeSort (bars : List Bar) :
    (bars.mergeSort isOrdered).Pairwise fun a b => a.date ≤ b.date :=
  (List.pairwise_mergeSort isOrdered_trans isOrdered_total bars).imp isOrdered_iff.mp

-- The bars of one day stay in their order.
theorem filter_mergeSort (bars : List Bar) (date : Date) :
    (bars.mergeSort isOrdered).filter (fun bar => bar.date = date) =
      bars.filter fun bar => bar.date = date := by
  have hordered : (bars.filter fun bar => bar.date = date).Pairwise
      fun a b => a.isOrdered b = true := by
    apply List.pairwise_of_forall_mem_list
    intro a ha b hb
    have hdates : a.date = b.date :=
      (of_decide_eq_true (List.mem_filter.mp ha).2).trans
        (of_decide_eq_true (List.mem_filter.mp hb).2).symm
    exact isOrdered_iff.mpr hdates.le
  have hsublist := (List.sublist_mergeSort isOrdered_trans isOrdered_total hordered
    List.filter_sublist).filter fun bar => bar.date = date
  simp only [List.filter_filter, Bool.and_self] at hsublist
  have hlength := ((List.mergeSort_perm bars isOrdered).filter fun bar => bar.date = date).length_eq
  exact (hsublist.eq_of_length hlength.symm).symm

end Bar

end CandleScript
