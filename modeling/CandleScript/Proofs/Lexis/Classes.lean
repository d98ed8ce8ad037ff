import CandleScript.Script.Lexeme

namespace CandleScript

namespace Text

-- What a table holds lies in one of its intervals.
theorem exists_of_inRanges {ranges : List (Nat × Nat)} {n : Nat} (h : inRanges ranges n = true) :
    ∃ range ∈ ranges, range.1 ≤ n ∧ n ≤ range.2 := by
  induction ranges with
  | nil => cases h
  | cons range rest ih =>
      rw [inRanges] at h
      split at h
      · cases h
      · split at h
        · exact ⟨range, List.mem_cons_self, by omega, by assumption⟩
        · obtain ⟨other, hother, hin⟩ := ih h
          exact ⟨other, List.mem_cons_of_mem _ hother, hin⟩

-- The tables of blanks, of letters and of numbers have nothing in common.
theorem blankRanges_apart : ∀ range ∈ blankRanges,
    ∀ n ∈ List.range' range.1 (range.2 + 1 - range.1),
    inRanges alphabeticRanges n = false ∧ inRanges numericRanges n = false := by
  decide +kernel

theorem apart_of_isBlank {c : Char} (h : isBlank c = true) :
    isAlphabetic c = false ∧ isNumeric c = false := by
  obtain ⟨range, hrange, hlow, hhigh⟩ := exists_of_inRanges h
  exact blankRanges_apart range hrange c.toNat (List.mem_range'_1.mpr ⟨hlow, by omega⟩)

end Text

namespace Lexeme

theorem isWordChar_of_isNameStart {c : Char} (h : isNameStart c = true) : isWordChar c = true := by
  rw [isNameStart, Bool.or_eq_true] at h
  rw [isWordChar, Bool.or_eq_true, Bool.or_eq_true]
  exact h.imp_left .inl

-- No blank belongs to a word.
theorem not_isWordChar_of_isBlank {c : Char} (h : Text.isBlank c = true) :
    isWordChar c = false := by
  obtain ⟨halphabetic, hnumeric⟩ := Text.apart_of_isBlank h
  have hunderscore : c ≠ '_' := by
    rintro rfl
    cases h
  simp [isWordChar, halphabetic, hnumeric, hunderscore]

theorem not_isBlank_of_isWordChar {c : Char} (h : isWordChar c = true) :
    Text.isBlank c = false := by
  cases hblank : Text.isBlank c with
  | false => rfl
  | true => cases h.symm.trans (not_isWordChar_of_isBlank hblank)

theorem toNat_of_isDigit {c : Char} (h : c.isDigit = true) : 48 ≤ c.toNat ∧ c.toNat ≤ 57 := by
  rw [Char.isDigit, Bool.and_eq_true, decide_eq_true_eq, decide_eq_true_eq] at h
  exact h

theorem isWordChar_of_isDigit {c : Char} (h : c.isDigit = true) : isWordChar c = true := by
  obtain ⟨hlow, hhigh⟩ := toNat_of_isDigit h
  have hnumeric : Text.isNumeric c = true := by
    rw [Text.isNumeric, Text.numericRanges, Text.inRanges, if_neg (by omega), if_pos (by omega)]
  simp [isWordChar, hnumeric]

-- A digit does not start a name.
theorem not_isNameStart_of_isDigit {c : Char} (h : c.isDigit = true) : isNameStart c = false := by
  obtain ⟨hlow, hhigh⟩ := toNat_of_isDigit h
  have halphabetic : Text.isAlphabetic c = false := by
    rw [Text.isAlphabetic, Text.alphabeticRanges, Text.inRanges, if_pos (by omega)]
  have hunderscore : c ≠ '_' := by
    rintro rfl
    cases h
  simp [isNameStart, halphabetic, hunderscore]

end Lexeme

end CandleScript
