import Mathlib.Data.List.TakeWhile
import CandleScript.Candle.Table

namespace CandleScript.Table

theorem line_foldl_pass (cursor : Cursor) (cs : List Char) :
    (cs.foldl Cursor.pass cursor).line = cursor.line + cs.count '\n' := by
  induction cs generalizing cursor with
  | nil => rfl
  | cons c cs ih =>
      rw [List.foldl_cons, ih, Cursor.pass]
      by_cases hc : c = '\n'
      · subst hc
        rw [if_pos rfl, List.count_cons_self, Nat.add_right_comm, Nat.add_assoc]
      · rw [if_neg hc, List.count_cons_of_ne hc]

theorem start_stepPlain (row : OpenRow) (c : Char) : (stepPlain row c).2.start = row.start := by
  rw [stepPlain]
  split <;> rfl

theorem start_stepFront (row : OpenRow) (c : Char) : (stepFront row c).2.start = row.start := by
  rw [stepFront]
  split
  · rfl
  · exact start_stepPlain row c

-- A row keeps its start for as long as it is read.
theorem start_step (mode : Mode) (row : OpenRow) (c : Char) :
    (step mode row c).2.start = row.start := by
  cases mode with
  | rowStart =>
      rw [step]
      split
      · rfl
      · exact start_stepFront row c
  | fieldStart => exact start_stepFront row c
  | plain => exact start_stepPlain row c
  | quoted =>
      rw [step]
      split <;> rfl
  | afterQuote =>
      rw [step]
      split
      · rfl
      · exact start_stepPlain row c

section

variable {mode : Mode} {row : OpenRow} {cursor : Cursor} {c : Char} {cs : List Char} {found : Row}

theorem rowsFrom_of_endsRow (h : endsRow mode c = true) :
    rowsFrom mode row cursor (c :: cs) =
      row.close :: rowsFrom .rowStart (.opened (cursor.pass c)) (cursor.pass c) cs :=
  if_pos h

theorem rowsFrom_of_not_endsRow (h : ¬endsRow mode c = true) :
    rowsFrom mode row cursor (c :: cs) =
      rowsFrom (step mode row c).1 (step mode row c).2 (cursor.pass c) cs :=
  if_neg h

theorem start_of_head (h : (rowsFrom mode row cursor cs).head? = some found) :
    found.start = row.start := by
  induction cs generalizing mode row cursor with
  | nil =>
      rw [rowsFrom] at h
      split at h
      · cases h
      · cases h
        rfl
  | cons c cs ih =>
      by_cases hends : endsRow mode c = true
      · rw [rowsFrom_of_endsRow hends] at h
        cases h
        rfl
      · rw [rowsFrom_of_not_endsRow hends] at h
        exact (ih h).trans (start_step mode row c)

-- A place in a text and the first row that is read from it on.
def ReadAt (cursor : Cursor) (cs : List Char) (found : Row) : Prop :=
  (rowsFrom .rowStart (.opened cursor) cursor cs).head? = some found

-- Induction on the text: the first row is the one that is being read already,
-- and every other one is read from where the row in front of it ended.
theorem head_or_readAt_of_mem (h : found ∈ rowsFrom mode row cursor cs) :
    (rowsFrom mode row cursor cs).head? = some found ∨
      ∃ front back, cs = front ++ back ∧ ReadAt (front.foldl Cursor.pass cursor) back found := by
  induction cs generalizing mode row cursor with
  | nil =>
      rw [rowsFrom] at h ⊢
      split at h
      · cases h
      · rename_i hmode
        rw [if_neg hmode, List.mem_singleton.mp h]
        exact .inl rfl
  | cons c cs ih =>
      by_cases hends : endsRow mode c = true
      · rw [rowsFrom_of_endsRow hends] at h ⊢
        rcases List.mem_cons.mp h with rfl | hlater
        · exact .inl rfl
        · rcases ih hlater with hfirst | ⟨front, back, rfl, hread⟩
          · exact .inr ⟨[c], cs, rfl, hfirst⟩
          · exact .inr ⟨c :: front, back, rfl, hread⟩
      · rw [rowsFrom_of_not_endsRow hends] at h ⊢
        rcases ih h with hfirst | ⟨front, back, rfl, hread⟩
        · exact .inl hfirst
        · exact .inr ⟨c :: front, back, rfl, hread⟩

theorem exists_readAt_of_mem (h : found ∈ rowsFrom .rowStart (.opened cursor) cursor cs) :
    ∃ front back, cs = front ++ back ∧ ReadAt (front.foldl Cursor.pass cursor) back found := by
  rcases head_or_readAt_of_mem h with hfirst | hlater
  · exact ⟨[], cs, rfl, hfirst⟩
  · exact hlater

end

-- A row stands on the line of its first character, told by the line feeds in
-- front. The reader takes it up earlier, at the end of the row in front of it, and
-- skips line breaks from there on: `lag` of them are line feeds.
def StandsOn (text : String) (row : Row) (line lag : Nat) : Prop :=
  ∃ front skipped c rest, text.toList = front ++ (skipped ++ c :: rest) ∧
    row.start = front.foldl Cursor.pass .start ∧ ReadAt row.start (skipped ++ c :: rest) row ∧
    (∀ b ∈ skipped, isBreak b = true) ∧ isBreak c = false ∧
    line = (front ++ skipped).count '\n' + 1 ∧ lag = skipped.count '\n'

-- The line of the cursor is the one on which the row is taken up.
theorem StandsOn.line_start {text : String} {row : Row} {line lag : Nat}
    (h : StandsOn text row line lag) : row.start.line = line - lag := by
  obtain ⟨front, skipped, c, rest, -, hstart, -, -, -, hline, hlag⟩ := h
  have hcursor : row.start.line = 1 + front.count '\n' := by
    rw [hstart, line_foldl_pass, Cursor.start]
  rw [List.count_append] at hline
  omega

theorem rowsFrom_eq_nil_of_breaks {row : OpenRow} {cursor : Cursor} {cs : List Char}
    (h : ∀ c ∈ cs, isBreak c = true) : rowsFrom .rowStart row cursor cs = [] := by
  induction cs generalizing cursor with
  | nil => rfl
  | cons c cs ih =>
      obtain ⟨hc, hcs⟩ := List.forall_mem_cons.mp h
      rw [rowsFrom_of_not_endsRow (by simp [endsRow]), step, if_pos hc]
      exact ih hcs

-- Where a row is read there is more than line breaks.
theorem ReadAt.exists_skipped {cursor : Cursor} {cs : List Char} {row : Row}
    (h : ReadAt cursor cs row) :
    ∃ skipped c rest, cs = skipped ++ c :: rest ∧ (∀ b ∈ skipped, isBreak b = true) ∧
      isBreak c = false := by
  cases hbody : cs.dropWhile isBreak with
  | nil =>
      rw [ReadAt, rowsFrom_eq_nil_of_breaks (List.dropWhile_eq_nil_iff.mp hbody)] at h
      cases h
  | cons c rest =>
      have hc := List.head?_dropWhile_not isBreak cs
      rw [hbody] at hc
      refine ⟨cs.takeWhile isBreak, c, rest, ?_, fun _ => List.mem_takeWhile_imp, hc⟩
      rw [← hbody, List.takeWhile_append_dropWhile]

theorem exists_readAt_of_mem_rows {text : String} {row : Row} (h : row ∈ rows text) :
    ∃ front back, text.toList = front ++ back ∧
      ReadAt (front.foldl Cursor.pass .start) back row := by
  rw [rows] at h
  cases hcs : text.toList with
  | nil =>
      rw [hcs] at h
      cases h
  | cons c rest =>
      rw [hcs] at h
      by_cases hmark : c = byteOrderMark
      · simp only [hmark, if_true] at h
        obtain ⟨front, back, rfl, hread⟩ := exists_readAt_of_mem h
        exact ⟨c :: front, back, rfl, hmark ▸ hread⟩
      · simp only [hmark, if_false] at h
        exact exists_readAt_of_mem h

theorem exists_standsOn_of_mem_rows {text : String} {row : Row} (h : row ∈ rows text) :
    ∃ line lag, StandsOn text row line lag := by
  obtain ⟨front, back, htext, hread⟩ := exists_readAt_of_mem_rows h
  have hstart : row.start = front.foldl Cursor.pass .start := start_of_head hread
  obtain ⟨skipped, c, rest, rfl, hskipped, hc⟩ := hread.exists_skipped
  exact ⟨_, _, front, skipped, c, rest, htext, hstart, hstart ▸ hread, hskipped, hc, rfl, rfl⟩

theorem mem_rows_of_mem_records {text : String} {row : Row} (h : .ok row ∈ records text) :
    row ∈ rows text := by
  rw [records] at h
  split at h
  · cases h
  · rename_i heading rest hrows
    obtain ⟨⟨found, index⟩, hmem, hcheck⟩ := List.mem_map.mp h
    rw [checkRow] at hcheck
    split at hcheck
    · cases hcheck
      rw [hrows]
      exact List.mem_cons_of_mem _ (List.fst_mem_of_mem_zipIdx hmem)
    · cases hcheck

end CandleScript.Table
