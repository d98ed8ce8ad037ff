import CandleScript.Proofs.Json.Number
import CandleScript.Proofs.Lexis.Classes
import CandleScript.Proofs.Lexis.Trivia

namespace CandleScript

namespace Lexeme

open Json (IsDigits)

-- Word characters, and dots in front of further segments.
inductive Segments : List Char → Prop where
  | nil : Segments []
  | char {c : Char} {cs : List Char} (hc : isWordChar c = true) (h : Segments cs) :
    Segments (c :: cs)
  | dot {cs : List Char} (hcs : startsName cs = true) (h : Segments cs) : Segments ('.' :: cs)

-- A name starts with a letter or an underscore, and so does every segment.
def IsName (text : List Char) : Prop := startsName text = true ∧ Segments text

-- Nothing follows that would go on with a name.
def EndsName (rest : List Char) : Prop :=
  ∀ c more, rest = c :: more → isWordChar c = false ∧ ¬(c = '.' ∧ startsName more = true)

theorem startsName_append {text : List Char} (h : startsName text = true) (rest : List Char) :
    startsName (text ++ rest) = true := by
  cases text with
  | nil => cases h
  | cons c more => exact h

theorem spanName_stop {rest : List Char} (h : EndsName rest) : spanName rest = ([], rest) := by
  cases rest with
  | nil => rfl
  | cons c more =>
      obtain ⟨hc, hdot⟩ := h c more rfl
      simp [spanName, hc, hdot]

theorem spanName_append {text rest : List Char} (h : Segments text) (hrest : EndsName rest) :
    spanName (text ++ rest) = (text, rest) := by
  induction h with
  | nil => exact spanName_stop hrest
  | char hc _ ih => simp [spanName, hc, ih]
  | dot hcs _ ih => simp [spanName, startsName_append hcs rest, ih]

theorem startsName_spanName {cs : List Char} (h : startsName cs = true) :
    startsName (spanName cs).1 = true := by
  cases cs with
  | nil => cases h
  | cons c rest =>
      have hc : isWordChar c = true := isWordChar_of_isNameStart h
      simp only [spanName, hc, Bool.true_or, if_true]
      exact h

theorem segments_of_spanName (cs : List Char) :
    cs = (spanName cs).1 ++ (spanName cs).2 ∧ Segments (spanName cs).1 ∧
      EndsName (spanName cs).2 := by
  induction cs with
  | nil => exact ⟨rfl, .nil, fun _ _ h => nomatch h⟩
  | cons c rest ih =>
      obtain ⟨hcs, hsegments, hends⟩ := ih
      by_cases hc : isWordChar c = true
      · simp only [spanName, hc, Bool.true_or, if_true]
        exact ⟨congrArg (c :: ·) hcs, .char hc hsegments, hends⟩
      · by_cases hdot : c = '.' ∧ startsName rest = true
        · obtain ⟨rfl, hstarts⟩ := hdot
          simp only [spanName, hstarts, decide_true, Bool.and_self, Bool.or_true, if_true]
          exact ⟨congrArg ('.' :: ·) hcs, .dot (startsName_spanName hstarts) hsegments, hends⟩
        · have hstop : EndsName (c :: rest) := by
            rintro _ _ ⟨⟩
            exact ⟨Bool.eq_false_iff.mpr hc, hdot⟩
          rw [spanName_stop hstop]
          exact ⟨rfl, .nil, hstop⟩

-- Digits, or digits on both sides of one point.
def IsNumber (text : List Char) : Prop :=
  IsDigits text ∨ ∃ whole part, text = whole ++ '.' :: part ∧ IsDigits whole ∧ IsDigits part

-- Nothing follows that could belong to the word that a number stands in.
def EndsNumber (rest : List Char) : Prop :=
  ∀ c, rest.head? = some c → isWordChar c = false ∧ c ≠ '.'

theorem isPlainNumber_of_isNumber {text : List Char} (h : IsNumber text) :
    isPlainNumber text = true := by
  unfold isPlainNumber
  rcases h with hdigits | ⟨whole, part, rfl, hwhole, hpart⟩
  · have hend : Json.EndsDigits [] := fun _ h => nomatch h
    have hspan := Json.spanDigits_append hdigits.2 hend
    rw [List.append_nil, Number.spanDigits] at hspan
    rw [hspan]
  · have hspan := Json.spanDigits_append hwhole.2 (Json.endsDigits_cons (c := '.') rfl part)
    rw [Number.spanDigits] at hspan
    rw [hspan]
    simp only [Bool.and_eq_true, decide_eq_true_eq, List.all_eq_true]
    exact ⟨⟨trivial, hpart.1⟩, hpart.2⟩

theorem isNumber_of_isPlainNumber {c : Char} {more : List Char} (hc : c.isDigit = true)
    (h : isPlainNumber (c :: more) = true) : IsNumber (c :: more) := by
  have htext := List.takeWhile_append_dropWhile (p := Char.isDigit) (l := c :: more)
  have hdigits : IsDigits ((c :: more).takeWhile Char.isDigit) := by
    refine ⟨?_, List.all_eq_true.mp List.all_takeWhile⟩
    rw [List.takeWhile_cons_of_pos hc]
    exact List.cons_ne_nil _ _
  rw [isPlainNumber, List.span_eq_takeWhile_dropWhile] at h
  cases hrest : (c :: more).dropWhile Char.isDigit with
  | nil =>
      rw [hrest, List.append_nil] at htext
      exact .inl (htext ▸ hdigits)
  | cons d part =>
      rw [hrest] at h htext
      simp only [Bool.and_eq_true, decide_eq_true_eq, List.all_eq_true] at h
      obtain ⟨⟨rfl, hpart⟩, hall⟩ := h
      exact .inr ⟨_, part, htext.symm, hdigits, hpart, hall⟩

theorem word_of_isNumber {text : List Char} (h : IsNumber text) :
    ∀ c ∈ text, (isWordChar c || c = '.') = true := by
  have hdigits {ds : List Char} (hds : IsDigits ds) :
      ∀ c ∈ ds, (isWordChar c || c = '.') = true := by
    intro c hc
    rw [isWordChar_of_isDigit (hds.2 c hc), Bool.true_or]
  rcases h with h | ⟨whole, part, rfl, hwhole, hpart⟩
  · exact hdigits h
  · rw [List.forall_mem_append, List.forall_mem_cons]
    exact ⟨hdigits hwhole, by simp, hdigits hpart⟩

-- A number is read as far as its word goes.
theorem number_append {text rest : List Char} (h : IsNumber text)
    (hfinite : isFiniteNumber text = true) (hrest : EndsNumber rest) :
    number (text ++ rest) = .ok ⟨.number, text, text, rest⟩ := by
  have hspan : (text ++ rest).span (fun c => isWordChar c || c = '.') = (text, rest) := by
    rw [List.span_eq_takeWhile_dropWhile, List.takeWhile_append_of_pos (word_of_isNumber h),
      List.dropWhile_append_of_pos (word_of_isNumber h)]
    cases rest with
    | nil => simp
    | cons c more =>
        obtain ⟨hc, hdot⟩ := hrest c rfl
        simp [hc, hdot]
  simp only [number, hspan, isPlainNumber_of_isNumber h, hfinite, Bool.and_self, if_true]

theorem isNumber_of_number {c : Char} {cs : List Char} {lexeme : Lexeme} (hc : c.isDigit = true)
    (h : number (c :: cs) = .ok lexeme) :
    c :: cs = lexeme.source ++ lexeme.rest ∧ IsNumber lexeme.source ∧
      isFiniteNumber lexeme.source = true ∧ EndsNumber lexeme.rest ∧
      lexeme.kind = .number ∧ lexeme.literal = lexeme.source := by
  let inWord (c : Char) : Bool := isWordChar c || c = '.'
  have hfirst : inWord c = true := by
    change (isWordChar c || _) = true
    rw [isWordChar_of_isDigit hc, Bool.true_or]
  rw [number, List.span_eq_takeWhile_dropWhile] at h
  simp only at h
  split at h
  · rename_i hnumber
    obtain ⟨hplain, hfinite⟩ := Bool.and_eq_true_iff.mp hnumber
    cases h
    refine ⟨by simp only [List.takeWhile_append_dropWhile], ?_, hfinite, ?_, rfl, rfl⟩
    · rw [List.takeWhile_cons_of_pos hfirst] at hplain ⊢
      exact isNumber_of_isPlainNumber hc hplain
    · intro d hd
      have hlast := List.head?_dropWhile_not inWord (c :: cs)
      change ((c :: cs).dropWhile inWord).head? = some d at hd
      rw [hd] at hlast
      simpa [inWord] using hlast
  · cases h

-- What may stand between the quotes of a string, and its value. A backslash
-- and the character behind it are one pair.
inductive Quoted (quote : Char) : (body value : List Char) → Prop where
  | nil : Quoted quote [] []
  | plain {c : Char} {body value : List Char} (hquote : c ≠ quote) (hslash : c ≠ '\\')
    (hline : c ≠ '\n') (h : Quoted quote body value) : Quoted quote (c :: body) (c :: value)
  | newline {body value : List Char} (h : Quoted quote body value) :
    Quoted quote ('\\' :: 'n' :: body) ('\n' :: value)
  | decoded {c : Char} {body value : List Char} (hc : c = '"' ∨ c = '\'' ∨ c = '\\')
    (h : Quoted quote body value) : Quoted quote ('\\' :: c :: body) (c :: value)
  | kept {c : Char} {body value : List Char} (hn : c ≠ 'n') (hc : ¬(c = '"' ∨ c = '\'' ∨ c = '\\'))
    (h : Quoted quote body value) : Quoted quote ('\\' :: c :: body) ('\\' :: c :: value)

section

variable {quote : Char}

theorem Quoted.pair (c : Char) {body value : List Char} (h : Quoted quote body value) :
    Quoted quote ('\\' :: c :: body) (unescape c ++ value) := by
  unfold unescape
  by_cases hn : c = 'n'
  · subst hn
    exact .newline h
  · by_cases hc : c = '"' ∨ c = '\'' ∨ c = '\\'
    · rw [if_neg hn, if_pos hc]
      exact .decoded hc h
    · rw [if_neg hn, if_neg hc]
      exact .kept hn hc h

theorem stringBody_pair (c : Char) {cs value source rest : List Char}
    (h : stringBody quote cs = some (value, source, rest)) :
    stringBody quote ('\\' :: c :: cs) = some (unescape c ++ value, '\\' :: c :: source, rest) := by
  rw [stringBody, h]
  rfl

theorem stringBody_append (hquote : quote ≠ '\\') (hline : quote ≠ '\n') {body value : List Char}
    (h : Quoted quote body value) (rest : List Char) :
    stringBody quote (body ++ quote :: rest) = some (value, body ++ [quote], rest) := by
  induction h with
  | nil => simp [stringBody, hquote, hline]
  | plain hc hslash hbreak _ ih => simp [stringBody, hc, hslash, hbreak, ih]
  | newline _ ih => exact stringBody_pair 'n' ih
  | @decoded c _ _ hc _ ih =>
      have hpair := stringBody_pair c ih
      have hn : c ≠ 'n' := by rcases hc with rfl | rfl | rfl <;> decide
      rw [unescape, if_neg hn, if_pos hc] at hpair
      exact hpair
  | @kept c _ _ hn hc _ ih =>
      have hpair := stringBody_pair c ih
      rw [unescape, if_neg hn, if_neg hc] at hpair
      exact hpair

theorem quoted_of_stringBody {cs value source rest : List Char}
    (h : stringBody quote cs = some (value, source, rest)) :
    ∃ body, source = body ++ [quote] ∧ cs = body ++ quote :: rest ∧ Quoted quote body value := by
  fun_induction stringBody quote cs generalizing value source rest with
  | case1 => cases h
  | case2 => cases h
  | case3 c cs ih =>
      obtain ⟨⟨value', source', rest'⟩, hinner, houter⟩ := Option.bind_eq_some_iff.mp h
      cases houter
      obtain ⟨body, rfl, rfl, hbody⟩ := ih hinner
      exact ⟨'\\' :: c :: body, rfl, rfl, hbody.pair c⟩
  | case4 => cases h
  | case5 =>
      cases h
      exact ⟨[], rfl, rfl, .nil⟩
  | case6 c cs hshape hshape' hline hquote ih =>
      obtain ⟨⟨value', source', rest'⟩, hinner, houter⟩ := Option.bind_eq_some_iff.mp h
      cases houter
      obtain ⟨body, rfl, rfl, hbody⟩ := ih hinner
      have hslash : c ≠ '\\' := by
        rintro rfl
        cases body with
        | nil => exact hshape' _ _ rfl rfl
        | cons d more => exact hshape' _ _ rfl rfl
      exact ⟨c :: body, rfl, rfl, .plain hquote hslash hline hbody⟩

end

end Lexeme

end CandleScript
