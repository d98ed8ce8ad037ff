import CandleScript.Proofs.Lexis.Forms

namespace CandleScript

namespace Token

-- How the kinds are written that are neither words nor have a value.
def Kind.sign? : Kind → Option (List Char)
  | .op operator => if operator.isLogical then none else some operator.symbol.toList
  | .assign => some ['=']
  | .openParen => some ['(']
  | .closeParen => some [')']
  | .comma => some [',']
  | .name | .number | .text | .ifWord | .elseWord | .ending => none

-- A text, the kind of the token that it is, and the literal of this token.
inductive Denotes : (text : List Char) → Kind → (literal : List Char) → Prop where
  | word {text : List Char} (h : Lexeme.IsName text) :
    Denotes text (.ofWord (String.ofList text)) text
  | number {text : List Char} (h : Lexeme.IsNumber text)
    (hfinite : Lexeme.isFiniteNumber text = true) : Denotes text .number text
  | quoted {quote : Char} {body value : List Char} (hquote : quote = '"' ∨ quote = '\'')
    (h : Lexeme.Quoted quote body value) : Denotes (quote :: (body ++ [quote])) .text value
  | sign {kind : Kind} {text : List Char} (h : kind.sign? = some text) : Denotes text kind text

-- Nothing follows that would make more of the token.
def Kind.EndsBefore (kind : Kind) (rest : List Char) : Prop :=
  match kind with
  | .name | .ifWord | .elseWord | .op .both | .op .either => Lexeme.EndsName rest
  | .number => Lexeme.EndsNumber rest
  | .assign | .op .gt | .op .lt => rest.head? ≠ some '='
  | .op .div => rest.head? ≠ some '/'
  | _ => True

theorem Kind.endsBefore_ofWord_iff (word : String) (rest : List Char) :
    (ofWord word).EndsBefore rest ↔ Lexeme.EndsName rest := by
  unfold ofWord ofWord?
  repeat' split
  all_goals rfl

theorem Kind.ofWord_ne_ending (word : String) : ofWord word ≠ .ending := by
  unfold ofWord ofWord?
  repeat' split
  all_goals decide

-- No text is the end of a script.
theorem Denotes.kind_ne_ending {text literal : List Char} {kind : Kind}
    (h : Denotes text kind literal) : kind ≠ .ending := by
  cases h with
  | word _ => exact Kind.ofWord_ne_ending _
  | number _ _ | quoted _ _ => decide
  | sign h =>
      rintro rfl
      cases h

theorem Kind.ne_nil_of_sign? {kind : Kind} {text : List Char} (h : kind.sign? = some text) :
    text ≠ [] := by
  cases kind with
  | op operator => cases operator <;> cases h <;> decide
  | assign | openParen | closeParen | comma =>
      cases h
      exact List.cons_ne_nil _ _
  | name | number | text | ifWord | elseWord | ending => cases h

theorem Denotes.text_ne_nil {text literal : List Char} {kind : Kind}
    (h : Denotes text kind literal) : text ≠ [] := by
  cases h with
  | word hname =>
      rintro rfl
      cases hname.1
  | number hnumber _ =>
      rcases hnumber with hdigits | ⟨whole, part, rfl, -, -⟩
      · exact hdigits.1
      · simp
  | quoted _ _ => exact List.cons_ne_nil _ _
  | sign hsign => exact Kind.ne_nil_of_sign? hsign

end Token

namespace Lexeme

open Token (Kind Denotes)

variable {c : Char} {cs : List Char} {lexeme : Lexeme}

theorem sign?_of_pairKind? {d : Char} {kind : Kind} (h : pairKind? c d = some kind) :
    kind.sign? = some [c, d] := by
  by_cases hd : d = '='
  · subst hd
    rw [pairKind?, if_neg (not_not_intro rfl)] at h
    repeat' split at h
    all_goals cases h
    all_goals
      subst_vars
      rfl
  · rw [pairKind?, if_pos hd] at h
    cases h

theorem endsBefore_of_pairKind? {d : Char} {kind : Kind} (h : pairKind? c d = some kind)
    (rest : List Char) : kind.EndsBefore rest := by
  unfold pairKind? at h
  repeat' split at h
  all_goals cases h
  all_goals trivial

theorem sign?_of_symbolKind? {kind : Kind} (h : symbolKind? c = some kind) :
    kind.sign? = some [c] := by
  unfold symbolKind? at h
  split at h <;> cases h <;> rfl

-- What is read as one character is the beginning neither of a pair nor of a
-- comment.
theorem endsBefore_of_symbolKind? {kind : Kind} (h : symbolKind? c = some kind)
    (hpair : ∀ d more, cs = d :: more → pairKind? c d = none)
    (hsolid : Solid (c :: cs)) : kind.EndsBefore cs := by
  have hequals (hpairs : pairKind? c '=' ≠ none) : cs.head? ≠ some '=' := by
    intro hhead
    obtain ⟨more, rfl⟩ := List.head?_eq_some_iff.mp hhead
    exact hpairs (hpair '=' more rfl)
  have hsign := sign?_of_symbolKind? h
  cases kind with
  | assign =>
      cases hsign
      exact hequals (by decide)
  | op operator =>
      cases operator with
      | div =>
          cases hsign
          exact fun hhead => (hsolid _ _ rfl).2 ⟨rfl, hhead⟩
      | gt | lt =>
          cases hsign
          exact hequals (by decide)
      | both | either => cases hsign
      | add | sub | mul | eq | ne | ge | le => trivial
  | name | number | ifWord | elseWord => cases hsign
  | text | openParen | closeParen | comma | ending => trivial

theorem sign_of_single (h : single c cs = .ok lexeme)
    (hpair : ∀ d more, cs = d :: more → pairKind? c d = none) (hsolid : Solid (c :: cs)) :
    c :: cs = lexeme.source ++ lexeme.rest ∧ lexeme.kind.sign? = some lexeme.source ∧
      lexeme.literal = lexeme.source ∧ lexeme.kind.EndsBefore lexeme.rest := by
  unfold single at h
  split at h
  · rename_i kind hkind
    cases h
    exact ⟨rfl, sign?_of_symbolKind? hkind, rfl, endsBefore_of_symbolKind? hkind hpair hsolid⟩
  · cases h

theorem sign_of_symbol (h : symbol c cs = .ok lexeme) (hsolid : Solid (c :: cs)) :
    c :: cs = lexeme.source ++ lexeme.rest ∧ lexeme.kind.sign? = some lexeme.source ∧
      lexeme.literal = lexeme.source ∧ lexeme.kind.EndsBefore lexeme.rest := by
  cases cs with
  | nil => exact sign_of_single h (fun _ _ h => nomatch h) hsolid
  | cons d rest =>
      rw [symbol] at h
      split at h
      · rename_i kind hkind
        cases h
        exact ⟨rfl, sign?_of_pairKind? hkind, rfl, endsBefore_of_pairKind? hkind rest⟩
      · rename_i hnone
        refine sign_of_single h ?_ hsolid
        rintro _ _ ⟨⟩
        exact hnone

-- What is read is what the text says, and nothing more of the text belongs to
-- it.
theorem denotes_of_read (h : read c cs = .ok lexeme) (hsolid : Solid (c :: cs)) :
    c :: cs = lexeme.source ++ lexeme.rest ∧
      Denotes lexeme.source lexeme.kind lexeme.literal ∧ lexeme.kind.EndsBefore lexeme.rest := by
  unfold read at h
  by_cases hstart : isNameStart c = true
  · rw [if_pos hstart] at h
    cases h
    obtain ⟨htext, hsegments, hends⟩ := segments_of_spanName (c :: cs)
    have hstarts : startsName (c :: cs) = true := hstart
    exact ⟨htext, .word ⟨startsName_spanName hstarts, hsegments⟩,
      (Kind.endsBefore_ofWord_iff _ _).mpr hends⟩
  rw [if_neg hstart] at h
  by_cases hdigit : c.isDigit = true
  · rw [if_pos hdigit] at h
    obtain ⟨htext, hnumber, hfinite, hends, hkind, hliteral⟩ := isNumber_of_number hdigit h
    rw [hkind, hliteral]
    exact ⟨htext, .number hnumber hfinite, hends⟩
  rw [if_neg hdigit] at h
  by_cases hquote : c = '"' ∨ c = '\''
  · rw [if_pos hquote, string] at h
    split at h
    · rename_i value source rest hbody
      cases h
      obtain ⟨body, rfl, rfl, hquoted⟩ := quoted_of_stringBody hbody
      exact ⟨by simp, .quoted hquote hquoted, trivial⟩
    · cases h
  · rw [if_neg hquote] at h
    obtain ⟨htext, hsign, hliteral, hends⟩ := sign_of_symbol h hsolid
    rw [hliteral]
    exact ⟨htext, .sign hsign, hends⟩

-- The first character of a text is one that a token can start with, and the
-- token is read.
def ReadsAs (cs : List Char) (lexeme : Lexeme) : Prop :=
  ∃ c more, cs = c :: more ∧ Solid cs ∧ read c more = .ok lexeme

theorem solid_cons (hblank : Text.isBlank c = false) (hslash : c = '/' → cs.head? ≠ some '/') :
    Solid (c :: cs) := by
  rintro _ _ ⟨⟩
  exact ⟨hblank, fun h => hslash h.1 h.2⟩

theorem solid_of_isWordChar (h : isWordChar c = true) : Solid (c :: cs) := by
  apply solid_cons (not_isBlank_of_isWordChar h)
  rintro rfl
  cases h

theorem readsAs_name {text rest : List Char} (h : IsName text) (hrest : EndsName rest) :
    ReadsAs (text ++ rest) ⟨.ofWord (String.ofList text), text, text, rest⟩ := by
  obtain ⟨hstarts, hsegments⟩ := h
  have hspan := spanName_append hsegments hrest
  cases text with
  | nil => cases hstarts
  | cons c more =>
      have hc : isNameStart c = true := hstarts
      refine ⟨c, more ++ rest, rfl, solid_of_isWordChar (isWordChar_of_isNameStart hc), ?_⟩
      rw [List.cons_append] at hspan
      rw [read, if_pos hc, name, hspan]

theorem exists_digit_of_isNumber {text : List Char} (h : IsNumber text) :
    ∃ c more, text = c :: more ∧ c.isDigit = true := by
  have hdigits {ds : List Char} (hds : Json.IsDigits ds) :
      ∃ c more, ds = c :: more ∧ c.isDigit = true := by
    obtain ⟨c, more, rfl⟩ := List.exists_cons_of_ne_nil hds.1
    exact ⟨c, more, rfl, hds.2 c List.mem_cons_self⟩
  rcases h with h | ⟨whole, part, rfl, hwhole, -⟩
  · exact hdigits h
  · obtain ⟨c, more, rfl, hc⟩ := hdigits hwhole
    exact ⟨c, more ++ '.' :: part, rfl, hc⟩

theorem readsAs_number {text rest : List Char} (h : IsNumber text)
    (hfinite : isFiniteNumber text = true) (hrest : EndsNumber rest) :
    ReadsAs (text ++ rest) ⟨.number, text, text, rest⟩ := by
  have hnumber := number_append h hfinite hrest
  obtain ⟨c, more, rfl, hc⟩ := exists_digit_of_isNumber h
  refine ⟨c, more ++ rest, rfl, solid_of_isWordChar (isWordChar_of_isDigit hc), ?_⟩
  rw [List.cons_append] at hnumber
  rw [read, not_isNameStart_of_isDigit hc, if_neg Bool.false_ne_true, if_pos hc, hnumber]

theorem readsAs_quoted {quote : Char} {body value : List Char} (hquote : quote = '"' ∨ quote = '\'')
    (h : Quoted quote body value) (rest : List Char) :
    ReadsAs (quote :: (body ++ [quote]) ++ rest)
      ⟨.text, value, quote :: (body ++ [quote]), rest⟩ := by
  have hplain : quote ≠ '\\' ∧ quote ≠ '\n' ∧ isNameStart quote = false ∧
      quote.isDigit = false ∧ Text.isBlank quote = false ∧ quote ≠ '/' := by
    rcases hquote with rfl | rfl <;> decide
  obtain ⟨hslash, hline, hstart, hdigit, hblank, hdiv⟩ := hplain
  have hbody := stringBody_append hslash hline h rest
  refine ⟨quote, body ++ quote :: rest, by simp, ?_, ?_⟩
  · exact solid_cons hblank fun h => absurd h hdiv
  · rw [read, hstart, hdigit, if_neg Bool.false_ne_true, if_neg Bool.false_ne_true, if_pos hquote,
      string, hbody]

theorem read_eq_symbol (h : isNameStart c = false ∧ c.isDigit = false ∧ c ≠ '"' ∧ c ≠ '\'')
    (cs : List Char) : read c cs = symbol c cs := by
  obtain ⟨hstart, hdigit, hdouble, hsingle⟩ := h
  rw [read, hstart, hdigit, if_neg Bool.false_ne_true, if_neg Bool.false_ne_true,
    if_neg (not_or.mpr ⟨hdouble, hsingle⟩)]

-- A pair ends with an equals sign.
theorem pairKind?_eq_none {d : Char} (h : d ≠ '=') : pairKind? c d = none := by
  rw [pairKind?, if_pos h]

-- Few characters start a pair.
theorem pairKind?_eq_none_of_not_mem (h : c ∉ ['=', '!', '>', '<']) (d : Char) :
    pairKind? c d = none := by
  simp only [List.mem_cons, List.not_mem_nil, or_false, not_or] at h
  obtain ⟨heq, hne, hgt, hlt⟩ := h
  unfold pairKind?
  rw [if_neg heq, if_neg hne, if_neg hgt, if_neg hlt, ite_self]

theorem readsAs_single {kind : Kind} (hkind : symbolKind? c = some kind)
    (hpair : ∀ d, cs.head? = some d → pairKind? c d = none)
    (hslash : c = '/' → cs.head? ≠ some '/')
    (hc : isNameStart c = false ∧ c.isDigit = false ∧ c ≠ '"' ∧ c ≠ '\'')
    (hblank : Text.isBlank c = false) : ReadsAs (c :: cs) ⟨kind, [c], [c], cs⟩ := by
  refine ⟨c, cs, rfl, solid_cons hblank hslash, ?_⟩
  rw [read_eq_symbol hc]
  cases cs with
  | nil => rw [symbol, single, hkind]
  | cons d rest => rw [symbol, hpair d rfl, single, hkind]

theorem readsAs_pair {d : Char} {kind : Kind} (hkind : pairKind? c d = some kind)
    (hc : isNameStart c = false ∧ c.isDigit = false ∧ c ≠ '"' ∧ c ≠ '\'')
    (hblank : Text.isBlank c = false) (hslash : c ≠ '/') :
    ReadsAs (c :: d :: cs) ⟨kind, [c, d], [c, d], cs⟩ := by
  refine ⟨c, d :: cs, rfl, solid_cons hblank fun h => absurd h hslash, ?_⟩
  rw [read_eq_symbol hc, symbol, hkind]

theorem readsAs_sign {kind : Kind} {text rest : List Char} (h : kind.sign? = some text)
    (hrest : kind.EndsBefore rest) : ReadsAs (text ++ rest) ⟨kind, text, text, rest⟩ := by
  have hnone {c : Char} (hc : c ∉ ['=', '!', '>', '<']) (d : Char) (_ : rest.head? = some d) :
      pairKind? c d = none := pairKind?_eq_none_of_not_mem hc d
  have hequals {c : Char} (hhead : rest.head? ≠ some '=') (d : Char) (hd : rest.head? = some d) :
      pairKind? c d = none := by
    apply pairKind?_eq_none
    rintro rfl
    exact hhead hd
  cases kind with
  | assign =>
      cases h
      exact readsAs_single rfl (hequals hrest) (fun h => nomatch h) (by decide) (by decide)
  | openParen | closeParen | comma =>
      cases h
      exact readsAs_single rfl (hnone (by decide)) (fun h => nomatch h) (by decide) (by decide)
  | op operator =>
      cases operator with
      | add | sub | mul =>
          cases h
          exact readsAs_single rfl (hnone (by decide)) (fun h => nomatch h) (by decide) (by decide)
      | div =>
          cases h
          exact readsAs_single rfl (hnone (by decide)) (fun _ => hrest) (by decide) (by decide)
      | gt | lt =>
          cases h
          exact readsAs_single rfl (hequals hrest) (fun h => nomatch h) (by decide) (by decide)
      | eq | ne | ge | le =>
          cases h
          exact readsAs_pair rfl (by decide) (by decide) (by decide)
      | both | either => cases h
  | name | number | text | ifWord | elseWord | ending => cases h

-- A text is read as the token that it is if nothing behind it makes more of it.
theorem readsAs_of_denotes {text literal rest : List Char} {kind : Kind}
    (h : Denotes text kind literal) (hrest : kind.EndsBefore rest) :
    ReadsAs (text ++ rest) ⟨kind, literal, text, rest⟩ := by
  cases h with
  | word hname => exact readsAs_name hname ((Kind.endsBefore_ofWord_iff _ _).mp hrest)
  | number hnumber hfinite => exact readsAs_number hnumber hfinite hrest
  | quoted hquote hquoted => exact readsAs_quoted hquote hquoted rest
  | sign hsign => exact readsAs_sign hsign hrest

end Lexeme

end CandleScript
