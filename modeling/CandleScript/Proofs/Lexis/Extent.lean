import CandleScript.Proofs.Lexis.Tiling
import CandleScript.Proofs.Source.Order

namespace CandleScript

-- The span of a text that stands behind another one.
def Span.ofText (before text : List Char) : Span := ⟨.place before, .place (before ++ text)⟩

-- There stand exactly its characters.
theorem Span.chars_ofText {source : String} {before text after : List Char}
    (h : source.toList = before ++ (text ++ after)) :
    (ofText before text).chars source = .ofList text := by
  have hstart : Position.start.after before = .place before := Position.start_after before
  have hstop : (Position.place before).after text = .place (before ++ text) :=
    Position.place_after before text
  have hbefore : (ofText before text).charsFrom .start before = [] :=
    charsFrom_of_le_start (le_of_eq hstart)
  have htext : (ofText before text).charsFrom (.place before) text = text :=
    charsFrom_of_within (le_refl _) (le_of_eq hstop)
  have hafter : (ofText before text).charsFrom (.place (before ++ text)) after = [] :=
    charsFrom_of_stop_le (le_refl _)
  rw [chars, h, charsFrom_append, charsFrom_append, hstart, hstop, hbefore, htext, hafter,
    List.append_nil, List.nil_append]

namespace Lexeme

-- A name has no characters but those of words, and dots.
theorem Segments.notMem {text : List Char} (h : Segments text) {c : Char}
    (hword : isWordChar c = false) (hdot : c ≠ '.') : c ∉ text := by
  induction h with
  | nil => exact List.not_mem_nil
  | char hc _ ih =>
      refine List.not_mem_cons_of_ne_of_not_mem ?_ ih
      rintro rfl
      cases hc.symm.trans hword
  | dot _ _ ih => exact List.not_mem_cons_of_ne_of_not_mem hdot ih

theorem Segments.notMem_newline {text : List Char} (h : Segments text) : '\n' ∉ text :=
  h.notMem (not_isWordChar_of_isBlank isBlank_newline) (by decide)

theorem IsNumber.notMem_newline {text : List Char} (h : IsNumber text) : '\n' ∉ text := by
  intro hmem
  have hword := word_of_isNumber h _ hmem
  rw [not_isWordChar_of_isBlank isBlank_newline] at hword
  cases hword

end Lexeme

namespace Token

theorem Kind.notMem_newline_of_sign? {kind : Kind} {text : List Char}
    (h : kind.sign? = some text) : '\n' ∉ text := by
  cases kind with
  | op operator => cases operator <;> cases h <;> decide
  | assign | openParen | closeParen | comma =>
      cases h
      decide
  | name | number | text | ifWord | elseWord | ending => cases h

-- Only strings run over a line break.
theorem Denotes.notMem_newline {text literal : List Char} {kind : Kind}
    (h : Denotes text kind literal) (hkind : kind ≠ .text) : '\n' ∉ text := by
  cases h with
  | word hname => exact hname.2.notMem_newline
  | number hnumber _ => exact hnumber.notMem_newline
  | quoted _ _ => exact absurd rfl hkind
  | sign hsign => exact Kind.notMem_newline_of_sign? hsign

variable {lexeme : Lexeme}

theorem width_ofLexeme (hline : '\n' ∉ lexeme.source) (start : Position) :
    (ofLexeme lexeme start).width = lexeme.source.length := by
  simp [ofLexeme, Position.after_of_notMem hline]

-- On one line a token is as wide as its text.
theorem span_ofLexeme (hne : lexeme.source ≠ []) (hline : '\n' ∉ lexeme.source)
    (start : Position) : (ofLexeme lexeme start).span = ⟨start, start.after lexeme.source⟩ := by
  rw [span, width_ofLexeme hline, Position.after_of_notMem hline, Span.spanning,
    Nat.max_eq_left (List.length_pos_iff.mpr hne)]
  rfl

theorem span_ofLexeme_of_mem (hline : '\n' ∈ lexeme.source) (start : Position) :
    (ofLexeme lexeme start).span = ⟨start, ⟨start.line, start.column + 1⟩⟩ := by
  have hbreak := Nat.ne_of_lt (Position.line_lt_after hline start)
  simp [span, ofLexeme, hbreak, Span.spanning]

-- A token does not reach further than its text.
theorem stop_span_ofLexeme_le (hne : lexeme.source ≠ []) (start : Position) :
    (ofLexeme lexeme start).span.stop ≤ start.after lexeme.source := by
  by_cases hline : '\n' ∈ lexeme.source
  · rw [span_ofLexeme_of_mem hline, Position.le_iff]
    exact .inl (Position.line_lt_after hline start)
  · rw [span_ofLexeme hne hline]

theorem start_lt_stop (token : Token) : token.span.start < token.span.stop :=
  Span.start_lt_stop_spanning token.position token.width

theorem Tiled.le_start {p : Position} {cs : List Char} {tokens : List Token}
    (h : Tiled p cs tokens) : ∀ token ∈ tokens, p ≤ token.span.start := by
  induction h with
  | ending _ => exact List.forall_mem_singleton.mpr (Position.le_after _ _)
  | @token p trivia text _ _ _ _ _ _ _ _ ih =>
      refine List.forall_mem_cons.mpr ⟨Position.le_after p trivia, fun token htoken => ?_⟩
      exact le_trans (le_trans (Position.le_after p trivia) (Position.le_after _ text))
        (ih token htoken)

-- Tokens follow one another as their texts do.
theorem Tiled.ahead {p : Position} {cs : List Char} {tokens : List Token}
    (h : Tiled p cs tokens) : tokens.Pairwise fun a b => a.span.Ahead b.span := by
  induction h with
  | ending _ => exact List.pairwise_singleton _ _
  | token _ htext _ hrest ih =>
      refine List.Pairwise.cons (fun token htoken => ?_) ih
      exact le_trans (stop_span_ofLexeme_le htext.text_ne_nil _) (hrest.le_start token htoken)

end Token

theorem ahead_of_tokenize {source : String} {tokens : List Token}
    (h : tokenize source = .ok tokens) : tokens.Pairwise fun a b => a.span.Ahead b.span :=
  (tokenize_eq_ok_iff.mp h).ahead

namespace Tile

variable {before after : List Char} {tile : Tile}

-- The span of a token is that of its text unless this runs over a line break.
theorem Fits.span_eq (h : tile.Fits before after) (hmeasured : tile.Measured)
    (hline : '\n' ∉ tile.text) : tile.token.span = .ofText (before ++ tile.trivia) tile.text := by
  rw [hmeasured, Token.span_ofLexeme h.text.text_ne_nil hline, h.position, Position.place_after]
  rfl

theorem Fits.span_eq_of_mem (h : tile.Fits before after) (hmeasured : tile.Measured)
    (hline : '\n' ∈ tile.text) :
    let start := Position.place (before ++ tile.trivia)
    tile.token.span = ⟨start, ⟨start.line, start.column + 1⟩⟩ := by
  rw [hmeasured, Token.span_ofLexeme_of_mem hline, h.position]

theorem Fits.span_ne_of_mem (h : tile.Fits before after) (hmeasured : tile.Measured)
    (hline : '\n' ∈ tile.text) : tile.token.span ≠ .ofText (before ++ tile.trivia) tile.text := by
  intro hspan
  have hstop := congrArg (fun span => span.stop.line) hspan
  have hbreak := Position.line_lt_after hline (.place (before ++ tile.trivia))
  rw [h.span_eq_of_mem hmeasured hline] at hstop
  rw [Position.place_after] at hbreak
  exact Nat.ne_of_lt hbreak hstop

end Tile

namespace Token

-- A name as it stands in a source: its token spans exactly its characters.
structure Stands (source : String) (token : Token) : Prop where
  width : token.width = token.literal.length
  chars : token.span.chars source = token.literal
  isName : Lexeme.IsName token.literal.toList

theorem Denotes.of_isName {text literal : List Char} {kind : Kind} (h : Denotes text kind literal)
    (hkind : kind.isName = true) : text = literal ∧ Lexeme.IsName text := by
  cases h with
  | word hname => exact ⟨rfl, hname⟩
  | number _ _ | quoted _ _ => cases hkind
  | sign hsign =>
      cases kind with
      | name | ifWord | elseWord => cases hsign
      | _ => cases hkind

end Token

theorem Tile.Fits.stands {before after : List Char} {tile : Tile} {source : String}
    (h : tile.Fits before after) (hmeasured : tile.Measured)
    (hsource : source.toList = before ++ tile.chars ++ after)
    (hkind : tile.token.kind.isName = true) : tile.token.Stands source := by
  obtain ⟨htext, hname⟩ := h.text.of_isName hkind
  have hline := hname.2.notMem_newline
  rw [chars, ← List.append_assoc, List.append_assoc] at hsource
  constructor
  · rw [hmeasured, Token.width_ofLexeme hline, Token.ofLexeme, String.length_ofList, htext]
  · rw [h.span_eq hmeasured hline, Span.chars_ofText hsource, htext, String.ofList_toList]
  · rw [← htext]
    exact hname

theorem stands_of_tokenize {source : String} {tokens : List Token}
    (h : tokenize source = .ok tokens) :
    ∀ token ∈ tokens, token.kind.isName = true → token.Stands source := by
  have htiled : Token.Tiled (.place []) source.toList tokens := tokenize_eq_ok_iff.mp h
  obtain ⟨tiles, trivia, htext, -, rfl, hrow, hmeasured⟩ := Tile.measured_row_of_tiled htiled
  intro token htoken hname
  rcases List.mem_append.mp htoken with htile | hend
  · obtain ⟨tile, hmem, rfl⟩ := List.mem_map.mp htile
    obtain ⟨earlier, later, rfl⟩ := List.append_of_mem hmem
    apply (hrow.fits rfl).stands (hmeasured tile hmem) _ hname
    rw [htext]
    simp
  · rw [List.mem_singleton.mp hend] at hname
    cases hname

-- The tokens of a source tile it, the end apart. The span of a token starts
-- where its text starts. It ends where its text ends exactly if the text stands
-- on one line, which only that of a string may fail to do; then the span is one
-- character wide.
theorem span_of_tokenize {source : String} {tokens : List Token}
    (h : tokenize source = .ok tokens) :
    ∃ (tiles : List Tile) (trivia : List Char),
      source.toList = tiles.flatMap Tile.chars ++ trivia ∧
      tokens = tiles.map Tile.token ++ [.atEnd (.place source.toList)] ∧
      ∀ earlier tile later, tiles = earlier ++ tile :: later →
        let before := earlier.flatMap Tile.chars ++ tile.trivia
        tile.Fits (earlier.flatMap Tile.chars) (later.flatMap Tile.chars ++ trivia) ∧
        tile.token.span.start = .place before ∧
        (tile.token.span = .ofText before tile.text ↔ '\n' ∉ tile.text) ∧
        ('\n' ∈ tile.text → tile.token.kind = .text ∧
          tile.token.span = .spanning (.place before) 1) := by
  have htiled : Token.Tiled (.place []) source.toList tokens := tokenize_eq_ok_iff.mp h
  obtain ⟨tiles, trivia, htext, -, htokens, hrow, hmeasured⟩ := Tile.measured_row_of_tiled htiled
  refine ⟨tiles, trivia, htext, htokens, ?_⟩
  intro earlier tile later hsplit
  have hfits := hrow.fits hsplit
  have htile := hmeasured tile (by simp [hsplit])
  refine ⟨hfits, hfits.position, ⟨?_, hfits.span_eq htile⟩, ?_⟩
  · intro hspan hline
    exact hfits.span_ne_of_mem htile hline hspan
  · intro hline
    refine ⟨?_, hfits.span_eq_of_mem htile hline⟩
    by_contra hkind
    exact hfits.text.notMem_newline hkind hline

-- The string runs over a line break, the name behind it does not.
theorem span_of_tokenize_lineBreak :
    ∃ (tiles : List Tile) (trivia : List Char),
      "'\\\n' a.b".toList = tiles.flatMap Tile.chars ++ trivia ∧
      tiles.map (fun tile => tile.token.span) = [⟨⟨1, 1⟩, ⟨1, 2⟩⟩, ⟨⟨2, 3⟩, ⟨2, 6⟩⟩] := by
  have h : tokenize "'\\\n' a.b" =
      .ok [⟨.text, "\\\n", ⟨1, 1⟩, 1⟩, ⟨.name, "a.b", ⟨2, 3⟩, 3⟩, ⟨.ending, "", ⟨2, 6⟩, 0⟩] := by
    decide +kernel
  obtain ⟨tiles, trivia, htext, htokens, -⟩ := span_of_tokenize h
  have hmap := congrArg List.dropLast htokens
  rw [List.dropLast_concat] at hmap
  refine ⟨tiles, trivia, htext, ?_⟩
  have hspans := congrArg (List.map Token.span) hmap
  rw [List.map_map] at hspans
  exact hspans.symm

-- A string over a line break is all of this source, yet its span ends behind its
-- first quote.
theorem span_of_tokenize_brokenString :
    ∃ token, tokenize "'\\\n'" = .ok [token, .atEnd ⟨2, 2⟩] ∧
      Token.Denotes "'\\\n'".toList token.kind token.literal.toList ∧
      token.span = ⟨⟨1, 1⟩, ⟨1, 2⟩⟩ ∧ token.span ≠ .ofText [] "'\\\n'".toList := by
  have hdenotes : Token.Denotes ('\'' :: (['\\', '\n'] ++ ['\''])) .text ['\\', '\n'] :=
    .quoted (.inr rfl) (.kept (by decide) (by decide) .nil)
  exact ⟨⟨.text, "\\\n", ⟨1, 1⟩, 1⟩, by decide +kernel, hdenotes, rfl, by decide⟩

end CandleScript
