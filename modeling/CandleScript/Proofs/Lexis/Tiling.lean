import CandleScript.Script.Tokens
import CandleScript.Proofs.Lexis.Denotes
import CandleScript.Proofs.Lexis.Place

namespace CandleScript

namespace Token

open Lexeme (Trivia)

-- The tokens that a text consists of from a place on, each with the trivia in
-- front of it, up to the end of the script.
inductive Tiled : Position → List Char → List Token → Prop where
  | ending {p : Position} {trivia : List Char} (h : Trivia true trivia) :
    Tiled p trivia [atEnd (p.after trivia)]
  | token {p : Position} {trivia text literal rest : List Char} {kind : Kind}
    {tokens : List Token} (htrivia : Trivia false trivia) (htext : Denotes text kind literal)
    (hends : kind.EndsBefore rest) (h : Tiled ((p.after trivia).after text) rest tokens) :
    Tiled p (trivia ++ (text ++ rest))
      (ofLexeme ⟨kind, literal, text, rest⟩ (p.after trivia) :: tokens)

theorem listFrom_ending {trivia : List Char} (h : Trivia true trivia) (fuel : Nat) (p : Position) :
    listFrom (fuel + 1) p trivia = .ok [atEnd (p.after trivia)] := by
  have hspan := Lexeme.spanTrivia_append h Lexeme.solid_nil fun _ => rfl
  rw [List.append_nil] at hspan
  rw [listFrom, hspan]

theorem listFrom_token {trivia text literal rest : List Char} {kind : Kind}
    (htrivia : Trivia false trivia) (htext : Denotes text kind literal)
    (hends : kind.EndsBefore rest) (fuel : Nat) (p : Position) :
    listFrom (fuel + 1) p (trivia ++ (text ++ rest)) =
      (listFrom fuel ((p.after trivia).after text) rest).map
        (ofLexeme ⟨kind, literal, text, rest⟩ (p.after trivia) :: ·) := by
  obtain ⟨c, more, hcs, hsolid, hread⟩ := Lexeme.readsAs_of_denotes htext hends
  rw [hcs] at hsolid ⊢
  rw [listFrom, Lexeme.spanTrivia_append htrivia hsolid fun h => nomatch h]
  simp only [hread]

theorem length_lt_of_denotes {trivia text literal rest : List Char} {kind : Kind}
    (h : Denotes text kind literal) : rest.length < (trivia ++ (text ++ rest)).length := by
  have htext := List.length_pos_iff.mpr h.text_ne_nil
  rw [List.length_append, List.length_append]
  omega

theorem listFrom_of_tiled {p : Position} {cs : List Char} {tokens : List Token}
    (h : Tiled p cs tokens) {fuel : Nat} (hfuel : cs.length < fuel) :
    listFrom fuel p cs = .ok tokens := by
  induction h generalizing fuel with
  | ending htrivia =>
      obtain ⟨fuel, rfl⟩ := Nat.exists_eq_add_one_of_ne_zero (Nat.ne_zero_of_lt hfuel)
      exact listFrom_ending htrivia fuel _
  | token htrivia htext hends _ ih =>
      obtain ⟨fuel, rfl⟩ := Nat.exists_eq_add_one_of_ne_zero (Nat.ne_zero_of_lt hfuel)
      have hshorter := Nat.lt_of_lt_of_le (length_lt_of_denotes htext) (Nat.le_of_lt_succ hfuel)
      rw [listFrom_token htrivia htext hends, ih hshorter]
      rfl

-- One step: what is left is trivia, or what stands behind the trivia decides.
theorem listFrom_step (fuel : Nat) (p : Position) (cs : List Char) :
    (Trivia true cs ∧ listFrom (fuel + 1) p cs = .ok [atEnd (p.after cs)]) ∨
      ∃ trivia c rest, cs = trivia ++ c :: rest ∧ Trivia false trivia ∧
        Lexeme.Solid (c :: rest) ∧
        listFrom (fuel + 1) p cs = match Lexeme.read c rest with
          | .error fault => .error ⟨fault, p.after trivia⟩
          | .ok lexeme =>
            (listFrom fuel ((p.after trivia).after lexeme.source) lexeme.rest).map
              (ofLexeme lexeme (p.after trivia) :: ·) := by
  obtain ⟨hcs, hsolid, htrivia⟩ := Lexeme.trivia_of_spanTrivia cs false
  rw [listFrom]
  generalize Lexeme.spanTrivia false cs = skipped at hcs hsolid htrivia ⊢
  obtain ⟨trivia, rest⟩ := skipped
  subst hcs
  cases rest with
  | nil =>
      rw [List.append_nil]
      exact .inl ⟨htrivia, rfl⟩
  | cons c rest => exact .inr ⟨trivia, c, rest, rfl, htrivia, hsolid, rfl⟩

-- If the step succeeds, a token stands in front of what is read later.
theorem listFrom_cases {fuel : Nat} {p : Position} {cs : List Char} {tokens : List Token}
    (h : listFrom (fuel + 1) p cs = .ok tokens) :
    (Trivia true cs ∧ tokens = [atEnd (p.after cs)]) ∨
      ∃ trivia lexeme later, cs = trivia ++ (lexeme.source ++ lexeme.rest) ∧
        Trivia false trivia ∧ Denotes lexeme.source lexeme.kind lexeme.literal ∧
        lexeme.kind.EndsBefore lexeme.rest ∧
        listFrom fuel ((p.after trivia).after lexeme.source) lexeme.rest = .ok later ∧
        tokens = ofLexeme lexeme (p.after trivia) :: later := by
  rcases listFrom_step fuel p cs with ⟨htrivia, hend⟩ |
    ⟨trivia, c, rest, rfl, htrivia, hsolid, hstep⟩
  · rw [hend] at h
    cases h
    exact .inl ⟨htrivia, rfl⟩
  · rw [hstep] at h
    cases hread : Lexeme.read c rest with
    | error fault =>
        simp only [hread] at h
        cases h
    | ok lexeme =>
        simp only [hread] at h
        obtain ⟨htext, hdenotes, hends⟩ := Lexeme.denotes_of_read hread hsolid
        cases hlater : listFrom fuel ((p.after trivia).after lexeme.source) lexeme.rest with
        | error fault =>
            rw [hlater] at h
            cases h
        | ok later =>
            rw [hlater] at h
            cases h
            exact .inr ⟨trivia, lexeme, later, congrArg (trivia ++ ·) htext, htrivia, hdenotes,
              hends, hlater, rfl⟩

-- Induction on the number of characters that are left at most.
theorem tiled_of_listFrom {fuel : Nat} {p : Position} {cs : List Char} {tokens : List Token}
    (h : listFrom fuel p cs = .ok tokens) (hfuel : cs.length < fuel) : Tiled p cs tokens := by
  induction fuel generalizing p cs tokens with
  | zero => exact absurd hfuel (Nat.not_lt_zero _)
  | succ fuel ih =>
      rcases listFrom_cases h with ⟨htrivia, rfl⟩ |
        ⟨trivia, lexeme, later, rfl, htrivia, hdenotes, hends, hlater, rfl⟩
      · exact .ending htrivia
      · have hshorter := Nat.lt_of_lt_of_le (length_lt_of_denotes hdenotes)
          (Nat.le_of_lt_succ hfuel)
        exact .token htrivia hdenotes hends (ih hlater hshorter)

end Token

theorem tokenize_eq_ok_iff {source : String} {tokens : List Token} :
    tokenize source = .ok tokens ↔ Token.Tiled .start source.toList tokens := by
  have hfuel : source.toList.length < source.length + 1 := by
    rw [String.length_toList]
    exact Nat.lt_succ_self _
  exact ⟨fun h => Token.tiled_of_listFrom h hfuel, fun h => Token.listFrom_of_tiled h hfuel⟩

-- A token with the text that it was read from and the trivia in front of it.
structure Tile where
  trivia : List Char
  text : List Char
  token : Token

namespace Tile

open Lexeme (Trivia)

variable {before after : List Char} {tile : Tile}

def chars (tile : Tile) : List Char := tile.trivia ++ tile.text

-- What a tile is between the text in front of it and the text behind it.
structure Fits (before after : List Char) (tile : Tile) : Prop where
  trivia : Trivia false tile.trivia
  text : Token.Denotes tile.text tile.token.kind tile.token.literal.toList
  kind : tile.token.kind ≠ .ending
  position : tile.token.position = .place (before ++ tile.trivia)
  ends : tile.token.kind.EndsBefore after

-- Tiles follow one another from one text up to another.
inductive Row : (before after : List Char) → List Tile → Prop where
  | nil {before after : List Char} : Row before after []
  | cons {before after : List Char} {tile : Tile} {tiles : List Tile}
    (htile : tile.Fits before (tiles.flatMap chars ++ after))
    (h : Row (before ++ tile.chars) after tiles) : Row before after (tile :: tiles)

theorem Row.fits {tiles earlier later : List Tile} (h : Row before after tiles)
    (hsplit : tiles = earlier ++ tile :: later) :
    tile.Fits (before ++ earlier.flatMap chars) (later.flatMap chars ++ after) := by
  induction h generalizing earlier with
  | nil => simp at hsplit
  | @cons before after first tiles htile _ ih =>
      cases earlier with
      | nil =>
          obtain ⟨rfl, rfl⟩ := List.cons.inj hsplit
          rw [List.flatMap_nil, List.append_nil]
          exact htile
      | cons tile' earlier =>
          obtain ⟨rfl, hlater⟩ := List.cons.inj hsplit
          rw [List.flatMap_cons, ← List.append_assoc]
          exact ih hlater

-- The token is the one that its text makes at its place.
def Measured (tile : Tile) : Prop :=
  tile.token = .ofLexeme ⟨tile.token.kind, tile.token.literal.toList, tile.text, []⟩
    tile.token.position

theorem measured_row_of_tiled {cs : List Char} {tokens : List Token}
    (h : Token.Tiled (.place before) cs tokens) :
    ∃ tiles trivia, cs = tiles.flatMap chars ++ trivia ∧ Trivia true trivia ∧
      tokens = tiles.map token ++ [.atEnd (.place (before ++ cs))] ∧ Row before trivia tiles ∧
      ∀ tile ∈ tiles, tile.Measured := by
  generalize hp : Position.place before = p at h
  induction h generalizing before with
  | @ending p trivia htrivia =>
      subst hp
      rw [Position.place_after]
      exact ⟨[], trivia, rfl, htrivia, rfl, .nil, List.forall_mem_nil _⟩
  | @token p trivia text literal rest kind tokens htrivia htext hends _ ih =>
      subst hp
      let tile : Tile :=
        ⟨trivia, text, .ofLexeme ⟨kind, literal, text, rest⟩ ((Position.place before).after trivia)⟩
      have hplace : Position.place (before ++ tile.chars) =
          ((Position.place before).after trivia).after text := by
        rw [chars, ← Position.place_after, Position.after_append]
      obtain ⟨tiles, last, rfl, hlast, rfl, hrow, hmeasured⟩ := ih hplace
      have hfits : tile.Fits before (tiles.flatMap chars ++ last) :=
        { trivia := htrivia
          text := by simpa only [tile, Token.ofLexeme, String.toList_ofList] using htext
          kind := htext.kind_ne_ending
          position := Position.place_after before trivia
          ends := hends }
      have htile : tile.Measured := by
        simp only [Measured, tile, Token.ofLexeme, String.toList_ofList]
      exact ⟨tile :: tiles, last, by simp [tile, chars], hlast, by simp [tile, chars],
        hrow.cons hfits, List.forall_mem_cons.mpr ⟨htile, hmeasured⟩⟩

theorem row_of_tiled {cs : List Char} {tokens : List Token}
    (h : Token.Tiled (.place before) cs tokens) :
    ∃ tiles trivia, cs = tiles.flatMap chars ++ trivia ∧ Trivia true trivia ∧
      tokens = tiles.map token ++ [.atEnd (.place (before ++ cs))] ∧ Row before trivia tiles := by
  obtain ⟨tiles, trivia, hcs, htrivia, htokens, hrow, -⟩ := measured_row_of_tiled h
  exact ⟨tiles, trivia, hcs, htrivia, htokens, hrow⟩

end Tile

-- A source is its tokens' texts and the trivia between them, and nothing else.
theorem tokenize_tiles {source : String} {tokens : List Token}
    (h : tokenize source = .ok tokens) :
    ∃ (tiles : List Tile) (trivia : List Char),
      source.toList = tiles.flatMap Tile.chars ++ trivia ∧ Lexeme.Trivia true trivia ∧
      tokens = tiles.map Tile.token ++ [.atEnd (.place source.toList)] ∧
      ∀ earlier tile later, tiles = earlier ++ tile :: later →
        tile.Fits (earlier.flatMap Tile.chars) (later.flatMap Tile.chars ++ trivia) := by
  have htiled : Token.Tiled (.place []) source.toList tokens := tokenize_eq_ok_iff.mp h
  obtain ⟨tiles, trivia, htext, htrivia, htokens, hrow⟩ := Tile.row_of_tiled htiled
  exact ⟨tiles, trivia, htext, htrivia, htokens, fun _ _ _ hsplit => hrow.fits hsplit⟩

theorem tokenize_tiles_comment :
    ∃ (tiles : List Tile) (trivia : List Char),
      "a.b //\n='\\n'".toList = tiles.flatMap Tile.chars ++ trivia ∧
      tiles.map Tile.token =
        [⟨.name, "a.b", ⟨1, 1⟩, 3⟩, ⟨.assign, "=", ⟨2, 1⟩, 1⟩, ⟨.text, "\n", ⟨2, 2⟩, 4⟩] := by
  have h : tokenize "a.b //\n='\\n'" =
      .ok [⟨.name, "a.b", ⟨1, 1⟩, 3⟩, ⟨.assign, "=", ⟨2, 1⟩, 1⟩, ⟨.text, "\n", ⟨2, 2⟩, 4⟩,
        ⟨.ending, "", ⟨2, 6⟩, 0⟩] := by
    decide +kernel
  obtain ⟨tiles, trivia, htext, -, htokens, -⟩ := tokenize_tiles h
  have hmap := congrArg List.dropLast htokens
  rw [List.dropLast_concat] at hmap
  exact ⟨tiles, trivia, htext, hmap.symm⟩

end CandleScript
