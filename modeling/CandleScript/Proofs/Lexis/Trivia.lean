import CandleScript.Script.Lexeme

namespace CandleScript.Lexeme

-- What stands between tokens: blanks, and comments from two slashes up to the
-- end of their line. At the end of the source the last comment may lack its
-- line break.
inductive Trivia (atEnd : Bool) : List Char → Prop where
  | nil : Trivia atEnd []
  | blank {c : Char} {cs : List Char} (hc : Text.isBlank c = true) (h : Trivia atEnd cs) :
    Trivia atEnd (c :: cs)
  | comment {text cs : List Char} (htext : '\n' ∉ text) (h : Trivia atEnd cs) :
    Trivia atEnd ('/' :: '/' :: (text ++ '\n' :: cs))
  | lastComment {text : List Char} (hend : atEnd = true) (htext : '\n' ∉ text) :
    Trivia atEnd ('/' :: '/' :: text)

-- The text does not go on with trivia.
def Solid (rest : List Char) : Prop :=
  ∀ c more, rest = c :: more → Text.isBlank c = false ∧ ¬(c = '/' ∧ more.head? = some '/')

theorem solid_nil : Solid [] := by
  rintro c more ⟨⟩

theorem isBlank_newline : Text.isBlank '\n' = true := by decide

section

variable (cs : List Char)

theorem spanTrivia_blank {c : Char} (hc : Text.isBlank c = true) :
    spanTrivia false (c :: cs) = (c :: (spanTrivia false cs).1, (spanTrivia false cs).2) := by
  simp [spanTrivia, hc]

theorem spanTrivia_solid {cs : List Char} (h : Solid cs) : spanTrivia false cs = ([], cs) := by
  cases cs with
  | nil => rfl
  | cons c more =>
      obtain ⟨hblank, hslashes⟩ := h c more rfl
      simp [spanTrivia, hblank, hslashes]

theorem spanTrivia_slashes :
    spanTrivia false ('/' :: '/' :: cs) =
      ('/' :: (spanTrivia true ('/' :: cs)).1, (spanTrivia true ('/' :: cs)).2) := by
  have hslash : Text.isBlank '/' = false := by decide
  simp [spanTrivia, hslash]

-- A comment goes on up to the next line break.
theorem spanTrivia_inside {c : Char} (hc : c ≠ '\n') :
    spanTrivia true (c :: cs) = (c :: (spanTrivia true cs).1, (spanTrivia true cs).2) := by
  simp [spanTrivia, hc]

theorem spanTrivia_newline :
    spanTrivia true ('\n' :: cs) = ('\n' :: (spanTrivia false cs).1, (spanTrivia false cs).2) := by
  simp [spanTrivia, isBlank_newline]

end

theorem spanTrivia_line {text : List Char} (htext : '\n' ∉ text) (cs : List Char) :
    spanTrivia true (text ++ '\n' :: cs) =
      (text ++ '\n' :: (spanTrivia false cs).1, (spanTrivia false cs).2) := by
  induction text with
  | nil => exact spanTrivia_newline cs
  | cons c text ih =>
      simp only [List.mem_cons, not_or] at htext
      rw [List.cons_append, spanTrivia_inside _ (Ne.symm htext.1), ih htext.2]
      rfl

theorem spanTrivia_lastLine {text : List Char} (htext : '\n' ∉ text) :
    spanTrivia true text = (text, []) := by
  induction text with
  | nil => rfl
  | cons c text ih =>
      simp only [List.mem_cons, not_or] at htext
      rw [spanTrivia_inside _ (Ne.symm htext.1), ih htext.2]

theorem slash_ne_newline : '/' ≠ '\n' := by decide

-- Trivia are skipped up to what is none. This needs to hold only if nothing
-- follows a comment without its line break.
theorem spanTrivia_append {atEnd : Bool} {trivia rest : List Char} (h : Trivia atEnd trivia)
    (hrest : Solid rest) (hend : atEnd = true → rest = []) :
    spanTrivia false (trivia ++ rest) = (trivia, rest) := by
  induction h with
  | nil => exact spanTrivia_solid hrest
  | blank hc _ ih => rw [List.cons_append, spanTrivia_blank _ hc, ih]
  | @comment text cs htext _ ih =>
      have hline : '/' :: '/' :: (text ++ '\n' :: cs) ++ rest =
          '/' :: '/' :: (text ++ '\n' :: (cs ++ rest)) := by simp
      rw [hline, spanTrivia_slashes, spanTrivia_inside _ slash_ne_newline,
        spanTrivia_line htext, ih]
  | lastComment hlast htext =>
      rw [hend hlast, List.append_nil, spanTrivia_slashes,
        spanTrivia_inside _ slash_ne_newline, spanTrivia_lastLine htext]

-- The rest of a comment whose slashes are read, and what follows its line.
def CommentRest (atEnd : Bool) (cs : List Char) : Prop :=
  ∃ text, '\n' ∉ text ∧
    (atEnd = true ∧ cs = text ∨ ∃ more, cs = text ++ '\n' :: more ∧ Trivia atEnd more)

section

variable {atEnd : Bool} {c : Char} {cs : List Char}

theorem commentRest_newline (h : Trivia atEnd cs) : CommentRest atEnd ('\n' :: cs) :=
  ⟨[], List.not_mem_nil, .inr ⟨cs, rfl, h⟩⟩

theorem commentRest_cons_iff (hc : c ≠ '\n') :
    CommentRest atEnd (c :: cs) ↔ CommentRest atEnd cs := by
  constructor
  · rintro ⟨text, htext, ⟨hend, hcs⟩ | ⟨more, hcs, hmore⟩⟩
    · subst hcs
      exact ⟨cs, fun hmem => htext (List.mem_cons_of_mem _ hmem), .inl ⟨hend, rfl⟩⟩
    · cases text with
      | nil => exact absurd (List.cons.inj hcs).1 hc
      | cons d text =>
          obtain ⟨rfl, rfl⟩ := List.cons.inj hcs
          exact ⟨text, fun hmem => htext (List.mem_cons_of_mem _ hmem), .inr ⟨more, rfl, hmore⟩⟩
  · rintro ⟨text, htext, hrest⟩
    refine ⟨c :: text, List.not_mem_cons_of_ne_of_not_mem (Ne.symm hc) htext, ?_⟩
    rcases hrest with ⟨hend, rfl⟩ | ⟨more, rfl, hmore⟩
    · exact .inl ⟨hend, rfl⟩
    · exact .inr ⟨more, rfl, hmore⟩

theorem CommentRest.trivia (h : CommentRest atEnd cs) : Trivia atEnd ('/' :: '/' :: cs) := by
  obtain ⟨text, htext, ⟨hend, rfl⟩ | ⟨more, rfl, hmore⟩⟩ := h
  · exact .lastComment hend htext
  · exact .comment htext hmore

end

-- Induction on the text, inside a comment and outside: what is skipped is
-- trivia, and what is left does not go on with any.
theorem trivia_of_spanTrivia (cs : List Char) : ∀ inComment : Bool,
    let skipped := spanTrivia inComment cs
    cs = skipped.1 ++ skipped.2 ∧ Solid skipped.2 ∧
      (if inComment then CommentRest skipped.2.isEmpty skipped.1
        else Trivia skipped.2.isEmpty skipped.1) := by
  induction cs with
  | nil =>
      rintro (_ | _)
      · exact ⟨rfl, solid_nil, .nil⟩
      · exact ⟨rfl, solid_nil, [], List.not_mem_nil, .inl ⟨rfl, rfl⟩⟩
  | cons c rest ih =>
      obtain ⟨hblanks, hsolid, htrivia⟩ := ih false
      obtain ⟨hcomment, hsolid', hrest⟩ := ih true
      simp only [Bool.false_eq_true, if_false, if_true] at htrivia hrest
      rintro (_ | _)
      · by_cases hc : Text.isBlank c = true
        · simp only [spanTrivia_blank rest hc]
          exact ⟨congrArg (c :: ·) hblanks, hsolid, .blank hc htrivia⟩
        · by_cases hslashes : c = '/' ∧ rest.head? = some '/'
          · obtain ⟨rfl, hhead⟩ := hslashes
            obtain ⟨more, rfl⟩ := List.head?_eq_some_iff.mp hhead
            simp only [spanTrivia_slashes]
            refine ⟨congrArg ('/' :: ·) hcomment, hsolid', ?_⟩
            rw [spanTrivia_inside _ slash_ne_newline] at hrest ⊢
            exact ((commentRest_cons_iff slash_ne_newline).mp hrest).trivia
          · have hstop : Solid (c :: rest) := by
              rintro _ _ ⟨⟩
              exact ⟨Bool.eq_false_iff.mpr hc, hslashes⟩
            simp only [spanTrivia_solid hstop]
            exact ⟨rfl, hstop, .nil⟩
      · by_cases hc : c = '\n'
        · subst hc
          simp only [spanTrivia_newline]
          exact ⟨congrArg ('\n' :: ·) hblanks, hsolid, commentRest_newline htrivia⟩
        · simp only [spanTrivia_inside rest hc]
          exact ⟨congrArg (c :: ·) hcomment, hsolid', (commentRest_cons_iff hc).mpr hrest⟩

end CandleScript.Lexeme
