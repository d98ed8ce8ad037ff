import CandleScript.Number.Read
import CandleScript.Script.Token

namespace CandleScript

-- What a token says, wherever it stands: its kind, and its value if it has one.
inductive Word where
  | name (literal : String)
  | number (value : Float)
  | text (value : String)
  | op (operator : Operator)
  | assign
  | openParen
  | closeParen
  | comma
  deriving DecidableEq

-- The kind of the tokens that say a word which has no value.
def Word.sign? : Word → Option Token.Kind
  | .op operator => some (.op operator)
  | .assign => some .assign
  | .openParen => some .openParen
  | .closeParen => some .closeParen
  | .comma => some .comma
  | _ => none

namespace Token

-- The end of a script says nothing, and neither does a number token whose text
-- is no number.
def word? (token : Token) : Option Word :=
  match token.kind with
  | .name | .ifWord | .elseWord => some (.name token.literal)
  | .number =>
    match Number.read token.literal.toList with
    | .ok value => some (.number value)
    | .error _ => none
  | .text => some (.text token.literal)
  | .op operator => some (.op operator)
  | .assign => some .assign
  | .openParen => some .openParen
  | .closeParen => some .closeParen
  | .comma => some .comma
  | .ending => none

variable {token : Token}

theorem word?_eq_name_iff {literal : String} :
    token.word? = some (.name literal) ↔ token.kind.isName = true ∧ token.literal = literal := by
  unfold word? Kind.isName
  split <;> simp_all
  split <;> simp

theorem word?_eq_number_iff {value : Float} :
    token.word? = some (.number value) ↔
      token.kind = .number ∧ Number.read token.literal.toList = .ok value := by
  unfold word?
  split <;> simp_all
  split <;> simp_all

theorem word?_eq_text_iff {value : String} :
    token.word? = some (.text value) ↔ token.kind = .text ∧ token.literal = value := by
  unfold word?
  split <;> simp_all
  split <;> simp

theorem word?_eq_sign_iff {word : Word} {kind : Kind} (h : word.sign? = some kind) :
    token.word? = some word ↔ token.kind = kind := by
  unfold word?
  cases word <;> cases h <;> split <;> simp_all <;> split <;> simp

-- Tokens that say the given words, one each.
def Say (tokens : List Token) (words : List Word) : Prop := tokens.map word? = words.map some

theorem say_nil : Say [] [] := rfl

theorem Say.cons {word : Word} {tokens : List Token} {words : List Word}
    (hlater : Say tokens words) (h : token.word? = some word) :
    Say (token :: tokens) (word :: words) := by
  rw [Say, List.map_cons, List.map_cons, h, hlater]

theorem Say.unique {tokens : List Token} {v w : List Word} (hv : Say tokens v)
    (hw : Say tokens w) : v = w :=
  (List.map_inj_right fun _ _ => Option.some.inj).mp (hv.symm.trans hw)

theorem Say.append {a b : List Token} {v w : List Word} (ha : Say a v) (hb : Say b w) :
    Say (a ++ b) (v ++ w) := by
  rw [Say, List.map_append, List.map_append, ha, hb]

-- Tokens that begin with ones that say the given words and go on with `rest`.
def Lead (tokens : List Token) (words : List Word) (rest : List Token) : Prop :=
  ∃ used, tokens = used ++ rest ∧ Say used words

theorem lead_nil (tokens : List Token) : Lead tokens [] tokens := ⟨[], rfl, say_nil⟩

theorem Lead.cons {word : Word} {tokens rest : List Token} {words : List Word}
    (hlater : Lead tokens words rest) (h : token.word? = some word) :
    Lead (token :: tokens) (word :: words) rest := by
  obtain ⟨used, rfl, hsay⟩ := hlater
  exact ⟨token :: used, rfl, hsay.cons h⟩

theorem Lead.sign {tokens rest : List Token} {words : List Word} (hlater : Lead tokens words rest)
    (word : Word) {kind : Kind} (hsign : word.sign? = some kind) (h : token.kind = kind) :
    Lead (token :: tokens) (word :: words) rest :=
  hlater.cons ((word?_eq_sign_iff hsign).mpr h)

theorem Lead.append {tokens later rest : List Token} {v w : List Word} (h : Lead tokens v later)
    (hlater : Lead later w rest) : Lead tokens (v ++ w) rest := by
  obtain ⟨used, rfl, hsay⟩ := h
  obtain ⟨more, rfl, hmore⟩ := hlater
  exact ⟨used ++ more, (List.append_assoc used more rest).symm, hsay.append hmore⟩

theorem Lead.length_eq {tokens rest : List Token} {words : List Word} (h : Lead tokens words rest) :
    words.length + rest.length = tokens.length := by
  obtain ⟨used, rfl, hsay⟩ := h
  have hlength := congrArg List.length hsay
  simp only [List.length_map] at hlength
  rw [List.length_append, hlength]

-- The tokens in front of the first end token.
def beforeEnd (tokens : List Token) : List Token := tokens.takeWhile fun t => t.kind ≠ .ending

theorem word?_ending (h : token.kind = .ending) : token.word? = none := by
  rw [word?, h]

theorem Say.kind_ne_ending {tokens : List Token} {words : List Word} (h : Say tokens words) :
    ∀ t ∈ tokens, t.kind ≠ .ending := by
  intro t ht hkind
  have hnone : none ∈ tokens.map word? := List.mem_map.mpr ⟨t, ht, word?_ending hkind⟩
  rw [h] at hnone
  simp at hnone

theorem Lead.say_beforeEnd {tokens rest : List Token} {words later : List Word}
    (h : Lead tokens words rest) (hlater : Say (beforeEnd rest) later) :
    Say (beforeEnd tokens) (words ++ later) := by
  obtain ⟨used, rfl, hsay⟩ := h
  have hused := hsay.kind_ne_ending
  rw [beforeEnd, List.takeWhile_append_of_pos (by simpa using hused)]
  exact hsay.append hlater

theorem say_cons_iff {tokens : List Token} {word : Word} {words : List Word} :
    Say tokens (word :: words) ↔
      ∃ token rest, tokens = token :: rest ∧ token.word? = some word ∧ Say rest words := by
  rw [Say, List.map_cons, List.map_eq_cons_iff]
  rfl

theorem say_singleton_iff {tokens : List Token} {word : Word} :
    Say tokens [word] ↔ ∃ token, tokens = [token] ∧ token.word? = some word := by
  rw [Say, List.map_singleton, List.map_eq_singleton_iff]

theorem say_append_iff {tokens : List Token} {v w : List Word} :
    Say tokens (v ++ w) ↔ ∃ a b, tokens = a ++ b ∧ Say a v ∧ Say b w := by
  rw [Say, List.map_append, List.map_eq_append_iff]
  rfl

-- The kind of the first token, known from the first word.
theorem kind_of_say_beforeEnd {tokens : List Token} {words : List Word}
    (h : Say (beforeEnd tokens) words) {word : Word} (hword : words.head? = some word)
    {kind : Kind} (hsign : word.sign? = some kind) : tokens.head?.map Token.kind = some kind := by
  obtain ⟨words, rfl⟩ := List.head?_eq_some_iff.mp hword
  obtain ⟨token, rest, htokens, hsays, -⟩ := say_cons_iff.mp h
  cases tokens with
  | nil => cases htokens
  | cons first more =>
      rw [beforeEnd, List.takeWhile_cons] at htokens
      split at htokens
      · cases htokens
        exact congrArg some ((word?_eq_sign_iff hsign).mp hsays)
      · cases htokens

end Token

end CandleScript
