import CandleScript.Proofs.Json.Layout

namespace CandleScript.Json

-- How many brackets are open after a character outside of strings.
def openedAfter (c : Char) (opened : Nat) : Nat :=
  if c = '[' ∨ c = '\x7b' then opened + 1
  else if c = ']' ∨ c = '\x7d' then opened - 1
  else opened

-- The most brackets that are open at once in a text, where `opened` are open
-- before it. `quoted` tells whether it begins inside a string, where brackets
-- do not count and a backslash takes the next character with it.
def nestingFrom : (quoted : Bool) → (opened : Nat) → List Char → Nat
  | _, opened, [] => opened
  | true, opened, '\\' :: _ :: rest => nestingFrom true opened rest
  | true, opened, c :: rest => nestingFrom (c != '"') opened rest
  | false, opened, c :: rest => max opened (nestingFrom (c == '"') (openedAfter c opened) rest)

-- How deep the brackets of a document nest.
def nesting (text : String) : Nat := nestingFrom false 0 text.toList

theorem le_nestingFrom (quoted : Bool) (opened : Nat) (cs : List Char) :
    opened ≤ nestingFrom quoted opened cs := by
  fun_induction nestingFrom quoted opened cs with
  | case1 => exact Nat.le_refl _
  | case2 _ _ _ ih => exact ih
  | case3 _ _ _ _ ih => exact ih
  | case4 => exact Nat.le_max_left _ _

-- A character that neither opens nor closes anything.
def isInert (c : Char) : Bool :=
  c != '"' && c != '[' && c != '\x7b' && c != ']' && c != '\x7d'

def Inert (cs : List Char) : Prop := ∀ c ∈ cs, isInert c = true

theorem nestingFrom_inert {cs : List Char} (h : Inert cs) (opened : Nat)
    (rest : List Char) : nestingFrom false opened (cs ++ rest) = nestingFrom false opened rest := by
  induction cs with
  | nil => rfl
  | cons c cs ih =>
      obtain ⟨hc, hcs⟩ := List.forall_mem_cons.mp h
      simp only [isInert, Bool.and_eq_true, bne_iff_ne] at hc
      have hopened : openedAfter c opened = opened := by simp [openedAfter, hc]
      have hquote : (c == '"') = false := by simp [hc]
      rw [List.cons_append, nestingFrom, hquote, hopened, ih hcs]
      exact Nat.max_eq_right (le_nestingFrom _ _ _)

theorem nestingFrom_quoted {c : Char} (hslash : c ≠ '\\') (opened : Nat) (rest : List Char) :
    nestingFrom true opened (c :: rest) = nestingFrom (c != '"') opened rest := by
  rw [nestingFrom]
  intro _ _ h _
  exact hslash h

theorem nestingFrom_escapeChar (c : Char) (opened : Nat) (rest : List Char) :
    nestingFrom true opened (escapeChar c ++ rest) = nestingFrom true opened rest := by
  unfold escapeChar
  split
  iterate 7
    · simp only [List.cons_append, List.nil_append, nestingFrom]
  · split
    · have hdigits : ∀ n < 16, (Nat.digitChar n != '"') = true ∧ Nat.digitChar n ≠ '\\' := by
        decide
      have hfirst := hdigits (c.toNat / 16) (by omega)
      have hlast := hdigits (c.toNat % 16) (by omega)
      simp [nestingFrom, hfirst, hlast]
    · rename_i hquote hslash _ _ _ _ _ _
      rw [List.singleton_append, nestingFrom_quoted hslash, bne_iff_ne.mpr hquote]

theorem nestingFrom_escaped (cs : List Char) (opened : Nat) (rest : List Char) :
    nestingFrom true opened (cs.flatMap escapeChar ++ '"' :: rest) =
      nestingFrom false opened rest := by
  induction cs with
  | nil => exact nestingFrom_quoted (by decide) opened rest
  | cons c cs ih => rw [List.flatMap_cons, List.append_assoc, nestingFrom_escapeChar, ih]

theorem nestingFrom_quote (s : String) (opened : Nat) (rest : List Char) :
    nestingFrom false opened (quote s ++ rest) = nestingFrom false opened rest := by
  have hopened : openedAfter '"' opened = opened := rfl
  rw [quote, List.append_assoc, List.cons_append, nestingFrom, hopened, beq_self_eq_true,
    List.singleton_append, nestingFrom_escaped]
  exact Nat.max_eq_right (le_nestingFrom _ _ _)

theorem isInert_of_isDigit {c : Char} (h : c.isDigit = true) : isInert c = true := by
  simp only [isInert, Bool.and_eq_true, bne_iff_ne]
  refine ⟨⟨⟨⟨?_, ?_⟩, ?_⟩, ?_⟩, ?_⟩ <;> rintro rfl <;> contradiction

theorem isInert_of_isSpace {c : Char} (h : isSpace c = true) : isInert c = true := by
  simp only [isInert, Bool.and_eq_true, bne_iff_ne]
  refine ⟨⟨⟨⟨?_, ?_⟩, ?_⟩, ?_⟩, ?_⟩ <;> rintro rfl <;> contradiction

namespace Inert

theorem of_all {cs : List Char} (h : cs.all isInert = true) : Inert cs := List.all_eq_true.mp h

@[simp] theorem nil : Inert [] := by simp [Inert]

@[simp] theorem cons {c : Char} {cs : List Char} :
    Inert (c :: cs) ↔ isInert c = true ∧ Inert cs := List.forall_mem_cons

@[simp] theorem append {cs ds : List Char} : Inert (cs ++ ds) ↔ Inert cs ∧ Inert ds :=
  List.forall_mem_append

theorem digits (n : Nat) : Inert (Nat.toDigits 10 n) := fun _ hc =>
  isInert_of_isDigit (Nat.isDigit_of_mem_toDigits (by decide) (by decide) hc)

theorem zeros (n : Nat) : Inert (Number.zeros n) := by
  intro c hc
  rw [List.eq_of_mem_replicate hc]
  rfl

theorem positional (keepsPoint : Bool) {digits : List Char} (h : Inert digits) (exponent : Int) :
    Inert (Number.positional keepsPoint digits exponent) := by
  have htake : ∀ n, Inert (digits.take n) := fun n c hc => h c (List.mem_of_mem_take hc)
  have hdrop : ∀ n, Inert (digits.drop n) := fun n c hc => h c (List.mem_of_mem_drop hc)
  have hpoint : isInert '.' = true ∧ isInert '0' = true := by decide
  rw [Number.positional]
  split
  · cases keepsPoint <;> simp [h, zeros, hpoint]
  · dsimp only
    split <;> simp [h, zeros, htake, hdrop, hpoint]

theorem withExponent {digits : List Char} (h : Inert digits) (leading : Int) :
    Inert (Number.withExponent digits leading) := by
  have hmark : Inert ('e' :: (if leading < 0 then '-' else '+') ::
      Nat.toDigits 10 leading.natAbs) := by
    have hsigns : isInert 'e' = true ∧ isInert '-' = true ∧ isInert '+' = true := by decide
    split <;> simp [hsigns, Inert.digits]
  have hpoint : isInert '.' = true := by decide
  match digits, h with
  | [], _ => exact hmark
  | [_], h => exact cons.mpr ⟨(cons.mp h).1, hmark⟩
  | _ :: d :: more, h =>
      obtain ⟨hfirst, hmore⟩ := cons.mp h
      exact cons.mpr ⟨hfirst, cons.mpr ⟨hpoint, append.mpr ⟨hmore, hmark⟩⟩⟩

theorem decimal (style : Number.Style) (d : Number.Decimal) : Inert (style.decimal d) := by
  rw [Number.Style.decimal]
  split
  · exact withExponent (digits _) _
  · exact positional _ (digits _) _

theorem finite (style : Number.Style) (x : Float) : Inert (style.finite x) := by
  have hsign : isInert '-' = true := by decide
  rw [Number.Style.finite]
  split <;> split <;> simp [hsign, decimal]

theorem documentText (x : Float) : Inert (Number.documentText x).toList := by
  rw [Number.documentText]
  split
  · rw [String.toList_ofList]
    exact finite _ x
  · exact of_all (by decide)

theorem toString_int (n : Int) : Inert (toString n).toList := by
  have hsign : isInert '-' = true := by decide
  change Inert n.repr.toList
  cases n with
  | ofNat m =>
      rw [Int.repr, Nat.toList_repr]
      exact digits m
  | negSucc m =>
      rw [Int.repr, String.toList_append, Nat.toList_repr]
      exact cons.mpr ⟨hsign, digits _⟩

end Inert

theorem nestingFrom_opening (opened : Nat) (rest : List Char) {opening : Char}
    (h : opening = '[' ∨ opening = '\x7b') :
    nestingFrom false opened (opening :: rest) = nestingFrom false (opened + 1) rest := by
  have hle := le_nestingFrom false (opened + 1) rest
  have hread : nestingFrom false opened (opening :: rest) =
      max opened (nestingFrom false (opened + 1) rest) := by
    rcases h with rfl | rfl <;> rfl
  omega

theorem nestingFrom_closing (opened : Nat) (rest : List Char) {closing : Char}
    (h : closing = ']' ∨ closing = '\x7d') :
    nestingFrom false (opened + 1) (closing :: rest) =
      max (opened + 1) (nestingFrom false opened rest) := by
  rcases h with rfl | rfl <;> rfl

theorem nestingFrom_comma (opened : Nat) (rest : List Char) :
    nestingFrom false opened (',' :: rest) = nestingFrom false opened rest :=
  nestingFrom_inert (List.forall_mem_singleton.mpr (by decide)) opened rest

theorem nestingFrom_colon (opened : Nat) (rest : List Char) :
    nestingFrom false opened (':' :: rest) = nestingFrom false opened rest :=
  nestingFrom_inert (List.forall_mem_singleton.mpr (by decide)) opened rest

namespace Layout

variable (layout : Layout) (opened : Nat) (rest : List Char)

theorem nestingFrom_gap (level : Nat) :
    nestingFrom false opened (layout.gap level ++ rest) = nestingFrom false opened rest :=
  nestingFrom_inert (fun _ hc => isInert_of_isSpace (layout.gap_blank level _ hc)) opened rest

theorem nestingFrom_pad :
    nestingFrom false opened (layout.pad ++ rest) = nestingFrom false opened rest :=
  nestingFrom_inert (fun _ hc => isInert_of_isSpace (layout.pad_blank _ hc)) opened rest

end Layout

-- A scalar leaves what is open as it is.
theorem nestingFrom_scalarText {value : Json} (h : ∀ items, value ≠ .list items)
    (h' : ∀ members, value ≠ .object members) (opened : Nat) (rest : List Char) :
    nestingFrom false opened (scalarText value ++ rest) = nestingFrom false opened rest := by
  cases value with
  | null => exact nestingFrom_inert (Inert.of_all (by decide)) opened rest
  | bool value =>
      cases value with
      | false => exact nestingFrom_inert (Inert.of_all (by decide)) opened rest
      | true => exact nestingFrom_inert (Inert.of_all (by decide)) opened rest
  | integer value => exact nestingFrom_inert (Inert.toString_int value) opened rest
  | real value => exact nestingFrom_inert (Inert.documentText value) opened rest
  | text value => exact nestingFrom_quote value opened rest
  | list items => exact absurd rfl (h items)
  | object members => exact absurd rfl (h' members)

namespace Layout

variable (layout : Layout)

mutual

theorem nestingFrom_chars : ∀ (value : Json) (level opened : Nat) (rest : List Char),
    nestingFrom false opened (layout.chars level value ++ rest) =
      max (opened + value.depth) (nestingFrom false opened rest)
  | .list [], level, opened, rest => by
    simp only [chars, depth, depthOfItems, List.cons_append, List.nil_append,
      nestingFrom_opening opened _ (.inl rfl), nestingFrom_closing opened rest (.inl rfl)]
  | .list (first :: items), level, opened, rest => by
    simp only [chars, depth, depthOfItems, List.cons_append, List.append_assoc, List.nil_append,
      nestingFrom_opening opened _ (.inl rfl), nestingFrom_closing opened rest (.inl rfl),
      nestingFrom_gap, nestingFrom_chars first, nestingFrom_laterItems items]
    omega
  | .object [], level, opened, rest => by
    simp only [chars, depth, depthOfMembers, List.cons_append, List.nil_append,
      nestingFrom_opening opened _ (.inr rfl), nestingFrom_closing opened rest (.inr rfl)]
  | .object ((key, value) :: members), level, opened, rest => by
    simp only [chars, depth, depthOfMembers, List.cons_append, List.append_assoc,
      List.nil_append, nestingFrom_opening opened _ (.inr rfl),
      nestingFrom_closing opened rest (.inr rfl), nestingFrom_gap, nestingFrom_quote,
      nestingFrom_colon, nestingFrom_pad, nestingFrom_chars value,
      nestingFrom_laterMembers members]
    omega
  | .null, level, opened, rest | .bool _, level, opened, rest | .integer _, level, opened, rest
  | .real _, level, opened, rest | .text _, level, opened, rest => by
    rw [chars, nestingFrom_scalarText (by simp) (by simp), depth, Nat.add_zero]
    · exact (Nat.max_eq_right (le_nestingFrom _ _ _)).symm
    all_goals simp

theorem nestingFrom_laterItems : ∀ (items : List Json) (level opened : Nat) (rest : List Char),
    nestingFrom false opened (layout.laterItems level items ++ rest) =
      max (opened + depthOfItems items) (nestingFrom false opened rest)
  | [], level, opened, rest => (Nat.max_eq_right (le_nestingFrom _ _ _)).symm
  | item :: items, level, opened, rest => by
    simp only [laterItems, depthOfItems, List.cons_append, List.append_assoc, nestingFrom_comma,
      nestingFrom_gap, nestingFrom_chars item, nestingFrom_laterItems items]
    omega

theorem nestingFrom_laterMembers : ∀ (members : List (String × Json)) (level opened : Nat)
    (rest : List Char),
    nestingFrom false opened (layout.laterMembers level members ++ rest) =
      max (opened + depthOfMembers members) (nestingFrom false opened rest)
  | [], level, opened, rest => (Nat.max_eq_right (le_nestingFrom _ _ _)).symm
  | (key, value) :: members, level, opened, rest => by
    simp only [laterMembers, depthOfMembers, List.cons_append, List.append_assoc,
      nestingFrom_comma, nestingFrom_colon, nestingFrom_gap, nestingFrom_pad, nestingFrom_quote,
      nestingFrom_chars value, nestingFrom_laterMembers members]
    omega

end

-- Both layouts show the same depth, that of the value.
theorem nesting_chars (value : Json) :
    nesting (String.ofList (layout.chars 0 value)) = value.depth := by
  have h := layout.nestingFrom_chars value 0 0 []
  rw [List.append_nil] at h
  rw [nesting, String.toList_ofList, h]
  simp only [nestingFrom]
  omega

end Layout

end CandleScript.Json
