import CandleScript.Builtin
import CandleScript.Forbidden
import CandleScript.Proofs.Text.Lowercase

namespace CandleScript

namespace Forbidden

theorem mem_all (category : Forbidden) : category ∈ all := by
  cases category <;> decide

-- No word is in two vocabularies.
theorem eq_of_mem_words : ∀ category ∈ all, ∀ other ∈ all, ∀ word ∈ category.words,
    word ∈ other.words → category = other := by
  decide +kernel

theorem mem_words_of_classify? {name : String} {category : Forbidden}
    (h : classify? name = some category) : head name ∈ category.words := by
  rw [classify?] at h
  have hword := List.find?_some h
  exact List.contains_iff_mem.mp hword

theorem classify?_eq_some_iff {name : String} {category : Forbidden} :
    classify? name = some category ↔ head name ∈ category.words := by
  refine ⟨mem_words_of_classify?, fun h => ?_⟩
  cases hfound : classify? name with
  | none =>
      rw [classify?] at hfound
      have hnone := List.find?_eq_none.mp hfound category category.mem_all
      exact absurd (List.contains_iff_mem.mpr h) hnone
  | some other =>
      have hother := mem_words_of_classify? hfound
      rw [eq_of_mem_words other other.mem_all category category.mem_all _ hother h]

theorem classify?_eq_none_iff {name : String} :
    classify? name = none ↔ ∀ category : Forbidden, head name ∉ category.words := by
  simp only [Option.eq_none_iff_forall_ne_some, ne_eq, classify?_eq_some_iff]

-- The segment that counts can be cut off before or after a name is written in
-- lower case, unless a sigma might have changed its form.
open Text in
theorem head_eq {name : String} (hsigma : 'σ' ∉ (lowercase name).toList)
    (hfinal : 'ς' ∉ (lowercase name).toList) :
    head name = String.ofList ((lowercase name).toList.takeWhile fun c => c ≠ '.') := by
  rw [lowercase, String.toList_ofList] at hsigma hfinal ⊢
  have hnone : 'Σ' ∉ name.toList := by
    intro h
    rcases mem_lowerChars_of_sigma h [] with h | h
    · exact hsigma h
    · exact hfinal h
  have hfirst : 'Σ' ∉ name.toList.takeWhile fun c => c ≠ '.' :=
    fun h => hnone ((List.takeWhile_sublist _).mem h)
  rw [head, lowercase, String.toList_ofList, lowerChars_eq_flatMap hfirst,
    lowerChars_eq_flatMap hnone, takeWhile_flatMap_lowerAlone]

end Forbidden

namespace Builtin

theorem mem_all (b : Builtin) : b ∈ all := by
  cases b <;> decide

theorem name_injective : ∀ b ∈ all, ∀ other ∈ all, b.name = other.name → b = other := by
  decide +kernel

theorem eq_of_name {b other : Builtin} (h : b.name = other.name) : b = other :=
  name_injective b b.mem_all other other.mem_all h

theorem lookup?_eq_some_iff {name : String} {b : Builtin} :
    lookup? name = some b ↔ b.name = Text.lowercase name := by
  constructor
  · exact name_of_lookup?
  · intro h
    cases hfound : lookup? name with
    | none =>
        have hnone := List.find?_eq_none.mp hfound b b.mem_all
        exact absurd (decide_eq_true h) hnone
    | some other =>
        have hother := name_of_lookup? hfound
        rw [eq_of_name (hother.trans h.symm)]

theorem lookup?_eq_none_iff {name : String} :
    lookup? name = none ↔ ∀ b : Builtin, b.name ≠ Text.lowercase name := by
  simp only [Option.eq_none_iff_forall_ne_some, ne_eq, lookup?_eq_some_iff]

theorem lookup?_lowercase_eq (name : String) : lookup? (Text.lowercase name) = lookup? name := by
  rw [lookup?, lookup?, Text.lowercase_lowercase]

-- No spelling of a function's name is forbidden.
theorem classify?_eq_none_of_name {b : Builtin} {callee : String}
    (h : b.name = Text.lowercase callee) : Forbidden.classify? callee = none := by
  have hplain : 'σ' ∉ b.name.toList ∧ 'ς' ∉ b.name.toList := by cases b <;> decide
  have hhead : Forbidden.head callee =
      String.ofList (b.name.toList.takeWhile fun c => c ≠ '.') := by
    rw [h] at hplain ⊢
    exact Forbidden.head_eq hplain.1 hplain.2
  rw [Forbidden.classify?, hhead]
  cases b <;> decide +kernel

theorem not_forbidden {b : Builtin} {callee : String} (h : b.name = Text.lowercase callee) :
    ∀ category : Forbidden, Forbidden.head callee ∉ category.words :=
  Forbidden.classify?_eq_none_iff.mp (classify?_eq_none_of_name h)

end Builtin

end CandleScript
