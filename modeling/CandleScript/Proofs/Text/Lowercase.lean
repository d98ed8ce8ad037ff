import CandleScript.Text.Lowercase
import Mathlib.Data.List.Basic

namespace CandleScript.Text

namespace CaseRun

-- No lower-case letter of `run` is among the capitals of `other`. Where the two
-- ranges overlap, capitals and small letters alternate.
def apart (run other : CaseRun) : Bool :=
  Nat.blt (run.image + (run.last - run.first)) other.first || Nat.blt other.last run.image ||
    Nat.beq other.step 2 && (Nat.beq run.step 2 || Nat.beq run.first run.last) &&
      Nat.beq ((run.image + other.first) % 2) 1

-- The lower-case letters of a run are characters after the full stop, and the
-- dotted capital I is not among them.
def plain (run : CaseRun) : Bool :=
  let last := run.image + (run.last - run.first)
  Nat.blt 0x2e run.image && (Nat.blt last 0x130 || Nat.blt 0x130 run.image) &&
    (Nat.blt last 0xd800 || Nat.blt 0xdfff run.image && Nat.blt last 0x110000)

theorem image?_eq_some_iff {run : CaseRun} {n m : Nat} :
    run.image? n = some m ↔ (run.first ≤ n ∧ n ≤ run.last ∧ (n - run.first) % run.step = 0) ∧
      run.image + (n - run.first) = m := by
  rw [image?, Option.ite_none_right_eq_some, Option.some.injEq]
  simp only [Bool.and_eq_true, decide_eq_true_eq, beq_iff_eq, and_assoc]

theorem image?_of_apart {run other : CaseRun} (hapart : run.apart other = true) {n m : Nat}
    (h : run.image? n = some m) : other.image? m = none := by
  obtain ⟨⟨hfirst, hlast, hstep⟩, hm⟩ := image?_eq_some_iff.mp h
  cases hother : other.image? m with
  | none => rfl
  | some k =>
      obtain ⟨⟨hfirst', hlast', hstep'⟩, -⟩ := image?_eq_some_iff.mp hother
      simp only [apart, Bool.or_eq_true, Bool.and_eq_true, Nat.blt_eq, Nat.beq_eq]
        at hapart
      rcases hapart with (hbelow | habove) | ⟨⟨htwo, hsparse⟩, hodd⟩
      · omega
      · omega
      · -- the capitals of `other` have the parity that `m` has not
        rw [htwo] at hstep'
        rcases hsparse with htwo' | hsingle
        · rw [htwo'] at hstep
          omega
        · omega

end CaseRun

theorem apart_caseRuns : (caseRuns.all fun run => caseRuns.all run.apart) = true := by
  decide +kernel

theorem plain_caseRuns : caseRuns.all CaseRun.plain = true := by decide +kernel

theorem lowerIn_eq_or (runs : List CaseRun) (n : Nat) :
    lowerIn runs n = n ∨ ∃ run ∈ runs, run.image? n = some (lowerIn runs n) := by
  induction runs with
  | nil => exact .inl rfl
  | cons run rest ih =>
      rw [lowerIn]
      split
      · exact .inl rfl
      · cases himage : run.image? n with
        | some m => exact .inr ⟨run, List.mem_cons_self .., himage⟩
        | none =>
            rcases ih with hsame | ⟨other, hother, hfound⟩
            · exact .inl hsame
            · exact .inr ⟨other, List.mem_cons_of_mem run hother, hfound⟩

theorem lowerIn_eq_self {runs : List CaseRun} {n : Nat} (h : ∀ run ∈ runs, run.image? n = none) :
    lowerIn runs n = n := by
  rcases lowerIn_eq_or runs n with hsame | ⟨run, hrun, hfound⟩
  · exact hsame
  · cases (h run hrun).symm.trans hfound

-- A lower-case letter has no other lower-case form.
theorem lowerIn_lowerIn (n : Nat) : lowerIn caseRuns (lowerIn caseRuns n) = lowerIn caseRuns n := by
  rcases lowerIn_eq_or caseRuns n with hsame | ⟨run, hrun, hfound⟩
  · rw [hsame, hsame]
  · apply lowerIn_eq_self
    intro other hother
    have hapart := List.all_eq_true.mp (List.all_eq_true.mp apart_caseRuns run hrun) other hother
    exact CaseRun.image?_of_apart hapart hfound

-- What a character that has another lower-case form is turned into.
theorem lowerIn_of_ne {n : Nat} (h : lowerIn caseRuns n ≠ n) :
    (lowerIn caseRuns n).isValidChar ∧ lowerIn caseRuns n ≠ 0x130 ∧ 0x2e < lowerIn caseRuns n := by
  rcases lowerIn_eq_or caseRuns n with hsame | ⟨run, hrun, hfound⟩
  · exact absurd hsame h
  · obtain ⟨⟨hfirst, hlast, -⟩, himage⟩ := CaseRun.image?_eq_some_iff.mp hfound
    have hplain := List.all_eq_true.mp plain_caseRuns run hrun
    simp only [CaseRun.plain, Bool.or_eq_true, Bool.and_eq_true, Nat.blt_eq] at hplain
    simp only [Nat.isValidChar]
    omega

theorem toNat_ofNat_lowerIn (c : Char) :
    (Char.ofNat (lowerIn caseRuns c.toNat)).toNat = lowerIn caseRuns c.toNat := by
  by_cases hsame : lowerIn caseRuns c.toNat = c.toNat
  · rw [hsame, Char.ofNat_toNat]
  · rw [Char.ofNat, dif_pos (lowerIn_of_ne hsame).1]
    rfl

-- A character that stays as it is in lower case, whatever stands around it.
def Settled (c : Char) : Prop := c ≠ 'Σ' ∧ lowerAlone c = [c]

theorem settled_of_mem_lowerAlone {c d : Char} (h : d ∈ lowerAlone c) : Settled d := by
  unfold lowerAlone at h
  split at h
  · simp only [List.mem_cons, List.not_mem_nil, or_false] at h
    rcases h with rfl | rfl
    · exact ⟨by decide, by decide⟩
    · exact ⟨by decide, by decide +kernel⟩
  · rename_i hdotted
    cases List.mem_singleton.mp h
    have hnat := toNat_ofNat_lowerIn c
    constructor
    · intro hsigma
      rw [hsigma] at hnat
      have hfixed := lowerIn_lowerIn c.toNat
      rw [← hnat] at hfixed
      exact absurd hfixed (by decide +kernel)
    · rw [lowerAlone, if_neg, hnat, lowerIn_lowerIn]
      intro hi
      by_cases hsame : lowerIn caseRuns c.toNat = c.toNat
      · rw [hsame, Char.ofNat_toNat] at hi
        exact hdotted hi
      · rw [hi] at hnat
        exact (lowerIn_of_ne hsame).2.1 (hnat.symm.trans (by decide))

theorem settled_of_mem_lowerChars {before cs : List Char} :
    ∀ c ∈ lowerChars before cs, Settled c := by
  induction cs generalizing before with
  | nil => exact List.forall_mem_nil _
  | cons c rest ih =>
      rw [lowerChars]
      split
      · rw [List.forall_mem_cons]
        refine ⟨?_, ih⟩
        split
        · exact ⟨by decide, by decide +kernel⟩
        · exact ⟨by decide, by decide +kernel⟩
      · rw [List.forall_mem_append]
        exact ⟨fun d hd => settled_of_mem_lowerAlone hd, ih⟩

theorem lowerChars_of_settled {cs : List Char} (h : ∀ c ∈ cs, Settled c) (before : List Char) :
    lowerChars before cs = cs := by
  induction cs generalizing before with
  | nil => rfl
  | cons c rest ih =>
      rw [List.forall_mem_cons] at h
      rw [lowerChars, if_neg h.1.1, h.1.2, ih h.2, List.singleton_append]

theorem lowercase_lowercase (s : String) : lowercase (lowercase s) = lowercase s := by
  rw [lowercase, lowercase, String.toList_ofList, lowerChars_of_settled settled_of_mem_lowerChars]

theorem eq_dot_of_mem_lowerAlone {c : Char} (h : '.' ∈ lowerAlone c) : c = '.' := by
  unfold lowerAlone at h
  split at h
  · exact absurd h (by decide)
  · have hdot := List.mem_singleton.mp h
    have hnat := toNat_ofNat_lowerIn c
    rw [← hdot] at hnat
    by_cases hsame : lowerIn caseRuns c.toNat = c.toNat
    · rw [hdot, hsame, Char.ofNat_toNat]
    · have hless := (lowerIn_of_ne hsame).2.2
      rw [← hnat] at hless
      exact absurd hless (by decide)

theorem takeWhile_flatMap_lowerAlone (cs : List Char) :
    (cs.flatMap lowerAlone).takeWhile (fun c => c ≠ '.') =
      (cs.takeWhile fun c => c ≠ '.').flatMap lowerAlone := by
  induction cs with
  | nil => rfl
  | cons c rest ih =>
      by_cases hdot : c = '.'
      · subst hdot
        rfl
      · have hkeep : ∀ d ∈ lowerAlone c, decide (d ≠ '.') = true := by
          intro d hd
          rw [decide_eq_true_eq]
          rintro rfl
          exact hdot (eq_dot_of_mem_lowerAlone hd)
        rw [List.flatMap_cons, List.takeWhile_append_of_pos hkeep, ih,
          List.takeWhile_cons_of_pos (by simpa using hdot), List.flatMap_cons]

-- Without a capital sigma the characters do not depend on their neighbours.
theorem lowerChars_eq_flatMap {cs : List Char} (h : 'Σ' ∉ cs) (before : List Char) :
    lowerChars before cs = cs.flatMap lowerAlone := by
  induction cs generalizing before with
  | nil => rfl
  | cons c rest ih =>
      rw [List.mem_cons, not_or] at h
      rw [lowerChars, if_neg (Ne.symm h.1), ih h.2, List.flatMap_cons]

theorem mem_lowerChars_of_sigma {cs : List Char} (h : 'Σ' ∈ cs) (before : List Char) :
    'σ' ∈ lowerChars before cs ∨ 'ς' ∈ lowerChars before cs := by
  induction cs generalizing before with
  | nil => cases h
  | cons c rest ih =>
      rw [lowerChars]
      split
      · split
        · exact .inr (List.mem_cons_self ..)
        · exact .inl (List.mem_cons_self ..)
      · rename_i hc
        rw [List.mem_append, List.mem_append]
        rcases List.mem_cons.mp h with hfirst | hrest
        · exact absurd hfirst.symm hc
        · exact (ih hrest (c :: before)).imp .inr .inr

end CandleScript.Text
