import CandleScript.Proofs.Analysis.Words
import CandleScript.Script.Analysis
import Mathlib.Data.List.Forall2

namespace CandleScript

-- A place where a script uses a name: as the target of an assignment, as a
-- variable, or as the function of a call with a number of arguments.
inductive Mention where
  | target (name : String) (place : Span)
  | read (name : String) (place : Span)
  | callee (name : String) (count : Nat) (span : Span)

namespace Mention

def name : Mention → String
  | target name _ | read name _ | callee name _ _ => name

def place : Mention → Span
  | target _ place | read _ place => place
  | callee name _ span => Analysis.nameSpan span name

-- The rules of the language, each with the error that reports where it is broken.
-- They are known as S001, S002, S003 and S005.
inductive Breaks : Mention → Diagnostic → Prop where
  | forbidden {m : Mention} {category : Forbidden} (h : Forbidden.head m.name ∈ category.words) :
    Breaks m (Analysis.forbidden category m.name m.place)
  | reserved {name : String} {place : Span}
    (hfree : ∀ category : Forbidden, Forbidden.head name ∉ category.words)
    (h : name ∈ reservedSeries) : Breaks (target name place) (Analysis.reservedTarget name place)
  | unknown {name : String} {count : Nat} {span : Span}
    (hfree : ∀ category : Forbidden, Forbidden.head name ∉ category.words)
    (h : ∀ b : Builtin, b.name ≠ Text.lowercase name) :
    Breaks (callee name count span)
      (Analysis.unknownFunction name (Analysis.nameSpan span name))
  | miscounted {name : String} {count : Nat} {span : Span} {b : Builtin}
    (hname : b.name = Text.lowercase name) (h : b.accepts count = false) :
    Breaks (callee name count span) (Analysis.wrongCount b count span)

theorem Breaks.unique {m : Mention} {d e : Diagnostic} (hd : m.Breaks d) (he : m.Breaks e) :
    d = e := by
  cases hd with
  | @forbidden _ category hword =>
      cases he with
      | forbidden hother =>
          have hsame := Forbidden.eq_of_mem_words category category.mem_all _
            (Forbidden.mem_all _) _ hword hother
          rw [hsame]
      | reserved hfree _ => exact absurd hword (hfree category)
      | unknown hfree _ => exact absurd hword (hfree category)
      | miscounted hname _ => exact absurd hword (Builtin.not_forbidden hname category)
  | reserved hfree _ =>
      cases he with
      | forbidden hword => exact absurd hword (hfree _)
      | reserved _ _ => rfl
  | unknown hfree hunknown =>
      cases he with
      | forbidden hword => exact absurd hword (hfree _)
      | unknown _ _ => rfl
      | miscounted hname _ => exact absurd hname (hunknown _)
  | miscounted hname _ =>
      cases he with
      | forbidden hword => exact absurd hword (Builtin.not_forbidden hname _)
      | unknown _ hunknown => exact absurd hname (hunknown _)
      | miscounted hother _ =>
          rw [Builtin.eq_of_name (hname.trans hother.symm)]

end Mention

namespace Node

mutual

-- The names that a tree uses, however deep, in the order of evaluation.
def mentions : Node → List Mention
  | assign target value span =>
    value.mentions ++ [.target target (Analysis.nameSpan span target)]
  | binary _ left right _ => left.mentions ++ right.mentions
  | call callee args span => .callee callee args.length span :: mentionsAll args
  | name read span => [.read read span]
  | number _ _ | text _ _ => []

def mentionsAll : List Node → List Mention
  | [] => []
  | node :: rest => node.mentions ++ mentionsAll rest

end

end Node

namespace Analysis

-- The errors that were found are those of the rules that the mentioned names
-- break, one for each name that breaks any, in their order.
open Classical in
def Reports (found : Diagnostics) (mentioned : List Mention) : Prop :=
  List.Forall₂ Mention.Breaks (mentioned.filter fun m => ∃ d, m.Breaks d) found.errors

theorem reports_nil {found : Diagnostics} (h : found.errors = []) : Reports found [] := by
  rw [Reports, h]
  exact .nil

theorem reports_none {found : Diagnostics} {m : Mention} (hfound : found.errors = [])
    (h : ∀ d, ¬ m.Breaks d) : Reports found [m] := by
  rw [Reports, hfound, List.filter_cons_of_neg (by simpa using h)]
  exact .nil

theorem reports_one {d : Diagnostic} {m : Mention} (hfound : d.isError = true) (h : m.Breaks d) :
    Reports [d] [m] := by
  rw [Reports, Diagnostics.errors, List.filter_cons_of_pos hfound,
    List.filter_cons_of_pos (by simpa using ⟨d, h⟩)]
  exact .cons h .nil

theorem Reports.append {found more : Diagnostics} {mentioned others : List Mention}
    (h : Reports found mentioned) (hmore : Reports more others) :
    Reports (found ++ more) (mentioned ++ others) := by
  rw [Reports, List.filter_append, Diagnostics.errors, List.filter_append]
  exact List.rel_append h hmore

theorem Reports.errors_eq_nil_iff {found : Diagnostics} {mentioned : List Mention}
    (h : Reports found mentioned) :
    found.errors = [] ↔ ∀ m ∈ mentioned, ∀ d, ¬ m.Breaks d := by
  rw [← List.length_eq_zero_iff, ← h.length_eq, List.length_eq_zero_iff, List.filter_eq_nil_iff]
  simp only [decide_eq_true_eq, not_exists]

theorem reports_forbidden {m : Mention} {category : Forbidden}
    (h : Forbidden.classify? m.name = some category) :
    Reports [forbidden category m.name m.place] [m] :=
  reports_one rfl (.forbidden (Forbidden.mem_words_of_classify? h))

theorem reports_checkName (scope : Scope) (name : String) (span : Span) :
    Reports (checkName scope name span) [.read name span] := by
  unfold checkName
  split
  · rename_i category hcategory
    exact reports_forbidden (m := .read name span) hcategory
  · rename_i hnone
    have hfree := Forbidden.classify?_eq_none_iff.mp hnone
    apply reports_none
    · split <;> rfl
    · rintro _ ⟨hword⟩
      exact hfree _ hword

theorem reports_checkTarget (scope : Scope) (name : String) (span : Span) :
    Reports (checkTarget scope name span).1 [.target name (nameSpan span name)] := by
  unfold checkTarget
  dsimp only
  split
  · rename_i category hcategory
    exact reports_forbidden (m := .target name (nameSpan span name)) hcategory
  · rename_i hnone
    have hfree := Forbidden.classify?_eq_none_iff.mp hnone
    split
    · rename_i hreserved
      exact reports_one rfl (.reserved hfree (List.contains_iff_mem.mp hreserved))
    · rename_i hreserved
      apply reports_none rfl
      intro d hbreaks
      cases hbreaks with
      | forbidden hword => exact hfree _ hword
      | reserved _ hmem => exact hreserved (List.contains_iff_mem.mpr hmem)

theorem reports_checkCallee (callee : String) (count : Nat) (span : Span) :
    Reports (checkCallee callee count span) [.callee callee count span] := by
  unfold checkCallee
  dsimp only
  split
  · rename_i category hcategory
    exact reports_forbidden (m := .callee callee count span) hcategory
  · rename_i hnone
    have hfree := Forbidden.classify?_eq_none_iff.mp hnone
    rw [Builtin.lookup?_lowercase_eq]
    split
    · rename_i hlookup
      exact reports_one rfl (.unknown hfree (Builtin.lookup?_eq_none_iff.mp hlookup))
    · rename_i b hlookup
      have hname := Builtin.name_of_lookup? hlookup
      split
      · rename_i haccepts
        apply reports_none rfl
        intro d hbreaks
        cases hbreaks with
        | forbidden hword => exact hfree _ hword
        | unknown _ hunknown => exact hunknown b hname
        | miscounted hother hcount =>
            cases Builtin.eq_of_name (hname.trans hother.symm)
            cases haccepts.symm.trans hcount
      · rename_i haccepts
        exact reports_one rfl (.miscounted hname (Bool.eq_false_iff.mpr haccepts))

mutual

-- Induction on the tree: every name in it is judged once. The names that are
-- bound by then make no difference to the errors.
theorem reports_visit : ∀ (node : Node) (scope : Scope),
    Reports (visit scope node).1 node.mentions
  | .assign target value span => by
    intro scope
    simp only [visit, Node.mentions]
    exact (reports_visit value scope).append (reports_checkTarget _ target span)
  | .binary _ left right _ => by
    intro scope
    simp only [visit, Node.mentions]
    exact (reports_visit left scope).append (reports_visit right _)
  | .call callee args span => by
    intro scope
    simp only [visit, Node.mentions]
    exact (reports_checkCallee callee args.length span).append (reports_visitAll args scope)
  | .name read span => by
    intro scope
    simp only [visit, Node.mentions]
    exact reports_checkName scope read span
  | .number _ _ | .text _ _ => fun _ => reports_nil rfl

theorem reports_visitAll : ∀ (nodes : List Node) (scope : Scope),
    Reports (visitAll scope nodes).1 (Node.mentionsAll nodes)
  | [], _ => reports_nil rfl
  | node :: rest, scope => by
    simp only [visitAll, Node.mentionsAll]
    exact (reports_visit node scope).append (reports_visitAll rest _)

end

theorem reports_visitStatement (scope : Scope) (node : Node) :
    Reports (visitStatement scope node).1 node.mentions := by
  have hwarning : Reports (if discards node then [discarded node.span] else []) [] := by
    split <;> exact reports_nil rfl
  have hstatement := (reports_visit node scope).append hwarning
  rw [List.append_nil] at hstatement
  simp only [visitStatement]
  exact hstatement

theorem reports_visitStatements (script : List Node) (scope : Scope) :
    Reports (visitStatements scope script) (Node.mentionsAll script) := by
  induction script generalizing scope with
  | nil => exact reports_nil rfl
  | cons node rest ih =>
      simp only [visitStatements, Node.mentionsAll]
      exact (reports_visitStatement scope node).append (ih _)

end Analysis

theorem isValid_iff_errors {script : Script} :
    isValid script = true ↔ (analyze script).errors = [] := by
  rw [isValid, Bool.not_eq_true', Diagnostics.hasErrors, List.any_eq_false, Diagnostics.errors,
    List.filter_eq_nil_iff]

-- The errors of an analysis report each broken rule once, at any depth and in the
-- order of evaluation, and a name breaks one rule at most. So a script is valid
-- exactly if its names break none.
theorem errors_analyze (script : Script) :
    Analysis.Reports (analyze script) (Node.mentionsAll script) ∧
    (∀ (m : Mention) (d e : Diagnostic), m.Breaks d → m.Breaks e → d = e) ∧
    (isValid script = true ↔ ∀ m ∈ Node.mentionsAll script, ∀ d, ¬ m.Breaks d) := by
  have hreports : Analysis.Reports (analyze script) (Node.mentionsAll script) :=
    Analysis.reports_visitStatements script .empty
  refine ⟨hreports, fun _ _ _ hd he => hd.unique he, ?_⟩
  rw [isValid_iff_errors, hreports.errors_eq_nil_iff]

-- A function called with too few arguments, a forbidden name among these, and a
-- target that is reserved.
example :
    let span : Span := .spanning .start 1
    let script : Script := [.assign "close" (.call "Sma" [.name "Window.alert" span] span) span]
    (analyze script).errors.map (fun d => d.code.text) = ["S005", "S001", "S002"] := by
  decide +kernel

end CandleScript
