import CandleScript.Proofs.Ir.Document
import CandleScript.Proofs.Ir.Finite
import CandleScript.Proofs.Json.Nesting

namespace CandleScript.Ir

-- What reading a written program gives: the program, unless its brackets nest
-- deeper than the reader goes.
def Program.readBack (p : Program) : Except ReadError Program :=
  if p.toJson.depth ≤ documentRoom then .ok p else .error (.fault .malformed)

theorem Program.readBack_of_le {p : Program} (h : p.toJson.depth ≤ documentRoom) :
    p.readBack = .ok p := if_pos h

theorem Program.readBack_of_lt {p : Program} (h : documentRoom < p.toJson.depth) :
    p.readBack = .error (.fault .malformed) := if_neg (Nat.not_le.mpr h)

section

variable {p : Program} (h : Node.AllFinite p.statements)

include h

theorem ofDocument_document : Program.ofDocument p.document = p.readBack := by
  rw [document_eq, ofDocument_chars Json.Layout.compact p (readable_nodesToJson h)]
  rfl

theorem ofDocument_prettyDocument : Program.ofDocument p.prettyDocument = p.readBack := by
  rw [prettyDocument_eq, ofDocument_chars Json.Layout.pretty p (readable_nodesToJson h)]
  rfl

end

theorem nesting_document (p : Program) : Json.nesting p.document = p.toJson.depth := by
  rw [document_eq, Json.Layout.nesting_chars]

theorem nesting_prettyDocument (p : Program) : Json.nesting p.prettyDocument = p.toJson.depth := by
  rw [prettyDocument_eq, Json.Layout.nesting_chars]

-- Either text of a program with finite numbers reads back as that program, down
-- to the sign of a zero, exactly if its brackets nest at most as deep as the
-- reader goes. They nest equally deep in both texts.
theorem ofDocument_written {p : Program} (h : Node.AllFinite p.statements) {text : String}
    (htext : text = p.document ∨ text = p.prettyDocument) :
    Json.nesting text = Json.nesting p.document ∧
    (Json.nesting text ≤ 127 → Program.ofDocument text = .ok p) ∧
    (127 < Json.nesting text → Program.ofDocument text = .error (.fault .malformed)) := by
  have hnesting : Json.nesting text = p.toJson.depth := by
    rcases htext with rfl | rfl
    · exact nesting_document p
    · exact nesting_prettyDocument p
  have hread : Program.ofDocument text = p.readBack := by
    rcases htext with rfl | rfl
    · exact ofDocument_document h
    · exact ofDocument_prettyDocument h
  rw [hnesting, hread]
  exact ⟨(nesting_document p).symm, Program.readBack_of_le, Program.readBack_of_lt⟩

-- A name and a text that need escapes, a truth value beside a text and a number
-- with a sign, below operators that bring the document to 127 and 128 brackets.
theorem ofDocument_written_chain :
    let call : Node := .call "plot\n" [.const (.text "tr\"ue["), .const (.bool true),
      .const (.number (-1.5))]
    let chain (n : Nat) : Program := ⟨[.assign "a\\" ((Node.binary .sub (.var "x"))^[n] call)]⟩
    Program.ofDocument (chain 121).prettyDocument = .ok (chain 121) ∧
      Program.ofDocument (chain 122).document = .error (.fault .malformed) := by
  intro call chain
  have hnumber : (-1.5 : Float).isFinite = true := by decide +kernel
  have hfinite : ∀ n, ((Node.binary .sub (.var "x"))^[n] call).Finite := by
    intro n
    induction n with
    | zero => exact ⟨trivial, trivial, hnumber, trivial⟩
    | succ n ih =>
        rw [Function.iterate_succ_apply']
        exact ⟨trivial, ih⟩
  constructor
  · apply (ofDocument_written (p := chain 121) ⟨hfinite 121, trivial⟩ (.inr rfl)).2.1
    rw [nesting_prettyDocument]
    decide +kernel
  · apply (ofDocument_written (p := chain 122) ⟨hfinite 122, trivial⟩ (.inl rfl)).2.2
    rw [nesting_document]
    decide +kernel

end CandleScript.Ir
