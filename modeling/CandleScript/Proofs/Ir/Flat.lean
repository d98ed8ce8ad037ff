import CandleScript.Pipeline
import CandleScript.Proofs.Analysis.Targets
import CandleScript.Proofs.Script.Parse

namespace CandleScript

namespace Ir

-- What a statement evaluates before it may assign a name.
def Node.body : Node → Node
  | assign _ value => value
  | node => node

-- Assignments stand nowhere but at the top of statements.
def Program.Flat (program : Program) : Prop :=
  ∀ node ∈ program.statements, node.body.assigned = []

theorem Node.assigned_body_of_assigned {node : Node} (h : node.assigned = []) :
    node.body.assigned = [] := by
  cases node with
  | assign name value => exact absurd h (by simp [assigned])
  | _ => exact h

theorem assigned_body_lower (optimize : Bool) (known : Constants) {node : CandleScript.Node}
    (h : Parse.OfStatement (fun node => node.assigned = []) node) :
    (lower optimize known node).1.body.assigned = [] := by
  cases h with
  | bare hnode =>
      apply Node.assigned_body_of_assigned
      rw [assigned_lower, hnode]
  | assign name span hvalue =>
      rw [lower, Node.body, assigned_lower, hvalue]

theorem flat_lowerAll (optimize : Bool) (known : Constants) {script : Script}
    (h : ∀ node ∈ script, Parse.OfStatement (fun node => node.assigned = []) node) :
    ∀ node ∈ (lowerAll optimize known script).1, node.body.assigned = [] := by
  induction script generalizing known with
  | nil => exact List.forall_mem_nil _
  | cons node rest ih =>
      obtain ⟨hnode, hrest⟩ := List.forall_mem_cons.mp h
      rw [lowerAll]
      exact List.forall_mem_cons.mpr ⟨assigned_body_lower optimize known hnode, ih _ hrest⟩

end Ir

theorem closed_assigned : Parse.Closed (fun _ => True) (fun node => node.assigned = []) where
  number := fun _ _ _ _ => rfl
  zero := fun _ => rfl
  text := fun _ _ => rfl
  name := fun _ _ => rfl
  binary := fun hleft hright _ _ => by rw [Node.assigned, hleft, hright, List.nil_append]
  call := fun hargs _ _ => Node.assignedAll_eq_nil_iff.mpr hargs

theorem flat_of_compileSource {optimize : Bool} {source : String} {c : Compilation}
    (h : compileSource optimize source = .ok c) : c.program.Flat := by
  obtain ⟨script, hscript, -, hprogram⟩ := script_of_compileSource h
  obtain ⟨tokens, -, hparse⟩ := parse_of_parseSource hscript
  rw [hprogram]
  exact Ir.flat_lowerAll optimize .empty (parse_keeps closed_assigned (fun _ _ => trivial) hparse)

end CandleScript
