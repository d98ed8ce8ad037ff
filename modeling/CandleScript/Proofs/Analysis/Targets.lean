import CandleScript.Pipeline
import CandleScript.Proofs.Optimise.Fold
import CandleScript.Proofs.Run.Frame

namespace CandleScript

namespace Node

mutual

-- The names that a tree of a script assigns, in the order of evaluation.
def assigned : Node → List String
  | .assign target value _ => value.assigned ++ [target]
  | .binary _ left right _ => left.assigned ++ right.assigned
  | .call _ args _ => assignedAll args
  | .name _ _ | .number _ _ | .text _ _ => []

def assignedAll : List Node → List String
  | [] => []
  | node :: rest => node.assigned ++ assignedAll rest

end

theorem assignedAll_eq_nil_iff {nodes : List Node} :
    assignedAll nodes = [] ↔ ∀ node ∈ nodes, node.assigned = [] := by
  induction nodes with
  | nil => simp [assignedAll]
  | cons node rest ih => simp [assignedAll, ih]

end Node

namespace Ir

theorem assigned_lowerName (known : Constants) (optimize : Bool) (name : String) :
    (lowerName known optimize name).assigned = [] := by
  unfold lowerName
  split
  · split <;> rfl
  · rfl

-- Where an operation is carried out ahead of the run, both of its operands have
-- become constants.
theorem assigned_lowerBinary (optimize : Bool) (op : Operator) (left right : Node) :
    (lowerBinary optimize op left right).assigned = left.assigned ++ right.assigned := by
  unfold lowerBinary
  split
  · rename_i c hfold
    obtain ⟨a, b, rfl, rfl, -⟩ := numbers_of_foldNodes hfold
    split <;> rfl
  · rfl

mutual

-- Lowering neither adds nor drops an assignment.
theorem assigned_lower (optimize : Bool) : ∀ (known : Constants) (node : CandleScript.Node),
    (lower optimize known node).1.assigned = node.assigned
  | _, .number _ _ | _, .text _ _ => rfl
  | known, .name name _ => assigned_lowerName known optimize name
  | known, .assign name value _ => by
    rw [lower, Node.assigned, assigned_lower optimize known value, CandleScript.Node.assigned]
  | known, .binary op left right _ => by
    rw [lower, assigned_lowerBinary, assigned_lower optimize known left,
      assigned_lower optimize _ right, CandleScript.Node.assigned]
  | known, .call _ args _ => by
    rw [lower, Node.assigned, assignedAll_lowerAll optimize known args,
      CandleScript.Node.assigned]

theorem assignedAll_lowerAll (optimize : Bool) : ∀ (known : Constants)
    (nodes : List CandleScript.Node),
    Node.assignedAll (lowerAll optimize known nodes).1 = CandleScript.Node.assignedAll nodes
  | _, [] => rfl
  | known, node :: rest => by
    rw [lowerAll, Node.assignedAll, assigned_lower optimize known node,
      assignedAll_lowerAll optimize _ rest, CandleScript.Node.assignedAll]

end

end Ir

namespace Analysis

theorem isReserved_of_checkTarget {scope : Scope} {name : String} {span : Span}
    (h : (checkTarget scope name span).1.hasErrors = false) : isReserved name = false := by
  unfold checkTarget at h
  simp only at h
  split at h
  · cases h
  · split at h
    · cases h
    · rename_i hreserved
      exact Bool.eq_false_iff.mpr hreserved

mutual

-- Induction on the script: a reserved target is an error wherever it stands.
theorem isReserved_of_visit : ∀ (node : Node) (scope : Scope),
    (visit scope node).1.hasErrors = false → ∀ name ∈ node.assigned, isReserved name = false
  | .assign target value span => by
    intro scope h
    simp only [visit, Diagnostics.hasErrors_append, Bool.or_eq_false_iff] at h
    rw [Node.assigned, List.forall_mem_append, List.forall_mem_singleton]
    exact ⟨isReserved_of_visit value scope h.1, isReserved_of_checkTarget h.2⟩
  | .binary _ left right _ => by
    intro scope h
    simp only [visit, Diagnostics.hasErrors_append, Bool.or_eq_false_iff] at h
    rw [Node.assigned, List.forall_mem_append]
    exact ⟨isReserved_of_visit left scope h.1, isReserved_of_visit right _ h.2⟩
  | .call _ args _ => by
    intro scope h
    simp only [visit, Diagnostics.hasErrors_append, Bool.or_eq_false_iff] at h
    rw [Node.assigned]
    exact isReserved_of_visitAll args scope h.2
  | .name _ _ | .number _ _ | .text _ _ => by
    intro _ _
    exact List.forall_mem_nil _

theorem isReserved_of_visitAll : ∀ (nodes : List Node) (scope : Scope),
    (visitAll scope nodes).1.hasErrors = false →
    ∀ name ∈ Node.assignedAll nodes, isReserved name = false
  | [], _, _ => List.forall_mem_nil _
  | node :: rest, scope, h => by
    simp only [visitAll, Diagnostics.hasErrors_append, Bool.or_eq_false_iff] at h
    rw [Node.assignedAll, List.forall_mem_append]
    exact ⟨isReserved_of_visit node scope h.1, isReserved_of_visitAll rest _ h.2⟩

end

theorem isReserved_of_visitStatements (script : List Node) (scope : Scope)
    (h : (visitStatements scope script).hasErrors = false) :
    ∀ name ∈ Node.assignedAll script, isReserved name = false := by
  induction script generalizing scope with
  | nil => exact List.forall_mem_nil _
  | cons node rest ih =>
      simp only [visitStatements, visitStatement, Diagnostics.hasErrors_append,
        Bool.or_eq_false_iff] at h
      rw [Node.assignedAll, List.forall_mem_append]
      exact ⟨isReserved_of_visit node scope h.1.1, ih _ h.2⟩

end Analysis

theorem isReserved_of_isValid {script : Script} (h : isValid script = true) :
    ∀ name ∈ Node.assignedAll script, isReserved name = false := by
  rw [isValid, Bool.not_eq_true'] at h
  exact Analysis.isReserved_of_visitStatements script .empty h

variable {σ : Type}

-- Scripts do not touch candle data. However a run of a compiled source text
-- ends, and whatever is kept of it, each name that the text does not assign is
-- bound as before or still unbound. The names of the candle data are among them.
theorem execute_compileSource_frame {optimize : Bool} {source : String} {c : Compilation}
    (h : compileSource optimize source = .ok c) :
    ∃ script, parseSource source = .ok script ∧
      ∀ name, name ∉ Node.assignedAll script ∨ name ∈ reservedSeries →
        ∀ (channel : Channel σ) (limits : Limits) (context : Context) (start : σ)
          (clock : Nat → Nat),
          ((execute channel limits c.program context start).result clock).context.get? name =
            context.get? name := by
  obtain ⟨script, hscript, hvalid, hprogram⟩ := script_of_compileSource h
  refine ⟨script, hscript, ?_⟩
  intro name hname channel limits context start clock
  have hfree : name ∉ Node.assignedAll script := by
    rcases hname with hfree | hreserved
    · exact hfree
    · intro hassigned
      have hnot := isReserved_of_isValid hvalid name hassigned
      rw [isReserved, List.contains_eq_mem, decide_eq_false_iff_not] at hnot
      exact hnot hreserved
  rw [← Ir.assignedAll_lowerAll optimize .empty script] at hfree
  rw [hprogram]
  exact holds_execute (P := fun left => left.get? name = context.get? name) channel limits
    (Context.stable_get? hfree _) rfl start clock

-- The second statement of `mid = close / 2 plot(mid + low)` fails, since only
-- the close is bound. It leaves the close as it was and the volume unbound.
theorem execute_compileSource_frame_mid :
    let context := Bindings.empty.set "close" (.series [some 1.0])
    ∃ c, compileSource true "mid = close / 2 plot(mid + low)" = .ok c ∧
      "close" ∈ reservedSeries ∧ "volume" ∈ reservedSeries ∧
      ((runVisual .standard c.program context).result fun _ => 0).context.get? "close" =
        some (.series [some 1.0]) ∧
      ((runVisual .standard c.program context).result fun _ => 0).context.get? "volume" = none := by
  intro context
  obtain ⟨c, hc, -⟩ := exists_of_compiles true "mid = close / 2 plot(mid + low)" (fun _ => true)
    (by decide +kernel)
  obtain ⟨script, -, hframe⟩ := execute_compileSource_frame (σ := List Plot) hc
  have hkept (name : String) (hreserved : name ∈ reservedSeries) :
      ((runVisual .standard c.program context).result fun _ => 0).context.get? name =
        context.get? name :=
    hframe name (.inr hreserved) .plots .standard context [] fun _ => 0
  have hclose : "close" ∈ reservedSeries := by decide
  have hvolume : "volume" ∈ reservedSeries := by decide
  exact ⟨c, hc, hclose, hvolume, hkept "close" hclose, hkept "volume" hvolume⟩

end CandleScript
