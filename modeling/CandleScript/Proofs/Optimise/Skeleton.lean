import CandleScript.Proofs.Ir.Finite
import CandleScript.Proofs.Optimise.Fold

namespace CandleScript

-- What a script does at a node besides computing a value: it binds a name, or it
-- calls a function with a number of arguments.
inductive Landmark where
  | assignment (target : String)
  | call (func : String) (count : Nat)
  deriving DecidableEq, Repr

namespace Node

mutual

-- The landmarks of a tree, in the order of evaluation. Functions are called by
-- their names in lower case.
def landmarks : Node → List Landmark
  | assign target value _ => value.landmarks ++ [.assignment target]
  | binary _ left right _ => left.landmarks ++ right.landmarks
  | call callee args _ => landmarksAll args ++ [.call (Text.lowercase callee) args.length]
  | name _ _ | number _ _ | text _ _ => []

def landmarksAll : List Node → List Landmark
  | [] => []
  | node :: rest => node.landmarks ++ landmarksAll rest

end

end Node

namespace Ir

namespace Node

mutual

def landmarks : Node → List Landmark
  | assign target value => value.landmarks ++ [.assignment target]
  | binary _ left right => left.landmarks ++ right.landmarks
  | call func args => landmarksAll args ++ [.call func args.length]
  | var _ | const _ => []

def landmarksAll : List Node → List Landmark
  | [] => []
  | node :: rest => node.landmarks ++ landmarksAll rest

end

mutual

-- No operation on two known numbers is left that could have been carried out.
def Folded : Node → Prop
  | assign _ value => value.Folded
  | binary op left right =>
    (∀ a b, left = const (.number a) → right = const (.number b) → foldNumbers op a b = none) ∧
      left.Folded ∧ right.Folded
  | call _ args => AllFolded args
  | var _ | const _ => True

def AllFolded : List Node → Prop
  | [] => True
  | node :: rest => node.Folded ∧ AllFolded rest

end

end Node

theorem folded_lowerName (known : Constants) (optimize : Bool) (name : String) :
    (lowerName known optimize name).Folded := by
  unfold lowerName
  split
  · split <;> trivial
  · trivial

theorem folded_lowerBinary (op : Operator) {left right : Node} (hleft : left.Folded)
    (hright : right.Folded) : (lowerBinary true op left right).Folded := by
  unfold lowerBinary
  split
  · trivial
  · rename_i hfold
    refine ⟨?_, hleft, hright⟩
    rintro a b rfl rfl
    exact hfold

mutual

-- Operands are folded before the operation on them is looked at.
theorem folded_lower : ∀ (known : Constants) (node : CandleScript.Node),
    (lower true known node).1.Folded
  | _, .number _ _ | _, .text _ _ => trivial
  | known, .name name _ => folded_lowerName known true name
  | known, .assign _ value _ => folded_lower known value
  | known, .binary op left right _ =>
    folded_lowerBinary op (folded_lower known left) (folded_lower _ right)
  | known, .call _ args _ => allFolded_lowerAll known args

theorem allFolded_lowerAll : ∀ (known : Constants) (nodes : List CandleScript.Node),
    Node.AllFolded (lowerAll true known nodes).1
  | _, [] => trivial
  | known, node :: rest => ⟨folded_lower known node, allFolded_lowerAll _ rest⟩

end

theorem landmarks_lowerName (known : Constants) (optimize : Bool) (name : String) :
    (lowerName known optimize name).landmarks = [] := by
  unfold lowerName
  split
  · split <;> rfl
  · rfl

-- What gives way to a constant has no landmarks: its operands are constants.
theorem landmarks_lowerBinary (optimize : Bool) (op : Operator) (left right : Node) :
    (lowerBinary optimize op left right).landmarks = left.landmarks ++ right.landmarks := by
  unfold lowerBinary
  split
  · rename_i c hfold
    obtain ⟨a, b, rfl, rfl, -⟩ := numbers_of_foldNodes hfold
    split <;> rfl
  · rfl

mutual

-- Lowering keeps all landmarks where they are.
theorem landmarks_lower (optimize : Bool) : ∀ (known : Constants) (node : CandleScript.Node),
    (lower optimize known node).1.landmarks = node.landmarks
  | _, .number _ _ | _, .text _ _ => rfl
  | known, .name name _ => landmarks_lowerName known optimize name
  | known, .assign _ value _ => by
    rw [lower, Node.landmarks, landmarks_lower optimize known value, CandleScript.Node.landmarks]
  | known, .binary op left right _ => by
    rw [lower, landmarks_lowerBinary, landmarks_lower optimize known left,
      landmarks_lower optimize _ right, CandleScript.Node.landmarks]
  | known, .call _ args _ => by
    rw [lower, Node.landmarks, landmarksAll_lowerAll optimize known args, length_lowerAll,
      CandleScript.Node.landmarks]

theorem landmarksAll_lowerAll (optimize : Bool) : ∀ (known : Constants)
    (nodes : List CandleScript.Node),
    Node.landmarksAll (lowerAll optimize known nodes).1 = CandleScript.Node.landmarksAll nodes
  | _, [] => rfl
  | known, node :: rest => by
    rw [lowerAll, Node.landmarksAll, landmarks_lower optimize known node,
      landmarksAll_lowerAll optimize _ rest, CandleScript.Node.landmarksAll]

end

theorem map_landmarks_lowerAll (optimize : Bool) (known : Constants) (script : Script) :
    (lowerAll optimize known script).1.map Node.landmarks =
      script.map CandleScript.Node.landmarks := by
  induction script generalizing known with
  | nil => rfl
  | cons node rest ih =>
      rw [lowerAll, List.map_cons, List.map_cons, landmarks_lower, ih]

theorem size_lowerName (known : Constants) (optimize : Bool) (name : String) :
    (lowerName known optimize name).size = 1 := by
  unfold lowerName
  split
  · split <;> rfl
  · rfl

theorem size_lowerBinary_le (optimize : Bool) (op : Operator) (left right : Node) :
    (lowerBinary optimize op left right).size ≤ 1 + left.size + right.size := by
  unfold lowerBinary
  split
  · split
    · rw [Node.size]
      omega
    · exact Nat.le_refl _
  · exact Nat.le_refl _

mutual

-- Optimisation only ever puts a single node in the place of a tree. What is known
-- of the names may differ on the two sides.
theorem size_lower_le : ∀ (node : CandleScript.Node) (known known' : Constants),
    (lower true known node).1.size ≤ (lower false known' node).1.size
  | .number _ _, _, _ | .text _ _, _, _ => Nat.le_refl 1
  | .name name _, known, known' => by
    rw [lower, lower, size_lowerName, size_lowerName]
  | .assign _ value _, known, known' => by
    have hvalue := size_lower_le value known known'
    simp only [lower, Node.size]
    omega
  | .binary op left right _, known, known' => by
    have hleft := size_lower_le left known known'
    have hright := size_lower_le right (lower true known left).2 (lower false known' left).2
    have hboth := size_lowerBinary_le true op (lower true known left).1
      (lower true (lower true known left).2 right).1
    simp only [lower, lowerBinary_false, Node.size]
    omega
  | .call _ args _, known, known' => by
    have hargs := sizeAll_lowerAll_le args known known'
    simp only [lower, Node.size]
    omega

theorem sizeAll_lowerAll_le : ∀ (nodes : List CandleScript.Node) (known known' : Constants),
    Node.sizeAll (lowerAll true known nodes).1 ≤ Node.sizeAll (lowerAll false known' nodes).1
  | [], _, _ => Nat.le_refl 0
  | node :: rest, known, known' => by
    have hnode := size_lower_le node known known'
    have hrest := sizeAll_lowerAll_le rest (lower true known node).2 (lower false known' node).2
    simp only [lowerAll, Node.sizeAll]
    omega

end

-- Optimisation is complete and changes nothing but values. If all numbers of a
-- script are finite, then so are those of either form of it, and no operation on
-- two numbers is left that could have been carried out. Both forms have the
-- assignments and the calls of the script, statement by statement and in their
-- order, and the optimised one has no more nodes.
theorem compile_folded (script : Script) (h : CandleScript.Node.AllFinite script) :
    Node.AllFolded (compile true script).statements ∧
    (∀ optimize, Node.AllFinite (compile optimize script).statements) ∧
    (∀ optimize, (compile optimize script).statements.map Node.landmarks =
      script.map CandleScript.Node.landmarks) ∧
    (compile true script).size ≤ (compile false script).size :=
  ⟨allFolded_lowerAll .empty script, fun optimize => finite_compile optimize h,
    fun optimize => map_landmarks_lowerAll optimize .empty script,
    sizeAll_lowerAll_le script .empty .empty⟩

-- `a = 1e308 Plot(close, a / a - 1) b = (a = a * 10) / 0`: the quotient is carried
-- out, but neither the product, which is not finite, nor the division by zero.
def hugeScript (span : Span) : Script :=
  [.assign "a" (.number 1e308 span) span,
    .call "Plot" [.name "close" span, .binary .sub (.binary .div (.name "a" span) (.name "a" span)
      span) (.number 1.0 span) span] span,
    .assign "b" (.binary .div (.assign "a" (.binary .mul (.name "a" span) (.number 10.0 span) span)
      span) (.number 0.0 span) span) span]

theorem compile_folded_huge :
    let script := hugeScript (.spanning .start 1)
    CandleScript.Node.AllFinite script ∧ Node.AllFolded (compile true script).statements ∧
      Node.AllFinite (compile true script).statements ∧
      (compile true script).statements.map Node.landmarks =
        [[.assignment "a"], [.call "plot" 2], [.assignment "a", .assignment "b"]] ∧
      (compile true script).size ≤ (compile false script).size := by
  intro script
  have hnumbers : (1e308 : Float).isFinite = true ∧ (1.0 : Float).isFinite = true ∧
      (10.0 : Float).isFinite = true ∧ (0.0 : Float).isFinite = true := by
    decide +kernel
  obtain ⟨hhuge, hone, hten, hzero⟩ := hnumbers
  have hscript : CandleScript.Node.AllFinite script :=
    ⟨hhuge, ⟨trivial, ⟨⟨trivial, trivial⟩, hone⟩, trivial⟩, ⟨⟨trivial, hten⟩, hzero⟩, trivial⟩
  obtain ⟨hfolded, hfinite, hlandmarks, hsize⟩ := compile_folded script hscript
  exact ⟨hscript, hfolded, hfinite true, (hlandmarks true).trans rfl, hsize⟩

end Ir

end CandleScript
