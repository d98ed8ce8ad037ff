import CandleScript.Bindings
import CandleScript.Builtin
import CandleScript.Diagnostic.Basic
import CandleScript.Forbidden
import CandleScript.Script.Node
import CandleScript.Text.Distance

namespace CandleScript

namespace Analysis

-- The names assigned so far, each with the place of its first assignment.
abbrev Scope := Bindings Span

-- The first candidate among the nearest ones, if it is at most two edits away.
def closest (name : String) (candidates : List String) : Option String :=
  let ranked := (candidates.map fun c => (Text.distance name c, c)).filter fun r => r.1 ≤ 2
  (ranked.foldl (fun best r => match best with
    | none => some r
    | some b => if r.1 < b.1 then some r else some b) none).map Prod.snd

def didYouMean (candidate : String) : String := s!"did you mean '{candidate}'?"

def forbidden (category : Forbidden) (name : String) (span : Span) : Diagnostic :=
  { Diagnostic.bare .forbiddenWord span with
    message := category.message name
    hint := some category.hint }

def reservedTarget (name : String) (span : Span) : Diagnostic :=
  { Diagnostic.bare .reservedAssignment span with
    message := s!"cannot assign to built-in series '{name}'"
    hint := some "open, high, low, close and volume are read-only"
    suggestion := some s!"use a new name such as 'my_{name}'" }

def discarded (span : Span) : Diagnostic :=
  { Diagnostic.bare .unusedExpression span with
    severity := .warning
    message := "expression result is discarded"
    hint := some "assign it to a variable, e.g. 'value = ...'" }

-- A name that nothing has bound yet, with the nearest known name.
def undefined (scope : Scope) (name : String) (span : Span) : Diagnostic :=
  let candidate := closest name (scope.names ++ reservedSeries)
  { Diagnostic.bare .undefinedVariable span with
    severity := .warning
    message := s!"'{name}' is not defined before this point"
    hint := some "assign the variable earlier in the script or supply it in the context"
    suggestion := candidate.map didYouMean
    related := match candidate.bind fun c => (scope.get? c).map fun place => (c, place) with
      | some (c, place) => [⟨place, s!"'{c}' is assigned here"⟩]
      | none => [] }

def unknownFunction (callee : String) (span : Span) : Diagnostic :=
  let names := Builtin.all.map Builtin.name
  { Diagnostic.bare .unknownFunction span with
    message := s!"unknown function '{callee}'"
    hint := some ("allowed functions: " ++ ", ".intercalate names)
    suggestion := (closest (Text.lowercase callee) names).map didYouMean }

def wrongCount (b : Builtin) (count : Nat) (span : Span) : Diagnostic :=
  { Diagnostic.bare .wrongArgumentCount span with
    message := s!"{b.name}() expects {b.arity} argument(s), got {count}"
    hint := some s!"signature: {b.signature}" }

-- The place of a name that starts where `span` starts.
def nameSpan (span : Span) (name : String) : Span := .spanning span.start name.length

def checkName (scope : Scope) (name : String) (span : Span) : Diagnostics :=
  match Forbidden.classify? name with
  | some category => [forbidden category name span]
  | none =>
    if isReserved name || (scope.get? name).isSome then [] else [undefined scope name span]

def checkCallee (callee : String) (count : Nat) (span : Span) : Diagnostics :=
  let place := nameSpan span callee
  match Forbidden.classify? callee with
  | some category => [forbidden category callee place]
  | none =>
    match Builtin.lookup? (Text.lowercase callee) with
    | none => [unknownFunction callee place]
    | some b => if b.accepts count then [] else [wrongCount b count span]

-- An assignment binds its name unless the name must not be assigned.
def checkTarget (scope : Scope) (name : String) (span : Span) : Diagnostics × Scope :=
  let place := nameSpan span name
  match Forbidden.classify? name with
  | some category => ([forbidden category name place], scope)
  | none =>
    if isReserved name then ([reservedTarget name place], scope)
    else ([], scope.setIfNew name place)

mutual

-- The findings of a tree in the order of evaluation, and the names bound
-- after it.
def visit (scope : Scope) : Node → Diagnostics × Scope
  | .assign name value span =>
    let (found, scope) := visit scope value
    let (more, scope) := checkTarget scope name span
    (found ++ more, scope)
  | .binary _ left right _ =>
    let (found, scope) := visit scope left
    let (more, scope) := visit scope right
    (found ++ more, scope)
  | .call callee args span =>
    let found := checkCallee callee args.length span
    let (more, scope) := visitAll scope args
    (found ++ more, scope)
  | .name name span => (checkName scope name span, scope)
  | .number _ _ => ([], scope)
  | .text _ _ => ([], scope)

def visitAll (scope : Scope) : List Node → Diagnostics × Scope
  | [] => ([], scope)
  | node :: rest =>
    let (found, scope) := visit scope node
    let (more, scope) := visitAll scope rest
    (found ++ more, scope)

end

-- A statement that neither assigns nor calls has no effect.
def discards : Node → Bool
  | .assign _ _ _ | .call _ _ _ => false
  | _ => true

def visitStatement (scope : Scope) (node : Node) : Diagnostics × Scope :=
  let (found, scope) := visit scope node
  (found ++ (if discards node then [discarded node.span] else []), scope)

def visitStatements (scope : Scope) : List Node → Diagnostics
  | [] => []
  | node :: rest =>
    let (found, scope) := visitStatement scope node
    found ++ visitStatements scope rest

end Analysis

-- Everything that is wrong or doubtful about a script.
def analyze (script : Script) : Diagnostics := Analysis.visitStatements .empty script

-- A script is valid if nothing found about it is an error.
def isValid (script : Script) : Bool := !(analyze script).hasErrors

end CandleScript
