import CandleScript.Failure
import CandleScript.Ir.Lower
import CandleScript.Run.Engine
import CandleScript.Script.Analysis
import CandleScript.Script.Parse
import CandleScript.Script.Tokens

namespace CandleScript

-- The tree of a source text.
def parseSource (source : String) : Except Failure Script :=
  match tokenize source with
  | .error e => .error (.lexical e)
  | .ok tokens =>
    match parse tokens with
    | .error e => .error (.parsing e)
    | .ok script => .ok script

theorem parse_of_parseSource {source : String} {script : Script}
    (h : parseSource source = .ok script) :
    ∃ tokens, tokenize source = .ok tokens ∧ parse tokens = .ok script := by
  rw [parseSource] at h
  split at h
  · cases h
  · rename_i tokens htokens
    split at h
    · cases h
    · rename_i script hscript
      cases h
      exact ⟨tokens, htokens, hscript⟩

-- Everything that is wrong or doubtful about a source text. A text that has no
-- tree yields exactly one finding.
def check (source : String) : Diagnostics :=
  match tokenize source with
  | .error e => [.ofLexError e]
  | .ok tokens =>
    match parse tokens with
    | .error e => [.ofParseError e]
    | .ok script => analyze script

-- A program and the findings about its source, none of which is an error.
structure Compilation where
  program : Ir.Program
  diagnostics : Diagnostics

-- Only findings that are errors keep a script from being compiled.
def compileSource (optimize : Bool) (source : String) : Except Failure Compilation := do
  let script ← parseSource source
  let diagnostics := analyze script
  if diagnostics.hasErrors then .error (.semantic diagnostics)
  else .ok ⟨Ir.compile optimize script, diagnostics⟩

-- What is compiled is the tree of the source text, and that is valid.
theorem script_of_compileSource {optimize : Bool} {source : String} {c : Compilation}
    (h : compileSource optimize source = .ok c) :
    ∃ script, parseSource source = .ok script ∧ isValid script = true ∧
      c.program = Ir.compile optimize script := by
  cases hscript : parseSource source with
  | error e =>
      rw [compileSource, hscript] at h
      cases h
  | ok script =>
      rw [compileSource, hscript] at h
      change (if (analyze script).hasErrors then _ else _) = _ at h
      split at h
      · cases h
      · rename_i hvalid
        cases h
        exact ⟨script, rfl, by simp [isValid, hvalid], rfl⟩

theorem exists_of_compiles (optimize : Bool) (source : String) (property : Compilation → Bool)
    (h : (match compileSource optimize source with
      | .ok c => property c
      | .error _ => false) = true) :
    ∃ c, compileSource optimize source = .ok c ∧ property c = true := by
  split at h
  · exact ⟨_, by assumption, h⟩
  · contradiction

-- Compiles and runs a source text for charts. A text that cannot be compiled
-- leaves the context as it is.
def runSource (limits : Limits) (source : String) (context : Context) :
    Except Failure (Timed (Outcome (List Plot))) := do
  let compilation ← compileSource true source
  return runVisual limits compilation.program context

end CandleScript
