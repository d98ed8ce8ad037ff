import CandleScript.Command.Perform
import CandleScript.Proofs.Ir.RoundTrip
import CandleScript.Proofs.Script.Parse
import CandleScript.Proofs.Script.Tokens

namespace CandleScript

theorem closed_finite : Parse.Closed Token.FiniteNumber Node.Finite where
  number := fun htoken hkind hread _ => htoken.isFinite hkind hread
  zero := fun _ => rfl
  text := fun _ _ => trivial
  name := fun _ _ => trivial
  binary := fun hleft hright _ _ => ⟨hleft, hright⟩
  call := fun hargs _ _ => Node.allFinite_iff.mpr hargs

theorem allFinite_of_parseSource {source : String} {script : Script}
    (h : parseSource source = .ok script) : Node.AllFinite script := by
  obtain ⟨tokens, htokens, hparse⟩ := parse_of_parseSource h
  rw [Node.allFinite_iff]
  intro node hnode
  cases parse_keeps closed_finite (finiteNumber_of_tokenize htokens) hparse node hnode with
  | bare hfinite => exact hfinite
  | assign name span hfinite => exact hfinite

theorem allFinite_of_compileSource {optimize : Bool} {source : String} {c : Compilation}
    (h : compileSource optimize source = .ok c) : Ir.Node.AllFinite c.program.statements := by
  obtain ⟨script, hscript, -, hprogram⟩ := script_of_compileSource h
  rw [hprogram]
  exact Ir.finite_compile optimize (allFinite_of_parseSource hscript)

namespace Command

variable {files : Files} {path : String}

theorem loadProgram_script {source : String} (hfile : files path = .ok source) {c : Compilation}
    (hcompile : compileSource true source = .ok c) :
    loadProgram files (.script path) = .ok c.program := by
  rw [loadProgram, readFile, hfile]
  change (do
    let c ← compileShown true source
    return c.program) = _
  rw [compileShown, hcompile]
  rfl

theorem loadProgram_document {text : String} (hfile : files path = .ok text) :
    loadProgram files (.document path) =
      match Ir.Program.ofDocument text with
      | .ok program => .ok program
      | .error e => .error (.of (.ofReadError e)) := by
  rw [loadProgram, readFile, hfile]
  rfl

-- A run depends on where its program comes from only through the program.
theorem perform_run_congr {p p' : ProgramSource} (h : loadProgram files p = loadProgram files p')
    (request : RunRequest) :
    perform files (.run { request with program := p }) =
      perform files (.run { request with program := p' }) := by
  have hrun : runProgram files { request with program := p } =
      runProgram files { request with program := p' } := by
    unfold runProgram
    simp only [h]
    rfl
  rw [perform, perform, hrun]

-- A compilation that goes to a file saves the document with line breaks.
theorem perform_compile {source : String} (hfile : files path = .ok source) {optimize : Bool}
    {c : Compilation} (hcompile : compileSource optimize source = .ok c) (target : String) :
    ∃ plan, perform files (.compile path (some target) optimize) = .done plan ∧
      plan.save = some (target, c.program.prettyDocument) := by
  have hperform : perform files (.compile path (some target) optimize) =
      .done (.emit (String.join (c.diagnostics.warnings.map fun d => d.render ++ "\n"))
        c.program.prettyDocument (some target)) := by
    rw [perform, compileScript, readFile, hfile]
    change settled (do
      let c ← compileShown optimize source
      return .emit (String.join (c.diagnostics.warnings.map fun d => d.render ++ "\n"))
        c.program.prettyDocument (some target)) = _
    rw [compileShown, hcompile]
    rfl
  exact ⟨_, hperform, rfl⟩

end Command

-- A compiled program crosses the document boundary exactly if the brackets of
-- its document nest at most as deep as the reader goes: then both layouts read
-- back as the program, and a run from the saved document is the run of the
-- script. Otherwise both layouts are refused, although the source is accepted.
theorem compileSource_readBack {optimize : Bool} {source : String} {c : Compilation}
    (h : compileSource optimize source = .ok c) :
    (c.program.toJson.depth ≤ Ir.documentRoom →
      Ir.Program.ofDocument c.program.document = .ok c.program ∧
      Ir.Program.ofDocument c.program.prettyDocument = .ok c.program ∧
      (optimize = true → ∀ (files : Command.Files) (script target : String),
        files script = .ok source → ∃ plan saved,
          Command.perform files (.compile script (some target) true) = .done plan ∧
          plan.save = some (target, saved) ∧
          ∀ later : Command.Files, later script = .ok source → later target = .ok saved →
            ∀ request : RunRequest,
              Command.perform later (.run { request with program := .document target }) =
                Command.perform later (.run { request with program := .script script }))) ∧
    (Ir.documentRoom < c.program.toJson.depth →
      Ir.Program.ofDocument c.program.document = .error (.fault .malformed) ∧
      Ir.Program.ofDocument c.program.prettyDocument = .error (.fault .malformed)) := by
  have hfinite := allFinite_of_compileSource h
  have hcompact := Ir.ofDocument_document hfinite
  have hpretty := Ir.ofDocument_prettyDocument hfinite
  constructor
  · intro hfits
    rw [Ir.Program.readBack_of_le hfits] at hcompact hpretty
    refine ⟨hcompact, hpretty, ?_⟩
    rintro rfl files script target hfile
    obtain ⟨plan, hplan, hsave⟩ := Command.perform_compile hfile h target
    refine ⟨plan, _, hplan, hsave, ?_⟩
    intro later hscript htarget request
    apply Command.perform_run_congr
    rw [Command.loadProgram_document htarget, Command.loadProgram_script hscript h, hpretty]
  · intro hdeep
    rw [Ir.Program.readBack_of_lt hdeep] at hcompact hpretty
    exact ⟨hcompact, hpretty⟩

theorem compileSource_readBack_plot :
    ∃ c, compileSource true "plot(close)" = .ok c ∧
      c.program.toJson.depth ≤ Ir.documentRoom ∧
      Ir.Program.ofDocument c.program.prettyDocument = .ok c.program := by
  obtain ⟨c, hc, hdepth⟩ := exists_of_compiles true "plot(close)"
    (fun c => decide (c.program.toJson.depth ≤ Ir.documentRoom)) (by decide +kernel)
  have hfits := of_decide_eq_true hdepth
  exact ⟨c, hc, hfits, ((compileSource_readBack hc).1 hfits).2.1⟩

-- Signs in a row are accepted up to a height that the reader of documents
-- does not reach: here with 128 brackets.
theorem compileSource_readBack_signs :
    ∃ c, compileSource true (String.ofList (List.replicate 125 '-' ++ "close".toList)) = .ok c ∧
      Ir.Program.ofDocument c.program.document = .error (.fault .malformed) ∧
      Ir.Program.ofDocument c.program.prettyDocument = .error (.fault .malformed) := by
  obtain ⟨c, hc, hdepth⟩ := exists_of_compiles true
    (String.ofList (List.replicate 125 '-' ++ "close".toList))
    (fun c => decide (Ir.documentRoom < c.program.toJson.depth)) (by decide +kernel)
  have hdeep := Ir.Program.readBack_of_lt (of_decide_eq_true hdepth)
  have hfinite := allFinite_of_compileSource hc
  exact ⟨c, hc, (Ir.ofDocument_document hfinite).trans hdeep,
    (Ir.ofDocument_prettyDocument hfinite).trans hdeep⟩

end CandleScript
