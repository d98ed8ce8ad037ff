import CandleScript.Command.Perform

namespace CandleScript

-- Whether a failure is about the settings of a run.
def Failure.ofSettings : Failure → Bool
  | settingsText _ _ | settingsValue _ => true
  | _ => false

-- No other failure has the exit status of faulty settings.
theorem Failure.exitStatus_eq_two_iff (failure : Failure) :
    failure.exitStatus = 2 ↔ failure.ofSettings = true := by
  cases failure with
  | runtime e =>
      rw [exitStatus]
      split <;> simp [ofSettings]
  | _ => simp [exitStatus, ofSettings]

theorem ofSettings_of_parseSource {source : String} {failure : Failure}
    (h : parseSource source = .error failure) : failure.ofSettings = false := by
  rw [parseSource] at h
  split at h
  · cases h
    rfl
  · split at h
    · cases h
      rfl
    · cases h

theorem ofSettings_of_compileSource {optimize : Bool} {source : String} {failure : Failure}
    (h : compileSource optimize source = .error failure) : failure.ofSettings = false := by
  rw [compileSource] at h
  cases hparse : parseSource source with
  | error fault =>
      rw [hparse] at h
      cases h
      exact ofSettings_of_parseSource hparse
  | ok script =>
      rw [hparse] at h
      change (if (analyze script).hasErrors then _ else _) = _ at h
      split at h
      · cases h
        rfl
      · cases h

section

variable {α β : Type}

-- An attempt that does not fail over settings, and what is known of its value.
def Attempt.Spares (good : α → Prop) : Attempt α → Prop
  | .ok value => good value
  | .error stop => stop.failure.ofSettings = false

theorem Attempt.Spares.bind {good : α → Prop} {later : β → Prop} {x : Attempt α}
    {f : α → Attempt β} (hx : x.Spares good)
    (hf : ∀ value, good value → (f value).Spares later) :
    Attempt.Spares later (x >>= f) := by
  cases x with
  | error stop => exact hx
  | ok value => exact hf value hx

-- A plan whose report does not have the exit status of faulty settings,
-- whatever becomes of the text that it saves.
def Plan.Spares (plan : Plan) : Prop := ∀ saved, (plan.conclude saved).status ≠ 2

end

namespace Command

variable {files : Files}

theorem spares_readFile (path : String) :
    (attempt (readFile files path)).Spares fun _ => True := by
  rw [readFile]
  split <;> trivial

theorem spares_compileShown (optimize : Bool) (source : String) :
    (compileShown optimize source).Spares fun _ => True := by
  rw [compileShown]
  split
  · trivial
  · rename_i failure hfailure
    exact ofSettings_of_compileSource hfailure

theorem spares_loadProgram (source : ProgramSource) :
    (loadProgram files source).Spares fun _ => True := by
  cases source with
  | script path =>
      apply (spares_readFile path).bind
      intro source _
      exact (spares_compileShown true source).bind fun _ _ => trivial
  | document path =>
      apply (spares_readFile path).bind
      intro text _
      split
      · trivial
      · rename_i e _
        cases e <;> rfl
  | template id =>
      rw [loadProgram]
      split
      · exact (spares_compileShown true _).bind fun _ _ => trivial
      · rfl

theorem spares_loadCandles (path : String) :
    (attempt (loadCandles files path)).Spares fun _ => True := by
  rw [loadCandles]
  split
  · rfl
  · split <;> trivial

theorem spares_stop {stop : Stop} (h : stop.failure.ofSettings = false) : stop.plan.Spares := by
  intro _ hstatus
  have hsettings := stop.failure.exitStatus_eq_two_iff.mp hstatus
  cases h.symm.trans hsettings

theorem spares_emit (err document : String) (output : Option String) :
    (Plan.emit err document output).Spares := by
  intro saved
  cases output with
  | none => exact Nat.zero_ne_add_one 1
  | some path => cases saved <;> simp [Plan.emit, Plan.conclude, Report.fail, Failure.exitStatus]

theorem spares_finish {σ : Type} (request : RunRequest) (candles : Nat)
    (kept : Outcome σ → List (String × Json)) (outcome : Outcome σ) :
    (finish request candles kept outcome).Spares := by
  rw [finish]
  split
  · exact spares_stop rfl
  · exact spares_emit _ _ _

-- Behind the settings, nothing fails over them.
theorem spares_runProgram {request : RunRequest} {limits : Limits} {risk : Risk}
    (h : runSettings files request.config = .ok (limits, risk)) :
    (runProgram files request).Spares fun timed => ∀ clock, (timed.result clock).Spares := by
  rw [runProgram, h]
  apply (spares_loadProgram request.program).bind
  intro program _
  apply (spares_loadCandles request.data).bind
  intro bars _
  split
  · intro clock
    rw [Timed.result, Timed.resultFrom_map]
    exact spares_finish _ _ _ _
  · intro clock
    rw [Timed.result, Timed.resultFrom_map]
    exact spares_finish _ _ _ _

-- The report of a command, given the clock that a run looks at and what
-- becomes of the text that is saved.
def report (files : Files) (command : Command) (clock : Nat → Nat)
    (saved : Except FileFault Unit) : Report :=
  ((perform files command).result clock).conclude saved

variable {request : RunRequest}

theorem status_report_run (clock : Nat → Nat) (saved : Except FileFault Unit) {limits : Limits}
    {risk : Risk} (h : runSettings files request.config = .ok (limits, risk)) :
    (report files (.run request) clock saved).status ≠ 2 := by
  have hspares := spares_runProgram h
  rw [report, perform]
  split
  · rename_i timed hrun
    rw [hrun] at hspares
    exact hspares clock saved
  · rename_i stop hrun
    rw [hrun] at hspares
    exact spares_stop hspares saved

-- Settings come first, so that nothing else is reported where they fail.
theorem report_run_of_error (clock : Nat → Nat) (saved : Except FileFault Unit)
    {failure : Failure} (h : runSettings files request.config = .error failure) :
    report files (.run request) clock saved = Report.fail ⟨"", "", 0⟩ failure := by
  have hrun : runProgram files request = .error (.of failure) := by
    rw [runProgram, h]
    rfl
  rw [report, perform, hrun]
  rfl

theorem runSettings_some {path : String} {sections : Sections}
    (h : readSettings files path = .ok sections) :
    runSettings files (some path) = (do
      let limits ← valid (Settings.limits sections.value?)
      let risk ← valid (Settings.risk sections.value?)
      return (limits, risk)) := by
  rw [runSettings, h]
  rfl

end Command

open Command (readSettings report report_run_of_error runSettings runSettings_some
  status_report_run)

-- What a run reports of its settings. Where their text can be read, the run
-- ends with the status of faulty settings exactly if its limits are faulty or,
-- looked at behind them, its risk; then it reports the first fault and nothing
-- else. The log level plays no part, so that a faulty one goes unreported.
theorem report_run_settings {files : Command.Files} {request : RunRequest} {path : String}
    {sections : Sections} (hconfig : request.config = some path)
    (hread : readSettings files path = .ok sections) :
    (∀ e, Settings.limits sections.value? = .error e ∨
        (∃ limits, Settings.limits sections.value? = .ok limits) ∧
          Settings.risk sections.value? = .error e →
      ∀ clock saved,
        report files (.run request) clock saved = ⟨"", s!"error: {e.message}\n", 2⟩) ∧
    (∀ limits risk, Settings.limits sections.value? = .ok limits →
      Settings.risk sections.value? = .ok risk →
      ∀ clock saved, (report files (.run request) clock saved).status ≠ 2) := by
  have hsettings := runSettings_some hread
  rw [← hconfig] at hsettings
  constructor
  · intro e he clock saved
    have hfails : runSettings files request.config = .error (.settingsValue e) := by
      rcases he with hlimits | ⟨⟨limits, hlimits⟩, hrisk⟩
      · rw [hsettings, hlimits]
        rfl
      · rw [hsettings, hlimits, hrisk]
        rfl
    rw [report_run_of_error clock saved hfails]
    rfl
  · intro limits risk hlimits hrisk clock saved
    have hruns : runSettings files request.config = .ok (limits, risk) := by
      rw [hsettings, hlimits, hrisk]
      rfl
    exact status_report_run clock saved hruns

-- A script and candle data, with settings beside them.
def filesWith (settings : String) : Command.Files
  | "x.ini" => .ok settings
  | "x.script" => .ok "x = close"
  | "x.csv" => .ok "date,open,high,low,close,volume\n2024-01-01,10,11,9,10,1000\n"
  | _ => .error .missing

def settingsRequest : RunRequest := ⟨.script "x.script", "x.csv", .visual, some "x.ini", none⟩

theorem report_run_settings_operations :
    let run settings clock saved :=
      report (filesWith settings) (.run settingsRequest) clock saved
    (∀ clock saved, run "[limits]\nmax_operations = many\n" clock saved =
      ⟨"", "error: invalid config value [limits] max_operations: " ++
        "max_operations must be a number, got 'many'\n", 2⟩) ∧
    ∀ clock saved, (run "[logging]\nlevel = loud\n" clock saved).status ≠ 2 := by
  intro run
  have hoperations : readSettings (filesWith "[limits]\nmax_operations = many\n") "x.ini" = .ok
      (Bindings.empty.set "limits" (Bindings.empty.set "max_operations" (some "many"))) := rfl
  have hlevel : readSettings (filesWith "[logging]\nlevel = loud\n") "x.ini" = .ok
      (Bindings.empty.set "logging" (Bindings.empty.set "level" (some "loud"))) := rfl
  have hconfig : settingsRequest.config = some "x.ini" := rfl
  exact ⟨(report_run_settings hconfig hoperations).1 _ (.inl rfl),
    (report_run_settings hconfig hlevel).2 _ _ rfl rfl⟩

-- A log level that there is not: it is dropped where it is asked for, and the
-- run that it is meant for succeeds.
theorem report_run_unknownLevel :
    let files := filesWith "[logging]\nlevel = loud\n"
    ∃ sections, readSettings files "x.ini" = .ok sections ∧
      Settings.logLevel sections.value? = .error ⟨.level, .unknownLevel "loud"⟩ ∧
      Command.logLevel? files (.run settingsRequest) = none ∧
      (report files (.run settingsRequest) (fun _ => 0) (.ok ())).status = 0 := by
  intro files
  exact ⟨Bindings.empty.set "logging" (Bindings.empty.set "level" (some "loud")), rfl, rfl, rfl,
    by decide +kernel⟩

end CandleScript
