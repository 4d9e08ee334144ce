import Doctest.Compiler.Script
import Doctest.Inputs
import Doctest.ReportFile

/-! A session from the command line to the exit status. It passes with status 0 only if the report
is written and every test in it passed; status 2 is for command lines that name no input. -/

namespace Doctest

structure Surroundings where
  files : Files
  workingDir : Path
  environment : Settings.Environment
  ownDir : Option Path
  processors : Nat
  launcher : Compiler.Launcher

inductive SessionError
  | settings : SettingsError → SessionError
  | testsDir : TestsDirError → SessionError
  | input : InputError → SessionError
  | run : Schedule.RunError → SessionError
  | report : ReportError → SessionError

def SessionError.chain : SessionError → Chain
  | .settings e => e.chain
  | .testsDir e => e.chain
  | .input e => e.chain
  | .run e => e.chain
  | .report e => e.chain

def indentCause (number : Option Nat) (cause : String) : String :=
  let first := match number with
    | some n => s!"    {n}: "
    | none => "    "
  let rest := if number.isSome then "\n       " else "\n    "
  first ++ rest.intercalate (cause.splitOn "\n")

def Chain.describe : Chain → String
  | [] => "Error: \n"
  | [e] => s!"Error: {e}\n"
  | [e, cause] => s!"Error: {e}\n\nCaused by:\n{indentCause none cause}\n"
  | e :: causes =>
    let lines := causes.mapIdx fun i c => indentCause (some i) c
    s!"Error: {e}\n\nCaused by:\n" ++ "\n".intercalate lines ++ "\n"

inductive Ending
  | failed : SessionError → Ending
  | noInputs : Ending
  | reported : Report → Ending

structure Session where
  ending : Ending
  stdout : String
  files : Files

def Ending.exitStatus : Ending → Nat
  | .failed _ => 1
  | .noInputs => 2
  | .reported r => if r.allPassed then 0 else 1

def Summary.line (s : Summary) : String :=
  s!"summary: total={s.total} passed={s.passed} failed={s.failed}\n"

def Ending.stderr : Ending → String
  | .failed e => Chain.describe e.chain
  | .noInputs => ""
  | .reported r => r.summary.line

namespace CommandLine

open Guest (Engine)

def settings (c : CommandLine) (w : Surroundings) : Except SettingsError Settings := do
  let s := c.apply (← Settings.ofLayers w.files w.workingDir c.config w.environment)
  return { s with installDir := s.installDir <|> w.ownDir }

def loader (w : Surroundings) (s : Settings) : Compiler.Loader := w.launcher.loader s.nodeCommand

variable [Engine]

def report (w : Surroundings) (s : Settings) (inputs : List Path) : Except SessionError Report := do
  let tests ← (extractAll w.files inputs).mapError .input
  ((s.plan w.workingDir).run w.files (loader w s) w.processors tests).mapError .run

def report? (c : CommandLine) (w : Surroundings) : Except SessionError (Option Report) := do
  let s ← (c.settings w).mapError .settings
  let inputs ← (c.collectInputs w.files w.workingDir).mapError .testsDir
  if inputs.isEmpty then return none else return some (← report w s inputs)

def deliver (c : CommandLine) (w : Surroundings) (r : Report) : Session :=
  match c.output with
  | none => ⟨.reported r, r.text ++ "\n", w.files⟩
  | some p =>
    match writeReport (w.workingDir.join p) r.text w.files with
    | .ok () files => ⟨.reported r, "", files⟩
    | .error e files => ⟨.failed (.report e), "", files⟩

def session (c : CommandLine) (w : Surroundings) : Session :=
  match c.report? w with
  | .ok (some r) => c.deliver w r
  | .ok none => ⟨.noInputs, "", w.files⟩
  | .error e => ⟨.failed e, "", w.files⟩

end CommandLine

end Doctest
