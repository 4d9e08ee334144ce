import Doctest.Decimal.Integer
import Doctest.Guest.Engine
import Doctest.Text.Exit

/-! Sandboxed runs: an instance starts as a process with captured streams, and what counts is how
the process ended. -/

namespace Doctest.Guest

structure SandboxOutcome where
  exitCode : Int32
  stdout : String
  stderr : String
  trapped : Option String
  deriving DecidableEq

def exitCodeOf (message : List Char) : Int32 :=
  match Text.Exit.find? message with
  | some number =>
    match Decimal.signed? 32 number with
    | some n => Int32.ofInt n
    | none => 1
  | none => 1

def startName : String := "_start"

structure Course where
  error : Option String
  process : Process

/-- An exit code that the process gave itself stands, however the run ended. -/
def Course.outcome (c : Course) : SandboxOutcome :=
  let (exitCode, trapped) := match c.process.exitCode, c.error with
    | some code, _ => (code, none)
    | none, none => (0, none)
    | none, some e => (exitCodeOf e.toList, some e)
  ⟨exitCode, c.process.stdoutText, c.process.stderrText, trapped⟩

section

variable [Engine]

def startFunction? (i : Engine.Instance) : Option (Code (Answer × Engine.Instance)) :=
  match Engine.export? i startName with
  | some (.function type code) => if type = ⟨[], []⟩ then some code else none
  | _ => none

def processCode (i : Engine.Instance) : Code (Option String) := do
  match startFunction? (← Engine.start i) with
  | none => return some s!"export `{startName}` not found"
  | some code => do
    let _ ← code
    return none

def course (m : Engine.Module) (stdin : String) : Course :=
  match Engine.instantiate systemHost m with
  | .error e => ⟨some ("instantiation failed: " ++ e), .start stdin⟩
  | .ok i =>
    match (processCode i).run (.start stdin) with
    | .ok error p => ⟨error, p⟩
    | .error t p => ⟨some t.message, p⟩

def Image.runSandboxed (image : Image) (stdin : String) : SandboxOutcome :=
  match image with
  | .error e => ⟨1, "", "", some ("invalid module: " ++ e)⟩
  | .ok m => (course m stdin).outcome

end

end Doctest.Guest
