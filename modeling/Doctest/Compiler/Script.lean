import Doctest.Compiler.Load
import Doctest.Compiler.Probe

namespace Doctest.Compiler

inductive Mode
  | probe : Mode
  | compile : Mode
  | profile : Mode
  deriving DecidableEq

structure Request where
  command : String
  pair : ArtifactPair
  mode : Mode
  profile : Option String
  source : String

inductive Answer
  | notStarted : FileError → Answer
  | ended : Nat → List UInt8 → List UInt8 → Answer

abbrev Launcher := Request → Answer

def Launcher.run (launch : Launcher) (r : Request) : Except String (List UInt8) :=
  match launch r with
  | .notStarted e => .error s!"failed to spawn {r.command}: {e.message}"
  | .ended status stdout stderr =>
    if status = 0 then .ok stdout
    else
      let message := Text.trim (Text.Utf8.decode stderr)
      .error (if message.isEmpty then s!"compiler exited with exit status: {status}"
        else String.ofList message)

def Launcher.loader (launch : Launcher) (command : String) : Loader := fun pair =>
  let ask mode profile source := launch.run ⟨command, pair, mode, profile, source⟩
  match ask .probe none "" with
  | .error e => .error (.error ["probe failed: " ++ e])
  | .ok output =>
    match Probe.parse (Text.Utf8.decode output) with
    | .error e => .error (.error [e.message])
    | .ok probe => .ok {
        compile source := (ask .compile none source).mapError .error
        compileFor :=
          if probe.compileFor then
            some fun profile source => (ask .profile (some profile) source).mapError .error
          else none }

end Doctest.Compiler
