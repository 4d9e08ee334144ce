import Doctest.Fault
import Doctest.Json.Reader
import Doctest.Json.Record
import Doctest.Text.Blank
import Doctest.Text.Quoted

namespace Doctest.Compiler

structure Probe where
  compile : Bool
  compileFor : Bool
  deriving DecidableEq

inductive ProbeError
  | unreadable : List Char → Json.ReadError → ProbeError
  | noCompile : ProbeError

def ProbeError.message : ProbeError → String
  | .unreadable output e =>
    s!"unreadable probe output {Text.quoted (String.ofList output)}: {e.message output}"
  | .noCompile => "loader script does not export compile_source"

def Probe.ofJson? (v : Json.Value) : Option Probe := do
  match ← v.slots? ["compile", "compile_with_profile"] with
  | [some compile, some compileFor] => return ⟨← compile.bool?, ← compileFor.bool?⟩
  | _ => none

def Probe.parse (output : List Char) : Except ProbeError Probe :=
  let output := Text.trim output
  match Json.Value.ofChars? output with
  | .error e => .error (.unreadable output e)
  | .ok v =>
    match Probe.ofJson? v with
    | none => .error (.unreadable output .misplaced)
    | some p => if p.compile then .ok p else .error .noCompile

end Doctest.Compiler
