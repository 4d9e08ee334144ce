import Doctest.CommandLine
import Doctest.Document.Extract

namespace Doctest

structure TestsDirError where
  dir : Path
  cause : FileError
  deriving DecidableEq

def TestsDirError.chain (e : TestsDirError) : Chain :=
  [s!"Failed to read tests directory {e.dir.text}", e.cause.message]

def isInput (p : Path) : Bool := (Origin.ofPath? p).isSome

def inputsIn (fs : Files) (dir : Path) : Except TestsDirError (List Path) :=
  match fs.list dir with
  | .error e => .error ⟨dir, e⟩
  | .ok names =>
    let sorted := names.mergeSort fun a b => !decide (b < a)
    let paths := sorted.map fun n => dir.join ⟨n⟩
    .ok (paths.filter fun p => fs.isFile p && isInput p)

def CommandLine.collectInputs (c : CommandLine) (fs : Files) (workingDir : Path) :
    Except TestsDirError (List Path) := do
  let explicit := (c.inputs.map workingDir.join).filter isInput
  match c.testsDir with
  | none => return explicit
  | some dir => return explicit ++ (← inputsIn fs (workingDir.join dir))

structure InputError where
  path : Path
  cause : ExtractError
  deriving DecidableEq

/-- The message of an unreadable file holds its cause, which then follows once more. -/
def InputError.chain (e : InputError) : Chain :=
  s!"Failed to extract tests from {e.path.text}" :: e.cause.message ::
    match e.cause with
    | .unreadable _ cause => [cause.message]
    | .missingFence _ _ => []

def extractAll (fs : Files) : List Path → Except InputError (List TestCase)
  | [] => .ok []
  | p :: ps =>
    match extractFile fs p with
    | .error e => .error ⟨p, e⟩
    | .ok ts => do return ts ++ (← extractAll fs ps)

end Doctest
