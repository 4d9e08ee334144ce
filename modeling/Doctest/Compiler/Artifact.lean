import Doctest.Files

namespace Doctest.Compiler

structure ArtifactPair where
  script : Path
  payload : Path
  deriving DecidableEq

def scriptEnding : List Char := ".js".toList

def payloadEnding : List Char := "_bg.wasm".toList

def stems (ending : List Char) (names : List (List Char)) : List (List Char) :=
  (names.filter ending.isSuffixOf).map fun n => n.take (n.length - ending.length)

/-- The stems of the script and the payload to use, from the sorted names in a directory: the first
one that both have, or else the first of each. -/
def choose? (names : List (List Char)) : Option (List Char × List Char) :=
  let scripts := stems scriptEnding names
  let payloads := stems payloadEnding names
  match scripts.find? payloads.contains with
  | some stem => some (stem, stem)
  | none => do return (← scripts.head?, ← payloads.head?)

def artifactNames (fs : Files) (dir : Path) (start : String) : List String :=
  match fs.list dir with
  | .error _ => []
  | .ok names =>
    let names := names.filter fun n =>
      start.toList.isPrefixOf n.toList && fs.isFile (dir.join ⟨n⟩)
    names.mergeSort fun a b => !decide (b < a)

def findPair (fs : Files) (dir : Path) (start : String) : Option ArtifactPair := do
  let (script, payload) ← choose? ((artifactNames fs dir start).map String.toList)
  return {
    script := dir.join ⟨String.ofList (script ++ scriptEnding)⟩
    payload := dir.join ⟨String.ofList (payload ++ payloadEnding)⟩ }

end Doctest.Compiler
