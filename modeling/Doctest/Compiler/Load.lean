import Doctest.Compiler.Artifact
import Doctest.Compiler.Search
import Doctest.Fault

namespace Doctest.Compiler

abbrev Compiled := Except (Fault String) (List UInt8)

structure Capabilities where
  compile : String → Compiled
  compileFor : Option (String → String → Compiled)

abbrev Loader := ArtifactPair → Except (Fault Chain) Capabilities

structure Loaded where
  pair : ArtifactPair
  capabilities : Capabilities
  profile : Option String

def Loaded.compile (c : Loaded) (source : String) : Compiled :=
  match c.profile, c.capabilities.compileFor with
  | some profile, some compile => compile profile source
  | _, _ => c.capabilities.compile source

structure ProfileUnsupported where
  script : Path
  profile : String
  deriving DecidableEq

def ProfileUnsupported.message (e : ProfileUnsupported) : String :=
  s!"compiler at {e.script.text} does not support profile compilation " ++
    s!"(requested profile `{e.profile}`)"

def Loaded.withProfile (c : Loaded) (profile : Option String) : Except ProfileUnsupported Loaded :=
  match profile, c.capabilities.compileFor with
  | some p, none => .error ⟨c.pair.script, p⟩
  | _, _ => .ok { c with profile }

structure LoadFailure where
  dir : Path
  causes : Chain
  deriving DecidableEq

structure NoArtifacts where
  tried : List Path
  failures : List LoadFailure
  deriving DecidableEq

def NoArtifacts.message (e : NoArtifacts) : String :=
  let indented (lines : List String) := "".intercalate (lines.map ("\n  " ++ ·))
  "no usable compiler artifacts found\nsearched:" ++ indented (e.tried.map (·.text)) ++
    if e.failures.isEmpty then ""
    else "\nload failures:" ++
      indented (e.failures.map fun f => s!"{f.dir.text}: {f.causes.text}")

def loadFirst (fs : Files) (start : String) (load : Loader) :
    List Path → Except (Fault (List LoadFailure)) Loaded
  | [] => .error (.error [])
  | dir :: dirs =>
    match findPair fs dir start with
    | none => loadFirst fs start load dirs
    | some pair =>
      match load pair with
      | .ok capabilities => .ok ⟨pair, capabilities, none⟩
      | .error (.crash message) => .error (.crash message)
      | .error (.error causes) =>
        match loadFirst fs start load dirs with
        | .error (.error failures) => .error (.error (⟨dir, causes⟩ :: failures))
        | r => r

def Search.load (s : Search) (fs : Files) (load : Loader) : Except (Fault NoArtifacts) Loaded :=
  (loadFirst fs s.namePrefix load s.candidates).mapError (·.map (⟨s.candidates, ·⟩))

end Doctest.Compiler
