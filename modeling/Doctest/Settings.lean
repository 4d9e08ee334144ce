import Doctest.Decimal.Integer
import Doctest.Fault
import Doctest.Files
import Doctest.Json.Reader
import Doctest.Json.Record
import Doctest.Schedule.Run
import Doctest.Text.Quoted

/-! Settings of a run. Every field has a default, a settings file may give it another value,
environment variables go before the file, and flags of the command line before all others. -/

namespace Doctest

open Json (Value)
open Schedule (Order)

structure Settings where
  compilerDir : Option Path
  installDir : Option Path
  jobs : Option Nat
  entryExport : String
  profile : Option String
  nodeCommand : String
  artifactPrefix : String
  resultOrder : Order
  deriving DecidableEq

namespace Settings

def default : Settings where
  compilerDir := none
  installDir := none
  jobs := none
  entryExport := "main"
  profile := none
  nodeCommand := "node"
  artifactPrefix := "nepl-web-"
  resultOrder := .shard

def wordSize : Nat := 64

def keys : List String :=
  ["compiler_dir", "install_dir", "jobs", "entry_export", "profile", "node_command",
    "artifact_prefix", "result_order"]

def jobs? (v : Value) : Option Nat := do
  let n ← v.nat?
  if n < Nat.pow 2 wordSize then some n else none

def order? : Value → Option Order
  | .object [(key, .null)] => do Order.ofName? (← Value.bodyText? key)
  | v => do Order.ofName? (← v.text?)

def slot {α : Type} (read? : Value → Option α) (default : α) : Option Value → Option α
  | none => some default
  | some v => read? v

def ofJson? (v : Value) : Option Settings := do
  let path? (v : Value) := v.text?.map Path.mk
  match ← v.slots? keys with
  | [compilerDir, installDir, jobs, entryExport, profile, nodeCommand, artifactPrefix, order] =>
    return {
      compilerDir := ← slot (Value.optional path?) default.compilerDir compilerDir
      installDir := ← slot (Value.optional path?) default.installDir installDir
      jobs := ← slot (Value.optional jobs?) default.jobs jobs
      entryExport := ← slot Value.text? default.entryExport entryExport
      profile := ← slot (Value.optional Value.text?) default.profile profile
      nodeCommand := ← slot Value.text? default.nodeCommand nodeCommand
      artifactPrefix := ← slot Value.text? default.artifactPrefix artifactPrefix
      resultOrder := ← slot order? default.resultOrder order }
  | _ => none

end Settings

inductive SettingsError
  | notFound : Path → SettingsError
  | unreadable : Path → FileError → SettingsError
  | malformed : Path → String → SettingsError
  | badJobs : String → SettingsError
  deriving DecidableEq

def numberCause (digits : List Char) : String :=
  if digits.isEmpty then "cannot parse integer from empty string"
  else if Decimal.isNumeral (if digits.head? = some '+' then digits.drop 1 else digits) then
    "number too large to fit in target type"
  else "invalid digit found in string"

def SettingsError.chain : SettingsError → Chain
  | .notFound p => [s!"Runner config file not found: {p.text}"]
  | .unreadable p e => [s!"Failed to read {p.text}", e.message]
  | .malformed p cause => [s!"Failed to parse {p.text}", cause]
  | .badJobs text =>
    [s!"NMTEST_JOBS must be a non-negative integer, got {Text.quoted text}",
      numberCause (Text.trim text.toList)]

namespace Settings

def load (fs : Files) (p : Path) : Except SettingsError Settings :=
  if !fs.isPresent p then .error (.notFound p)
  else match fs.readText p with
    | .error e => .error (.unreadable p e)
    | .ok text =>
      match Value.ofChars? text with
      | .error e => .error (.malformed p (e.message text))
      | .ok v =>
        match ofJson? v with
        | some s => .ok s
        | none => .error (.malformed p "invalid settings")

def usualFile : Path := ⟨"config/nmtest.json"⟩

/-- The settings below the environment: those of the file that is asked for, which has to be there,
or of the usual file, which need not. -/
def ofFile (fs : Files) (workingDir : Path) : Option Path → Except SettingsError Settings
  | some p => load fs (workingDir.join p)
  | none =>
    let p := workingDir.join usualFile
    if fs.isFile p then load fs p else .ok default

abbrev Environment := String → Option String

def applyJobs (env : Environment) (s : Settings) : Except SettingsError Settings :=
  match env "NMTEST_JOBS" with
  | none => .ok s
  | some text =>
    match Decimal.unsigned? wordSize (Text.trim text.toList) with
    | some n => .ok { s with jobs := some n }
    | none => .error (.badJobs text)

def applyDirs (env : Environment) (s : Settings) : Settings :=
  { s with
    compilerDir := ((env "NMTEST_COMPILER_DIR").map Path.mk) <|> s.compilerDir
    installDir := ((env "NMTEST_INSTALL_DIR").map Path.mk) <|> s.installDir }

def applyNames (env : Environment) (s : Settings) : Settings :=
  { s with
    nodeCommand := (env "NMTEST_NODE").getD s.nodeCommand
    profile := match env "NMTEST_PROFILE" with
      | some "" => none
      | some p => some p
      | none => s.profile }

/-- Variables go before what is set already. When the number of jobs is refused, the directories
have been applied and nothing else. -/
def applyEnv (env : Environment) (s : Settings) : Settings × Option SettingsError :=
  let s := s.applyDirs env
  match s.applyJobs env with
  | .ok s => (s.applyNames env, none)
  | .error e => (s, some e)

def ofLayers (fs : Files) (workingDir : Path) (file : Option Path) (env : Environment) :
    Except SettingsError Settings := do
  match (← ofFile fs workingDir file).applyEnv env with
  | (s, none) => .ok s
  | (_, some e) => .error e

def search (s : Settings) (workingDir : Path) : Compiler.Search where
  hint := s.compilerDir
  workingDir := workingDir
  installDir := s.installDir
  namePrefix := s.artifactPrefix

def plan (s : Settings) (workingDir : Path) : Schedule.Plan where
  search := s.search workingDir
  jobs := s.jobs
  entry := s.entryExport
  profile := s.profile
  order := s.resultOrder

end Settings

end Doctest
