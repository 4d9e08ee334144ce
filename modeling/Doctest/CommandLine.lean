import Doctest.Settings

namespace Doctest

inductive LogFormat
  | text : LogFormat
  | json : LogFormat
  deriving DecidableEq

structure CommandLine where
  inputs : List Path
  testsDir : Option Path
  output : Option Path
  jobs : Option Nat
  compilerDir : Option Path
  installDir : Option Path
  profile : Option String
  entry : Option String
  resultOrder : Option Schedule.Order
  config : Option Path
  logFormat : Option LogFormat
  deriving DecidableEq

namespace CommandLine

def empty : CommandLine :=
  ⟨[], none, none, none, none, none, none, none, none, none, none⟩

inductive Flag
  | input : Flag
  | testsDir : Flag
  | output : Flag
  | jobs : Flag
  | compilerDir : Flag
  | installDir : Flag
  | profile : Flag
  | entry : Flag
  | resultOrder : Flag
  | config : Flag
  | logFormat : Flag
  deriving DecidableEq

def Flag.ofName? (name : String) : Option Flag :=
  match name with
  | "input" => some .input
  | "tests-dir" => some .testsDir
  | "output" => some .output
  | "jobs" => some .jobs
  | "compiler-dir" => some .compilerDir
  | "install-dir" => some .installDir
  | "profile" => some .profile
  | "entry" => some .entry
  | "result-order" => some .resultOrder
  | "config" => some .config
  | "log-format" => some .logFormat
  | _ => none

def Flag.ofLetter? : Char → Option Flag
  | 'i' => some .input
  | 'o' => some .output
  | 'j' => some .jobs
  | _ => none

def path? (value : String) : Option Path := if value.isEmpty then none else some ⟨value⟩

def setOnce {α : Type} (field : Option α) (value : Option α) : Option (Option α) :=
  match field, value with
  | none, some a => some (some a)
  | _, _ => none

def set? (c : CommandLine) (flag : Flag) (value : String) : Option CommandLine :=
  match flag with
  | .input => do return { c with inputs := c.inputs ++ [← path? value] }
  | .testsDir => do return { c with testsDir := ← setOnce c.testsDir (path? value) }
  | .output => do return { c with output := ← setOnce c.output (path? value) }
  | .jobs => do
    let n := Decimal.unsigned? Settings.wordSize value.toList
    return { c with jobs := ← setOnce c.jobs n }
  | .compilerDir => do return { c with compilerDir := ← setOnce c.compilerDir (path? value) }
  | .installDir => do return { c with installDir := ← setOnce c.installDir (path? value) }
  | .profile => do return { c with profile := ← setOnce c.profile (some value) }
  | .entry => do return { c with entry := ← setOnce c.entry (some value) }
  | .resultOrder => do
    return { c with resultOrder := ← setOnce c.resultOrder (Schedule.Order.ofName? value) }
  | .config => do return { c with config := ← setOnce c.config (path? value) }
  | .logFormat => do
    let format := if value = "text" then some .text else if value = "json" then some .json else none
    return { c with logFormat := ← setOnce c.logFormat format }

inductive Named
  | option : Flag → Option String → Named
  | stop : Named

def named? (arg : String) : Option Named :=
  match arg.toList with
  | ['-', '-'] => some .stop
  | '-' :: '-' :: s =>
    let name := String.ofList (s.takeWhile (· ≠ '='))
    let value := match s.dropWhile (· ≠ '=') with
      | _ :: value => some (String.ofList value)
      | [] => none
    (Flag.ofName? name).map (.option · value)
  | '-' :: letter :: s =>
    let value := match s with
      | [] => none
      | '=' :: value => some (String.ofList value)
      | value => some (String.ofList value)
    (Flag.ofLetter? letter).map (.option · value)
  | _ => none

/-- A value in an argument of its own does not look like an option. A dash alone is a value. -/
def isValue (arg : String) : Bool := arg = "-" || arg.toList.head? != some '-'

/-- Reads arguments one after the other. There are no others than options, so nothing may follow
the end of options. -/
def readFrom (c : CommandLine) : List String → Option CommandLine
  | [] => some c
  | arg :: args =>
    match named? arg with
    | none => none
    | some .stop => if args.isEmpty then some c else none
    | some (.option flag (some value)) =>
      match c.set? flag value with
      | some c => readFrom c args
      | none => none
    | some (.option flag none) =>
      match args with
      | value :: args =>
        if isValue value then
          match c.set? flag value with
          | some c => readFrom c args
          | none => none
        else none
      | [] => none

def parse? (args : List String) : Option CommandLine := readFrom empty args

def apply (c : CommandLine) (s : Settings) : Settings :=
  { s with
    compilerDir := c.compilerDir <|> s.compilerDir
    installDir := c.installDir <|> s.installDir
    jobs := c.jobs <|> s.jobs
    profile := c.profile <|> s.profile
    entryExport := c.entry.getD s.entryExport
    resultOrder := c.resultOrder.getD s.resultOrder }

end CommandLine

end Doctest
