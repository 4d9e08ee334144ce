import Doctest.Compiler.Script
import Doctest.Json.Printer
import Doctest.Json.Reader
import Doctest.Guest.Miniature.Engine

/-! A compiler that is a table of programs, and the launcher that runs it: what a loader can be given
where the compiler itself is not at hand. -/

namespace Doctest.Compiler

open Json (Value)

structure Table where
  programs : List (String × Value)
  profiles : Bool

def isAsciiSpace (c : Char) : Bool :=
  c == ' ' || c == '\t' || c == '\n' || c == '\x0c' || c == '\r'

def lastWord (s : List Char) : List Char :=
  ((s.reverse.dropWhile isAsciiSpace).takeWhile (!isAsciiSpace ·)).reverse

namespace Table

def compiledEntry (v : Value) : Compiled :=
  match (v.get "error").text?, (v.get "panic").text?, Guest.bytes? (v.get "bytes") with
  | some e, _, _ => .error (.error e)
  | none, some message, _ => .error (.crash message)
  | none, none, some bytes => .ok bytes
  | none, none, none => .ok (Text.Utf8.encodeString v.compact)

def compile (t : Table) (profile : Option String) (source : String) : Compiled :=
  let word := String.ofList (lastWord source.toList)
  let key := match profile with
    | some p => s!"{word}@{p}"
    | none => word
  match t.programs.find? (·.1 = key) with
  | some (_, v) => compiledEntry v
  | none => .error (.error s!"unknown program `{key}`")

def capabilities (t : Table) : Capabilities where
  compile := t.compile none
  compileFor := if t.profiles then some fun p => t.compile (some p) else none

def ofJson? (v : Value) : Option Table := do
  let programs ← Guest.fields? some (v.get "programs")
  let profiles ← Value.optional Value.bool? (v.get "profiles")
  return ⟨programs, profiles.getD false⟩

end Table

def streamBytes? (v : Value) : Option (List UInt8) :=
  match v with
  | .null => some []
  | .string _ => v.text?.map Text.Utf8.encodeString
  | v => Guest.bytes? (v.get "hex")

def Answer.ofJson? (v : Value) : Option Answer := do
  let status ← Value.optional Value.nat? (v.get "exit")
  let stdout ← streamBytes? (v.get "stdout")
  return .ended (status.getD 0) stdout (← streamBytes? (v.get "stderr"))

def Answer.ofCompiled : Compiled → Answer
  | .ok bytes => .ended 0 bytes []
  | .error (.error message) | .error (.crash message) =>
    .ended 1 [] (Text.Utf8.encodeString message)

def Probe.json (p : Probe) : Value :=
  .object [("compile", .bool p.compile), ("compile_with_profile", .bool p.compileFor)]

def Table.answer (v : Value) (t : Table) (r : Request) : Answer :=
  match r.mode with
  | .probe =>
    match v.get "probe" with
    | .null => .ended 0 (Text.Utf8.encodeString (Probe.json ⟨true, t.profiles⟩).compact) []
    | probe => (Answer.ofJson? probe).getD (.ended 1 [] [])
  | .compile => .ofCompiled (t.compile none r.source)
  | .profile => .ofCompiled (t.compile r.profile r.source)

def tableLauncher (fs : Files) (command : String) : Launcher := fun r =>
  if r.command ≠ command then .notStarted .notFound
  else match fs.readText r.pair.payload with
    | .error e => .ended 1 [] (Text.Utf8.encodeString e.message)
    | .ok text =>
      match Value.ofChars? text with
      | .error e => .ended 1 [] (Text.Utf8.encodeString (e.message text))
      | .ok v =>
        match Table.ofJson? v with
        | some t => t.answer v r
        | none => .ended 1 [] (Text.Utf8.encodeString "payload is no table of programs")

end Doctest.Compiler
