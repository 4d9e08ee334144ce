import Doctest.Files
import Doctest.Fault
import Doctest.Json.Printer
import Doctest.TestResult

namespace Doctest

open Json (Value)

def ReturnSpec.json : ReturnSpec → Value
  | .i32 v => .object [("kind", .ofText "i32"), ("value", .ofInt v.toInt)]
  | .f64 v =>
    let number := Value.ofOption (fun s => .number (String.ofList s)) (Decimal.report? v)
    .object [("kind", .ofText "f64"), ("value", number)]
  | .str s => .object [("kind", .ofText "str"), ("value", .ofText s)]

def optionalField {α : Type} (key : String) (f : α → Value) :
    Option α → List (String × Value)
  | some a => [(key, f a)]
  | none => []

def TestCase.jsonFields (t : TestCase) : List (String × Value) :=
  [("origin", .ofText t.origin.tag),
    ("source_file", .ofText t.sourceFile),
    ("name", .ofText t.name),
    ("line", .ofNat t.line),
    ("attributes", .array (t.attributes.tags.map .ofText)),
    ("stdin", .ofOption .ofText t.stdin),
    ("stdout", .ofOption .ofText t.stdout),
    ("stderr", .ofOption .ofText t.stderr),
    ("ret", .ofOption ReturnSpec.json t.ret),
    ("code", .ofText t.code)]

def Snapshot.json (s : Snapshot) : Value :=
  .object
    [("exit_code", .ofInt s.exitCode.toInt),
      ("stdout", .ofText s.stdout),
      ("stderr", .ofText s.stderr),
      ("trapped", .ofOption .ofText s.trapped)]

def Payload.json (p : Payload) : Value :=
  .object (optionalField "stdout" .ofText p.stdout ++ optionalField "stderr" .ofText p.stderr ++
    optionalField "ret" .ofText p.ret)

def TestResult.json (r : TestResult) : Value :=
  let v := r.verdict
  .object (r.test.jsonFields ++
    [("ok", .bool v.ok), ("reason", .ofText v.reason), ("detail", .ofOption .ofText v.detail)] ++
    optionalField "runtime" Snapshot.json r.runtime ++
    optionalField "expected" (fun ps => ps.expected.json) v.payloads ++
    optionalField "actual" (fun ps => ps.actual.json) v.payloads ++
    [("duration_ms", .ofNat 0)])

def Summary.json (s : Summary) : Value :=
  .object [("total", .ofNat s.total), ("passed", .ofNat s.passed), ("failed", .ofNat s.failed)]

def Report.json (r : Report) : Value :=
  .object [("summary", r.summary.json), ("results", .array (r.results.map TestResult.json))]

def Report.text (r : Report) : String := r.json.pretty 0

inductive ReportError
  | notCreated : Path → FileError → ReportError
  | notWritten : Path → FileError → ReportError
  deriving DecidableEq

def ReportError.chain : ReportError → Chain
  | .notCreated dir e => [s!"Failed to create {dir.text}", e.message]
  | .notWritten p e => [s!"Failed to write report to {p.text}", e.message]

def makeReportDirectory (dir : Path) : Files.Change ReportError Unit :=
  if dir.text.isEmpty then pure ()
  else (Files.makeDirectories dir).adaptExcept (.notCreated dir)

def putReport (p : Path) (text : String) : Files.Change ReportError Unit := fun fs =>
  match fs.write p (Text.Utf8.encodeString text) with
  | .ok fs => .ok () fs
  | .error e => .error (.notWritten p e) fs

/-- Writes a report and the directories that lead to it. Those stay where the report fails. -/
def writeReport (p : Path) (text : String) : Files.Change ReportError Unit := do
  match p.parent? with
  | some dir => makeReportDirectory dir
  | none => pure ()
  putReport p text

end Doctest
