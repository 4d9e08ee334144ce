import Doctest.Compiler.Load
import Doctest.Judge

/-! Running one test from its code to its result. The first of these decides: the test is skipped,
it is about compiling only, its code does not compile, it expects a value, or else it runs as a
process. -/

namespace Doctest

open Guest (Engine Image SandboxOutcome)

structure Crash where
  message : String
  deriving DecidableEq

def Snapshot.of (o : SandboxOutcome) : Snapshot := ⟨o.exitCode, o.stdout, o.stderr, o.trapped⟩

def Verdict.withDetail (v : Verdict) (detail : String) : Verdict := { v with detail := some detail }

def ReturnSpec.wantsMemory : ReturnSpec → Bool
  | .str _ => true
  | _ => false

section

variable [Engine]

def TestCase.judgeImage (t : TestCase) (entry : String) (image : Image) :
    Verdict × Option Snapshot :=
  match t.ret with
  | some spec => (spec.judgeDirect (image.callDirect entry spec.wantsMemory), none)
  | none =>
    let o := image.runSandboxed (t.stdin.getD "")
    (t.judgeSandboxed o, some (.of o))

def TestCase.judgeCompiled (t : TestCase) (entry : String) (compiled : Except String Image) :
    Verdict × Option Snapshot :=
  if t.attributes.has .compileFail then
    match compiled with
    | .ok _ => (.fail "expected compile_fail but compiled", none)
    | .error e => ((Verdict.pass "compile_fail ok").withDetail e, none)
  else if t.attributes.has .compileOk then
    match compiled with
    | .ok _ => (.pass "compile_ok ok", none)
    | .error e => ((Verdict.fail "compile error").withDetail e, none)
  else match compiled with
    | .error e => ((Verdict.fail "compile error").withDetail e, none)
    | .ok image => t.judgeImage entry image

def TestCase.judge (t : TestCase) (c : Compiler.Loaded) (entry : String) :
    Except Crash (Verdict × Option Snapshot) :=
  if t.attributes.has .skip then .ok (.pass "skipped", none)
  else match c.compile t.code with
    | .ok bytes => .ok (t.judgeCompiled entry (.ok (Engine.load bytes)))
    | .error (.error e) => .ok (t.judgeCompiled entry (.error e))
    | .error (.crash message) => .error ⟨message⟩

def TestCase.run (t : TestCase) (c : Compiler.Loaded) (entry : String) :
    Except Crash TestResult :=
  (t.judge c entry).map fun (verdict, runtime) => ⟨t, verdict, runtime⟩

end

end Doctest
