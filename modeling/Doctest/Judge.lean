import Doctest.Guest.Direct
import Doctest.Guest.Sandbox
import Doctest.Normal
import Doctest.TestResult

namespace Doctest

open Guest (SandboxOutcome DirectOutcome ReturnValue Memory)

def Payload.ofStdout (s : String) : Payload := ⟨some s, none, none⟩

def Payload.ofStderr (s : String) : Payload := ⟨none, some s, none⟩

def mismatch? (a : Attributes) (payload : String → Payload) (expected : Option String)
    (captured : String) : Option Payloads :=
  match expected with
  | none => none
  | some e =>
    let e := a.normalizeString e
    let c := a.normalizeString captured
    if e = c then none else some ⟨payload e, payload c⟩

def TestCase.judgeSandboxed (t : TestCase) (o : SandboxOutcome) : Verdict :=
  let a := t.attributes
  if a.has .shouldPanic then
    if o.exitCode ≠ 0 then .pass "should_panic ok" else .fail "expected panic but exit_code=0"
  else match mismatch? a .ofStdout t.stdout o.stdout with
    | some ps => { Verdict.fail "stdout mismatch" with payloads := some ps }
    | none =>
      match mismatch? a .ofStderr t.stderr o.stderr with
      | some ps => { Verdict.fail "stderr mismatch" with payloads := some ps }
      | none =>
        if t.stdout = none ∧ t.stderr = none ∧ o.exitCode ≠ 0 then
          { Verdict.fail "nonzero exit without expectation" with detail := o.trapped }
        else .pass "ok"

inductive ActualReturn
  | i32 : Int32 → ActualReturn
  | f64 : Decimal.Binary64 → ActualReturn
  | str : String → ActualReturn
  | noMemory : ActualReturn
  | outOfBounds : UInt32 → ActualReturn
  | noPointer : Decimal.Binary64 → ActualReturn
  deriving DecidableEq

namespace ActualReturn

def display : ActualReturn → String
  | .i32 v => s!"i32 {v.toInt}"
  | .f64 v => "f64 " ++ String.ofList (Decimal.plain v)
  | .str s => "str " ++ Text.quoted s
  | .noMemory => "undecodable (module exports no memory)"
  | .outOfBounds p =>
    "undecodable (string at 0x" ++ String.ofList (Nat.toDigits 16 p.toNat) ++ " is out of bounds)"
  | .noPointer v =>
    "undecodable (expected a pointer, got f64 " ++ String.ofList (Decimal.plain v) ++ ")"

def of (spec : ReturnSpec) (value : ReturnValue) (memory : Option Memory) : ActualReturn :=
  match spec, value with
  | .str _, .i32 p =>
    match memory with
    | none => .noMemory
    | some m =>
      match m.string? p.toUInt32.toNat with
      | some bytes => .str (Text.Utf8.decodeString bytes)
      | none => .outOfBounds p.toUInt32
  | .str _, .f64 v => .noPointer v
  | _, .i32 v => .i32 v
  | _, .f64 v => .f64 v

end ActualReturn

/-- Doubles agree up to a billionth of the expected one, or of one for lesser expectations. NaN
agrees with itself, an infinity only with itself. -/
def doublesAgree (expected actual : Decimal.Binary64) : Bool :=
  if expected.isNaN ∨ actual.isNaN then expected.isNaN && actual.isNaN
  else
    let e := expected.toFloat
    let a := actual.toFloat
    if expected.isInfinite ∨ actual.isInfinite then e == a
    else
      let scale := if e.abs < 1.0 then 1.0 else e.abs
      (e - a).abs ≤ 1e-9 * scale

/-- A double meets an integer expectation only where it is that integer. -/
def ReturnSpec.agrees : ReturnSpec → ActualReturn → Bool
  | .i32 e, .i32 a => e == a
  | .i32 e, .f64 a => a.toFloat == (Decimal.Binary64.ofInt e.toInt).toFloat
  | .f64 e, .f64 a => doublesAgree e a
  | .f64 e, .i32 a => doublesAgree e (Decimal.Binary64.ofInt a.toInt)
  | .str e, .str a => e == a
  | _, _ => false

def ReturnSpec.judgeDirect (spec : ReturnSpec) (o : DirectOutcome) : Verdict :=
  match o.failure, o.value with
  | some f, _ => { Verdict.fail f.reason with detail := some f.message }
  | none, none => .fail "missing return value"
  | none, some v =>
    let actual := ActualReturn.of spec v o.memory
    if spec.agrees actual then .pass "ok"
    else
      let printed := if o.stdout.isEmpty then none else some o.stdout
      { Verdict.fail "return mismatch" with
        payloads := some {
          expected := ⟨none, none, some spec.display⟩
          actual := ⟨printed, none, some actual.display⟩ } }

end Doctest
