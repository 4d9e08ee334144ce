import Doctest.Guest.Engine

namespace Doctest.Guest

inductive ReturnValue
  | i32 : Int32 → ReturnValue
  | f64 : Decimal.Binary64 → ReturnValue
  deriving DecidableEq

inductive DirectFailure
  | invalidModule : String → DirectFailure
  | notInstantiated : List String → DirectFailure
  | missingEntry : String → DirectFailure
  | unsupportedSignature : String → DirectFailure
  | trap : String → DirectFailure
  deriving DecidableEq

def DirectFailure.reason : DirectFailure → String
  | .invalidModule _ => "invalid module"
  | .notInstantiated _ => "instantiate error"
  | .missingEntry _ => "missing entry export"
  | .unsupportedSignature _ => "unsupported entry signature"
  | .trap _ => "trap"

def DirectFailure.message : DirectFailure → String
  | .invalidModule e => "invalid module: " ++ e
  | .notInstantiated attempts =>
    "no import shape could instantiate the module" ++ "".intercalate (attempts.map ("\n  " ++ ·))
  | .missingEntry name => s!"export `{name}` not found"
  | .unsupportedSignature name =>
    s!"export `{name}` must take no arguments and return i32, i64, f32 or f64"
  | .trap e => e

structure DirectOutcome where
  value : Option ReturnValue
  memory : Option Memory
  stdout : String
  failure : Option DirectFailure
  deriving DecidableEq

def DirectOutcome.failed (f : DirectFailure) : DirectOutcome := ⟨none, none, "", some f⟩

inductive Shape
  | empty : Shape
  | print : Shape
  | system : Shape
  | both : Shape
  deriving DecidableEq

def Shape.all : List Shape := [.empty, .print, .system, .both]

def Shape.name : Shape → String
  | .empty => "empty"
  | .print => "env"
  | .system => "wasi"
  | .both => "env+wasi"

def Shape.host : Shape → Host
  | .empty => []
  | .print => printHost
  | .system => systemHost
  | .both => printHost ++ systemHost

def narrow? : Answer → Option ReturnValue
  | .i32 w => some (.i32 w.toInt32)
  | .i64 n => some (.i32 (Int32.ofInt n))
  | .f64 x => some (.f64 x)
  | .f32 bits => some (.f64 (Decimal.Binary64.ofBits32 bits))
  | .nothing | .several => none

def FunctionType.isEntry : FunctionType → Bool
  | ⟨[], [.i32]⟩ | ⟨[], [.i64]⟩ | ⟨[], [.f64]⟩ | ⟨[], [.f32]⟩ => true
  | _ => false

section

variable [Engine]

structure Started where
  inst : Engine.Instance
  process : Process

/-- Every attempt has a process of its own, so nothing of a failed one remains. -/
def started (m : Engine.Module) (shape : Shape) : Except String Started := do
  let i ← Engine.instantiate shape.host m
  match (Engine.start i).run (.start "") with
  | .ok i p => return ⟨i, p⟩
  | .error t _ => throw t.message

def firstStarted (m : Engine.Module) : List Shape → Except (List String) Started
  | [] => .error []
  | shape :: shapes =>
    match started m shape with
    | .ok s => .ok s
    | .error e =>
      match firstStarted m shapes with
      | .ok s => .ok s
      | .error es => .error (s!"{shape.name}: {e}" :: es)

def calledOutcome (wantMemory : Bool) :
    EStateM.Result Trap Process (Answer × Engine.Instance) → DirectOutcome
  | .ok (answer, i) p =>
    { value := narrow? answer
      memory := if wantMemory then Engine.memory? i memoryName else none
      stdout := p.stdoutText
      failure := none }
  | .error t p =>
    { value := none
      memory := none
      stdout := p.stdoutText
      failure := some (.trap t.message) }

def Started.callEntry (s : Started) (entry : String) (wantMemory : Bool) : DirectOutcome :=
  match Engine.export? s.inst entry with
  | none => .failed (.missingEntry entry)
  | some .other => .failed (.unsupportedSignature entry)
  | some (.function type code) =>
    if type.isEntry then calledOutcome wantMemory (code.run s.process)
    else .failed (.unsupportedSignature entry)

def Image.callDirect (image : Image) (entry : String) (wantMemory : Bool) : DirectOutcome :=
  match image with
  | .error e => .failed (.invalidModule e)
  | .ok m =>
    match firstStarted m Shape.all with
    | .ok s => s.callEntry entry wantMemory
    | .error attempts => .failed (.notInstantiated attempts)

end

end Doctest.Guest
