import Doctest.Guest.Engine

/-! Miniature programs: functions over one linear memory, in a small structured language. They call
the functions of their host by the names of their imports. -/

namespace Doctest.Guest

inductive CodeTrap
  | unreachable : CodeTrap
  | divideByZero : CodeTrap
  | overflow : CodeTrap
  | badConversion : CodeTrap
  | stackExhausted : CodeTrap
  | uninitialized : CodeTrap
  | undefined : CodeTrap
  | memoryAccess : CodeTrap
  deriving DecidableEq

def CodeTrap.message : CodeTrap → String
  | .unreachable => "wasm `unreachable` instruction executed"
  | .divideByZero => "integer divide by zero"
  | .overflow => "integer overflow"
  | .badConversion => "invalid conversion to integer"
  | .stackExhausted => "call stack exhausted"
  | .uninitialized => "uninitialized element 2"
  | .undefined => "undefined element: out of bounds table access"
  | .memoryAccess => "out of bounds memory access"

/-- Expressions denote words. A host function takes a wide argument only to ignore it, so words
do for those too. -/
inductive Expr
  | const : UInt32 → Expr
  | load : Expr → Expr
  | add : Expr → Expr → Expr
  | call : String → List Expr → Expr

inductive Stmt
  | call : String → List Expr → Stmt
  | store : Expr → Expr → Stmt
  | storeByte : Expr → Expr → Stmt
  | when : Expr → List Stmt → Stmt
  | repeat : Nat → List Stmt → Stmt
  | trap : CodeTrap → Stmt

inductive Returns
  | nothing : Returns
  | i32 : Expr → Returns
  | i64 : Int → Returns
  | f32 : UInt32 → Returns
  | f64 : Decimal.Binary64 → Returns
  | several : List ValueType → Returns

def Returns.types : Returns → List ValueType
  | .nothing => []
  | .i32 _ => [.i32]
  | .i64 _ => [.i64]
  | .f32 _ => [.f32]
  | .f64 _ => [.f64]
  | .several types => types

structure Function where
  params : List ValueType
  body : List Stmt
  returns : Returns

def Function.type (f : Function) : FunctionType := ⟨f.params, f.returns.types⟩

structure Import where
  source : String
  name : String
  type : FunctionType

structure Segment where
  offset : Nat
  bytes : List UInt8

structure MemoryType where
  pages : Nat
  exportName : Option String

structure Program where
  imports : List Import
  memory : Option MemoryType
  segments : List Segment
  functions : List (String × Function)
  start : List Stmt

def Program.exportsMemory (p : Program) (name : String) : Bool :=
  (p.memory.bind (·.exportName)) == some name

def Program.exposesMemory (p : Program) : Bool := p.exportsMemory memoryName

def Program.function? (p : Program) (name : String) : Option Function :=
  (p.functions.find? (·.1 = name)).map (·.2)

def ValueType.name : ValueType → String
  | .i32 => "I32"
  | .i64 => "I64"
  | .f32 => "F32"
  | .f64 => "F64"
  | .funcRef => "FuncRef"
  | .externRef => "ExternRef"

def ValueType.describeAll (types : List ValueType) : String :=
  "[" ++ ", ".intercalate (types.map name) ++ "]"

def FunctionType.describe (t : FunctionType) : String :=
  "FuncType \x7b params: " ++ ValueType.describeAll t.params ++ ", results: " ++
    ValueType.describeAll t.results ++ " \x7d"

end Doctest.Guest
