import Doctest.Decimal.Integer
import Doctest.Guest.Miniature.Program
import Doctest.Json.Reader

namespace Doctest.Guest

open Json (Value)

def hexNibble? (c : Char) : Option UInt8 := (Json.Literal.hexValue? c).map UInt8.ofNat

def hexBytes? : List Char → Option (List UInt8)
  | [] => some []
  | a :: b :: s => do
    let hi ← hexNibble? a
    let lo ← hexNibble? b
    return (hi * 16 + lo) :: (← hexBytes? s)
  | [_] => none

def hexNumber? (s : String) : Option Nat := do
  return (← s.toList.mapM Json.Literal.hexValue?).foldl (fun n d => n * 16 + d) 0

def bytes? (v : Value) : Option (List UInt8) := do hexBytes? (← v.text?).toList

def hex (n : Nat) : String := String.ofList (Nat.toDigits 16 n)

def Program.ofHeader (bytes : List UInt8) : Except String Program :=
  let magic := bytes.take 4
  let version := (bytes.drop 4).take 4
  if magic.length < 4 then .error "unexpected end-of-file (at offset 0x0)"
  else if magic ≠ [0x00, 0x61, 0x73, 0x6D] then
    .error "magic header not detected: bad magic number (at offset 0x0)"
  else match wordOf? version with
    | none => .error "unexpected end-of-file (at offset 0x4)"
    | some w =>
      if w = 1 then .ok ⟨[], none, [], [], []⟩
      else if w.toNat / 0x10000 = 1 then
        .error (s!"unknown binary version: 0x{hex (w.toNat % 0x10000)}, " ++
          "note: the WebAssembly component model feature is not enabled (at offset 0x0)")
      else .error s!"unknown binary version: 0x{hex w.toNat} (at offset 0x0)"

def ValueType.ofLetter? : Char → Option ValueType
  | 'i' => some .i32
  | 'I' => some .i64
  | 'f' => some .f32
  | 'F' => some .f64
  | _ => none

def ValueType.listOfJson? (v : Value) : Option (List ValueType) := do
  (← v.text?).toList.mapM ValueType.ofLetter?

def usualType (source name : String) : FunctionType :=
  match Host.find? (printHost ++ systemHost) source name with
  | some f => f.type
  | none => ⟨[], []⟩

def Import.ofJson? (v : Value) : Option Import := do
  match ← v.items? with
  | [source, name] =>
    let source ← source.text?
    let name ← name.text?
    return ⟨source, name, usualType source name⟩
  | [source, name, params, result] =>
    let type := ⟨← ValueType.listOfJson? params, ← ValueType.listOfJson? result⟩
    return ⟨← source.text?, ← name.text?, type⟩
  | _ => none

def CodeTrap.ofName? (name : String) : Option CodeTrap :=
  match name with
  | "unreachable" => some .unreachable
  | "div0" => some .divideByZero
  | "overflow" => some .overflow
  | "conversion" => some .badConversion
  | "stack" => some .stackExhausted
  | "null" => some .uninitialized
  | "table" => some .undefined
  | _ => none

def word (n : Int) : UInt32 := UInt32.ofNat (n % 0x100000000).toNat

mutual

def Expr.ofJson? : Nat → Value → Option Expr
  | 0, _ => none
  | fuel + 1, v =>
    match v with
    | .number _ => (v.int?).map (.const ∘ word)
    | .array (head :: args) =>
      match head.text?, args with
      | some "load", [a] => (Expr.ofJson? fuel a).map .load
      | some "add", [a, b] => do return .add (← Expr.ofJson? fuel a) (← Expr.ofJson? fuel b)
      | some "call", name :: args => do
        return .call (← name.text?) (← Expr.listOfJson? fuel args)
      | _, _ => none
    | _ => none

def Expr.listOfJson? : Nat → List Value → Option (List Expr)
  | 0, _ => none
  | _ + 1, [] => some []
  | fuel + 1, v :: vs => do return (← Expr.ofJson? fuel v) :: (← Expr.listOfJson? fuel vs)

end

mutual

def Stmt.ofJson? : Nat → Value → Option Stmt
  | 0, _ => none
  | fuel + 1, v =>
    match v with
    | .array (head :: args) =>
      match head.text?, args with
      | some "call", name :: args => do
        return .call (← name.text?) (← Expr.listOfJson? fuel args)
      | some "store", [a, e] => do return .store (← Expr.ofJson? fuel a) (← Expr.ofJson? fuel e)
      | some "store8", [a, e] => do
        return .storeByte (← Expr.ofJson? fuel a) (← Expr.ofJson? fuel e)
      | some "if", [e, body] => do
        return .when (← Expr.ofJson? fuel e) (← Stmt.listOfJson? fuel (← body.items?))
      | some "repeat", [n, body] => do
        return .repeat (← n.nat?) (← Stmt.listOfJson? fuel (← body.items?))
      | some "trap", [name] => do return .trap (← CodeTrap.ofName? (← name.text?))
      | _, _ => none
    | _ => none

def Stmt.listOfJson? : Nat → List Value → Option (List Stmt)
  | 0, _ => none
  | _ + 1, [] => some []
  | fuel + 1, v :: vs => do return (← Stmt.ofJson? fuel v) :: (← Stmt.listOfJson? fuel vs)

end

def formatLimit : Nat := 100000

def Returns.zeros : List ValueType → Returns
  | [] => .nothing
  | [.i32] => .i32 (.const 0)
  | [.i64] => .i64 0
  | [.f32] => .f32 0
  | [.f64] => .f64 ⟨0⟩
  | types => .several types

def Returns.ofJson? (v : Value) : Option Returns :=
  match v with
  | .null => some .nothing
  | .object fields =>
    match fields with
    | [(key, w)] =>
      match Value.bodyText? key with
      | some "i32" => (Expr.ofJson? formatLimit w).map .i32
      | some "i64" => do return .i64 (← Decimal.int? (← w.text?).toList)
      | some "f32" => do return .f32 (UInt32.ofNat (← hexNumber? (← w.text?)))
      | some "f64" => do return .f64 ⟨UInt64.ofNat (← hexNumber? (← w.text?))⟩
      | some "types" => (ValueType.listOfJson? w).map .zeros
      | _ => none
    | _ => none
  | _ => none

def Function.ofJson? (v : Value) : Option Function := do
  let params ← Value.optional ValueType.listOfJson? (v.get "params")
  let body ← Stmt.listOfJson? formatLimit (← (v.get "body").items?)
  let returns ← Returns.ofJson? (v.get "returns")
  return ⟨params.getD [], body, returns⟩

def Segment.ofJson? (v : Value) : Option Segment := do
  match ← v.items? with
  | [offset, bytes] => return ⟨(word (← offset.int?)).toNat, ← bytes? bytes⟩
  | _ => none

/-- Without an entry of its own a program has one page, exported under the usual name. -/
def MemoryType.ofJson? (v : Value) : Option (Option MemoryType) :=
  match v with
  | .object fields =>
    match fields.find? (fun f => Value.bodyText? f.1 == some "memory") with
    | none => some (some ⟨1, some memoryName⟩)
    | some (_, .null) => some none
    | some (_, m) => do
      let pages ← Value.optional Value.nat? (m.get "pages")
      let name ← Value.optional Value.text? (m.get "export")
      return some ⟨pages.getD 1, name⟩
  | _ => none

def list? {α : Type} (read? : Value → Option α) (v : Value) : Option (List α) := do
  (((← Value.optional Value.items? v)).getD []).mapM read?

def fields? {α : Type} (read? : Value → Option α) (v : Value) :
    Option (List (String × α)) := do
  ((← Value.optional Value.fields? v).getD []).mapM fun (key, w) => do
    return (← Value.bodyText? key, ← read? w)

def Program.ofJson? (v : Value) : Option Program := do
  return {
    imports := ← list? Import.ofJson? (v.get "imports")
    memory := ← MemoryType.ofJson? v
    segments := ← list? Segment.ofJson? (v.get "data")
    functions := ← fields? Function.ofJson? (v.get "exports")
    start := ← Stmt.listOfJson? formatLimit
      ((← Value.optional Value.items? (v.get "start")).getD []) }

def Program.load? (v : Value) : Option (Except String Program) :=
  match v.get "bytes" with
  | .null => (Program.ofJson? v).map .ok
  | b => (bytes? b).map ofHeader

def Program.ofBytes (bytes : List UInt8) : Except String Program :=
  match bytes with
  | 0x7B :: _ =>
    match (Value.ofChars? (Text.Utf8.decode bytes)).toOption.bind Program.load? with
    | some loaded => loaded
    | none => .error "malformed program"
  | _ => ofHeader bytes

end Doctest.Guest
