import Doctest.Guest.Miniature.Program

namespace Doctest.Guest

abbrev Machine (α : Type) := StateT Memory Code α

structure Linked where
  functions : List (String × HostFunction)
  exposed : Bool

def trapped {α : Type} (t : CodeTrap) : Machine α := fun _ => .trap t.message

def Linked.call (fs : Linked) (name : String) (args : List UInt32) : Machine UInt32 := fun m =>
  match fs.functions.find? (·.1 = name) with
  | some (_, f) =>
    .call f args (if fs.exposed then some m else none) fun w after => .done (w, after.getD m)
  | none => trapped .unreachable m

def load (address : UInt32) : Machine UInt32 := fun m =>
  match m.readWord? address.toNat with
  | some w => .done (w, m)
  | none => trapped .memoryAccess m

def store (address : UInt32) (bs : List UInt8) : Machine Unit := fun m =>
  if m.fits address.toNat bs.length then .done ((), ⟨Memory.setBytes m.bytes address.toNat bs⟩)
  else trapped .memoryAccess m

mutual

def Expr.eval (fs : Linked) : Expr → Machine UInt32
  | .const w => pure w
  | .load a => do load (← a.eval fs)
  | .add a b => do return (← a.eval fs) + (← b.eval fs)
  | .call name args => do fs.call name (← evalAll fs args)

def evalAll (fs : Linked) : List Expr → Machine (List UInt32)
  | [] => pure []
  | e :: es => do
    let w ← e.eval fs
    return w :: (← evalAll fs es)

end

def times : Nat → Machine Unit → Machine Unit
  | 0, _ => pure ()
  | n + 1, run => do
    run
    times n run

mutual

def Stmt.exec (fs : Linked) : Stmt → Machine Unit
  | .call name args => do
    let _ ← fs.call name (← evalAll fs args)
  | .store a e => do
    let address ← a.eval fs
    store address (wordBytes (← e.eval fs))
  | .storeByte a e => do
    let address ← a.eval fs
    store address ((wordBytes (← e.eval fs)).take 1)
  | .when e body => do
    if (← e.eval fs) ≠ 0 then execAll fs body
  | .repeat n body => times n (execAll fs body)
  | .trap t => trapped t

def execAll (fs : Linked) : List Stmt → Machine Unit
  | [] => pure ()
  | s :: ss => do
    s.exec fs
    execAll fs ss

end

def Returns.eval (fs : Linked) : Returns → Machine Answer
  | .nothing => pure .nothing
  | .i32 e => do return .i32 (← e.eval fs)
  | .i64 n => pure (.i64 n)
  | .f32 bits => pure (.f32 bits)
  | .f64 x => pure (.f64 x)
  | .several _ => pure .several

def Function.run (f : Function) (fs : Linked) : Machine Answer := do
  execAll fs f.body
  f.returns.eval fs

inductive LinkError
  | notProvided : Import → LinkError
  | otherType : Import → FunctionType → LinkError

def LinkError.message : LinkError → String
  | .notProvided i =>
    s!"cannot find definition for import {i.source}::{i.name} with type Func({i.type.describe})"
  | .otherType i found =>
    s!"function type mismatch for import {i.source}::{i.name}: " ++
      s!"expected {i.type.describe} but found {found.describe}"

def resolveImport (h : Host) (i : Import) : Except LinkError HostFunction :=
  match h.find? i.source i.name with
  | none => .error (.notProvided i)
  | some f => if f.type = i.type then .ok f else .error (.otherType i f.type)

def link (h : Host) : List Import → Except LinkError (List (String × HostFunction))
  | [] => .ok []
  | i :: is => do
    let f ← resolveImport h i
    return (i.name, f) :: (← link h is)

def copySegments (m : Memory) : List Segment → Option Memory
  | [] => some m
  | s :: ss => do copySegments (← m.write? s.offset s.bytes) ss

def Program.initialMemory? (p : Program) : Option Memory :=
  let pages := (p.memory.map (·.pages)).getD 0
  copySegments (Memory.zeroed (pages * Memory.pageSize)) p.segments

structure ProgramInstance where
  program : Program
  linked : Linked
  memory : Memory

def Program.instantiate (p : Program) (h : Host) : Except String ProgramInstance :=
  match link h p.imports with
  | .error e => .error e.message
  | .ok functions =>
    match p.initialMemory? with
    | none => .error CodeTrap.memoryAccess.message
    | some memory => .ok ⟨p, ⟨functions, p.exposesMemory⟩, memory⟩

namespace ProgramInstance

def perform {α : Type} (i : ProgramInstance) (run : Machine α) : Code (α × ProgramInstance) := do
  let (a, memory) ← run i.memory
  return (a, { i with memory })

def start (i : ProgramInstance) : Code ProgramInstance := do
  let (_, i) ← i.perform (execAll i.linked i.program.start)
  return i

def export? (i : ProgramInstance) (name : String) : Option (Export ProgramInstance) :=
  match i.program.function? name with
  | some f => some (.function f.type (i.perform (f.run i.linked)))
  | none => if i.program.exportsMemory name then some .other else none

def memory? (i : ProgramInstance) (name : String) : Option Memory :=
  if i.program.exportsMemory name then some i.memory else none

end ProgramInstance

end Doctest.Guest
