import Doctest.Guest.Memory
import Doctest.Guest.Process

namespace Doctest.Guest

inductive ValueType
  | i32 : ValueType
  | i64 : ValueType
  | f32 : ValueType
  | f64 : ValueType
  | funcRef : ValueType
  | externRef : ValueType
  deriving DecidableEq

structure FunctionType where
  params : List ValueType
  results : List ValueType
  deriving DecidableEq

/-- What a run may end in: a trap of the guest's own code, of which there is a text, or a trap of a
host function. -/
inductive Trap
  | own : String → Trap
  | exited : Int32 → Trap
  | printedNoMemory : Trap
  | printedOutOfBounds : Trap
  deriving DecidableEq

def Trap.message : Trap → String
  | .own text => text
  | .exited n => s!"Exited with i32 exit status {n.toInt}"
  | .printedNoMemory => "print_str: memory export not found"
  | .printedOutOfBounds => "print_str: string out of bounds"

structure State where
  memory : Memory
  exposed : Bool
  process : Process
  deriving DecidableEq

namespace State

def ofMemory (memory : Option Memory) (p : Process) : State :=
  match memory with
  | some m => ⟨m, true, p⟩
  | none => ⟨.zeroed 0, false, p⟩

@[simp] theorem process_ofMemory (memory : Option Memory) (p : Process) :
    (ofMemory memory p).process = p := by
  cases memory <;> rfl

def memory? (s : State) : Option Memory := if s.exposed then some s.memory else none

end State

abbrev Run (α : Type) := EStateM Trap State α

end Doctest.Guest
