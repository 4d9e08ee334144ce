import Doctest.Decimal.Binary64
import Doctest.Guest.Host

/-! Engines. An engine is not part of this library: it loads modules, links them to a host and runs
their code, and all that a host can tell of the code is which of its functions are called, with which
memory, and how the code ends. -/

namespace Doctest.Guest

/-- Guest code, by the calls that it makes. Code that may go on for ever, for some answers to its
calls at least, is cut off by a trap, behind as many steps as one likes. A host function is called
with the exported memory as it is then, if there is one, and the code goes on with the answer and the
memory that the function leaves. -/
inductive Code (α : Type)
  | done : α → Code α
  | trap : String → Code α
  | call : HostFunction → List UInt32 → Option Memory → (UInt32 → Option Memory → Code α) → Code α

namespace Code

variable {α β : Type}

protected def bind : Code α → (α → Code β) → Code β
  | .done a, f => f a
  | .trap text, _ => .trap text
  | .call g args memory next, f => .call g args memory fun w m => (next w m).bind f

instance : Monad Code where
  pure := .done
  bind := .bind

def run : Code α → Process → EStateM.Result Trap Process α
  | .done a, p => .ok a p
  | .trap text, p => .error (.own text) p
  | .call f args memory next, p =>
    match f.call args (.ofMemory memory p) with
    | .ok w s => (next w s.memory?).run s.process
    | .error t s => .error t s.process

end Code

inductive Answer
  | nothing : Answer
  | i32 : UInt32 → Answer
  | i64 : Int → Answer
  | f32 : UInt32 → Answer
  | f64 : Decimal.Binary64 → Answer
  | several : Answer

/-- What an instance offers under a name. The code is that of a call without arguments, which leaves
the instance behind as it is then. -/
inductive Export (ι : Type)
  | function : FunctionType → Code (Answer × ι) → Export ι
  | other : Export ι

class Engine where
  Module : Type
  Instance : Type
  load : List UInt8 → Except String Module
  /-- The sources and names of all that a module asks its host for, functions or not. -/
  imports : Module → List (String × String)
  /-- An instance of a module that is linked to a host but did not start yet. -/
  instantiate : Host → Module → Except String Instance
  start : Instance → Code Instance
  export? : Instance → String → Option (Export Instance)
  memory? : Instance → String → Option Memory

abbrev Image [Engine] := Except String Engine.Module

def memoryName : String := "memory"

end Doctest.Guest
