namespace Doctest

inductive Fault (ε : Type)
  | error : ε → Fault ε
  | crash : String → Fault ε
  deriving DecidableEq

def Fault.map {ε δ : Type} (f : ε → δ) : Fault ε → Fault δ
  | .error e => .error (f e)
  | .crash message => .crash message

abbrev Chain := List String

def Chain.text (c : Chain) : String := ": ".intercalate c

end Doctest
