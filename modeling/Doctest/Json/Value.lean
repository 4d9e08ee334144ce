import Doctest.Json.Literal
import Doctest.Text.Digit
import Doctest.Text.Utf8

namespace Doctest.Json

inductive Value
  | null : Value
  | bool : Bool → Value
  | number : String → Value
  | string : String → Value
  | array : List Value → Value
  | object : List (String × Value) → Value

namespace Value

def ofText (s : String) : Value := .string (String.ofList (Literal.encode s.toList))

def ofNat (n : Nat) : Value := .number (toString n)

def ofInt (n : Int) : Value := .number (toString n)

def ofOption {α : Type} (f : α → Value) : Option α → Value
  | some a => f a
  | none => .null

def bodyText? (body : String) : Option String :=
  (Literal.decode? body.toList).map String.ofList

def text? : Value → Option String
  | .string body => bodyText? body
  | _ => none

def int? : Value → Option Int
  | .number digits => digits.toInt?
  | _ => none

def nat? : Value → Option Nat
  | .number digits => digits.toNat?
  | _ => none

def bool? : Value → Option Bool
  | .bool b => some b
  | _ => none

def items? : Value → Option (List Value)
  | .array items => some items
  | _ => none

def fields? : Value → Option (List (String × Value))
  | .object fields => some fields
  | _ => none

def get (v : Value) (key : String) : Value :=
  match v with
  | .object fields => ((fields.find? fun f => bodyText? f.1 == some key).map Prod.snd).getD .null
  | _ => .null

def optional {α : Type} (read? : Value → Option α) : Value → Option (Option α)
  | .null => some none
  | v => (read? v).map some

end Value

end Doctest.Json
