import Doctest.Decimal.Notation
import Doctest.Decimal.Reading
import Doctest.Json.Literal
import Doctest.Text.Blank
import Doctest.Text.Quoted

namespace Doctest

inductive ReturnSpec
  | i32 : Int32 → ReturnSpec
  | f64 : Decimal.Binary64 → ReturnSpec
  | str : String → ReturnSpec
  deriving DecidableEq

/-- A token that starts with a quote is the text of the string literal it is, or else what stands
after the quote, less one more quote at the end. -/
def unquote (token : List Char) : List Char :=
  match Json.Literal.read? token with
  | some text => text
  | none =>
    let inner := token.drop 1
    if inner.getLast? = some '"' then inner.dropLast else inner

namespace ReturnSpec

def special? (token : List Char) : Option Decimal.Binary64 :=
  let (negative, name) := Decimal.splitSign (token.map Char.toLower)
  if name = "nan".toList then some .nan
  else if name = "inf".toList ∨ name = "infinity".toList then some (.infinity negative)
  else none

def isFractional (token : List Char) : Bool :=
  token.any fun c => c == '.' || c == 'e' || c == 'E'

/-- Reads an expectation: a string in quotes, the name of a special double, a decimal fraction, or
an integer of 64 bits, of which the low 32 count. Any other text is no expectation. -/
def parse (raw : List Char) : Option ReturnSpec :=
  let token := Text.trim raw
  match token with
  | [] => none
  | '"' :: _ => some (.str (String.ofList (unquote token)))
  | _ =>
    match special? token with
    | some x => some (.f64 x)
    | none =>
      if isFractional token then (Decimal.binary64? token).map .f64
      else (Decimal.signed? 64 token).map fun n => .i32 (Int32.ofInt n)

def display : ReturnSpec → String
  | .i32 v => s!"i32 {v.toInt}"
  | .f64 v => "f64 " ++ String.ofList (Decimal.plain v)
  | .str s => "str " ++ Text.quoted s

end ReturnSpec

end Doctest
