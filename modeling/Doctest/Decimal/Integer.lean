import Doctest.Text.Digit

namespace Doctest.Decimal

def digitValue (c : Char) : Nat := c.toNat - '0'.toNat

def ofDigitsFrom (n : Nat) (ds : List Char) : Nat :=
  ds.foldl (fun n d => 10 * n + digitValue d) n

def ofDigits (ds : List Char) : Nat := ofDigitsFrom 0 ds

def isNumeral (s : List Char) : Bool := !s.isEmpty && s.all Text.isAsciiDigit

def splitSign : List Char → Bool × List Char
  | '+' :: s => (false, s)
  | '-' :: s => (true, s)
  | s => (false, s)

def int? (s : List Char) : Option Int :=
  let (negative, ds) := splitSign s
  if isNumeral ds then
    some (if negative then -(ofDigits ds : Int) else ofDigits ds)
  else none

def signed? (width : Nat) (s : List Char) : Option Int := do
  let n ← int? s
  let bound : Int := Nat.pow 2 (width - 1)
  if -bound ≤ n ∧ n < bound then some n else none

/-- A natural number that fits into a word of the given width. A minus is refused even on zero. -/
def unsigned? (width : Nat) (s : List Char) : Option Nat :=
  let ds := match s with
    | '+' :: s => s
    | s => s
  if isNumeral ds ∧ ofDigits ds < Nat.pow 2 width then some (ofDigits ds) else none

end Doctest.Decimal
