import Doctest.Decimal.Binary64
import Doctest.Decimal.Integer

namespace Doctest.Decimal

structure Fraction where
  negative : Bool
  whole : List Char
  fraction : List Char
  exponent : Int

def spanDigits (s : List Char) : List Char × List Char :=
  (s.takeWhile Text.isAsciiDigit, s.dropWhile Text.isAsciiDigit)

def pointDigits : List Char → List Char × List Char
  | '.' :: s => spanDigits s
  | s => ([], s)

def exponent? : List Char → Option Int
  | [] => some 0
  | c :: s => if c = 'e' ∨ c = 'E' then int? s else none

def Fraction.parse? (s : List Char) : Option Fraction := do
  let (negative, s) := splitSign s
  let (whole, s) := spanDigits s
  let (fraction, s) := pointDigits s
  let exponent ← exponent? s
  if whole.isEmpty ∧ fraction.isEmpty then none
  else return ⟨negative, whole, fraction, exponent⟩

/-- The nearest double. Beyond the exponents of doubles the answer is zero or infinity, whatever
the digits are. -/
def Fraction.toBinary64 (f : Fraction) : Binary64 :=
  let digits := (f.whole ++ f.fraction).dropWhile (· = '0')
  let n := ofDigits digits
  let e := f.exponent - f.fraction.length
  if n = 0 ∨ e + digits.length < -330 then .ofMagnitude f.negative 0
  else if 310 < e + digits.length then .infinity f.negative
  else .ofFraction f.negative (n * Nat.pow 10 e.toNat) (Nat.pow 10 (-e).toNat)

def binary64? (s : List Char) : Option Binary64 := (Fraction.parse? s).map Fraction.toBinary64

end Doctest.Decimal
