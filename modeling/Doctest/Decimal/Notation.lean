import Doctest.Decimal.Shortest

namespace Doctest.Decimal

def digitsOf (n : Nat) : List Char := Nat.toDigits 10 n

def zeros (n : Nat) : List Char := List.replicate n '0'

def withPoint (digits : List Char) (places : Nat) : List Char :=
  let digits := zeros (places + 1 - digits.length) ++ digits
  digits.take (digits.length - places) ++ ['.'] ++ digits.drop (digits.length - places)

def signed (x : Binary64) (magnitude : List Char) : List Char :=
  if x.isNegative then '-' :: magnitude else magnitude

/-- Every digit is written out, a point only where there is a fraction. Of two shortest numbers
that are equally near the greater one is written. -/
def plain (x : Binary64) : List Char :=
  if x.isNaN then "NaN".toList
  else if x.isInfinite then signed x "inf".toList
  else
    let s := shortest .up x
    let digits := digitsOf s.coefficient
    signed x (if 0 ≤ s.exponent then digits ++ zeros s.exponent.toNat
      else withPoint digits (-s.exponent).toNat)

/-- Exponents are written, always with a sign, where the number has more than sixteen digits before
the point or more than four zeros after it; other numbers always have a point. Of two shortest
numbers that are equally near the even one is written. There is no form for infinities and NaN. -/
def report? (x : Binary64) : Option (List Char) :=
  if x.isNaN ∨ x.isInfinite then none
  else
    let s := shortest .even x
    let digits := digitsOf s.coefficient
    let magnitude : Int := digits.length + s.exponent
    some <| signed x <|
      if s.coefficient = 0 then "0.0".toList
      else if -5 < magnitude ∧ magnitude ≤ 16 then
        if 0 ≤ s.exponent then digits ++ zeros s.exponent.toNat ++ ".0".toList
        else withPoint digits (-s.exponent).toNat
      else
        let head := digits.take 1
        let tail := digits.drop 1
        let power := magnitude - 1
        head ++ (if tail.isEmpty then [] else '.' :: tail) ++ 'e' ::
          (if power < 0 then '-' else '+') :: digitsOf power.natAbs

end Doctest.Decimal
