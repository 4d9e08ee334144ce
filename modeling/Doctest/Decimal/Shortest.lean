import Doctest.Decimal.Binary64

namespace Doctest.Decimal

structure Scientific where
  coefficient : Nat
  exponent : Int
  deriving DecidableEq

inductive Tie
  | up : Tie
  | even : Tie
  deriving DecidableEq

/-- The numbers that round to a double, as fractions over one denominator: the double itself,
the ends of the interval around it, and whether the ends belong to it. -/
structure Rounding where
  denominator : Nat
  value : Nat
  low : Nat
  high : Nat
  closed : Bool

def Rounding.of (x : Binary64) : Rounding :=
  let m := x.significand
  let unit := Nat.pow 2 (x.exponent - 2).toNat
  let below := if x.fractionBits = 0 ∧ 1 < x.exponentBits then 1 else 2
  { denominator := Nat.pow 2 (2 - x.exponent).toNat
    value := 4 * m * unit
    low := (4 * m - below) * unit
    high := (4 * m + 2) * unit
    closed := m % 2 == 0 }

def Rounding.contains (r : Rounding) (n : Nat) : Bool :=
  if r.closed then r.low ≤ n && n ≤ r.high else r.low < n && n < r.high

def Rounding.inUnits (r : Rounding) (k : Int) : Rounding :=
  let up := Nat.pow 10 (-k).toNat
  { denominator := r.denominator * Nat.pow 10 k.toNat
    value := r.value * up
    low := r.low * up
    high := r.high * up
    closed := r.closed }

/-- The point of the whole-number grid that is nearest to the double among those that round to it.
It is one of the double's two neighbours on the grid. -/
def Rounding.nearest? (tie : Tie) (r : Rounding) : Option Nat :=
  let below := r.value / r.denominator
  let above := below + 1
  let gapBelow := r.value - below * r.denominator
  let gapAbove := above * r.denominator - r.value
  match r.contains (below * r.denominator), r.contains (above * r.denominator) with
  | true, true =>
    if gapBelow < gapAbove then some below
    else if gapAbove < gapBelow then some above
    else match tie with
      | .up => some above
      | .even => some (if below % 2 = 0 then below else above)
  | true, false => some below
  | false, true => some above
  | false, false => none

def Rounding.magnitude (r : Rounding) : Int :=
  if r.denominator ≤ r.value then (Nat.toDigits 10 (r.value / r.denominator)).length
  else 1 - (Nat.toDigits 10 ((r.denominator + r.value - 1) / r.value)).length

def stripZeros : Nat → Nat → Int → Scientific
  | 0, c, e => ⟨c, e⟩
  | fuel + 1, c, e =>
    if c ≠ 0 ∧ c % 10 = 0 then stripZeros fuel (c / 10) (e + 1) else ⟨c, e⟩

def search (tie : Tie) (r : Rounding) : Nat → Int → Scientific
  | 0, _ => ⟨0, 0⟩
  | fuel + 1, k =>
    match (r.inUnits k).nearest? tie with
    | some c => stripZeros 20 c k
    | none => search tie r fuel (k - 1)

def shortest (tie : Tie) (x : Binary64) : Scientific :=
  if x.significand = 0 then ⟨0, 0⟩
  else
    let r := Rounding.of x
    search tie r 20 r.magnitude

end Doctest.Decimal
