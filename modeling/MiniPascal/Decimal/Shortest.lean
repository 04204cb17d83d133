/-!
# Shortest decimal digits

A finite double is `m · 2^q` for natural `m`.  The reals that round to it form an interval whose
ends belong to it exactly when `m` is even.  Its shortest digits are the fewest decimal digits of
a number in that interval; among numbers with as many digits the nearer wins, and of two equally
near ones the larger.
-/

namespace MiniPascal
namespace Decimal

def twoPow (n : Nat) : Nat :=
  Nat.pow 2 n

def tenPow (n : Nat) : Nat :=
  Nat.pow 10 n

/-- The number `digits · 10 ^ exponent`. -/
structure Scientific where
  digits : Nat
  exponent : Int
deriving DecidableEq

/-- A positive double, as `mantissa · 2 ^ exponent`; `narrow` tells that the gap below it is half
the gap above it. -/
structure Dyadic where
  mantissa : Nat
  exponent : Int
  narrow : Bool

namespace Dyadic

/-- Decodes the exponent and fraction bits of a positive finite double. -/
def ofBits (bits : UInt64) : Dyadic :=
  let biased : Nat := (bits.toNat / twoPow 52) % 2048
  let fraction : Nat := bits.toNat % twoPow 52
  if biased = 0 then
    { mantissa := fraction, exponent := -1074, narrow := false }
  else
    { mantissa := fraction + twoPow 52
      exponent := (biased : Int) - 1075
      narrow := fraction = 0 && 1 < biased }

/-- A quarter unit of the last place times the first component equals the second component times
`10 ^ grid`, both as natural factors. -/
def factors (x : Dyadic) (grid : Int) : Nat × Nat :=
  let quarter := x.exponent - 2
  (twoPow quarter.toNat * tenPow (-grid).toNat, tenPow grid.toNat * twoPow (-quarter).toNat)

/-- Whether `candidate · 10 ^ grid` rounds to the double. -/
def covers (x : Dyadic) (grid : Int) (candidate : Nat) : Bool :=
  let (unit, step) := x.factors grid
  let low := (4 * x.mantissa - (if x.narrow then 1 else 2)) * unit
  let high := (4 * x.mantissa + 2) * unit
  let point := candidate * step
  if x.mantissa % 2 = 0 then low ≤ point && point ≤ high
  else low < point && point < high

/-- The best number of the decimal grid `10 ^ grid` that rounds to the double, if there is one. -/
def onGrid? (x : Dyadic) (grid : Int) : Option Nat :=
  let (unit, step) := x.factors grid
  let value := 4 * x.mantissa * unit
  let below := value / step
  let above := below + 1
  match x.covers grid below, x.covers grid above with
  | true, true => if 2 * (value % step) < step then some below else some above
  | true, false => some below
  | false, true => some above
  | false, false => none

def digitCount (n : Nat) : Nat :=
  (Nat.toDigits 10 n).length

/-- The exponent `e` with `10 ^ (e - 1) ≤ x < 10 ^ e`. -/
def magnitude (x : Dyadic) : Int :=
  let (unit, step) := x.factors 0
  let value := 4 * x.mantissa * unit
  if step ≤ value then
    (digitCount (value / step) : Int)
  else
    1 - (digitCount ((step + value - 1) / value - 1) : Int)

/-- Drops the trailing zeros of the digits, at most `fuel` of them. -/
def trimZeros : Nat → Scientific → Scientific
  | 0, s => s
  | fuel + 1, s =>
      if s.digits % 10 = 0 then
        trimZeros fuel { digits := s.digits / 10, exponent := s.exponent + 1 }
      else s

/-- Tries grids with ever more digits, `fuel` of them, starting with `count` digits. -/
def search (x : Dyadic) (magnitude : Int) : Nat → Nat → Scientific
  | 0, count => { digits := x.mantissa, exponent := magnitude - (count : Int) }
  | fuel + 1, count =>
      let grid := magnitude - (count : Int)
      match x.onGrid? grid with
      | some digits => trimZeros 20 { digits, exponent := grid }
      | none => search x magnitude fuel (count + 1)

/-- The shortest digits of a positive double; seventeen always suffice. -/
def shortest (x : Dyadic) : Scientific :=
  search x x.magnitude 17 1

end Dyadic

end Decimal
end MiniPascal
