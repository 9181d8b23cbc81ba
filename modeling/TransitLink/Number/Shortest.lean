import TransitLink.Number.Double

/-!
# Shortest decimal digits

* `Double.shortest` : the fewest decimal digits that read back as a positive finite double, and the power of ten that
  goes with them; of several the nearest to the double, of two equally near the even one.

The reals that round to `m * 2 ^ e` form an interval that reaches half way to the neighbouring doubles, ends included
when `m` is even. For one, two, … seventeen digits the two multiples of the last digit's unit next to the double are
tried, in exact arithmetic; the first grid with a multiple in the interval gives the digits.
-/

namespace TransitLink.Double

set_option autoImplicit false

/-- The reals that round to a double, and the double itself, as multiples of one unit `1 / den`. -/
structure Interval where
  low : Nat
  value : Nat
  high : Nat
  den : Nat
  closed : Bool

/-- The interval of a positive finite double. Below a power of two the neighbouring doubles are twice as dense. -/
def interval (x : Double) : Interval :=
  let m := x.significand
  let e := x.exponent - 2
  let unit := 2 ^ e.toNat
  let below := if x.fraction = 0 ∧ 1 < x.field then 1 else 2
  ⟨(4 * m - below) * unit, 4 * m * unit, (4 * m + 2) * unit, 2 ^ (-e).toNat, m % 2 == 0⟩

def Interval.holds (i : Interval) (num den : Nat) : Bool :=
  let a := num * i.den
  if i.closed then i.low * den ≤ a && a ≤ i.high * den else i.low * den < a && a < i.high * den

def digitCount (n : Nat) : Nat := (Nat.toDigits 10 n).length

/-- The power of ten of the first digit of `num / den`. -/
def leadingPower (num den : Nat) : Int :=
  if den ≤ num then (digitCount (num / den) : Int) - 1 else -(digitCount ((den + num - 1) / num - 1) : Int)

/-- The multiple of `10 ^ p` in the interval that is nearest to its double. -/
def Interval.onGrid? (i : Interval) (p : Int) : Option Nat :=
  let up := 10 ^ p.toNat
  let down := 10 ^ (-p).toNat
  let d := i.value * down / (i.den * up)
  let below := i.holds (d * up) down
  let above := i.holds ((d + 1) * up) down
  let twice := 2 * i.value * down
  let middle := (2 * d + 1) * up * i.den
  if below && above then
    some (if twice < middle then d else if middle < twice then d + 1 else d + d % 2)
  else if below then some d
  else if above then some (d + 1)
  else none

/-- Strips zeros at the end of the digits, at most `fuel` of them. -/
def stripZeros : (fuel : Nat) → Nat → Int → Nat × Int
  | 0, d, p => (d, p)
  | fuel + 1, d, p => if d % 10 = 0 then stripZeros fuel (d / 10) (p + 1) else (d, p)

/-- The first grid, from `power` downwards, that meets the interval. -/
def searchGrids (i : Interval) : (tries : Nat) → (power : Int) → Nat × Int
  | 0, p => (i.value / i.den, p)
  | tries + 1, p =>
    match i.onGrid? p with
    | some d => stripZeros 17 d p
    | none => searchGrids i tries (p - 1)

/-- Digits `d` and power `p`: `d * 10 ^ p` is the shortest decimal that reads back as a positive finite double. -/
def shortest (x : Double) : Nat × Int :=
  let i := x.interval
  searchGrids i 17 (leadingPower i.value i.den)

end TransitLink.Double
