/-!
# Double-precision numbers

A double is held as its sixty-four bits, and its arithmetic is exact arithmetic on natural numbers followed by one
rounding.

* `Double.isFinite`, `isNaN`, `isNegative` : the classes of doubles.
* `Double.significand`, `exponent` : a finite double is `significand * 2 ^ exponent` up to its sign.
* `Double.nearest` : the double nearest to a quotient of natural numbers times a power of two, ties to even.
* `Double.mul`, `Double.div` : product and quotient of non-negative finite doubles, `Double.ofSingleBits` : the double
  equal to a single-precision number.
-/

namespace TransitLink

set_option autoImplicit false

-- powers of numbers are the core library's, whatever else is imported
attribute [instance (1100), default_instance 20000] instPowNat

/-- A double-precision number by its bits: sign, eleven bits of exponent, fifty-two of fraction. -/
structure Double where
  bits : UInt64
deriving DecidableEq

namespace Double

/-! ## Parts -/

def field (x : Double) : Nat := x.bits.toNat / 2 ^ 52 % 2 ^ 11

def fraction (x : Double) : Nat := x.bits.toNat % 2 ^ 52

def isNegative (x : Double) : Bool := 2 ^ 63 ≤ x.bits.toNat

def isFinite (x : Double) : Bool := x.field != 2047

def isNaN (x : Double) : Bool := x.field == 2047 && x.fraction != 0

def significand (x : Double) : Nat := if x.field = 0 then x.fraction else 2 ^ 52 + x.fraction

/-- The exponent that goes with `significand`. -/
def exponent (x : Double) : Int := if x.field = 0 then -1074 else (x.field : Int) - 1075

def signBit (negative : Bool) : Nat := if negative then 2 ^ 63 else 0

def zero (negative : Bool) : Double := ⟨.ofNat (signBit negative)⟩

def infinity (negative : Bool) : Double := ⟨.ofNat (signBit negative + 2047 * 2 ^ 52)⟩

def negate (x : Double) : Double := ⟨x.bits ^^^ 0x8000000000000000⟩

/-! ## Rounding -/

/-- The integer nearest to `num / den`, the even one of two. -/
def roundQuotient (num den : Nat) : Nat :=
  let q := num / den
  let r := num % den
  if 2 * r < den then q else if den < 2 * r then q + 1 else q + q % 2

/-- `num / (den * 2 ^ e)` as a quotient of natural numbers. -/
def scaled (num den : Nat) (e : Int) : Nat × Nat := (num * 2 ^ (-e).toNat, den * 2 ^ e.toNat)

/-- The exponent at which the quotient `num / den` has a significand of fifty-three bits, or the least exponent. -/
def exponentFor (num den : Nat) : Int :=
  let guess : Int := (Nat.log2 num : Int) - Nat.log2 den - 53
  let (n, d) := scaled num den guess
  let e := if 2 ^ 53 ≤ n / d then guess + 1 else guess
  max e (-1074)

/-- The double nearest to `num / den`, infinity when it is beyond the largest finite double. -/
def nearest (negative : Bool) (num den : Nat) : Double :=
  if num = 0 then zero negative
  else
    let e := exponentFor num den
    let (n, d) := scaled num den e
    let magnitude := (e + 1074).toNat * 2 ^ 52 + roundQuotient n d
    if 2047 * 2 ^ 52 ≤ magnitude then infinity negative else ⟨.ofNat (signBit negative + magnitude)⟩

def ofNat (n : Nat) : Double := nearest false n 1

/-- The magnitude of a finite double as a quotient of natural numbers. -/
def ratio (x : Double) : Nat × Nat := (x.significand * 2 ^ x.exponent.toNat, 2 ^ (-x.exponent).toNat)

def mul (x y : Double) : Double :=
  let (a, b) := x.ratio
  let (c, d) := y.ratio
  nearest false (a * c) (b * d)

def div (x y : Double) : Double :=
  let (a, b) := x.ratio
  let (c, d) := y.ratio
  nearest false (a * d) (b * c)

/-! ## Single precision -/

/-- The double equal to the single-precision number with these thirty-two bits. A NaN becomes a quiet one and keeps its
payload at the top of the fraction. -/
def ofSingleBits (bits : Nat) : Double :=
  let negative : Bool := 2 ^ 31 ≤ bits
  let field := bits / 2 ^ 23 % 2 ^ 8
  let fraction := bits % 2 ^ 23
  if field = 255 then
    if fraction = 0 then infinity negative
    else ⟨.ofNat (signBit negative + 2047 * 2 ^ 52 + (if fraction < 2 ^ 22 then 2 ^ 51 else 0) + fraction * 2 ^ 29)⟩
  else if field = 0 then nearest negative fraction (2 ^ 149)
  else ⟨.ofNat (signBit negative + (field + 896) * 2 ^ 52 + fraction * 2 ^ 29)⟩

end Double
end TransitLink
