/-!
# Integers in decimal digits

* `Decimal.parse` : the integer of a text, for the integers between two bounds, or the first fault in it.

A sign may stand in front: `+` always, `-` only where negative numbers are allowed. Digits are taken one after another,
and the first that leads out of the bounds is a fault even if something else than a digit follows.
-/

namespace TransitLink.Decimal

set_option autoImplicit false

-- powers of numbers are the core library's, whatever else is imported
attribute [instance (1100), default_instance 20000] instPowNat

inductive Fault where
  | noDigits
  | invalidDigit
  | tooLarge
  | tooSmall
deriving DecidableEq

def Fault.message : Fault → String
  | noDigits => "cannot parse integer from empty string"
  | invalidDigit => "invalid digit found in string"
  | tooLarge => "number too large to fit in target type"
  | tooSmall => "number too small to fit in target type"

/-- Takes the digits of a number whose magnitude has a bound, after those that make `sofar`. -/
def digits (bound : Nat) (beyond : Fault) (sofar : Nat) : List Char → Except Fault Nat
  | [] => .ok sofar
  | c :: cs =>
    if '0' ≤ c ∧ c ≤ '9' then
      let next := 10 * sofar + (c.toNat - '0'.toNat)
      if bound < next then .error beyond else digits bound beyond next cs
    else .error .invalidDigit

/-- The integer between `low`, which is not positive, and `high` that a text writes. -/
def parse (low high : Int) (s : String) : Except Fault Int :=
  match s.toList with
  | [] => .error .noDigits
  | ['+'] => .error .invalidDigit
  | ['-'] => .error .invalidDigit
  | '+' :: cs => (digits high.toNat .tooLarge 0 cs).map Int.ofNat
  | '-' :: cs =>
    if low < 0 then (digits low.natAbs .tooSmall 0 cs).map fun n => -(n : Int) else .error .invalidDigit
  | cs => (digits high.toNat .tooLarge 0 cs).map Int.ofNat

def parseNatural (bits : Nat) (s : String) : Except Fault Nat := (parse 0 (2 ^ bits - 1) s).map Int.toNat

def parseInt64 (s : String) : Except Fault Int := parse (-2 ^ 63) (2 ^ 63 - 1) s

end TransitLink.Decimal
