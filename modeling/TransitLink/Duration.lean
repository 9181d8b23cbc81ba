/-!
# Spans of time

* `Duration` : a span in nanoseconds.
* `Duration.text` : a span in its largest unit with a whole part, without zeros at the end of the fraction.
-/

namespace TransitLink

set_option autoImplicit false

-- powers of numbers are the core library's, whatever else is imported
attribute [instance (1100), default_instance 20000] instPowNat

structure Duration where
  nanoseconds : Nat
deriving DecidableEq

namespace Duration

def ofMilliseconds (n : Nat) : Duration := ⟨n * 1000000⟩

def ofSeconds (n : Nat) : Duration := ⟨n * 1000000000⟩

def milliseconds (d : Duration) : Nat := d.nanoseconds / 1000000

/-- The longest span: as many seconds as sixty-four bits hold, and all but one nanosecond of another. -/
def longest : Duration := ⟨2 ^ 64 * 1000000000 - 1⟩

/-- The fraction `part / 10 ^ places` after a point, without zeros at its end; nothing if it is zero. -/
def fractionText (part places : Nat) : String :=
  if part = 0 then ""
  else
    let digits := Nat.toDigits 10 part
    let padded := List.replicate (places - digits.length) '0' ++ digits
    "." ++ String.ofList (padded.reverse.dropWhile (· = '0')).reverse

/-- A span in units of `10 ^ places` nanoseconds. -/
def textIn (n places : Nat) (unit : String) : String :=
  toString (n / 10 ^ places) ++ fractionText (n % 10 ^ places) places ++ unit

/-- A span in its largest unit with a whole part. -/
def text (d : Duration) : String :=
  let n := d.nanoseconds
  if 10 ^ 9 ≤ n then textIn n 9 "s"
  else if 10 ^ 6 ≤ n then textIn n 6 "ms"
  else if 10 ^ 3 ≤ n then textIn n 3 "µs"
  else textIn n 0 "ns"

end Duration
end TransitLink
