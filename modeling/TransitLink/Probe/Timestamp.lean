import TransitLink.Duration

/-!
# Points in time as text

* `Day.ofUnix` : the day of the Gregorian calendar that lies so many days after 1 January 1970.
* `timestampText` : a point in time as RFC 3339 writes it, in universal time and to the nanosecond, without zeros at the
  end of the fraction.

Days are counted from 1 March, so that the leap day is the last of its year: 146097 days make 400 years, and the months
of a year take 153 days by fives.
-/

namespace TransitLink.Probe

set_option autoImplicit false

structure Day where
  year : Nat
  month : Nat
  day : Nat
deriving DecidableEq

/-- The day that lies so many days after 1 January 1970. -/
def Day.ofUnix (n : Nat) : Day :=
  let days := n + 719468
  let ofCycle := days % 146097
  let year := (ofCycle - ofCycle / 1460 + ofCycle / 36524 - ofCycle / 146096) / 365
  let ofYear := ofCycle - (365 * year + year / 4 - year / 100)
  let month := (5 * ofYear + 2) / 153
  let day := ofYear - (153 * month + 2) / 5 + 1
  let marchYear := year + 400 * (days / 146097)
  if month < 10 then ⟨marchYear, month + 3, day⟩ else ⟨marchYear + 1, month - 9, day⟩

/-- A number with zeros before it, as many as it needs to have `width` digits. -/
def padded (width n : Nat) : String :=
  let digits := Nat.toDigits 10 n
  String.ofList (List.replicate (width - digits.length) '0' ++ digits)

/-- A point in time, in nanoseconds since the beginning of 1970. -/
def timestampText (nanoseconds : Nat) : String :=
  let seconds := nanoseconds / 10 ^ 9
  let day := Day.ofUnix (seconds / 86400)
  padded 4 day.year ++ "-" ++ padded 2 day.month ++ "-" ++ padded 2 day.day ++ "T" ++
    padded 2 (seconds % 86400 / 3600) ++ ":" ++ padded 2 (seconds % 3600 / 60) ++ ":" ++ padded 2 (seconds % 60) ++
    Duration.fractionText (nanoseconds % 10 ^ 9) 9 ++ "Z"

example : timestampText 0 = "1970-01-01T00:00:00Z" := by decide +kernel

example : timestampText 951827696120000000 = "2000-02-29T12:34:56.12Z" := by decide +kernel

end TransitLink.Probe
