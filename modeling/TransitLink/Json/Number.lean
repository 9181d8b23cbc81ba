import TransitLink.Bytes
import TransitLink.Json.Basic
import TransitLink.Json.Fault
import TransitLink.Number.Shortest

/-!
# JSON numbers

* `floatText` : a finite double in its shortest digits, positional from 10^-5 to below 10^16, else with an exponent.
* `Numeral` : a number as it is written; `Numeral.value` is the number that it stands for.
* `number` : reads a number after its sign, `skipNumber` : checks only its form.

A numeral is read through a 64-bit significand and a decimal exponent. Digits that no longer fit the significand are
dropped, so the result is not always the nearest double.
-/

namespace TransitLink.Json

set_option autoImplicit false

/-! ## Writing -/

/-- Places a point after the digit of weight `10 ^ 0`, with at least one digit on either side. -/
def positional (digits : List Char) (power : Int) : String :=
  if 0 ≤ power then String.ofList (digits ++ List.replicate power.toNat '0') ++ ".0"
  else
    let after := (-power).toNat
    let padded := List.replicate (after + 1 - digits.length) '0' ++ digits
    String.ofList (padded.take (padded.length - after)) ++ "." ++ String.ofList (padded.drop (padded.length - after))

/-- One digit before the point, the others after it, and the exponent with its sign. -/
def scientific (digits : List Char) (exponent : Int) : String :=
  let mantissa := if digits.length ≤ 1 then digits else digits.take 1 ++ '.' :: digits.drop 1
  String.ofList mantissa ++ (if exponent < 0 then "e-" else "e+") ++ toString exponent.natAbs

/-- A finite double in its shortest digits. -/
def floatText (x : Double) : String :=
  let sign := if x.isNegative then "-" else ""
  if x.significand = 0 then sign ++ "0.0"
  else
    let (d, p) := x.shortest
    let digits := Nat.toDigits 10 d
    let exponent := p + digits.length - 1
    sign ++ (if -5 ≤ exponent ∧ exponent ≤ 15 then positional digits p else scientific digits exponent)

/-! ## Digits -/

def isDigit (b : UInt8) : Bool := 0x30 ≤ b && b ≤ 0x39

def digitValue (b : UInt8) : Nat := b.toNat - 0x30

def significandMax : Nat := 2 ^ 64 - 1

/-- Appends digits to a significand while it fits; the significand and how many were appended. -/
def absorb (significand : Nat) : Bytes → Nat × Nat
  | [] => (significand, 0)
  | d :: ds =>
    let next := significand * 10 + digitValue d
    if significandMax < next then (significand, 0)
    else
      let (s, n) := absorb next ds
      (s, n + 1)

/-- A number as it is written: its integer digits, those after a point, and the signed digits after an exponent mark. -/
structure Numeral where
  negative : Bool
  whole : Bytes
  fraction : Option Bytes
  exponent : Option (Bool × Bytes)

/-! ## The value of a numeral -/

def exponentMax : Nat := 2 ^ 31 - 1

def digitsValue (ds : Bytes) : Nat := ds.foldl (fun n d => n * 10 + digitValue d) 0

def powerOfTen (n : Nat) : Double := Double.ofNat (10 ^ n)

/-- A significand divided by a power of ten, in steps of at most 308. -/
def divideByPower (x : Double) (n : Nat) : Double :=
  if x.significand = 0 then x
  else if n ≤ 308 then x.div (powerOfTen n)
  else divideByPower (x.div (powerOfTen 308)) (n - 308)
termination_by n

/-- `significand * 10 ^ exponent` in double arithmetic. -/
def scaleByPower (significand : Nat) (exponent : Int) : Except Fault Double :=
  let x := Double.ofNat significand
  if exponent < 0 then .ok (divideByPower x exponent.natAbs)
  else if exponent ≤ 308 then
    let y := x.mul (powerOfTen exponent.toNat)
    if y.isFinite then .ok y else .error .numberOutOfRange
  else if significand = 0 then .ok x
  else .error .numberOutOfRange

def withSign (negative : Bool) (x : Double) : Double := if negative then x.negate else x

/-- The number a numeral stands for: an integer when it has neither point nor exponent mark and fits 64 bits, else a
double. Minus zero is a double. -/
def Numeral.value (n : Numeral) : Except Fault Json :=
  let (whole, kept) := absorb 0 n.whole
  let dropped := n.whole.length - kept
  let (significand, places) := absorb whole (n.fraction.getD [])
  let shift : Int := (dropped : Int) - places
  let float (exponent : Int) : Except Fault Json :=
    (scaleByPower significand exponent).map fun x => .float (withSign n.negative x)
  match n.exponent with
  | some (negative, ds) =>
    let e := digitsValue ds
    if exponentMax < e then
      if significand ≠ 0 ∧ ¬negative then .error .numberOutOfRange else .ok (.float (Double.zero n.negative))
    else float (if negative then shift - e else shift + e)
  | none =>
    if n.fraction.isSome ∨ dropped ≠ 0 then float shift
    else if n.negative then
      if whole = 0 ∨ 2 ^ 63 < whole then .ok (.float (withSign true (Double.ofNat whole))) else .ok (.int (-whole))
    else .ok (.int whole)

/-! ## Reading -/

/-- The fault where a digit is missing: the end of the text, or something else. -/
def missingDigit : Bytes → Fault
  | [] => .endInValue
  | _ => .invalidNumber

/-- Splits off the digits at the front, at least one. -/
def someDigits (bs : Bytes) : Except Fault (Bytes × Bytes) :=
  let ds := bs.takeWhile isDigit
  if ds.isEmpty then .error (missingDigit bs) else .ok (ds, bs.dropWhile isDigit)

/-- The digits of an integer: a single zero, or digits that do not begin with one. -/
def wholeDigits (bs : Bytes) : Except Fault (Bytes × Bytes) := do
  let (ds, rest) ← someDigits bs
  if ds.head? = some 0x30 ∧ 1 < ds.length then .error .invalidNumber else .ok (ds, rest)

def fractionDigits : Bytes → Except Fault (Option Bytes × Bytes)
  | 0x2e :: bs => do
    let (ds, rest) ← someDigits bs
    .ok (some ds, rest)
  | bs => .ok (none, bs)

def exponentSign : Bytes → Bool × Bytes
  | 0x2b :: bs => (false, bs)
  | 0x2d :: bs => (true, bs)
  | bs => (false, bs)

def exponentDigits : Bytes → Except Fault (Option (Bool × Bytes) × Bytes)
  | [] => .ok (none, [])
  | b :: bs =>
    if b = 0x65 ∨ b = 0x45 then do
      let (negative, bs) := exponentSign bs
      let (ds, rest) ← someDigits bs
      .ok (some (negative, ds), rest)
    else .ok (none, b :: bs)

def numeral (negative : Bool) (bs : Bytes) : Except Fault (Numeral × Bytes) := do
  let (whole, bs) ← wholeDigits bs
  let (fraction, bs) ← fractionDigits bs
  let (exponent, bs) ← exponentDigits bs
  .ok (⟨negative, whole, fraction, exponent⟩, bs)

def number (negative : Bool) (bs : Bytes) : Except Fault (Json × Bytes) := do
  let (n, rest) ← numeral negative bs
  .ok (← n.value, rest)

/-- Passes over a number after its sign, whatever its size. A missing digit is an invalid number also at the end. -/
def skipNumber (bs : Bytes) : Except Fault Bytes :=
  match numeral false bs with
  | .ok (_, rest) => .ok rest
  | .error _ => .error .invalidNumber

end TransitLink.Json
