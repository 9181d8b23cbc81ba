import TransitLink.Bytes

/-!
# Base64

The standard alphabet with canonical padding: groups of four symbols stand for three octets, the last group is filled up
with `=`, and bits that no octet uses are zero.

* `Base64.encode` : the symbols of some octets.
* `Base64.decode` : the octets of a text, or the first fault and where it lies.

In a text the groups before the last are looked at first, then the symbols of the last group, then its length, its
padding and its unused bits.
-/

namespace TransitLink.Base64

set_option autoImplicit false

/-! ## Symbols -/

def symbol (n : Nat) : UInt8 :=
  UInt8.ofNat (if n < 26 then n + 0x41 else if n < 52 then n + 0x47 else if n < 62 then n - 4
    else if n = 62 then 0x2b else 0x2f)

def value? (b : UInt8) : Option Nat :=
  let n := b.toNat
  if 0x41 ≤ n ∧ n ≤ 0x5a then some (n - 0x41)
  else if 0x61 ≤ n ∧ n ≤ 0x7a then some (n - 0x47)
  else if 0x30 ≤ n ∧ n ≤ 0x39 then some (n + 4)
  else if n = 0x2b then some 62
  else if n = 0x2f then some 63
  else none

def pad : UInt8 := 0x3d

/-! ## Encoding -/

def encode : Bytes → Bytes
  | [] => []
  | [a] => [symbol (a.toNat / 4), symbol (a.toNat % 4 * 16), pad, pad]
  | [a, b] => [symbol (a.toNat / 4), symbol (a.toNat % 4 * 16 + b.toNat / 16), symbol (b.toNat % 16 * 4), pad]
  | a :: b :: c :: bs =>
    symbol (a.toNat / 4) :: symbol (a.toNat % 4 * 16 + b.toNat / 16) ::
      symbol (b.toNat % 16 * 4 + c.toNat / 64) :: symbol (c.toNat % 64) :: encode bs

/-- The text of some octets. All symbols are ASCII. -/
def encodeText (bs : Bytes) : String := String.ofList ((encode bs).map fun b => Char.ofNat b.toNat)

/-! ## Decoding -/

/-- What can be wrong with a text; octets are counted from its beginning. -/
inductive Fault where
  | invalidSymbol (b : UInt8) (offset : Nat)
  | invalidLength (n : Nat)
  | invalidPadding
  | invalidLastSymbol (b : UInt8) (offset : Nat)
deriving DecidableEq

def Fault.message : Fault → String
  | invalidSymbol b offset => "Invalid symbol " ++ toString b.toNat ++ ", offset " ++ toString offset ++ "."
  | invalidLength n => "Invalid input length: " ++ toString n
  | invalidPadding => "Invalid padding"
  | invalidLastSymbol b offset => "Invalid last symbol " ++ toString b.toNat ++ ", offset " ++ toString offset ++ "."

def valueAt (offset : Nat) (b : UInt8) : Except Fault Nat :=
  match value? b with
  | some n => .ok n
  | none => .error (.invalidSymbol b offset)

/-- The octets of four symbols. -/
def octets (a b c d : Nat) : Bytes :=
  [UInt8.ofNat (a * 4 + b / 16), UInt8.ofNat (b % 16 * 16 + c / 4), UInt8.ofNat (c % 4 * 64 + d)]

/-- The numbers of the symbols at the front of the last group, and what follows them. -/
def lastSymbols (offset : Nat) : Bytes → Except Fault (List Nat × Bytes)
  | [] => .ok ([], [])
  | b :: bs =>
    if b = pad then .ok ([], b :: bs)
    else do
      let n ← valueAt offset b
      let (ns, rest) ← lastSymbols (offset + 1) bs
      .ok (n :: ns, rest)

/-- The octets of the last group; `offset` counts the octets before it. -/
def decodeLast (offset : Nat) (bs : Bytes) : Except Fault Bytes := do
  let (ns, padding) ← lastSymbols offset bs
  let last := ns.length - 1
  let unused : Fault := .invalidLastSymbol (bs.getD last 0) (offset + last)
  if padding ≠ [] ∧ (ns.length < 2 ∨ ¬padding.all (· = pad)) then .error (.invalidSymbol pad (offset + ns.length))
  else if bs.length = 4 then
    match ns with
    | [a, b] => if b % 16 = 0 then .ok ((octets a b 0 0).take 1) else .error unused
    | [a, b, c] => if c % 4 = 0 then .ok ((octets a b c 0).take 2) else .error unused
    | [a, b, c, d] => .ok (octets a b c d)
    | _ => .error (.invalidLength (offset + ns.length))
  else if bs = [] then .ok []
  else if ns.length < 2 then .error (.invalidLength (offset + ns.length))
  else .error .invalidPadding

/-- The octets of a text from the group at `offset`; `done` holds those before, last first. -/
def decodeFrom (offset : Nat) (done : Bytes) : Bytes → Except Fault Bytes
  | a :: b :: c :: d :: e :: bs => do
    let w ← valueAt offset a
    let x ← valueAt (offset + 1) b
    let y ← valueAt (offset + 2) c
    let z ← valueAt (offset + 3) d
    decodeFrom (offset + 4) ((octets w x y z).reverse ++ done) (e :: bs)
  | bs => do .ok (done.reverse ++ (← decodeLast offset bs))

/-- The octets of a text. One symbol too many is looked at before all others. -/
def decode (bs : Bytes) : Except Fault Bytes :=
  match bs.getLast? with
  | some b =>
    if bs.length % 4 = 1 ∧ b ≠ pad ∧ (value? b).isNone then .error (.invalidSymbol b (bs.length - 1))
    else decodeFrom 0 [] bs
  | none => .ok []

end TransitLink.Base64
