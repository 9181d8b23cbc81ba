import TransitLink.Snapshot.Basic

/-!
# Writing snapshots

A value is written in MessagePack, each header in its shortest form and each integer in its shortest form of the
matching sign.

* `Snapshot.unpackable?` : the first integer, in the order of writing, that no form can hold.
* `Snapshot.octets` : the octets of a value. `Snapshot.pack` : the same, refused when an integer cannot be held.
-/

namespace TransitLink.Snapshot

set_option autoImplicit false

/-! ## Headers -/

def octet (n : Nat) : Bytes := [UInt8.ofNat n]

/-- A length in the shortest of its forms: in the marker up to `small`, else after one of the markers in a field of one
(if there is such a marker), two or four octets. -/
def lengthHeader (base small : Nat) (one : Option Nat) (two four : Nat) (n : Nat) : Bytes :=
  if n < small then octet (base + n)
  else match one with
    | some marker => if n < 2 ^ 8 then octet marker ++ Bytes.toBigEndian 1 n else wide n
    | none => wide n
where
  /-- The longer forms. -/
  wide (n : Nat) : Bytes :=
    if n < 2 ^ 16 then octet two ++ Bytes.toBigEndian 2 n else octet four ++ Bytes.toBigEndian 4 n

def textHeader (n : Nat) : Bytes := lengthHeader 0xa0 32 (some 0xd9) 0xda 0xdb n

def binaryHeader (n : Nat) : Bytes := lengthHeader 0 0 (some 0xc4) 0xc5 0xc6 n

def listHeader (n : Nat) : Bytes := lengthHeader 0x90 16 none 0xdc 0xdd n

def mapHeader (n : Nat) : Bytes := lengthHeader 0x80 16 none 0xde 0xdf n

/-- A natural number below `2 ^ 64`. -/
def naturalOctets (n : Nat) : Bytes :=
  if n < 2 ^ 7 then octet n
  else if n < 2 ^ 8 then octet 0xcc ++ Bytes.toBigEndian 1 n
  else if n < 2 ^ 16 then octet 0xcd ++ Bytes.toBigEndian 2 n
  else if n < 2 ^ 32 then octet 0xce ++ Bytes.toBigEndian 4 n
  else octet 0xcf ++ Bytes.toBigEndian 8 n

/-- A number in two's complement of so many octets. -/
def complement (width : Nat) (n : Int) : Bytes := Bytes.toBigEndian width (n + 2 ^ (8 * width)).toNat

/-- A negative integer from `-2 ^ 63`. -/
def negativeOctets (n : Int) : Bytes :=
  if -2 ^ 5 ≤ n then octet (256 + n).toNat
  else if -2 ^ 7 ≤ n then octet 0xd0 ++ complement 1 n
  else if -2 ^ 15 ≤ n then octet 0xd1 ++ complement 2 n
  else if -2 ^ 31 ≤ n then octet 0xd2 ++ complement 4 n
  else octet 0xd3 ++ complement 8 n

def integerOctets (n : Int) : Bytes := if n < 0 then negativeOctets n else naturalOctets n.toNat

def textOctets (s : String) : Bytes :=
  let bs := Bytes.ofText s
  textHeader bs.length ++ bs

/-! ## Values -/

mutual

/-- The octets of a value whose integers can all be held. -/
def octets : Snapshot → Bytes
  | nil => octet 0xc0
  | boolean b => octet (if b then 0xc3 else 0xc2)
  | integer n => integerOctets n
  | float x => octet 0xcb ++ Bytes.toBigEndian 8 x.bits.toNat
  | text s => textOctets s
  | binary bs => binaryHeader bs.length ++ bs
  | sequence items => listHeader items.length ++ itemsOctets items
  | mapping es => mapHeader es.length ++ entriesOctets es
  | record fs => mapHeader fs.length ++ fieldsOctets fs

def itemsOctets : List Snapshot → Bytes
  | [] => []
  | v :: vs => octets v ++ itemsOctets vs

def entriesOctets : List (Snapshot × Snapshot) → Bytes
  | [] => []
  | (k, v) :: es => octets k ++ (octets v ++ entriesOctets es)

def fieldsOctets : List (String × Snapshot) → Bytes
  | [] => []
  | (k, v) :: fs => textOctets k ++ (octets v ++ fieldsOctets fs)

end

/-- Whether an integer is in one of the 64-bit ranges. -/
def holdable (n : Int) : Bool := -2 ^ 63 ≤ n && n < 2 ^ 64

mutual

/-- The first integer that no form can hold. -/
def unpackable? : Snapshot → Option Int
  | integer n => if holdable n then none else some n
  | sequence items => unpackableInItems? items
  | mapping es => unpackableInEntries? es
  | record fs => unpackableInFields? fs
  | _ => none

def unpackableInItems? : List Snapshot → Option Int
  | [] => none
  | v :: vs => (unpackable? v).or (unpackableInItems? vs)

def unpackableInEntries? : List (Snapshot × Snapshot) → Option Int
  | [] => none
  | (k, v) :: es => (unpackable? k).or ((unpackable? v).or (unpackableInEntries? es))

def unpackableInFields? : List (String × Snapshot) → Option Int
  | [] => none
  | (_, v) :: fs => (unpackable? v).or (unpackableInFields? fs)

end

/-- The one thing that can go wrong in writing: an integer outside the 64-bit ranges. -/
structure PackFault where
  integer : Int
deriving DecidableEq

def PackFault.message (f : PackFault) : String := "integer " ++ toString f.integer ++ " out of 64-bit range"

def pack (v : Snapshot) : Except PackFault Bytes :=
  match unpackable? v with
  | some n => .error ⟨n⟩
  | none => .ok (octets v)

end TransitLink.Snapshot
