import TransitLink.Bytes

/-!
# Request ids

* `RequestId.isValid` : twelve ASCII letters or digits, the shape that a server accepts.
* `RequestId.ofWords` : an id of twelve digits of base 36 from random 64-bit words. `RequestId.ofOctets` : some ids from
  random octets.
* `RequestId.pick?` : the first of some ids that is not taken.

A word is drawn for every digit. The few words that would make some digits likelier than others are passed over.
-/

namespace TransitLink.RequestId

set_option autoImplicit false

def length : Nat := 12

def alphabet : List Char := "0123456789abcdefghijklmnopqrstuvwxyz".toList

def isAlphanumeric (c : Char) : Bool :=
  ('0' ≤ c && c ≤ '9') || ('A' ≤ c && c ≤ 'Z') || ('a' ≤ c && c ≤ 'z')

/-- The shape that a server accepts; it reads capital letters as small ones. -/
def isValid (s : String) : Bool := (Bytes.ofText s).length == length && s.toList.all isAlphanumeric

/-- The digit that a word stands for. The high half of 36 times the word is the digit; words whose low half lies in the
incomplete last stretch are passed over. -/
def digit? (w : UInt64) : Option Char :=
  let p := 36 * w.toNat
  if p % 2 ^ 64 < 36 * 2 ^ 58 then alphabet[p / 2 ^ 64]? else none

/-- The digits drawn from words, so many still missing, and the words left over. -/
def digitsOfWords : (missing : Nat) → List UInt64 → Option (List Char × List UInt64)
  | 0, ws => some ([], ws)
  | _ + 1, [] => none
  | missing + 1, w :: ws =>
    match digit? w with
    | some c => (digitsOfWords missing ws).map fun (cs, rest) => (c :: cs, rest)
    | none => digitsOfWords (missing + 1) ws

/-- An id drawn from words, and the words left over; nothing if the words run out. -/
def ofWords (ws : List UInt64) : Option (String × List UInt64) :=
  (digitsOfWords length ws).map fun (cs, rest) => (String.ofList cs, rest)

/-- The words that random octets make, eight each. -/
def wordsOfOctets : Bytes → List UInt64
  | a :: b :: c :: d :: e :: f :: g :: h :: rest =>
    UInt64.ofNat (Bytes.ofBigEndian [a, b, c, d, e, f, g, h]) :: wordsOfOctets rest
  | _ => []

def ofOctets (most : Nat) (bs : Bytes) : List String :=
  let rec drawn : Nat → List UInt64 → List String
    | 0, _ => []
    | most + 1, ws =>
      match ofWords ws with
      | some (id, rest) => id :: drawn most rest
      | none => []
  drawn most (wordsOfOctets bs)

def pick? (taken : List String) (candidates : List String) : Option String :=
  candidates.find? fun id => !taken.contains id

end TransitLink.RequestId
