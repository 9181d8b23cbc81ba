import TransitLink.Json.Reader

/-!
# Passing over JSON values

* `skipValue` : passes over a value that nobody wants. Only its form is checked: nesting has no limit, numbers may be of
  any size, and strings need not be UTF-8.

The lists and objects that are open are kept in a stack, so depth costs no recursion.
-/

namespace TransitLink.Json

set_option autoImplicit false

inductive Container where
  | list
  | object
deriving DecidableEq

/-- Passes over the rest of a string and its closing quote. `hexLeft` counts the hexadecimal digits still wanted,
`seen` holds those before, last first. -/
def skipStringFrom : (escaped : Bool) → (hexLeft : Nat) → (seen : Bytes) → Bytes → Except Fault Bytes
  | _, _, _, [] => .error .endInString
  | _, 1, seen, b :: bs =>
    if (hexValue? (b :: seen).reverse).isSome then skipStringFrom false 0 [] bs else .error .invalidEscape
  | _, n + 2, seen, b :: bs => skipStringFrom false (n + 1) (b :: seen) bs
  | true, 0, _, b :: bs =>
    if b = 0x75 then skipStringFrom false 4 [] bs
    else if (escapeLetter? b).isSome then skipStringFrom false 0 [] bs
    else .error .invalidEscape
  | false, 0, _, b :: bs =>
    if b = 0x22 then .ok bs
    else if b = 0x5c then skipStringFrom true 0 [] bs
    else if b < 0x20 then .error .controlCharacter
    else skipStringFrom false 0 [] bs

def skipString (bs : Bytes) : Except Fault Bytes := skipStringFrom false 0 [] bs

def skipScalar (b : UInt8) (bs : Bytes) : Except Fault Bytes :=
  if b = 0x6e then keyword [0x75, 0x6c, 0x6c] bs
  else if b = 0x74 then keyword [0x72, 0x75, 0x65] bs
  else if b = 0x66 then keyword [0x61, 0x6c, 0x73, 0x65] bs
  else if b = 0x2d then skipNumber bs
  else if isDigit b then skipNumber (b :: bs)
  else if b = 0x22 then skipString bs
  else .error .expectedValue

/-- Where a value ended or a container began: more values follow, or all is closed. -/
inductive AfterValue where
  | next (container : Container) (outer : List Container) (rest : Bytes)
  | closed (rest : Bytes)

def Container.commaFault : Container → Fault
  | .list => .expectedListCommaOrEnd
  | .object => .expectedObjectCommaOrEnd

def Container.endFault : Container → Fault
  | .list => .endInList
  | .object => .endInObject

def Container.closing : Container → UInt8
  | .list => 0x5d
  | .object => 0x7d

/-- Closes containers as long as their closing octets follow, then passes over a comma. `mayComma` tells that a value
has just ended, so that a comma is due; else a container has just begun. -/
def closeContainers : (mayComma : Bool) → Container → List Container → Bytes → Except Fault AfterValue
  | mayComma, c, outer, bs =>
    match skipSpace bs with
    | [] => .error c.endFault
    | b :: bs =>
      if mayComma ∧ b = 0x2c then .ok (.next c outer bs)
      else if b = c.closing then
        match outer with
        | [] => .ok (.closed bs)
        | d :: outer => closeContainers true d outer bs
      else if mayComma then .error c.commaFault
      else .ok (.next c outer (b :: bs))

def skipName (bs : Bytes) : Except Fault Bytes :=
  match skipSpace bs with
  | [] => .error .endInObject
  | b :: bs => if b = 0x22 then do colon (← skipString bs) else .error .keyMustBeString

/-- Passes over the values still wanted inside the open containers. `fuel` bounds their number. -/
def skipFrom : (fuel : Nat) → List Container → Bytes → Except Fault Bytes
  | 0, _, _ => .error .endInValue
  | fuel + 1, open_, bs =>
    let after (mayComma : Bool) (open_ : List Container) (bs : Bytes) : Except Fault Bytes :=
      match open_ with
      | [] => .ok bs
      | c :: outer => do
        match ← closeContainers mayComma c outer bs with
        | .closed rest => .ok rest
        | .next .list outer rest => skipFrom fuel (.list :: outer) rest
        | .next .object outer rest => skipFrom fuel (.object :: outer) (← skipName rest)
    match skipSpace bs with
    | [] => .error .endInValue
    | b :: bs =>
      if b = 0x5b then after false (.list :: open_) bs
      else if b = 0x7b then after false (.object :: open_) bs
      else do after true open_ (← skipScalar b bs)

def skipValue (bs : Bytes) : Except Fault Bytes := skipFrom (bs.length + 1) [] bs

end TransitLink.Json
