import TransitLink.Json.Number

/-!
# Reading JSON text

A reader takes octets and gives back a value with the octets after it, or the first fault in the order of the text.

* `stringBody` : the characters of a string up to its closing quote, escapes resolved.
* `listItems`, `objectMembers` : the loops over the items of a list and the members of an object, for any item reader.
* `value` : reads any JSON value, nested at most `depth` deep. A repeated name is kept; `Json.merged` removes it.
* `complete` : reads a whole text.
-/

namespace TransitLink.Json

set_option autoImplicit false

abbrev Reader (α : Type) := Bytes → Except Fault (α × Bytes)

/-! ## Blanks and keywords -/

def isSpace (b : UInt8) : Bool := b == 0x20 || b == 0x09 || b == 0x0a || b == 0x0d

def skipSpace (bs : Bytes) : Bytes := bs.dropWhile isSpace

def keyword : (word : Bytes) → Bytes → Except Fault Bytes
  | [], bs => .ok bs
  | _ :: _, [] => .error .endInValue
  | w :: word, b :: bs => if w = b then keyword word bs else .error .expectedIdent

/-! ## Strings -/

def hexDigit? (b : UInt8) : Option Nat :=
  let n := b.toNat
  if 0x30 ≤ n ∧ n ≤ 0x39 then some (n - 0x30)
  else if 0x41 ≤ n ∧ n ≤ 0x46 then some (n - 0x37)
  else if 0x61 ≤ n ∧ n ≤ 0x66 then some (n - 0x57)
  else none

def hexValue? (ds : Bytes) : Option Nat := ds.foldlM (fun n d => (hexDigit? d).map (16 * n + ·)) 0

/-- The octet that a one-letter escape stands for. -/
def escapeLetter? (b : UInt8) : Option UInt8 :=
  if b = 0x22 ∨ b = 0x5c ∨ b = 0x2f then some b
  else if b = 0x62 then some 0x08
  else if b = 0x66 then some 0x0c
  else if b = 0x6e then some 0x0a
  else if b = 0x72 then some 0x0d
  else if b = 0x74 then some 0x09
  else none

/-- Where a reader stands inside a string. -/
inductive StringPlace where
  /-- Between characters. -/
  | plain
  /-- After a backslash. -/
  | escape
  /-- Inside four hexadecimal digits, `seen` last first, after a leading surrogate if there was one. -/
  | hex (lead : Option Nat) (seen : Bytes)
  /-- After a leading surrogate, where a backslash has to follow. -/
  | paired (lead : Nat)
  /-- After a leading surrogate and a backslash, where the letter `u` has to follow. -/
  | pairedEscape (lead : Nat)

/-- What four hexadecimal digits mean: the characters they end, or the leading surrogate they are. -/
def codeUnit (lead : Option Nat) (unit : Nat) : Except Fault (Bytes ⊕ Nat) :=
  let trailing : Bool := 0xdc00 ≤ unit && unit ≤ 0xdfff
  let utf8 (n : Nat) : Bytes := Bytes.ofText (Char.ofNat n).toString
  match lead with
  | some l =>
    if trailing then .ok (.inl (utf8 ((l - 0xd800) * 0x400 + (unit - 0xdc00) + 0x10000))) else .error .loneSurrogate
  | none =>
    if trailing then .error .loneSurrogate
    else if 0xd800 ≤ unit ∧ unit ≤ 0xdbff then .ok (.inr unit)
    else .ok (.inl (utf8 unit))

/-- Reads the rest of a string and its closing quote; `done` holds the octets of the characters so far, last first. -/
def stringFrom (done : Bytes) : StringPlace → Reader Bytes
  | _, [] => .error .endInString
  | .plain, b :: bs =>
    if b = 0x22 then .ok (done.reverse, bs)
    else if b = 0x5c then stringFrom done .escape bs
    else if b < 0x20 then .error .controlCharacter
    else stringFrom (b :: done) .plain bs
  | .escape, b :: bs =>
    if b = 0x75 then stringFrom done (.hex none []) bs
    else match escapeLetter? b with
      | some c => stringFrom (c :: done) .plain bs
      | none => .error .invalidEscape
  | .hex lead seen, b :: bs =>
    if seen.length < 3 then stringFrom done (.hex lead (b :: seen)) bs
    else match hexValue? (b :: seen).reverse with
      | none => .error .invalidEscape
      | some unit =>
        match codeUnit lead unit with
        | .error e => .error e
        | .ok (.inl utf8) => stringFrom (utf8.reverse ++ done) .plain bs
        | .ok (.inr l) => stringFrom done (.paired l) bs
  | .paired l, b :: bs => if b = 0x5c then stringFrom done (.pairedEscape l) bs else .error .endOfHexEscape
  | .pairedEscape l, b :: bs => if b = 0x75 then stringFrom done (.hex (some l) []) bs else .error .endOfHexEscape

/-- Reads a string after its opening quote. Its octets have to be UTF-8. -/
def stringBody : Reader String := fun bs => do
  let (octets, rest) ← stringFrom [] .plain bs
  match Bytes.text? octets with
  | some s => .ok (s, rest)
  | none => .error .invalidCodePoint

/-! ## Lists and objects -/

/-- Reads the items of a list up to its closing bracket. `fuel` bounds their number, `done` holds those before, last
first, and `first` tells that there are none. -/
def listFrom {α : Type} (item : Reader α) : (fuel : Nat) → (first : Bool) → (done : List α) → Reader (List α)
  | 0, _, _, _ => .error .endInList
  | fuel + 1, first, done, bs =>
    match skipSpace bs with
    | [] => .error .endInList
    | b :: bs =>
      if b = 0x5d then .ok (done.reverse, bs)
      else if first then
        match item (b :: bs) with
        | .error e => .error e
        | .ok (v, bs) => listFrom item fuel false (v :: done) bs
      else if b = 0x2c then
        match skipSpace bs with
        | [] => .error .endInValue
        | c :: bs =>
          if c = 0x5d then .error .trailingComma
          else match item (c :: bs) with
            | .error e => .error e
            | .ok (v, bs) => listFrom item fuel false (v :: done) bs
      else .error .expectedListCommaOrEnd

def listItems {α : Type} (item : Reader α) : Reader (List α) := fun bs => listFrom item (bs.length + 1) true [] bs

def colon (bs : Bytes) : Except Fault Bytes :=
  match skipSpace bs with
  | [] => .error .endInObject
  | b :: bs => if b = 0x3a then .ok bs else .error .expectedColon

/-- Reads the members of an object up to its closing brace, folding them into a value. `member` gives the reader of a
name's value, or refuses the name. -/
def objectFrom {α : Type} (member : α → String → Except Fault (Reader α)) :
    (fuel : Nat) → (first : Bool) → (sofar : α) → Reader α
  | 0, _, _, _ => .error .endInObject
  | fuel + 1, first, sofar, bs =>
    let named (bs : Bytes) : Except Fault (α × Bytes) :=
      match stringBody bs with
      | .error e => .error e
      | .ok (name, bs) =>
        match member sofar name with
        | .error e => .error e
        | .ok read =>
          match colon bs with
          | .error e => .error e
          | .ok bs =>
            match read bs with
            | .error e => .error e
            | .ok (next, bs) => objectFrom member fuel false next bs
    match skipSpace bs with
    | [] => .error .endInObject
    | b :: bs =>
      if b = 0x7d then .ok (sofar, bs)
      else if first then if b = 0x22 then named bs else .error .keyMustBeString
      else if b = 0x2c then
        match skipSpace bs with
        | [] => .error .endInValue
        | c :: bs =>
          if c = 0x22 then named bs else if c = 0x7d then .error .trailingComma else .error .keyMustBeString
      else .error .expectedObjectCommaOrEnd

def objectMembers {α : Type} (member : α → String → Except Fault (Reader α)) (start : α) : Reader α :=
  fun bs => objectFrom member (bs.length + 1) true start bs

/-! ## Values -/

def maxDepth : Nat := 127

/-- Reads what begins with a letter, a digit, a minus sign or a quote. -/
def scalar (b : UInt8) (bs : Bytes) : Except Fault (Json × Bytes) :=
  if b = 0x6e then do .ok (.null, ← keyword [0x75, 0x6c, 0x6c] bs)
  else if b = 0x74 then do .ok (.bool true, ← keyword [0x72, 0x75, 0x65] bs)
  else if b = 0x66 then do .ok (.bool false, ← keyword [0x61, 0x6c, 0x73, 0x65] bs)
  else if b = 0x2d then number true bs
  else if isDigit b then number false (b :: bs)
  else if b = 0x22 then do
    let (s, rest) ← stringBody bs
    .ok (.str s, rest)
  else .error .expectedValue

/-- Reads a value in which lists and objects nest at most `depth` deep. -/
def value : (depth : Nat) → Reader Json
  | 0, bs =>
    match skipSpace bs with
    | [] => .error .endInValue
    | b :: bs => if b = 0x5b ∨ b = 0x7b then .error .recursionLimit else scalar b bs
  | depth + 1, bs =>
    match skipSpace bs with
    | [] => .error .endInValue
    | b :: bs =>
      if b = 0x5b then do
        let (items, rest) ← listItems (value depth) bs
        .ok (.arr items, rest)
      else if b = 0x7b then do
        let (ms, rest) ← objectMembers (fun (ms : Members Json) name => .ok fun bs => do
          let (j, rest) ← value depth bs
          .ok ((name, j) :: ms, rest)) [] bs
        .ok (.obj ms.reverse, rest)
      else scalar b bs

/-- Reads a whole text: a value, and nothing but blanks after it. -/
def complete {α : Type} (read : Reader α) (bs : Bytes) : Except Fault α := do
  let (v, rest) ← read bs
  if (skipSpace rest).isEmpty then .ok v else .error .trailingCharacters

/-- The JSON value of a text, every name of an object once. -/
def parse (bs : Bytes) : Except Fault Json := (complete (value maxDepth) bs).map merged

/-- The JSON value of a text, repeated names kept. -/
def parseRaw (bs : Bytes) : Except Fault Json := complete (value maxDepth) bs

end TransitLink.Json
