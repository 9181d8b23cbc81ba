import TransitLink.Json.Skip

/-!
# Records in JSON

A record is an object (or a list) with known fields. What it may hold is a value, its `Shape`, so that every record is
read by one reader, from text and from a JSON value alike.

* `Kind`, `Field`, `Shape` : what a field may hold, whether it may be missing, and the fields of a record in order.
* `Shape.read` : reads a record from text. `Shape.ofJson` : takes a record out of a JSON value.

Both give back the fields found, null where null stands for nothing, and for an open shape also the unknown fields, in
the order in which they came.
-/

namespace TransitLink.Json

set_option autoImplicit false

/-! ## Shapes -/

/-- What a field holds. -/
inductive Kind where
  /-- A string. -/
  | text
  /-- A natural number of so many bits. -/
  | natural (bits : Nat)
  /-- A list of strings. -/
  | texts
  /-- Any JSON value. -/
  | any
deriving DecidableEq

inductive Presence where
  /-- It has to be there. -/
  | required
  /-- It may be missing. -/
  | defaulted
  /-- It may be missing or null, which is the same. -/
  | nullable
deriving DecidableEq

structure Field where
  name : String
  kind : Kind
  presence : Presence

/-- The fields of a record. An open shape keeps fields that it does not know, and then is never written as a list. -/
structure Shape where
  name : String
  fields : List Field
  isOpen : Bool := false

namespace Kind

def wanted : Kind → String
  | text => "a string"
  | natural bits => "u" ++ toString bits
  | texts => "a sequence"
  | any => "any value"

end Kind

def found : Json → Found
  | .null => .null
  | .bool b => .boolean b
  | .int n => .integer n
  | .float x => .float (floatText x)
  | .str s => .string s
  | .arr _ => .sequence
  | .obj _ => .map

def asText (j : Json) : Except Fault Json :=
  match j with
  | .str _ => .ok j
  | _ => .error (.invalidType (found j) Kind.text.wanted)

def asNatural (bits : Nat) (j : Json) : Except Fault Json :=
  match j with
  | .int n => if 0 ≤ n ∧ n < 2 ^ bits then .ok j else .error (.invalidValue n (Kind.natural bits).wanted)
  | _ => .error (.invalidType (found j) (Kind.natural bits).wanted)

namespace Kind

def ofJson (k : Kind) (j : Json) : Except Fault Json :=
  match k with
  | text => asText j
  | natural bits => asNatural bits j
  | texts =>
    match j with
    | .arr items => do
      let _ ← items.mapM asText
      .ok j
    | _ => .error (.invalidType (found j) Kind.texts.wanted)
  | any => .ok j

end Kind

namespace Shape

def wanted (s : Shape) : String := "struct " ++ s.name

def wantedElements (s : Shape) : String := s.wanted ++ " with " ++ toString s.fields.length ++ " elements"

def field? (s : Shape) (name : String) : Option Field := s.fields.find? fun f => f.name = name

/-- The fields found, unless one that is required is missing. -/
def checkMissing (s : Shape) (found : Members Json) : Except Fault (Members Json) :=
  match s.fields.find? fun f => f.presence = .required ∧ (found.find? f.name).isNone with
  | some f => .error (.missingField f.name)
  | none => .ok found

end Shape

/-! ## From a JSON value -/

def Field.ofJson (f : Field) (j : Json) : Except Fault Json :=
  match f.presence, j with
  | .nullable, .null => .ok .null
  | _, _ => f.kind.ofJson j

/-- Takes the fields out of the items of a list, in order; `n` counts those before. -/
def Shape.ofItems (s : Shape) : (n : Nat) → List Field → List Json → Except Fault (Members Json)
  | _, [], [] => .ok []
  | n, [], items => .error (.invalidLength (n + items.length) "fewer elements in array")
  | n, f :: fs, [] =>
    if (f :: fs).any fun g => g.presence = .required then .error (.invalidLength n s.wantedElements) else .ok []
  | n, f :: fs, j :: js => do
    let v ← f.ofJson j
    let rest ← s.ofItems (n + 1) fs js
    .ok ((f.name, v) :: rest)

/-- Takes the known members, and the unknown ones if the shape is open. -/
def Shape.ofMembers (s : Shape) : Members Json → Except Fault (Members Json)
  | [] => .ok []
  | (name, j) :: ms =>
    match s.field? name with
    | some f => do
      let v ← f.ofJson j
      let rest ← s.ofMembers ms
      .ok ((name, v) :: rest)
    | none => do
      let rest ← s.ofMembers ms
      .ok (if s.isOpen then (name, j) :: rest else rest)

/-- Takes a record out of a JSON value in which no object repeats a name. -/
def Shape.ofJson (s : Shape) (j : Json) : Except Fault (Members Json) :=
  match j, s.isOpen with
  | .obj ms, _ => do s.checkMissing (← s.ofMembers ms)
  | .arr items, false => s.ofItems 0 s.fields items
  | _, _ => .error (.invalidType (found j) s.wanted)

/-! ## From text -/

/-- The fault of a text where a value of another kind was wanted: the value's own fault if it has one. -/
def mismatch (wanted : String) (b : UInt8) (bs : Bytes) : Fault :=
  if b = 0x5b then .invalidType .sequence wanted
  else if b = 0x7b then .invalidType .map wanted
  else match scalar b bs with
    | .ok (j, _) => .invalidType (found j) wanted
    | .error e => e

def readText (wanted : String) : Reader String := fun bs =>
  match skipSpace bs with
  | [] => .error .endInValue
  | b :: bs => if b = 0x22 then stringBody bs else .error (mismatch wanted b bs)

/-- Reads a value of this kind, in which lists and objects nest at most `depth` deep. -/
def Kind.read (k : Kind) (depth : Nat) : Reader Json := fun bs =>
  match k with
  | .text => do
    let (s, rest) ← readText k.wanted bs
    .ok (.str s, rest)
  | .natural bits =>
    match skipSpace bs with
    | [] => .error .endInValue
    | b :: bs =>
      if b = 0x2d ∨ isDigit b then do
        let (j, rest) ← scalar b bs
        .ok (← asNatural bits j, rest)
      else .error (mismatch k.wanted b bs)
  | .texts =>
    match skipSpace bs with
    | [] => .error .endInValue
    | b :: bs =>
      if b = 0x5b then
        match depth with
        | 0 => .error .recursionLimit
        | _ + 1 => do
          let (items, rest) ← listItems (readText Kind.text.wanted) bs
          .ok (.arr (items.map .str), rest)
      else .error (mismatch k.wanted b bs)
  | .any => do
    let (j, rest) ← value depth bs
    .ok (merged j, rest)

def Field.read (f : Field) (depth : Nat) : Reader Json := fun bs =>
  match f.presence, skipSpace bs with
  | .nullable, 0x6e :: bs => do .ok (.null, ← keyword [0x75, 0x6c, 0x6c] bs)
  | _, bs => f.kind.read depth bs

/-- Reads the end of a record written as a list, all its fields being there. -/
def endOfList (bs : Bytes) : Except Fault Bytes :=
  match skipSpace bs with
  | [] => .error .endInList
  | b :: bs =>
    if b = 0x5d then .ok bs
    else if b = 0x2c ∧ (skipSpace bs).head? = some 0x5d then .error .trailingComma
    else .error .trailingCharacters

/-- Reads the fields of a record written as a list after its opening bracket; `n` counts those before. -/
def Shape.readItems (s : Shape) (depth : Nat) : (n : Nat) → List Field → Reader (Members Json)
  | _, [], bs => do .ok ([], ← endOfList bs)
  | n, f :: fs, bs =>
    let item (bs : Bytes) : Except Fault (Members Json × Bytes) := do
      let (v, bs) ← f.read depth bs
      let (rest, bs) ← s.readItems depth (n + 1) fs bs
      .ok ((f.name, v) :: rest, bs)
    match skipSpace bs with
    | [] => .error .endInList
    | b :: rest =>
      if b = 0x5d then
        if (f :: fs).any fun g => g.presence = .required then .error (.invalidLength n s.wantedElements)
        else .ok ([], rest)
      else if n = 0 then item (b :: rest)
      else if b = 0x2c then
        match skipSpace rest with
        | [] => .error .endInValue
        | c :: rest => if c = 0x5d then .error .trailingComma else item (c :: rest)
      else .error .expectedListCommaOrEnd

/-- The reader for a member of this name, given the fields found so far, last first. -/
def Shape.member (s : Shape) (depth : Nat) (sofar : Members Json) (name : String) :
    Except Fault (Reader (Members Json)) :=
  match s.field? name with
  | some f =>
    if (sofar.find? name).isSome then .error (.duplicateField name)
    else .ok fun bs => do
      let (v, rest) ← f.read depth bs
      .ok ((name, v) :: sofar, rest)
  | none =>
    .ok fun bs =>
      if s.isOpen then do
        let (v, rest) ← value depth bs
        .ok ((name, merged v) :: sofar, rest)
      else do .ok (sofar, ← skipValue bs)

/-- Reads a record in which lists and objects nest at most `depth` deep, itself included. -/
def Shape.read (s : Shape) (depth : Nat) : Reader (Members Json) := fun bs =>
  match skipSpace bs with
  | [] => .error .endInValue
  | b :: bs =>
    if b = 0x7b ∨ (b = 0x5b ∧ ¬s.isOpen) then
      match depth with
      | 0 => .error .recursionLimit
      | depth + 1 =>
        if b = 0x7b then do
          let (found, rest) ← objectMembers (s.member depth) [] bs
          .ok (← s.checkMissing found.reverse, rest)
        else s.readItems depth 0 s.fields bs
    else .error (mismatch s.wanted b bs)

def Shape.parse (s : Shape) (bs : Bytes) : Except Fault (Members Json) := complete (s.read maxDepth) bs

end TransitLink.Json
