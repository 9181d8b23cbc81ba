import TransitLink.Snapshot.Basic

/-!
# Reading snapshots

* `Marker.ofOctet` : what the first octet of a value announces.
* `Snapshot.read` : reads a value in which containers nest at most `depth` deep, and the octets after it.
* `Snapshot.unpack` : the value at the front of some octets.

Any form of an integer or a length is read, also one longer than needed. A text that is not UTF-8 is read as octets, an
extension as the list of its type and its octets. A container counts for nesting once its length has been read.
-/

namespace TransitLink.Snapshot

set_option autoImplicit false

/-! ## Faults -/

inductive UnpackFault where
  /-- They end where a value should begin. -/
  | endAtMarker
  /-- They end inside a number, a length or an extension's type. -/
  | endInHeader
  /-- They end inside a text, octets or an extension. -/
  | endInContent
  /-- A value begins with the one octet that means nothing. -/
  | reserved
  /-- Containers nest too deep. -/
  | tooDeep
deriving DecidableEq

def UnpackFault.message : UnpackFault → String
  | endAtMarker => "IO error while reading marker: failed to fill whole buffer"
  | endInHeader => "IO error while reading data: failed to fill whole buffer"
  | endInContent => "IO error while reading data: unexpected end of file"
  | reserved => "wrong msgpack marker Reserved"
  | tooDeep => "depth limit exceeded"

/-! ## Markers -/

/-- How many octets or items follow: as told by the marker, or in a field of so many octets. -/
inductive Extent where
  | known (n : Nat)
  | field (width : Nat)
deriving DecidableEq

/-- What the first octet of a value announces. -/
inductive Marker where
  | nil
  | boolean (b : Bool)
  | small (n : Int)
  | natural (width : Nat)
  | signed (width : Nat)
  | single
  | double
  | text (size : Extent)
  | binary (size : Extent)
  | list (count : Extent)
  | map (count : Extent)
  | extension (size : Extent)
  | reserved
deriving DecidableEq

def Marker.ofOctet (b : UInt8) : Marker :=
  let n := b.toNat
  if n < 0x80 then .small n
  else if n < 0x90 then .map (.known (n - 0x80))
  else if n < 0xa0 then .list (.known (n - 0x90))
  else if n < 0xc0 then .text (.known (n - 0xa0))
  else if 0xe0 ≤ n then .small ((n : Int) - 256)
  else match n with
    | 0xc0 => .nil
    | 0xc2 => .boolean false
    | 0xc3 => .boolean true
    | 0xc4 => .binary (.field 1)
    | 0xc5 => .binary (.field 2)
    | 0xc6 => .binary (.field 4)
    | 0xc7 => .extension (.field 1)
    | 0xc8 => .extension (.field 2)
    | 0xc9 => .extension (.field 4)
    | 0xca => .single
    | 0xcb => .double
    | 0xcc => .natural 1
    | 0xcd => .natural 2
    | 0xce => .natural 4
    | 0xcf => .natural 8
    | 0xd0 => .signed 1
    | 0xd1 => .signed 2
    | 0xd2 => .signed 4
    | 0xd3 => .signed 8
    | 0xd4 => .extension (.known 1)
    | 0xd5 => .extension (.known 2)
    | 0xd6 => .extension (.known 4)
    | 0xd7 => .extension (.known 8)
    | 0xd8 => .extension (.known 16)
    | 0xd9 => .text (.field 1)
    | 0xda => .text (.field 2)
    | 0xdb => .text (.field 4)
    | 0xdc => .list (.field 2)
    | 0xdd => .list (.field 4)
    | 0xde => .map (.field 2)
    | 0xdf => .map (.field 4)
    | _ => .reserved

/-! ## Parts of a value -/

abbrev Reader (α : Type) := Bytes → Except UnpackFault (α × Bytes)

def readNatural (width : Nat) : Reader Nat := fun bs =>
  match bs.split? width with
  | some (ds, rest) => .ok (Bytes.ofBigEndian ds, rest)
  | none => .error .endInHeader

def readExtent : Extent → Reader Nat
  | .known n, bs => .ok (n, bs)
  | .field width, bs => readNatural width bs

def readContent (n : Nat) : Reader Bytes := fun bs =>
  match bs.split? n with
  | some (ds, rest) => .ok (ds, rest)
  | none => .error .endInContent

/-- Reads so many things one after another; `done` holds those before, last first. -/
def readMany {α : Type} (item : Reader α) (done : List α) : (n : Nat) → Reader (List α)
  | 0, bs => .ok (done.reverse, bs)
  | n + 1, bs =>
    match item bs with
    | .error e => .error e
    | .ok (v, bs) => readMany item (v :: done) n bs

def readEntry (item : Reader Snapshot) : Reader (Snapshot × Snapshot) := fun bs => do
  let (k, bs) ← item bs
  let (v, bs) ← item bs
  .ok ((k, v), bs)

/-- A text if the octets are UTF-8, else the octets. -/
def ofContent (bs : Bytes) : Snapshot :=
  match Bytes.text? bs with
  | some s => text s
  | none => binary bs

/-! ## Values -/

/-- Reads what a marker announces. `item` reads the values inside a container, and is absent where a container would be
nested too deep. -/
def readAfter (item : Option (Reader Snapshot)) (marker : Marker) : Reader Snapshot := fun bs =>
  match marker with
  | .nil => .ok (nil, bs)
  | .boolean b => .ok (boolean b, bs)
  | .small n => .ok (integer n, bs)
  | .natural width => do
    let (n, bs) ← readNatural width bs
    .ok (integer n, bs)
  | .signed width => do
    let (n, bs) ← readNatural width bs
    .ok (integer (Bytes.signed (8 * width) n), bs)
  | .single => do
    let (n, bs) ← readNatural 4 bs
    .ok (float (Double.ofSingleBits n), bs)
  | .double => do
    let (n, bs) ← readNatural 8 bs
    .ok (float ⟨.ofNat n⟩, bs)
  | .text size => do
    let (n, bs) ← readExtent size bs
    let (ds, bs) ← readContent n bs
    .ok (ofContent ds, bs)
  | .binary size => do
    let (n, bs) ← readExtent size bs
    let (ds, bs) ← readContent n bs
    .ok (binary ds, bs)
  | .list count => do
    let (n, bs) ← readExtent count bs
    match item with
    | none => .error .tooDeep
    | some item =>
      let (items, bs) ← readMany item [] n bs
      .ok (sequence items, bs)
  | .map count => do
    let (n, bs) ← readExtent count bs
    match item with
    | none => .error .tooDeep
    | some item =>
      let (es, bs) ← readMany (readEntry item) [] n bs
      .ok (ofEntries es, bs)
  | .extension size => do
    let (n, bs) ← readExtent size bs
    match item with
    | none => .error .tooDeep
    | some _ =>
      let (type, bs) ← readNatural 1 bs
      let (ds, bs) ← readContent n bs
      .ok (sequence [integer (Bytes.signed 8 type), binary ds], bs)
  | .reserved => .error .reserved

def readWith (item : Option (Reader Snapshot)) : Reader Snapshot
  | [] => .error .endAtMarker
  | b :: bs => readAfter item (Marker.ofOctet b) bs

/-- Reads a value in which containers nest at most `depth` deep. -/
def read : (depth : Nat) → Reader Snapshot
  | 0 => readWith none
  | depth + 1 => readWith (some (read depth))

def maxDepth : Nat := 1023

/-- The value at the front of some octets; what follows it does not matter. -/
def unpack (bs : Bytes) : Except UnpackFault Snapshot := (read maxDepth bs).map Prod.fst

end TransitLink.Snapshot
