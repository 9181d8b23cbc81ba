import TransitLink.Bytes
import TransitLink.Json.Basic

/-!
# Snapshot values

* `Snapshot` : a value of the binary documents in which a server describes its world.
* `Snapshot.ofEntries` : a map, which is a record when all its keys are texts.
* `Snapshot.ofJson` : a JSON value as a snapshot, repeated names kept. `Snapshot.toJson?` : the other way, for values
  without binary parts, maps and non-finite numbers.
-/

namespace TransitLink

set_option autoImplicit false

/-- A snapshot value. Maps keep the order of the wire. -/
inductive Snapshot where
  | nil
  | boolean (b : Bool)
  | integer (n : Int)
  | float (x : Double)
  | text (s : String)
  | binary (bs : Bytes)
  | sequence (items : List Snapshot)
  /-- A map with a key that is no text. -/
  | mapping (entries : List (Snapshot × Snapshot))
  /-- A map whose keys are texts. -/
  | record (fields : List (String × Snapshot))
deriving Inhabited

namespace Snapshot

def kind : Snapshot → String
  | nil => "nil"
  | boolean _ => "boolean"
  | integer _ => "integer"
  | float _ => "float"
  | text _ => "text"
  | binary _ => "binary"
  | sequence _ => "sequence"
  | mapping _ => "mapping"
  | record _ => "record"

/-! ## Maps -/

def fields? : List (Snapshot × Snapshot) → Option (List (String × Snapshot))
  | [] => some []
  | (text k, v) :: es => (fields? es).map ((k, v) :: ·)
  | _ :: _ => none

/-- A map, which is a record when all its keys are texts. -/
def ofEntries (es : List (Snapshot × Snapshot)) : Snapshot :=
  match fields? es with
  | some fs => record fs
  | none => mapping es

/-! ## Canonical form -/

mutual

/-- The value with every map whose keys are all texts as a record. -/
def canonical : Snapshot → Snapshot
  | sequence items => sequence (canonicalItems items)
  | mapping es => ofEntries (canonicalEntries es)
  | record fs => record (canonicalFields fs)
  | v => v

def canonicalItems : List Snapshot → List Snapshot
  | [] => []
  | v :: vs => canonical v :: canonicalItems vs

def canonicalEntries : List (Snapshot × Snapshot) → List (Snapshot × Snapshot)
  | [] => []
  | (k, v) :: es => (canonical k, canonical v) :: canonicalEntries es

def canonicalFields : List (String × Snapshot) → List (String × Snapshot)
  | [] => []
  | (k, v) :: fs => (k, canonical v) :: canonicalFields fs

end

/-! ## JSON values -/

mutual

def ofJson : Json → Snapshot
  | .null => nil
  | .bool b => boolean b
  | .int n => integer n
  | .float x => float x
  | .str s => text s
  | .arr items => sequence (ofJsonItems items)
  | .obj ms => record (ofJsonMembers ms)

def ofJsonItems : List Json → List Snapshot
  | [] => []
  | j :: js => ofJson j :: ofJsonItems js

def ofJsonMembers : List (String × Json) → List (String × Snapshot)
  | [] => []
  | (k, j) :: ms => (k, ofJson j) :: ofJsonMembers ms

end

mutual

/-- The JSON value that the snapshot is, if it has only parts that JSON knows. Repeated names are kept. -/
def toJson? : Snapshot → Option Json
  | nil => some .null
  | boolean b => some (.bool b)
  | integer n => some (.int n)
  | float x => if x.isFinite then some (.float x) else none
  | text s => some (.str s)
  | binary _ => none
  | sequence items => (toJsonItems? items).map .arr
  | mapping _ => none
  | record fs => (toJsonMembers? fs).map .obj

def toJsonItems? : List Snapshot → Option (List Json)
  | [] => some []
  | v :: vs => do (← toJson? v) :: (← toJsonItems? vs)

def toJsonMembers? : List (String × Snapshot) → Option (List (String × Json))
  | [] => some []
  | (k, v) :: fs => do (k, ← toJson? v) :: (← toJsonMembers? fs)

end

end Snapshot
end TransitLink
