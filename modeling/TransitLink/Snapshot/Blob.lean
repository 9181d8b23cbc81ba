import TransitLink.Failure
import TransitLink.Json.Record
import TransitLink.Snapshot.Render
import TransitLink.Text.Blank

/-!
# Snapshots inside responses

* `Blob` : the base64 text of a packed snapshot, with `octets`, `decode` and `toJson`.
* `Entry` : one dimension of a snapshot response, `entries` : the entries of a response's payload.
-/

namespace TransitLink.Snapshot

set_option autoImplicit false

/-! ## Blobs -/

structure Blob where
  text : String
deriving DecidableEq

/-- The packed octets. Blanks around the text do not count. -/
def Blob.octets (b : Blob) : Except Failure Bytes :=
  (Base64.decode (Bytes.ofText (Text.trim b.text))).mapError .ofBase64Fault

def Blob.decode (b : Blob) : Except Failure Snapshot := do
  (unpack (← b.octets)).mapError .ofUnpackFault

def Blob.toJson (b : Blob) (compacting : Bool) : Except Failure Json := do
  .ok (render compacting (← b.decode))

/-! ## Entries -/

/-- One dimension of a snapshot response. -/
structure Entry where
  dimension : Option String
  payload : Option Blob
deriving DecidableEq

namespace Entry

def shape : Json.Shape where
  name := "SnapshotEntry"
  fields := [⟨"dimension", .text, .nullable⟩, ⟨"payload", .text, .nullable⟩]

def ofMembers (ms : Members Json) : Entry :=
  ⟨(ms.find? "dimension").bind Json.text?, ((ms.find? "payload").bind Json.text?).map Blob.mk⟩

def ofJson (j : Json) : Except Json.Fault Entry := (shape.ofJson j).map ofMembers

def parse (bs : Bytes) : Except Json.Fault Entry := (shape.parse bs).map ofMembers

def toJson (e : Entry) : Json :=
  .obj [("dimension", (e.dimension.map .str).getD .null), ("payload", (e.payload.map fun b => .str b.text).getD .null)]

end Entry

/-- The entries of a snapshot response's payload. Items of another shape are passed over, and so is a payload without a
list of snapshots. -/
def entries (payload : Json) : List Entry :=
  (((payload.get? "snapshots").bind Json.items?).getD []).filterMap fun j => (Entry.ofJson j).toOption

end TransitLink.Snapshot
