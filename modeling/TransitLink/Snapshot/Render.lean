import TransitLink.Base64
import TransitLink.Snapshot.Basic

/-!
# Snapshots as plain JSON

* `Snapshot.render` : a snapshot as a JSON value that any reader can hold.
* `Snapshot.compact` : folds a text and the item after it, where they follow an object in a list, into that object.

An integer whose magnitude a double cannot hold is rendered as its decimal digits, a non-finite number by its name,
octets as base64, and a map with keys other than texts as an object that is tagged as a map. A field whose name is that
of an unprintable object is dropped.
-/

namespace TransitLink.Snapshot

set_option autoImplicit false

/-- The largest magnitude up to which a double holds every integer. -/
def maxSafeInteger : Int := 2 ^ 53 - 1

/-- An integer: a number if a double can hold it, else its digits. -/
def renderInteger (n : Int) : Json :=
  if -maxSafeInteger ≤ n ∧ n ≤ maxSafeInteger then .int n else .str (toString n)

/-- A double: a number if it is finite, else its name. -/
def renderFloat (x : Double) : Json :=
  if x.isFinite then .float x
  else .str (if x.isNaN then "NaN" else if x.isNegative then "-Infinity" else "Infinity")

/-- How the name of a field begins that stands for an object without a text of its own. -/
def placeholderStart : String := "[object "

def isPlaceholder (name : String) : Bool := placeholderStart.toList.isPrefixOf name.toList

/-- A map as an object with a tag and the pairs of its keys and values. -/
def taggedMap (pairs : List Json) : Json := .obj [("__type", .str "Map"), ("entries", .arr pairs)]

/-! ## Compaction -/

/-- `compact` on the items after `last`, which may still take in members. -/
def compactAfter (last : Json) : List Json → List Json
  | [] => [last]
  | [item] => [last, item]
  | item :: next :: items =>
    match last, item with
    | .obj ms, .str name => compactAfter (.obj (Members.put ms name next)) items
    | _, _ => last :: compactAfter item (next :: items)

/-- Folds every text that directly follows an object, and has an item after it, into that object: the text names a
member, the item after it is its value. -/
def compact : List Json → List Json
  | [] => []
  | item :: items => compactAfter item items

/-! ## Rendering -/

mutual

/-- A snapshot as plain JSON; `compacting` says whether lists are compacted. -/
def render (compacting : Bool) : Snapshot → Json
  | nil => .null
  | boolean b => .bool b
  | integer n => renderInteger n
  | float x => renderFloat x
  | text s => .str s
  | binary bs => .str (Base64.encodeText bs)
  | sequence items =>
    let items := renderItems compacting items
    .arr (if compacting then compact items else items)
  | mapping es => taggedMap (renderEntries compacting es)
  | record fs => .obj (renderFields compacting [] fs)

def renderItems (compacting : Bool) : List Snapshot → List Json
  | [] => []
  | v :: vs => render compacting v :: renderItems compacting vs

def renderEntries (compacting : Bool) : List (Snapshot × Snapshot) → List Json
  | [] => []
  | (k, v) :: es => .arr [render compacting k, render compacting v] :: renderEntries compacting es

/-- The members that fields add to `sofar`. -/
def renderFields (compacting : Bool) (sofar : Members Json) : List (String × Snapshot) → Members Json
  | [] => sofar
  | (k, v) :: fs =>
    renderFields compacting (if isPlaceholder k then sofar else sofar.put k (render compacting v)) fs

end

end TransitLink.Snapshot
