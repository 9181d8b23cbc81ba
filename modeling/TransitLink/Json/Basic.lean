import TransitLink.Number.Double

/-!
# JSON values

* `Json` : a JSON value. Integers and doubles are told apart, members keep the order in which they were written.
* `Members` : a list of named values, with `find?`, `put` (a repeated name keeps the first position and takes the last
  value) and `merge` (every name once).
* `Json.merged` : a value in which no object repeats a name, at any depth.
-/

namespace TransitLink

set_option autoImplicit false

/-- Named values in the order in which they were written. -/
abbrev Members (α : Type) := List (String × α)

namespace Members

variable {α : Type}

def find? (name : String) : Members α → Option α
  | [] => none
  | (k, v) :: ms => if k = name then some v else find? name ms

/-- Gives `name` the value `v`: in the place of its first occurrence, else at the end. -/
def put (ms : Members α) (name : String) (v : α) : Members α :=
  match ms with
  | [] => [(name, v)]
  | (k, w) :: ms => if k = name then (k, v) :: ms else (k, w) :: put ms name v

/-- Every name once, at its first place and with its last value. -/
def merge (ms : Members α) : Members α := ms.foldl (fun acc m => acc.put m.1 m.2) []

def names (ms : Members α) : List String := ms.map Prod.fst

end Members

inductive Json where
  | null
  | bool (b : Bool)
  | int (n : Int)
  | float (x : Double)
  | str (s : String)
  | arr (items : List Json)
  | obj (members : List (String × Json))
deriving Inhabited

namespace Json

/-! ## Access -/

def get? (name : String) : Json → Option Json
  | obj ms => Members.find? name ms
  | _ => none

def items? : Json → Option (List Json)
  | arr items => some items
  | _ => none

def text? : Json → Option String
  | str s => some s
  | _ => none

/-! ## Repeated names -/

mutual

/-- The value with every name of every object once. -/
def merged : Json → Json
  | arr items => arr (mergedItems items)
  | obj ms => obj (Members.merge (mergedMembers ms))
  | j => j

def mergedItems : List Json → List Json
  | [] => []
  | j :: js => merged j :: mergedItems js

def mergedMembers : List (String × Json) → List (String × Json)
  | [] => []
  | (k, j) :: ms => (k, merged j) :: mergedMembers ms

end

end Json
end TransitLink
