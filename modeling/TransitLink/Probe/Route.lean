import TransitLink.Bytes
import TransitLink.Probe.OsFault

/-!
# Routes

* `Route` : a path as it is written, taken apart at its slashes.
* `Route.ofText`, `Route.text` : the route that a text names, and back.
* `Route.parents` : the routes to the directories on the way, the longest first.
* `Route.join` : the text of a name below a directory.

A dot is a step that stays in its directory, and so is a slash at the end: neither leads out of a file. As the last step
a dot is no name that could be made or removed.
-/

namespace TransitLink.Probe

set_option autoImplicit false

inductive Step where
  /-- Stays in the directory. -/
  | stay
  /-- Goes to the directory above. -/
  | up
  /-- Goes to what has this name in the directory. -/
  | down (name : String)
deriving DecidableEq

namespace Step

/-- The step between two slashes; there is none if nothing stands there. -/
def ofText? (s : String) : Option Step :=
  if s = "" then none else if s = "." then some stay else if s = ".." then some up else some (down s)

def text : Step → String
  | stay => "."
  | up => ".."
  | down name => name

end Step

structure Route where
  /-- Whether it starts at the root and not at the working directory. -/
  fromRoot : Bool
  steps : List Step
  /-- Whether it ends in a slash. -/
  slashed : Bool
deriving DecidableEq

namespace Route

def maxLength : Nat := 4095

/-- The parts of a text between slashes; `part` is the current one, last character first. -/
def splitFrom (part : List Char) : List Char → List String
  | [] => [String.ofList part.reverse]
  | c :: cs => if c = '/' then String.ofList part.reverse :: splitFrom [] cs else splitFrom (c :: part) cs

/-- The route that a text names. It must not be too long, nor hold the character that ends a path. -/
def ofText (path : String) : Except OsFault Route :=
  let cs := path.toList
  if cs.contains (Char.ofNat 0) then .error .nulInName
  else if maxLength < (Bytes.ofText path).length then .error .nameTooLong
  else .ok ⟨cs.head? = some '/', (splitFrom [] cs).filterMap Step.ofText?, cs.getLast? = some '/'⟩

def text (r : Route) : String :=
  (if r.fromRoot then "/" else "") ++ String.intercalate "/" (r.steps.map Step.text) ++ (if r.slashed then "/" else "")

/-- All steps, the one at a slash at the end included. -/
def whole (r : Route) : List Step := if r.slashed then r.steps ++ [.stay] else r.steps

/-- The steps up to the last one that leads somewhere. -/
def essential (r : Route) : List Step := (r.steps.reverse.dropWhile fun s => s = .stay).reverse

/-- The routes to the directories on the way, the longest first. None of them ends in a dot. -/
def parents (r : Route) : List Route :=
  let starts := (List.range r.essential.length).reverse.map r.essential.take
  (starts.filter fun ss => ss ≠ [] ∧ ss.getLast? ≠ some .stay).map fun ss => ⟨r.fromRoot, ss, false⟩

/-- The route to the directory of the last step, as it is written. -/
def parent (r : Route) : Route := ⟨r.fromRoot, r.steps.dropLast, false⟩

/-- A name below a directory. The empty text is the working directory; a name from the root is the same everywhere. -/
def join (dir name : String) : String :=
  if name.toList.head? = some '/' then name
  else if dir = "" ∨ dir.toList.getLast? = some '/' then dir ++ name
  else dir ++ "/" ++ name

end Route
end TransitLink.Probe
