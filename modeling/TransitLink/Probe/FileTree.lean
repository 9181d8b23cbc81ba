import TransitLink.Probe.Disk

/-!
# Trees of files

* `FileTree` : what stands where below a root directory.
* `FileTree.find` : where a route leads.
* `FileTree.makeDirectory`, `removeDirectory`, `writeFile` : what a program does to the tree, refused as an operating
  system refuses it. `FileTree.disk` : all of it as a disk.

There are no links. A route is taken step by step, and each step needs a directory to start in.
-/

namespace TransitLink.Probe

set_option autoImplicit false

/-- The names from the root down to what stands somewhere. -/
abbrev Path := List String

inductive Node where
  | directory
  | file (content : Bytes)
  /-- A device that takes what is written and keeps nothing. -/
  | sink
deriving DecidableEq

structure FileTree where
  /-- What stands at each path but the root's own. -/
  entries : List (Path × Node)
  /-- The working directory, in which a route starts if it does not start at the root. -/
  here : Path

namespace FileTree

def node? (t : FileTree) (p : Path) : Option Node :=
  if p = [] then some .directory else (t.entries.find? fun e => e.1 = p).map Prod.snd

def put (t : FileTree) (p : Path) (n : Node) : FileTree :=
  { t with entries := t.entries.filter (fun e => e.1 ≠ p) ++ [(p, n)] }

def erase (t : FileTree) (p : Path) : FileTree := { t with entries := t.entries.filter fun e => e.1 ≠ p }

/-- What stands below a path, by the names from there. -/
def below (t : FileTree) (p : Path) : List (Path × Node) :=
  t.entries.filterMap fun e => if p.isPrefixOf e.1 ∧ e.1 ≠ p then some (e.1.drop p.length, e.2) else none

/-- The tree without what stands below a path. -/
def clear (t : FileTree) (p : Path) : FileTree :=
  { t with entries := t.entries.filter fun e => e.1 = p || !p.isPrefixOf e.1 }

/-! ## Where routes lead -/

def maxName : Nat := 255

def lookUp (t : FileTree) (p : Path) (name : String) : Except OsFault Node :=
  if maxName < (Bytes.ofText name).length then .error .nameTooLong
  else match t.node? (p ++ [name]) with
    | some n => .ok n
    | none => .error .notFound

def step (t : FileTree) (p : Path) : Step → Except OsFault Path
  | .stay => .ok p
  | .up => .ok p.dropLast
  | .down name => (t.lookUp p name).map fun _ => p ++ [name]

/-- Nothing, if a directory stands at a path. -/
def requireDirectory (t : FileTree) (p : Path) : Except OsFault Unit :=
  match t.node? p with
  | some .directory => .ok ()
  | some _ => .error .notDirectory
  | none => .error .notFound

/-- Takes steps; each starts in a directory. -/
def walk (t : FileTree) (p : Path) : List Step → Except OsFault Path
  | [] => .ok p
  | s :: ss => do
    t.requireDirectory p
    walk t (← t.step p s) ss

/-- Where a route starts. A route without a step that does not start at the root leads nowhere. -/
def start (t : FileTree) (r : Route) : Except OsFault Path :=
  if r.fromRoot then .ok [] else if r.steps = [] then .error .notFound else .ok t.here

def find (t : FileTree) (r : Route) : Except OsFault Path := do t.walk (← t.start r) r.whole

/-- The directory in which the last step of a route is taken. -/
def findParent (t : FileTree) (r : Route) : Except OsFault Path := do
  let p ← t.walk (← t.start r) r.steps.dropLast
  t.requireDirectory p
  return p

def target? (t : FileTree) (r : Route) : Option Node := (t.find r).toOption.bind t.node?

/-! ## What can be done to a tree -/

def makeDirectory (t : FileTree) (r : Route) : Except OsFault FileTree := do
  let p ← t.findParent r
  match r.steps.getLast? with
  | some (.down name) =>
    match t.lookUp p name with
    | .error .notFound => .ok (t.put (p ++ [name]) .directory)
    | .error e => .error e
    | .ok _ => .error .alreadyExists
  | _ => .error .alreadyExists

/-- Removes a directory that is empty. It has to be named: neither a dot nor the root will do. -/
def removeEmpty (t : FileTree) (r : Route) : Except OsFault FileTree := do
  let p ← t.findParent r
  match r.steps.getLast? with
  | some (.down name) =>
    match ← t.lookUp p name with
    | .directory => if t.below (p ++ [name]) = [] then .ok (t.erase (p ++ [name])) else .error .notEmpty
    | _ => .error .notDirectory
  | some .stay => .error .invalidArgument
  | some .up => .error .notEmpty
  | none => .error .busy

/-- Removes a directory and all below it. What is below goes first, so a route through it leads nowhere in the end; the
directory is then taken for removed. -/
def removeDirectory (t : FileTree) (r : Route) : FileTree × Except OsFault Unit :=
  match t.find r with
  | .error e => (t, .error e)
  | .ok p =>
    match t.requireDirectory p with
    | .error e => (t, .error e)
    | .ok () =>
      let t := t.clear p
      match t.removeEmpty r with
      | .ok t => (t, .ok ())
      | .error .notFound => (t, .ok ())
      | .error e => (t, .error e)

def writeFile (t : FileTree) (r : Route) (content : Bytes) : Except OsFault FileTree := do
  let p ← t.findParent r
  match r.steps.getLast?, r.slashed with
  | some (.down name), false =>
    match t.lookUp p name with
    | .ok .directory => .error .isDirectory
    | .ok .sink => .ok t
    | .ok (.file _) | .error .notFound => .ok (t.put (p ++ [name]) (.file content))
    | .error e => .error e
  | _, _ => .error .isDirectory

/-! ## The tree as a disk -/

/-- Changes a tree unless the change is refused. -/
def changeBy (change : FileTree → Except OsFault FileTree) : StateM FileTree (Except OsFault Unit) := fun t =>
  match change t with
  | .ok t => (.ok (), t)
  | .error e => (.error e, t)

def disk : Disk (StateM FileTree) where
  leads r := fun t => ((t.target? r).isSome, t)
  leadsToDirectory r := fun t => (t.target? r == some .directory, t)
  make r := changeBy fun t => t.makeDirectory r
  remove r := fun t => ((t.removeDirectory r).2, (t.removeDirectory r).1)
  write r content := changeBy fun t => t.writeFile r content

end FileTree
end TransitLink.Probe
