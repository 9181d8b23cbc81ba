import TransitLink.Probe.Route

/-!
# Disks

* `Disk` : what a program can do with files, and what the operating system says to it.
* `Disk.makeAll` : makes a directory together with those on the way to it, by steps that make one each.
-/

namespace TransitLink.Probe

set_option autoImplicit false

/-- What a program can do with files. What was done before a refusal stays done. -/
structure Disk (m : Type → Type) where
  /-- Whether something stands at the end of a route. -/
  leads : Route → m Bool
  /-- Whether a directory stands there. -/
  leadsToDirectory : Route → m Bool
  /-- Makes one directory. -/
  make : Route → m (Except OsFault Unit)
  /-- Removes a directory and all below it. -/
  remove : Route → m (Except OsFault Unit)
  /-- Makes or replaces a file. -/
  write : Route → Bytes → m (Except OsFault Unit)

namespace Disk

variable {m : Type → Type} [Monad m]

/-- Makes one directory; it may be there already. -/
def ensure (d : Disk m) (r : Route) : m (Except OsFault Unit) := do
  match ← d.make r with
  | .error .alreadyExists => return if ← d.leadsToDirectory r then .ok () else .error .alreadyExists
  | made => return made

/-- Makes the first of these directories that has one to stand in; `missing` are those before it, last one first. Gives
back the directories that are still missing. -/
def makeFirst (d : Disk m) (missing : List Route) : List Route → m (Except OsFault (List Route))
  | [] => return .ok missing
  | r :: rs => do
    match ← d.ensure r with
    | .ok () => return .ok missing
    | .error .notFound => d.makeFirst (r :: missing) rs
    | .error e => return .error e

def makeEach (d : Disk m) : List Route → m (Except OsFault Unit)
  | [] => return .ok ()
  | r :: rs => do
    match ← d.ensure r with
    | .ok () => d.makeEach rs
    | .error e => return .error e

def makeAll (d : Disk m) (r : Route) : m (Except OsFault Unit) := do
  if r.essential = [] then return .ok ()
  match ← d.makeFirst [] (r :: r.parents) with
  | .error e => return .error e
  | .ok missing => d.makeEach missing

end Disk
end TransitLink.Probe
