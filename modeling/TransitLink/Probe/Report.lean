import TransitLink.Json.Printer
import TransitLink.Probe.Disk
import TransitLink.Probe.Plan

/-!
# The report of a probe

* `slug` : a text made fit for the name of a file.
* `Report.document` : a value with the time at which it was written.
* `Report.prepare` : an empty directory for a report. `Report.write` : a file in it.
-/

namespace TransitLink.Probe

set_option autoImplicit false

/-- Whether a character may stand in the name of a file. -/
def isPlain (c : Char) : Bool :=
  ('0' ≤ c && c ≤ '9') || ('A' ≤ c && c ≤ 'Z') || ('a' ≤ c && c ≤ 'z') || c == '_' || c == '-'

/-- A text with every character that may not stand in the name of a file replaced by an underscore. -/
def slug (s : String) : String := String.ofList (s.toList.map fun c => if isPlain c then c else '_')

namespace Report

/-- A value with the time at which it was written, over several lines. -/
def document (timestamp : String) (data : Json) : Bytes :=
  Bytes.ofText ((Json.obj [("timestamp", .str timestamp), ("data", data)]).pretty ++ "\n")

def octets (timestamp : String) : Content → Bytes
  | .document data => document timestamp data
  | .octets bs => bs

def uncleared (path : String) (e : OsFault) : Trouble := .ofOsFault ("Failed to clear " ++ path) e

def unmade (path : String) (e : OsFault) : Trouble := .ofOsFault ("Failed to create " ++ path) e

def unwritten (path : String) (e : OsFault) : Trouble := .ofOsFault ("Failed to write " ++ path) e

variable {m : Type → Type} [Monad m]

/-- Clears a directory, or makes it. -/
def prepare (d : Disk m) (dir : String) : m (Except Trouble Unit) := do
  match Route.ofText dir with
  | .error e => return .error (unmade dir e)
  | .ok r =>
    let cleared ← if ← d.leads r then d.remove r else pure (.ok ())
    match cleared with
    | .error e => return .error (uncleared dir e)
    | .ok () => return (← d.makeAll r).mapError (unmade dir)

/-- Writes a file of the report. Gives back the path of the file. -/
def write (d : Disk m) (dir name : String) (content : Bytes) : m (Except Trouble String) := do
  let path := Route.join dir name
  match Route.ofText path with
  | .error e => return .error (unwritten path e)
  | .ok r => return ((← d.write r content).map fun _ => path).mapError (unwritten path)

end Report
end TransitLink.Probe
