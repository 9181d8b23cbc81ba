import TransitLink.Config
import TransitLink.Json.Basic
import TransitLink.Number.Decimal
import TransitLink.Probe.Trouble

/-!
# Settings of a probe

* `DotEnv.parse` : the variables that a settings file sets, each by its first line.
* `Settings.ofLookup` : the settings that some variables and an argument make.
* `Settings.load` : the same, where a variable of the process goes before one of the settings file.

A blank value counts as none, except that a blank dimension asks for every dimension.
-/

namespace TransitLink.Probe

set_option autoImplicit false

/-! ## Settings files -/

namespace DotEnv

/-- The name and the value of a line, unless it is blank, a comment, or without a name. -/
def entry? (line : List Char) : Option (String × String) :=
  if (Text.trimChars line).isEmpty || line.head? == some '#' || !line.contains '=' then none
  else
    let name := Text.trimChars (line.takeWhile (· ≠ '='))
    let value := Text.trimChars ((line.dropWhile (· ≠ '=')).drop 1)
    if name.isEmpty then none else some (String.ofList name, String.ofList value)

def firstOfEach : Members String → Members String
  | [] => []
  | (k, v) :: ms => (k, v) :: (firstOfEach ms).filter fun m => m.1 ≠ k

def parse (text : String) : Members String := firstOfEach ((Text.lines text).filterMap entry?)

end DotEnv

/-! ## Settings -/

structure RailwayQuery where
  /-- Absent to ask for every dimension. -/
  dimension : Option String
  routeId : Int
  stationId : Option String
  platformId : Option String
  depotId : Int
deriving DecidableEq

structure Settings where
  gateway : Config
  outputDir : String
  railway : RailwayQuery
deriving DecidableEq

namespace Settings

def defaultDimension : String := "minecraft:overworld"

def defaultOutputDir : String := "output"

/-- A value without the blanks around it; none if nothing is left. -/
def nonBlank (v : Option String) : Option String :=
  v.bind fun s =>
    let t := Text.trim s
    if t = "" then none else some t

def number {α : Type} (name : String) (parse : String → Except Decimal.Fault α) (value : String) : Except Trouble α :=
  (parse value).mapError fun e => ⟨["Invalid " ++ name ++ ": " ++ value], .fault e.message⟩

def optionalNumber {α : Type} (name : String) (parse : String → Except Decimal.Fault α) (value : Option String)
    (default : α) : Except Trouble α :=
  match nonBlank value with
  | some v => number name parse v
  | none => .ok default

def variableNames : List String :=
  ["PROVIDER_HOST", "PROVIDER_PORT", "PROVIDER_TOKEN", "REQUEST_TIMEOUT_MS", "OUTPUT_DIR", "PROVIDER_MTR_DIMENSION",
    "PROVIDER_MTR_ROUTE_ID", "PROVIDER_MTR_STATION_ID", "PROVIDER_MTR_PLATFORM_ID", "PROVIDER_MTR_DEPOT_ID"]

/-- The settings that some variables and an argument make; `process` is the number of the process. -/
def ofLookup (process : Nat) (lookup : String → Option String) (arg : Option String) : Except Trouble Settings := do
  let base := Config.default process
  let service ← optionalNumber "PROVIDER_PORT" (Decimal.parseNatural 16) (lookup "PROVIDER_PORT") base.service.toNat
  let timeout ← optionalNumber "REQUEST_TIMEOUT_MS" (Decimal.parseNatural 64) (lookup "REQUEST_TIMEOUT_MS")
    base.requestTimeout.milliseconds
  let gateway := { base with
    host := (nonBlank (lookup "PROVIDER_HOST")).getD base.host
    service := .ofNat service
    token := (nonBlank (lookup "PROVIDER_TOKEN")).getD base.token
    requestTimeout := .ofMilliseconds timeout }
  gateway.validate.mapError Trouble.ofFailure
  let routeId ← optionalNumber "PROVIDER_MTR_ROUTE_ID" Decimal.parseInt64 (lookup "PROVIDER_MTR_ROUTE_ID") 0
  let depotId ← optionalNumber "PROVIDER_MTR_DEPOT_ID" Decimal.parseInt64 (lookup "PROVIDER_MTR_DEPOT_ID") 0
  .ok {
    gateway := gateway
    outputDir := (arg.or (nonBlank (lookup "OUTPUT_DIR"))).getD defaultOutputDir
    railway := {
      dimension := match lookup "PROVIDER_MTR_DIMENSION" with
        | none => some defaultDimension
        | some v => nonBlank (some v)
      routeId := routeId
      stationId := nonBlank (lookup "PROVIDER_MTR_STATION_ID")
      platformId := nonBlank (lookup "PROVIDER_MTR_PLATFORM_ID")
      depotId := depotId } }

inductive File where
  | absent
  | unreadable (why : OsFault)
  | content (bs : Bytes)

def File.entries : File → Except Trouble (Members String)
  | absent => .ok []
  | unreadable why => .error (.ofOsFault "Failed to read .env" why)
  | content bs =>
    match Bytes.text? bs with
    | some text => .ok (DotEnv.parse text)
    | none => .error (.ofOsFault "Failed to read .env" .notUtf8)

/-- The value of a variable: the process's, else the settings file's. -/
def lookup (process file : Members String) (name : String) : Option String := (process.find? name).or (file.find? name)

/-- The settings of a process with these variables, a settings file and an argument. -/
def load (process : Nat) (environment : Members String) (file : File) (arg : Option String) :
    Except Trouble Settings := do
  let entries ← file.entries
  ofLookup process (lookup environment entries) arg

end Settings
end TransitLink.Probe
