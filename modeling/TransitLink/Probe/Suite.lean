import TransitLink.Probe.Plan
import TransitLink.Probe.Report
import TransitLink.Probe.Settings
import TransitLink.Snapshot.Blob

/-!
# The suite of a probe

* `Suite.plan` : the actions that a probe asks for, in order, and the files it writes.
* `Suite.entryNotes` : what one entry of a snapshot response leaves behind.
* `Suite.graphIds` : the graphs that a network response names; the probe asks for each of them.

Every response is written as it was received. One that reports another result than success is warned about, but the
probe goes on.
-/

namespace TransitLink.Probe.Suite

set_option autoImplicit false

/-! ## Actions -/

def pingAction : String := "beacon:ping"

def snapshotAction : String := "mtr:get_railway_snapshot"

def routeTrainsAction : String := "mtr:get_route_trains"

def stationScheduleAction : String := "mtr:get_station_schedule"

def depotTrainsAction : String := "mtr:get_depot_trains"

def networkAction : String := "create:get_network"

def realtimeAction : String := "create:get_realtime"

/-! ## Parts of a plan -/

/-- The payload with the dimension asked about, if it is one. -/
def payload (q : RailwayQuery) (ms : Members Json) : Json := .obj (ms ++ optionalMember "dimension" q.dimension .str)

def dimensionSlug (q : RailwayQuery) : String := slug (q.dimension.getD "all")

/-- The warning about a response that reports another result than success. -/
def complaints (action : String) (r : Response) : List Note :=
  if r.isOk then []
  else [.warning (action ++ " returned " ++ r.result.getD "?" ++ ": " ++ r.message.getD "")]

/-- Asks for an action and writes the response to a file. -/
def probe (action : String) (payload : Json) (name : String) (next : Response → Plan) : Plan :=
  .ask action payload fun r => .notes (complaints action r ++ [.file name (.document r.toJson)]) ++ next r

def finish (_ : Response) : Plan := .done

/-! ## Snapshots -/

/-- The dimension that an entry is filed under: its own, else the one asked about. An empty name is none. -/
def entryDimension (q : RailwayQuery) (e : Snapshot.Entry) : String :=
  (([e.dimension, q.dimension].filterMap id).find? (· ≠ "")).getD "unknown"

def entryStem (q : RailwayQuery) (e : Snapshot.Entry) : String := "mtr_railway_snapshot_" ++ slug (entryDimension q e)

def undecodable (q : RailwayQuery) (e : Snapshot.Entry) (why : Failure) : Note :=
  .warning ("Failed to decode snapshot for " ++ entryDimension q e ++ ": " ++ why.message)

/-- What one entry leaves behind: the packed octets and the snapshot as JSON, as far as they can be decoded. -/
def entryNotes (q : RailwayQuery) (e : Snapshot.Entry) : List Note :=
  match e.payload with
  | none => []
  | some blob =>
    match blob.octets with
    | .error why => [undecodable q e why]
    | .ok bs =>
      [.file (entryStem q e ++ ".msgpack") (.octets bs),
        match blob.toJson true with
        | .ok j => .file (entryStem q e ++ ".json") (.document j)
        | .error why => undecodable q e why]

def snapshotNotes (q : RailwayQuery) (r : Response) : List Note :=
  let entries := Snapshot.entries r.payload
  (if entries.isEmpty then [.warning "No snapshots returned from provider"] else []) ++ entries.flatMap (entryNotes q)

/-! ## Networks -/

def graphIds (payload : Json) : List String :=
  ((((payload.get? "graphs").bind Json.items?).getD []).filterMap fun g => (g.get? "graphId").bind Json.text?).filter
    (· ≠ "")

/-! ## The plan -/

def ping : Plan := probe pingAction (.obj [("echo", .str "tests")]) "beacon_ping.json" finish

def snapshot (q : RailwayQuery) : Plan :=
  probe snapshotAction (payload q []) ("mtr_railway_snapshot_" ++ dimensionSlug q ++ ".json") fun r =>
    .notes (snapshotNotes q r)

/-- A number in a file name, where every number up to zero stands for all. -/
def numberSlug (before : String) (n : Int) : String := if 0 < n then before ++ toString n else "all"

def routeTrains (q : RailwayQuery) : Plan :=
  probe routeTrainsAction (payload q [("routeId", .int q.routeId)])
    ("mtr_route_trains_" ++ dimensionSlug q ++ "_route_" ++ numberSlug "" q.routeId ++ ".json") finish

/-- Asks for the schedule of a station, if one is set. -/
def stationSchedule (q : RailwayQuery) : Plan :=
  match q.stationId with
  | none => .done
  | some station =>
    probe stationScheduleAction
      (payload q ([("stationId", .str station)] ++ optionalMember "platformId" q.platformId .str))
      ("mtr_station_schedule_" ++ dimensionSlug q ++ "_station_" ++ slug station ++ ".json") finish

def depotTrains (q : RailwayQuery) : Plan :=
  probe depotTrainsAction (payload q [("depotId", .int q.depotId)])
    ("mtr_depot_trains_" ++ dimensionSlug q ++ "_" ++ numberSlug "depot_" q.depotId ++ ".json") finish

def graph (id : String) : Plan :=
  probe networkAction (.obj [("graphId", .str id), ("includePolylines", .bool true)])
    ("create_network_" ++ slug id ++ ".json") finish

/-- Asks for the network, and then for each graph that it names. -/
def network : Plan :=
  probe networkAction (.obj [("includePolylines", .bool true)]) "create_network_all.json" fun r =>
    .all ((graphIds r.payload).map graph)

def realtime : Plan := probe realtimeAction (.obj []) "create_realtime.json" finish

def plan (q : RailwayQuery) : Plan :=
  .all [ping, snapshot q, routeTrains q, stationSchedule q, depotTrains q, network, realtime]

end TransitLink.Probe.Suite
