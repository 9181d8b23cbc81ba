import TransitLink.Probe.Suite
import TransitLink.Proofs.Probe.Course

/-!
# The agenda of a visit

* `Errand` : one thing that a probe asks for, with its action, its payload and what is left of the response.
* `agenda` : the errands of a probe, given the graphs that the network has.
* `course_suite` : the suite's plan takes the course of that agenda.
* `visit_keeps_to_agenda` : what happens on a visit, whoever is visited.
-/

namespace TransitLink.Probe.Suite

set_option autoImplicit false

/-! ## Errands -/

inductive Errand where
  | ping
  | snapshot
  | routeTrains
  | stationSchedule (station : String)
  | depotTrains
  | network
  | graph (id : String)
  | realtime

def dimensionAsked (q : RailwayQuery) : Members Json :=
  match q.dimension with
  | none => []
  | some dimension => [("dimension", .str dimension)]

def platformAsked (q : RailwayQuery) : Members Json :=
  match q.platformId with
  | none => []
  | some platform => [("platformId", .str platform)]

namespace Errand

def action : Errand → String
  | ping => "beacon:ping"
  | snapshot => "mtr:get_railway_snapshot"
  | routeTrains => "mtr:get_route_trains"
  | stationSchedule _ => "mtr:get_station_schedule"
  | depotTrains => "mtr:get_depot_trains"
  | network => "create:get_network"
  | graph _ => "create:get_network"
  | realtime => "create:get_realtime"

variable (q : RailwayQuery)

def payload : Errand → Json
  | ping => .obj [("echo", .str "tests")]
  | snapshot => .obj (dimensionAsked q)
  | routeTrains => .obj ([("routeId", .int q.routeId)] ++ dimensionAsked q)
  | stationSchedule station => .obj ([("stationId", .str station)] ++ platformAsked q ++ dimensionAsked q)
  | depotTrains => .obj ([("depotId", .int q.depotId)] ++ dimensionAsked q)
  | network => .obj [("includePolylines", .bool true)]
  | graph id => .obj [("graphId", .str id), ("includePolylines", .bool true)]
  | realtime => .obj []

def file : Errand → String
  | ping => "beacon_ping.json"
  | snapshot => "mtr_railway_snapshot_" ++ dimensionSlug q ++ ".json"
  | routeTrains => "mtr_route_trains_" ++ dimensionSlug q ++ "_route_" ++ numberSlug "" q.routeId ++ ".json"
  | stationSchedule station => "mtr_station_schedule_" ++ dimensionSlug q ++ "_station_" ++ slug station ++ ".json"
  | depotTrains => "mtr_depot_trains_" ++ dimensionSlug q ++ "_" ++ numberSlug "depot_" q.depotId ++ ".json"
  | network => "create_network_all.json"
  | graph id => "create_network_" ++ slug id ++ ".json"
  | realtime => "create_realtime.json"

def further : Errand → Response → List Note
  | snapshot, r => snapshotNotes q r
  | _, _ => []

def notes (t : Errand) (r : Response) : List Note :=
  complaints t.action r ++ .file (t.file q) (.document r.toJson) :: t.further q r

def request (t : Errand) : Happening := .asked t.action (t.payload q)

def happenings (t : Errand) (r : Response) : List Happening := t.request q :: (t.notes q r).map .left

end Errand

/-! ## Agendas -/

/-- The graph that an item of a network response stands for, unless it has no name. -/
def graphOf? (item : Json) : Option String :=
  match item.get? "graphId" with
  | some (.str id) => if id = "" then none else some id
  | _ => none

def graphsOf (payload : Json) : List String :=
  match payload.get? "graphs" with
  | some (.arr items) => items.filterMap graphOf?
  | _ => []

/-- The errands of a probe, given the graphs that the network has. -/
def agenda (q : RailwayQuery) (graphs : List String) : List Errand :=
  .ping :: .snapshot :: .routeTrains :: ((q.stationId.map .stationSchedule).toList ++
    .depotTrains :: .network :: (graphs.map .graph ++ [.realtime]))

def networkTurn (q : RailwayQuery) : Nat := if q.stationId = none then 4 else 5

/-- The graphs that the network has, given how each request ends. -/
def foundGraphs (q : RailwayQuery) (answers : Nat → Except Failure Response) : List String :=
  match answers (networkTurn q) with
  | .ok r => graphsOf r.payload
  | .error _ => []

def agendaFor (q : RailwayQuery) (answers : Nat → Except Failure Response) : List Errand :=
  agenda q (foundGraphs q answers)

theorem graphIds_eq (payload : Json) : graphIds payload = graphsOf payload := by
  have hitem : (fun item : Json => ((item.get? "graphId").bind Json.text?).filter (· ≠ "")) = graphOf? := by
    funext item
    rw [graphOf?]
    cases item.get? "graphId" with
    | none => rfl
    | some j =>
      cases j with
      | str id => by_cases h : id = "" <;> simp [Json.text?, Option.filter, h]
      | _ => rfl
  rw [graphIds, List.filter_filterMap, hitem, graphsOf]
  cases payload.get? "graphs" with
  | none => rfl
  | some j => cases j <;> rfl

/-! ## The course of an agenda -/

section
variable (q : RailwayQuery) (answers : Nat → Except Failure Response)

/-- Errands up to the first one without a response; `k` is the number of the first request. -/
def course (k : Nat) : List Errand → Course
  | [] => ([], .ok ())
  | t :: ts =>
    match answers k with
    | .ok r => (t.happenings q r ++ (course (k + 1) ts).1, (course (k + 1) ts).2)
    | .error e => ([t.request q], .error (Plan.unanswered t.action e))

variable {q answers}

/-- The plan for an errand takes its course, if the rest of the plan takes the course of the rest of the agenda. -/
theorem course_errand {t : Errand} {ts : List Errand} {next : Response → Plan} {p : Plan} {k : Nat}
    (h : ∀ r, answers k = .ok r → (next r ++ p).course answers (k + 1) =
      ((t.further q r).map .left ++ (course q answers (k + 1) ts).1, (course q answers (k + 1) ts).2)) :
    (probe t.action (t.payload q) (t.file q) next ++ p).course answers k = course q answers k (t :: ts) := by
  change (Plan.ask t.action (t.payload q) fun r =>
    (Plan.notes (complaints t.action r ++ [.file (t.file q) (.document r.toJson)]) ++ next r) ++ p).course answers k = _
  rw [Plan.course, course]
  cases hanswer : answers k with
  | error e => rfl
  | ok r =>
    simp only [Plan.append_assoc, Plan.course_notes, h r hanswer, Errand.happenings, Errand.notes, List.map_append,
      List.map_cons, List.append_assoc, List.cons_append]
    rfl

theorem course_simple {t : Errand} {ts : List Errand} {p : Plan} {k : Nat} (hfurther : ∀ r, t.further q r = [])
    (h : p.course answers (k + 1) = course q answers (k + 1) ts) :
    (probe t.action (t.payload q) (t.file q) finish ++ p).course answers k = course q answers k (t :: ts) := by
  refine course_errand fun r _ => ?_
  rw [hfurther]
  exact h

theorem course_graphs {ids : List String} {ts : List Errand} {p : Plan}
    (h : ∀ k, p.course answers k = course q answers k ts) (k : Nat) :
    (Plan.all (ids.map graph) ++ p).course answers k = course q answers k (ids.map .graph ++ ts) := by
  induction ids generalizing k with
  | nil => exact h k
  | cons id ids ih =>
    change (graph id ++ Plan.all (ids.map graph) ++ p).course answers k = _
    rw [Plan.append_assoc]
    exact course_simple (t := .graph id) (fun _ => rfl) (ih (k + 1))

theorem payload_eq (ms : Members Json) : payload q ms = .obj (ms ++ dimensionAsked q) := by
  rw [payload, dimensionAsked]
  cases q.dimension <;> rfl

/-- The plan after the station takes the course of the agenda after it. -/
theorem course_after_station {k : Nat} (hturn : networkTurn q = k + 1) :
    (depotTrains q ++ (network ++ (realtime ++ Plan.done))).course answers k =
      course q answers k (.depotTrains :: .network :: ((foundGraphs q answers).map .graph ++ [.realtime])) := by
  have hrealtime : ∀ k, (realtime ++ Plan.done).course answers k = course q answers k [.realtime] :=
    fun k => course_simple (t := .realtime) (fun _ => rfl) rfl
  have hnetwork : (network ++ (realtime ++ Plan.done)).course answers (k + 1) =
      course q answers (k + 1) (.network :: ((foundGraphs q answers).map .graph ++ [.realtime])) := by
    -- what follows depends on the graphs in this response
    refine course_errand (t := .network) fun r hr => ?_
    rw [graphIds_eq, foundGraphs, hturn, hr]
    exact course_graphs hrealtime _
  rw [depotTrains, payload_eq]
  exact course_simple (t := .depotTrains) (fun _ => rfl) hnetwork

/-- The plan from the station on takes the course of the agenda from there on. -/
theorem course_from_station :
    (stationSchedule q ++ (depotTrains q ++ (network ++ (realtime ++ Plan.done)))).course answers 3 =
      course q answers 3 ((q.stationId.map .stationSchedule).toList ++
        .depotTrains :: .network :: ((foundGraphs q answers).map .graph ++ [.realtime])) := by
  rw [stationSchedule]
  cases hstation : q.stationId with
  | none => exact course_after_station (if_pos hstation)
  | some station =>
    have hturn : networkTurn q = 5 := if_neg (by simp [hstation])
    have hpayload : payload q ([("stationId", .str station)] ++ optionalMember "platformId" q.platformId .str) =
        (Errand.stationSchedule station).payload q := by
      rw [payload_eq, Errand.payload, platformAsked]
      cases q.platformId <;> rfl
    dsimp only
    rw [hpayload]
    exact course_simple (t := .stationSchedule station) (fun _ => rfl) (course_after_station hturn)

/-- The suite's plan takes the course of its agenda. -/
theorem course_suite : (plan q).course answers 0 = course q answers 0 (agendaFor q answers) := by
  have hroute : (routeTrains q ++ (stationSchedule q ++ (depotTrains q ++ (network ++ (realtime ++ Plan.done))))).course
      answers 2 = course q answers 2 ((agendaFor q answers).drop 2) := by
    rw [routeTrains, payload_eq]
    exact course_simple (t := .routeTrains) (fun _ => rfl) course_from_station
  change (ping ++ (snapshot q ++ (routeTrains q ++ (stationSchedule q ++ (depotTrains q ++ (network ++ (realtime ++
    Plan.done))))))).course answers 0 = _
  refine course_simple (t := .ping) (fun _ => rfl) ?_
  rw [snapshot, payload_eq]
  -- the only errand with files of its own besides the response
  refine course_errand (t := .snapshot) fun r _ => ?_
  rw [Plan.course_notes, hroute]
  rfl

/-! ## What a course is made of -/

/-- Errands are done one after the other, up to the first request without a response. -/
theorem exists_done (k : Nat) (ts : List Errand) :
    ∃ (done : List (Errand × Response)) (last : List Happening) (outcome : Except Trouble Unit),
      (List.range' k done.length).map answers = done.map (fun d => .ok d.2) ∧
      (done.map Prod.fst = ts ∧ last = [] ∧ outcome = .ok () ∨
        ∃ t e, done.map Prod.fst ++ [t] <+: ts ∧ answers (k + done.length) = .error e ∧ last = [t.request q] ∧
          outcome = .error ⟨[t.action ++ " failed"], .failure e⟩) ∧
      course q answers k ts = (done.flatMap (fun d => d.1.happenings q d.2) ++ last, outcome) := by
  induction ts generalizing k with
  | nil => exact ⟨[], [], .ok (), rfl, .inl ⟨rfl, rfl, rfl⟩, rfl⟩
  | cons t ts ih =>
    rw [course]
    cases hanswer : answers k with
    | error e =>
      exact ⟨[], _, _, rfl, .inr ⟨t, e, List.cons_prefix_cons.mpr ⟨rfl, List.nil_prefix⟩, hanswer, rfl, rfl⟩, rfl⟩
    | ok r =>
      obtain ⟨done, last, outcome, hanswers, hending, hcourse⟩ := ih (k + 1)
      refine ⟨(t, r) :: done, last, outcome, ?_, ?_, ?_⟩
      · rw [List.length_cons, List.range'_succ, List.map_cons, hanswer, hanswers, List.map_cons]
      · refine hending.imp (fun ⟨hdone, h⟩ => ⟨congrArg (t :: ·) hdone, h⟩) ?_
        rintro ⟨next, e, hdone, hnext, h⟩
        rw [Nat.add_right_comm, Nat.add_assoc] at hnext
        exact ⟨next, e, List.cons_prefix_cons.mpr ⟨rfl, hdone⟩, hnext, h⟩
      · rw [hcourse, List.flatMap_cons, List.append_assoc]

end

/-! ## Visits -/

/-- How a visit ends, and what has happened on it. -/
def visited {σ : Type} (peer : Peer σ) (q : RailwayQuery) (place : σ) : Except Trouble Unit × Record σ :=
  visit peer.host (plan q) ⟨place, []⟩

/-- What happens once the connection is open. -/
theorem exists_visit {σ : Type} {peer : Peer σ} (hgreeting : peer.greeting = .ok ()) (q : RailwayQuery) (place : σ) :
    ∃ (done : List (Errand × Response)) (last : List Happening) (outcome : Except Trouble Unit) (d : Course),
      (List.range done.length).map peer.answers = done.map (fun d => .ok d.2) ∧
      (done.map Prod.fst = agendaFor q peer.answers ∧ last = [] ∧ outcome = .ok () ∨
        ∃ t e, done.map Prod.fst ++ [t] <+: agendaFor q peer.answers ∧ peer.answers done.length = .error e ∧
          last = [t.request q] ∧ outcome = .error ⟨[t.action ++ " failed"], .failure e⟩) ∧
      Follows (done.flatMap (fun d => d.1.happenings q d.2) ++ last, outcome) d ∧
      peer.Took ⟨place, []⟩ (.dialled :: (d.1 ++ [.closed]), d.2) (visited peer q place) := by
  obtain ⟨d, hd, htook⟩ := peer.visit_of_greeted hgreeting (plan q) place
  obtain ⟨done, last, outcome, hanswers, hending, hcourse⟩ := @exists_done q peer.answers 0 (agendaFor q peer.answers)
  rw [course_suite, hcourse] at hd
  rw [← List.range_eq_range'] at hanswers
  rw [Nat.zero_add] at hending
  exact ⟨done, last, outcome, d, hanswers, hending, hd, htook⟩

theorem visited_of_refused {σ : Type} {peer : Peer σ} {e : Failure} (hgreeting : peer.greeting = .error e)
    (q : RailwayQuery) (place : σ) :
    visited peer q place = (.error (.ofFailure e), ⟨place, [.dialled, .closed]⟩) :=
  peer.visit_of_refused hgreeting (plan q) place

end TransitLink.Probe.Suite
