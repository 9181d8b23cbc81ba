import TransitLink.Message.Body

/-!
# Requests in flight

* `PendingTable` : the requests of a connection that wait for their end, each under its id, with its action, its
  deadline and its caller.
* `register`, `resolve`, `fail`, `expire`, `failAll` : a request begins, and the four ways in which it ends.

Taking a request out of the table is what ends it, so it ends once. Each operation gives back the new table, the
requests that it ended with their results, and its answer. Callers are known by numbers; a caller that no longer waits
leaves its request in the table.
-/

namespace TransitLink

set_option autoImplicit false

/-- A point in time, in nanoseconds from an arbitrary beginning. -/
abbrev Time := Nat

/-- A request that waits for its end. -/
structure Pending where
  id : String
  action : String
  deadline : Time
  caller : Nat
deriving DecidableEq

abbrev Outcome := Except Failure Response

structure Settled where
  caller : Nat
  outcome : Outcome

/-- What became of a response. -/
inductive Delivery where
  /-- It went to the caller of this action. -/
  | delivered (action : String)
  /-- No request with its id is pending. -/
  | unknown
  /-- The caller of this action no longer waits. -/
  | callerGone (action : String)
deriving DecidableEq

/-- Requests in flight, no two under the same id, in the order in which they began. -/
abbrev PendingTable := List Pending

namespace PendingTable

def get? (t : PendingTable) (id : String) : Option Pending := t.find? fun p => p.id = id

def without (t : PendingTable) (id : String) : PendingTable := t.filter fun p => p.id ≠ id

def ids (t : PendingTable) : List String := t.map Pending.id

/-- Begins a request. One that is pending under the same id gives way and is given back. -/
def register (t : PendingTable) (p : Pending) : PendingTable × Option Pending := (t.without p.id ++ [p], t.get? p.id)

/-- Ends the request under a response's id with that response; `waits` tells which callers still wait. -/
def resolve (t : PendingTable) (waits : Nat → Bool) (r : Response) : PendingTable × List Settled × Delivery :=
  match t.get? r.requestId with
  | none => (t, [], .unknown)
  | some p =>
    (t.without r.requestId, [⟨p.caller, .ok r⟩],
      if waits p.caller then .delivered p.action else .callerGone p.action)

/-- Ends the request under an id with a failure. Tells whether there was one. -/
def fail (t : PendingTable) (id : String) (why : Failure) : PendingTable × List Settled × Bool :=
  match t.get? id with
  | none => (t, [], false)
  | some p => (t.without id, [⟨p.caller, .error why⟩], true)

def nextDeadline? (t : PendingTable) : Option Time := (t.map Pending.deadline).min?

def due (t : PendingTable) (now : Time) : List Pending := t.filter fun p => p.deadline ≤ now

def timedOut (p : Pending) : Settled := ⟨p.caller, .error (.timeout p.action p.id)⟩

def expire (t : PendingTable) (now : Time) : PendingTable × List Settled × Nat :=
  let due := t.due now
  (t.filter fun p => ¬p.deadline ≤ now, due.map timedOut, due.length)

def failAll (t : PendingTable) : PendingTable × List Settled × Nat :=
  ([], t.map fun p => ⟨p.caller, .error .connectionClosed⟩, t.length)

end PendingTable
end TransitLink
