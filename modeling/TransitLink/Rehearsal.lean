import TransitLink.Client
import TransitLink.Frame.Stream

/-!
# Rehearsals

A client is rehearsed against a server that follows a script, on a clock that only the script moves.

* `Rehearsal` : the client, the stream, the clock and the callers.
* `Rehearsal.connect`, `request`, `ping`, `close`, `arrive`, `finish`, `reset`, `advance`, `abandon`, `drop` : the steps
  of a script. `ServerAct` : what the server does while the client connects.
* `Account` : what a step came to.

A step is over when every frame that has arrived is handled and every timer that has run out has fired.
-/

namespace TransitLink

set_option autoImplicit false

inductive ServerAct where
  /-- It reads a frame, which the client does not notice. -/
  | read
  /-- It sends some octets. -/
  | send (octets : Bytes)
  /-- It lets time pass. -/
  | wait (span : Duration)
  /-- It ends its side of the stream. -/
  | finish
  /-- The caller that connects gives up. -/
  | callerLeaves

inductive Reply where
  | nothing
  | connected (a : Acknowledgement)
  | abandoned
  | failed (why : Failure)
  | done

structure Account where
  reply : Reply
  effects : List Effect
  /-- Callers that do not wait for their requests any longer. -/
  gone : List Nat
  /-- Whether the server saw a connection end. -/
  sawEnd : Bool

namespace Account

def sent (a : Account) : List Envelope :=
  a.effects.filterMap fun
    | .send e none => some e
    | _ => none

def log (a : Account) : List LogLine :=
  a.effects.filterMap fun
    | .log line => some line
    | _ => none

/-- The requests that ended and whose callers still waited, by caller. -/
def settled (a : Account) : List Settled :=
  (a.effects.filterMap fun
    | .settle s => if a.gone.contains s.caller then none else some s
    | _ => none).mergeSort fun s t => s.caller ≤ t.caller

end Account

structure Rehearsal where
  client : Client
  /-- The id that each request draws, by caller. -/
  ids : List String
  /-- The time of day, in milliseconds; it stands still. -/
  wallClock : Int
  now : Time := 0
  reader : FrameReader := ⟨[], [], 0⟩
  /-- Whether the server has reset the stream of the latest connection. -/
  wasReset : Bool := false
  /-- How many requests were made. -/
  callers : Nat := 0
  gone : List Nat := []
  /-- Callers whose requests reached the server. -/
  served : List Nat := []
  /-- How many connections the server saw end. -/
  ends : Nat := 0

namespace Rehearsal

def start (config : Config) (ids : List String) (wallClock : Int) : Rehearsal :=
  { client := { config := config }, ids := ids, wallClock := wallClock }

def isRunning (r : Rehearsal) : Bool := r.client.connection.any fun c => !c.stopped

/-- The id of a caller's request, if that reached the server. -/
def idOf? (r : Rehearsal) (caller : Nat) : Option String :=
  if r.served.contains caller then r.ids[caller]? else none

def resetWords : String := "Connection reset by peer (os error 104)"

def circumstances (r : Rehearsal) : Circumstances where
  now := r.now
  wallClock := r.wallClock
  writeFault := if r.wasReset then some (Frame.writeFault resetWords) else none
  draws := r.ids.drop r.callers
  gone := r.gone

/-- The client has come to a new state. The server sees a connection end unless it has reset the stream. -/
def take (r : Rehearsal) (client : Client) : Rehearsal :=
  let next := { r with client := client }
  if r.isRunning && !next.isRunning && !r.wasReset then { next with ends := r.ends + 1 } else next

def feed (r : Rehearsal) (e : Event) : Rehearsal × List Effect :=
  let (client, effects) := r.client.feed r.circumstances e
  (r.take client, effects)

/-! ## Timers and frames -/

def timers : Nat := 3

/-- Fires the timers that have run out, at most so many. -/
def fire : (fuel : Nat) → Rehearsal → Rehearsal × List Effect
  | 0, r => (r, [])
  | fuel + 1, r =>
    match r.client.connection.bind (·.due? r.now) with
    | none => (r, [])
    | some e =>
      let (r, first) := r.feed e
      let (r, rest) := fire fuel r
      (r, first ++ rest)

/-- Handles what the stream yields until it yields nothing more or the connection stops. -/
def handle : (fuel : Nat) → Rehearsal → List ReadOutcome → Rehearsal × List Effect
  | 0, r, _ => (r, [])
  | fuel + 1, r, outcomes =>
    if !r.isRunning then (r, [])
    else
      match r.reader.next outcomes with
      | (.waiting, reader, _) => ({ r with reader := reader }, [])
      | (.ended, reader, _) => { r with reader := reader }.feed .ended
      | (.failed why, reader, _) => { r with reader := reader }.feed (.readFailed why)
      | (.frame body, reader, outcomes) =>
        let (r, first) := { r with reader := reader }.feed (.frame body)
        let (r, rest) := handle fuel r outcomes
        (r, first ++ rest)

/-- Octets have arrived. There are no more frames among them and those held back than octets. -/
def receive (r : Rehearsal) (octets : Bytes) : Rehearsal × List Effect :=
  r.handle (r.reader.held.length + octets.length + 1) (ReadOutcome.ofArrival octets.length octets)

def receiveEnd (r : Rehearsal) : Rehearsal × List Effect := r.handle 1 [.ended]

def noticeReset (r : Rehearsal) : Rehearsal × List Effect :=
  if r.wasReset then r.handle 1 [.failed resetWords] else (r, [])

def andThen (first : Rehearsal × List Effect) (second : Rehearsal → Rehearsal × List Effect) :
    Rehearsal × List Effect :=
  let (r, effects) := second first.1
  (r, first.2 ++ effects)

def conclude (before : Rehearsal) (outcome : Rehearsal × List Effect) (reply : Rehearsal → List Effect → Reply) :
    Rehearsal × Account :=
  let (r, effects) := andThen outcome (fire timers)
  (r, ⟨reply r effects, effects, r.gone, before.ends < r.ends⟩)

def quiet (_ : Rehearsal) (_ : List Effect) : Reply := .nothing

/-! ## Connecting -/

def play (r : Rehearsal) : ServerAct → Rehearsal × List Effect
  | .read => (r, [])
  | .send octets => r.receive octets
  | .wait span => ({ r with now := r.now + span.nanoseconds }, [])
  | .finish => r.receiveEnd
  | .callerLeaves => ({ r with client := r.client.leave }, [])

def playAll : Rehearsal → List ServerAct → Rehearsal × List Effect
  | r, [] => (r, [])
  | r, a :: as => andThen (andThen (r.play a) (fire timers)) fun r => playAll r as

/-- A caller that still waits when the server has done everything waits until the handshake is overdue. -/
def waitOut (r : Rehearsal) : Rehearsal × List Effect :=
  match r.client.connection with
  | some c => if r.client.waiting then ({ r with now := max r.now c.handshakeDeadline }, []) else (r, [])
  | none => (r, [])

def verdict (r : Rehearsal) (_ : List Effect) : Reply :=
  match r.client.heard with
  | some (.ok a) => .connected a
  | some (.error e) => .failed e
  | none => .abandoned

def connect (r : Rehearsal) (outcome : DialOutcome) (acts : List ServerAct) : Rehearsal × Account :=
  let before := r
  let r := { r with wasReset := false }
  let (client, effects, fault) := r.client.dial r.circumstances outcome
  match fault with
  | some e => conclude before (r.take client, effects) fun _ _ => .failed e
  | none =>
    let r := { r with
      client := client
      reader := ⟨[], [], client.config.maxFrameLength⟩
      ends := if r.isRunning then r.ends + 1 else r.ends }
    conclude before (andThen (andThen (r, effects) fun r => playAll r acts) waitOut) verdict

/-! ## Commands -/

def wroteRequest (effects : List Effect) : Bool :=
  effects.any fun
    | .send e none => e.kind == .request
    | _ => false

/-- A caller makes a request. If the server has reset the stream, the client notices it now. -/
def request (r : Rehearsal) (action : String) (payload : Json) (timeout : Option Duration) (afterReset : Bool) :
    Rehearsal × Account :=
  let before := r
  let caller := r.callers
  let r := { r with wasReset := r.wasReset || afterReset }
  let (client, effects) :=
    r.client.request r.circumstances caller action payload (timeout.getD r.client.config.requestTimeout)
  let r := { r.take client with
    callers := caller + 1
    served := if wroteRequest effects then caller :: r.served else r.served }
  conclude before (andThen (r, effects) noticeReset) quiet

def pingReply (_ : Rehearsal) (effects : List Effect) : Reply :=
  (effects.findSome? fun
    | .pinged _ (.ok ()) => some .done
    | .pinged _ (.error e) => some (.failed e)
    | _ => none).getD .nothing

/-- A caller wants a sign of life sent. If the server has reset the stream, the client notices it now. -/
def ping (r : Rehearsal) (afterReset : Bool) : Rehearsal × Account :=
  let before := r
  let r := { r with wasReset := r.wasReset || afterReset }
  let (client, effects) := r.client.ping r.circumstances 0
  conclude before (andThen (r.take client, effects) noticeReset) pingReply

def close (r : Rehearsal) (afterReset : Bool) : Rehearsal × Account :=
  let before := r
  let r := { r with wasReset := r.wasReset || afterReset }
  let (client, effects) := r.client.close r.circumstances
  conclude before (r.take client, effects) quiet

/-! ## The server and the clock -/

def receiveAll : Rehearsal → List Bytes → Rehearsal × List Effect
  | r, [] => (r, [])
  | r, piece :: pieces => andThen (r.receive piece) fun r => receiveAll r pieces

def arrive (r : Rehearsal) (pieces : List Bytes) : Rehearsal × Account := conclude r (r.receiveAll pieces) quiet

def finish (r : Rehearsal) (octets : Bytes) : Rehearsal × Account :=
  conclude r (andThen (r.receive octets) receiveEnd) quiet

def reset (r : Rehearsal) : Rehearsal × Account := conclude r { r with wasReset := true }.noticeReset quiet

def advance (r : Rehearsal) (span : Duration) : Rehearsal × Account :=
  conclude r ({ r with now := r.now + span.nanoseconds }, []) quiet

def abandon (r : Rehearsal) (caller : Nat) : Rehearsal × Account :=
  conclude r ({ r with gone := caller :: r.gone }, []) quiet

/-- All callers and the client go away; a fresh client takes its place. -/
def drop (r : Rehearsal) : Rehearsal × Account :=
  let before := r
  let r := { r with gone := List.range r.callers }
  let effects := r.client.drop r.circumstances
  conclude before (r.take { config := r.client.config }, effects) quiet

end Rehearsal
end TransitLink
