import TransitLink.Config
import TransitLink.Frame.Basic
import TransitLink.Link.Effect
import TransitLink.Link.Handshake
import TransitLink.RequestId

/-!
# A connection to the server

* `Connection` : the handshake, the requests in flight, the timers and the caller that opened the connection.
* `Connection.open` : a connection whose stream has just been opened sends its greeting.
* `Connection.step` : what it does about one event. Once it has stopped, every request fails.
* `Connection.due?` : the first timer that has run out. `Connection.nextTimer?` : when the next one does.

A request is put into the table before it is sent, so that its response cannot come too early. Whatever ends the
connection empties the table and tells the caller that opened it, if that caller still waits.
-/

namespace TransitLink

set_option autoImplicit false

/-! ## State -/

structure Keepalive where
  period : Duration
  next : Time
deriving DecidableEq

structure Connection where
  config : Config
  handshake : Handshake := {}
  /-- The phase that callers see. -/
  published : Phase := .connecting
  /-- Whether the caller that opened the connection still waits to be told. -/
  awaited : Bool := true
  pending : PendingTable := []
  keepalive : Option Keepalive := none
  handshakeDeadline : Time
  stopped : Bool := false

namespace Connection

/-- How far ahead "never" is. -/
def farFuture : Duration := .ofSeconds (86400 * 365 * 30)

/-- The points in time that the clock can hold are before this one. -/
def endOfTime : Time := 2 ^ 63 * 1000000000

/-- The point in time after a span, or one in the far future if the clock cannot hold it. -/
def deadlineAfter (now : Time) (span : Duration) : Time :=
  if now + span.nanoseconds < endOfTime then now + span.nanoseconds else now + farFuture.nanoseconds

/-! ## Parts of a step -/

def publish (c : Connection) : Connection := { c with published := c.handshake.phase }

/-- Tells the caller that opened the connection, if it still waits. -/
def tell (c : Connection) (r : Except Failure Acknowledgement) : Connection × List Effect :=
  ({ c with awaited := false }, if c.awaited then [.connected r] else [])

def failPending (c : Connection) : Connection × List Effect :=
  let (table, settled, count) := c.pending.failAll
  ({ c with pending := table },
    settled.map .settle ++
      (if 0 < count then [.warn ("Connection closed with " ++ toString count ++ " pending request(s)")] else []))

/-- The stream is gone: the handshake and every request end. -/
def lose (c : Connection) (reason : String) : Connection × List Effect :=
  let (h, failure) := c.handshake.onLost reason
  let c := { c with handshake := h }
  let (c, told) := match failure with
    | some e => c.tell (.error e)
    | none => (c, [])
  let (c, failed) := c.failPending
  ({ c.publish with stopped := true }, told ++ failed)

def shutdown (c : Connection) (w : Circumstances) : Connection × List Effect :=
  let complaint := match w.shutdownFault with
    | some e => [.debug ("Shutdown failed: " ++ e.message)]
    | none => []
  let ended := c.handshake.phase = .failed ∨ c.handshake.phase = .closed
  let c := if ended then c else { c with handshake := c.handshake.close }
  let (c, failed) := c.failPending
  ({ c.publish with stopped := true }, .shutdown :: complaint ++ failed)

/-- Sends an envelope. Gives back the fault that this meets, if any. -/
def send (w : Circumstances) (e : Envelope) : List Effect × Option Failure :=
  let body := e.toBytes
  let fault := match Frame.encode body with
    | .error f => some f
    | .ok _ => w.writeFault
  ([.debug ("[Probe→Beacon] len=" ++ toString body.length ++ " json=" ++ preview body), .send e fault], fault)

/-! ## Opening -/

/-- A connection whose stream has just been opened sends its greeting. -/
def «open» (config : Config) (w : Circumstances) : Connection × List Effect :=
  let c : Connection := { config := config, handshakeDeadline := deadlineAfter w.now config.handshakeTimeout }
  let (sent, fault) := send w (.greeting w.wallClock (.make config.clientId config.token))
  match fault with
  | some e =>
    let (c, lost) := c.lose e.message
    (c, sent ++ .error ("Failed to send handshake: " ++ e.message) :: lost)
  | none => ({ c with handshake := c.handshake.markSent.1 }.publish, sent)

/-! ## Commands -/

/-- A caller wants an action done. Nothing happens as long as no id is drawn that is free. -/
def onRequest (c : Connection) (w : Circumstances) (caller : Nat) (action : String) (payload : Json)
    (timeout : Duration) : Connection × List Effect :=
  match c.handshake.connectionId? with
  | none => (c, [.settle ⟨caller, .error .notEstablished⟩])
  | some connectionId =>
    match RequestId.pick? c.pending.ids w.draws with
    | none => (c, [])
    | some id =>
      let deadline := deadlineAfter w.now timeout
      let c := { c with pending := (c.pending.register ⟨id, action, deadline, caller⟩).1 }
      let (sent, fault) := send w (.call w.wallClock connectionId (.make id action payload))
      match fault with
      | none => (c, sent)
      | some e =>
        let (table, settled, _) := c.pending.fail id e
        let (c, lost) := { c with pending := table }.lose e.message
        (c, sent ++ settled.map .settle ++ lost)

def onPing (c : Connection) (w : Circumstances) (caller : Nat) : Connection × List Effect :=
  match c.handshake.connectionId? with
  | none => (c, [.pinged caller (.error .notEstablished)])
  | some connectionId =>
    let (sent, fault) := send w (.ping w.wallClock connectionId)
    match fault with
    | none => (c, sent ++ [.pinged caller (.ok ())])
    | some e =>
      let (c, lost) := c.lose e.message
      (c, sent ++ .pinged caller (.error e) :: lost)

def onClose (c : Connection) (w : Circumstances) : Connection × List Effect :=
  let (h, undecided) := c.handshake.fail
  let c := { c with handshake := h }
  let (c, told) := if undecided then c.tell (.error (.closedBeforeHandshake "closed by client")) else (c, [])
  let (c, down) := { c with handshake := c.handshake.close }.shutdown w
  (c, .debug "Closing gateway connection" :: told ++ down ++ [.closed])

/-! ## Frames -/

/-- The longest period between two signs of life. -/
def maxKeepalive : Duration := .ofSeconds (24 * 60 * 60)

/-- When to send signs of life, as the server asks for them. -/
def keepaliveFor (c : Connection) (w : Circumstances) (a : Acknowledgement) : Option Keepalive × List Effect :=
  match a.heartbeatSeconds with
  | none => (none, [])
  | some 0 => (none, [])
  | some seconds =>
    if !c.config.keepalive then (none, [])
    else
      let period := Duration.ofSeconds seconds
      if maxKeepalive.nanoseconds < period.nanoseconds then
        (none, [.warn ("Heartbeat interval of " ++ toString seconds ++ "s is out of range, keepalive disabled")])
      else
        (some ⟨period, w.now + period.nanoseconds⟩, [.debug ("Sending keepalive pings every " ++ period.text)])

def greetingLines (a : Acknowledgement) : List Effect :=
  [.info ("Handshake complete: connectionId=" ++ a.connectionId ++ " server=" ++ a.serverName ++ " modVersion=" ++
    a.modVersion)] ++
  (match a.protocolVersion with
    | some v =>
      if v = protocolVersion then []
      else [.warn ("Gateway speaks protocol version " ++ toString v ++ ", client speaks " ++ toString protocolVersion)]
    | none => []) ++
  (match a.message with
    | some m => [.debug ("Gateway says: " ++ m)]
    | none => [])

def onAcknowledgement (c : Connection) (w : Circumstances) (a : Acknowledgement) : Connection × List Effect :=
  match c.handshake.onAcknowledgement a with
  | (_, none) => (c, [.warn "Ignoring unexpected handshake_ack"])
  | (h, some a) =>
    let (keepalive, lines) := c.keepaliveFor w a
    let (c, told) := { c with handshake := h, keepalive := keepalive }.publish.tell (.ok a)
    (c, greetingLines a ++ lines ++ told)

def onResponse (c : Connection) (w : Circumstances) (r : Response) : Connection × List Effect :=
  let (table, settled, delivery) := c.pending.resolve (fun caller => !w.gone.contains caller) r
  let line := match delivery with
    | .delivered action => .debug ("Response for " ++ action ++ " (" ++ r.requestId ++ ")")
    | .unknown => .warn ("Received response for unknown requestId " ++ r.requestId)
    | .callerGone action => .debug ("Caller stopped waiting for " ++ action ++ " (" ++ r.requestId ++ ")")
  ({ c with pending := table }, settled.map .settle ++ [line])

/-- An error has arrived. Before the connection is established it ends the connection. -/
def onRefusal (c : Connection) (w : Circumstances) (r : Refusal) : Connection × List Effect :=
  match c.handshake.onRefusal r with
  | (h, .rejected e) =>
    let (c, told) := { c with handshake := h }.tell (.error e)
    let (c, down) := c.publish.shutdown w
    (c, .error ("Handshake rejected: " ++ r.code ++ " - " ++ r.text) :: told ++ down)
  | (h, .warning) => ({ c with handshake := h }, [.warn ("Gateway error: " ++ r.code ++ " - " ++ r.text)])
  | (h, .ignored) => ({ c with handshake := h }, [])

def onInbound (c : Connection) (w : Circumstances) : Inbound → Connection × List Effect
  | .acknowledgement a => c.onAcknowledgement w a
  | .response r => c.onResponse w r
  | .refusal r => c.onRefusal w r
  | .pong => (c, [.debug "Received pong"])
  | .unexpected kind => (c, [.warn ("Ignoring unexpected " ++ kind.wireName ++ " envelope")])

/-- A frame has arrived. One that is no envelope is dropped. -/
def onFrame (c : Connection) (w : Circumstances) (body : Bytes) : Connection × List Effect :=
  let seen : Effect := .debug ("[Beacon→Probe] len=" ++ toString body.length ++ " json=" ++ preview body)
  match Inbound.decode body with
  | .error e => (c, [seen, .warn ("Discarding frame: " ++ e.message)])
  | .ok m =>
    let (c, effects) := c.onInbound w m
    (c, seen :: effects)

/-! ## Timers -/

def onHandshakeDue (c : Connection) (w : Circumstances) : Connection × List Effect :=
  if c.handshake.phase.isPending then
    let limit := c.config.handshakeTimeout
    let (c, told) := { c with handshake := c.handshake.fail.1 }.tell (.error (.handshakeTimeout limit))
    let (c, down) := c.shutdown w
    (c, .error ("No handshake_ack within " ++ limit.text) :: told ++ down)
  else (c, [])

def onRequestDue (c : Connection) (w : Circumstances) : Connection × List Effect :=
  let lines := (c.pending.due w.now).map fun p =>
    Effect.warn ("Request " ++ p.action ++ " (" ++ p.id ++ ") timed out")
  let (table, settled, _) := c.pending.expire w.now
  ({ c with pending := table }, lines ++ settled.map .settle)

/-- How late a sign of life may be without moving the next one. -/
def tolerance : Duration := .ofMilliseconds 5

/-- The time of the next sign of life: one period after the last was due, or after now if that was long ago. -/
def Keepalive.advance (k : Keepalive) (now : Time) : Keepalive :=
  { k with next := (if k.next + tolerance.nanoseconds < now then now else k.next) + k.period.nanoseconds }

def onPingDue (c : Connection) (w : Circumstances) : Connection × List Effect :=
  match c.keepalive with
  | none => (c, [])
  | some k =>
    let c := { c with keepalive := some (Keepalive.advance k w.now) }
    let (sent, fault) := send w (.ping w.wallClock (c.handshake.connectionId?.getD ""))
    match fault with
    | none => (c, sent)
    | some e =>
      let (c, lost) := c.lose e.message
      (c, sent ++ .error ("Keepalive ping failed: " ++ e.message) :: lost)

def nextTimer? (c : Connection) : Option Time :=
  if c.stopped then none
  else
    ([if c.handshake.phase.isPending then some c.handshakeDeadline else none, c.pending.nextDeadline?,
      c.keepalive.map Keepalive.next].filterMap id).min?

def due? (c : Connection) (now : Time) : Option Event :=
  if c.stopped then none
  else if c.handshake.phase.isPending ∧ c.handshakeDeadline ≤ now then some .handshakeDue
  else if c.pending.nextDeadline?.any (· ≤ now) then some .requestDue
  else if c.keepalive.any (·.next ≤ now) then some .pingDue
  else none

/-! ## One step -/

/-- What a connection that has stopped does about an event: whoever wants something is told that it is closed. -/
def refuse : Event → List Effect
  | .request caller _ _ _ => [.settle ⟨caller, .error .connectionClosed⟩]
  | .ping caller => [.pinged caller (.error .connectionClosed)]
  | .close => [.closed]
  | _ => []

/-- What a connection does about one event. -/
def step (c : Connection) (w : Circumstances) (e : Event) : Connection × List Effect :=
  if c.stopped then (c, refuse e)
  else match e with
    | .request caller action payload timeout => c.onRequest w caller action payload timeout
    | .ping caller => c.onPing w caller
    | .close => c.onClose w
    | .orphaned =>
      let (c, down) := c.shutdown w
      (c, .debug "Command channel closed, driver exiting" :: down)
    | .frame body => c.onFrame w body
    | .ended =>
      let (c, lost) := c.lose "connection closed by server"
      (c, .info "Gateway closed the connection" :: lost)
    | .readFailed why =>
      let (c, lost) := c.lose why.message
      (c, .error ("Reader failed: " ++ why.message) :: lost)
    | .handshakeDue => c.onHandshakeDue w
    | .requestDue => c.onRequestDue w
    | .pingDue => c.onPingDue w

/-- What a connection does about some events, each with its circumstances. -/
def run (c : Connection) : List (Circumstances × Event) → Connection × List Effect
  | [] => (c, [])
  | (w, e) :: es =>
    let (c, first) := c.step w e
    let (c, rest) := run c es
    (c, first ++ rest)

end Connection
end TransitLink
