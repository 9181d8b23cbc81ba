import TransitLink.Link.Connection

/-!
# A client of the server

* `Client` : a configuration, the latest connection that was started, and what the server said about it.
* `Client.dial` : what opening a stream comes to. `Client.start` : the connection over a stream that was opened.
* `Client.gate` : what keeps a request from being handed to the connection, if anything.
* `Client.feed` : an event for the connection. What the server acknowledges is kept, if the caller still waits for it.

A client hands a request or a sign of life to its connection only while that is established.
-/

namespace TransitLink

set_option autoImplicit false

/-- What opening a stream comes to. -/
inductive DialOutcome where
  | opened
  | timedOut
  | refused (words : String)
  /-- The stream was opened, but cannot be told to send small amounts at once. It is not used. -/
  | delaying (words : String)
deriving DecidableEq

/-- A client of the server. -/
structure Client where
  config : Config
  connection : Option Connection := none
  /-- Whether the caller that opened the latest connection waits to hear how its handshake ends. -/
  waiting : Bool := false
  /-- How the handshake of the latest connection ended, as its caller heard. -/
  heard : Option (Except Failure Acknowledgement) := none

namespace Client

def phase (c : Client) : Phase := (c.connection.map Connection.published).getD .connecting

def isEstablished (c : Client) : Bool := c.phase = .established

/-- What the server said about itself to the caller of the latest connection. -/
def info (c : Client) : Option Acknowledgement := c.heard.bind Except.toOption

def connectionId? (c : Client) : Option String := c.info.map Acknowledgement.connectionId

/-- What keeps a request from being handed to the connection. -/
def gate (c : Client) : Except Failure Unit :=
  match c.phase with
  | .established => if c.connection.isSome then .ok () else .error .notEstablished
  | .closed => if c.info.isSome then .error .connectionClosed else .error .notEstablished
  | _ => .error .notEstablished

/-- The caller that waits hears how the handshake has ended; all other effects are no news to the client. -/
def hear (c : Client) : Effect → Client
  | .connected result => if c.waiting then { c with waiting := false, heard := some result } else c
  | _ => c

def follow (c : Client) (link : Connection) (effects : List Effect) : Client :=
  effects.foldl hear { c with connection := some link }

def feed (c : Client) (w : Circumstances) (e : Event) : Client × List Effect :=
  match c.connection with
  | none => (c, [])
  | some link =>
    let (link, effects) := link.step w e
    (c.follow link effects, effects)

/-- A request, which either goes to the connection or fails at once. -/
def request (c : Client) (w : Circumstances) (caller : Nat) (action : String) (payload : Json) (timeout : Duration) :
    Client × List Effect :=
  match c.gate with
  | .ok () => c.feed w (.request caller action payload timeout)
  | .error e => (c, [.settle ⟨caller, .error e⟩])

def ping (c : Client) (w : Circumstances) (caller : Nat) : Client × List Effect :=
  match c.gate with
  | .ok () => c.feed w (.ping caller)
  | .error e => (c, [.pinged caller (.error e)])

def close (c : Client) (w : Circumstances) : Client × List Effect := c.feed w .close

/-- The failure of a stream that was not opened, or is not used. -/
def dialFailure (address : String) : DialOutcome → Option Failure
  | .opened => none
  | .timedOut => some (.transport ("Connection timeout to " ++ address))
  | .refused words => some (.transport ("Failed to connect to " ++ address ++ ": " ++ words))
  | .delaying words => some (.transport ("Failed to set TCP_NODELAY: " ++ words))

/-- The connection over a stream that was opened takes the place of the last one. -/
def start (c : Client) (w : Circumstances) : Client × List Effect :=
  let (link, effects) := Connection.open c.config w
  ({ c with waiting := true, heard := none }.follow link effects, effects)

/-- Opens a connection: checks the configuration, closes the last connection, and opens a stream. Gives back the failure
that kept the connection from being started, if any. -/
def dial (c : Client) (w : Circumstances) (outcome : DialOutcome) : Client × List Effect × Option Failure :=
  match c.config.validate with
  | .error e => (c, [], some e)
  | .ok () =>
    let (c, closing) := c.close w
    let line := Effect.info ("Connecting to Beacon gateway at " ++ c.config.address)
    match dialFailure c.config.address outcome with
    | some e => (c, closing ++ [line], some e)
    | none =>
      let (c, opening) := c.start w
      (c, closing ++ line :: opening, none)

/-- The caller that opened the connection does not want to hear how the handshake ends. The connection goes on. -/
def leave (c : Client) : Client := { c with waiting := false }

/-- Nobody holds the client any longer. -/
def drop (c : Client) (w : Circumstances) : List Effect := (c.feed w .orphaned).2

end Client
end TransitLink
