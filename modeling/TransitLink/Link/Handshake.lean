import TransitLink.Message.Body

/-!
# The handshake of a connection

* `Phase` : where a connection is between its opening and its end.
* `Handshake` : the phase and the server's acknowledgement, moved by what was sent, what was received and what was lost.

`connecting → greeted → established`; `failed` is reached from the two phases before `established`, `closed` from all.
Each operation gives back the new state and what the caller of the connection has to be told.
-/

namespace TransitLink

set_option autoImplicit false

inductive Phase where
  /-- Nothing was sent yet. -/
  | connecting
  /-- The greeting was sent. -/
  | greeted
  /-- The server acknowledged the greeting. -/
  | established
  /-- The handshake failed. -/
  | failed
  /-- The connection has ended. -/
  | closed
deriving DecidableEq

namespace Phase

/-- Whether the handshake is still to be decided. -/
def isPending : Phase → Bool
  | connecting => true
  | greeted => true
  | _ => false

def name : Phase → String
  | connecting => "Connecting"
  | greeted => "HandshakeSent"
  | established => "Established"
  | failed => "Failed"
  | closed => "Closed"

end Phase

structure Handshake where
  phase : Phase := .connecting
  info : Option Acknowledgement := none
deriving DecidableEq

/-- What a reported error means to a connection. -/
inductive RefusalOutcome where
  /-- The handshake failed. -/
  | rejected (why : Failure)
  /-- The connection goes on. -/
  | warning
  /-- The connection had failed or ended before. -/
  | ignored
deriving DecidableEq

namespace Handshake

def isEstablished (h : Handshake) : Bool := h.phase = .established

/-- The id that goes with what is sent, once the connection is established. -/
def connectionId? (h : Handshake) : Option String :=
  if h.isEstablished then h.info.map Acknowledgement.connectionId else none

def markSent (h : Handshake) : Handshake × Except Failure Unit :=
  match h.phase with
  | .connecting => ({ h with phase := .greeted }, .ok ())
  | p => (h, .error (.protocolViolation ("handshake cannot be sent in state " ++ p.name)))

/-- An acknowledgement was received. It counts once, and only after the greeting; then it is given back. -/
def onAcknowledgement (h : Handshake) (a : Acknowledgement) : Handshake × Option Acknowledgement :=
  match h.phase with
  | .greeted => (⟨.established, some a⟩, some a)
  | _ => (h, none)

/-- An error was received. The first one before the connection is established fails it. -/
def onRefusal (h : Handshake) (r : Refusal) : Handshake × RefusalOutcome :=
  match h.phase with
  | .connecting => ({ h with phase := .failed }, .rejected r.rejection)
  | .greeted => ({ h with phase := .failed }, .rejected r.rejection)
  | .established => (h, .warning)
  | .failed => (h, .ignored)
  | .closed => (h, .ignored)

/-- The stream ended or failed. Gives back the failure of a handshake that was still to be decided. -/
def onLost (h : Handshake) (reason : String) : Handshake × Option Failure :=
  match h.phase with
  | .connecting => ({ h with phase := .failed }, some (.closedBeforeHandshake reason))
  | .greeted => ({ h with phase := .failed }, some (.closedBeforeHandshake reason))
  | .established => ({ h with phase := .closed }, none)
  | .failed => (h, none)
  | .closed => (h, none)

/-- Gives up a handshake that is still to be decided. Tells whether it was. -/
def fail (h : Handshake) : Handshake × Bool :=
  if h.phase.isPending then ({ h with phase := .failed }, true) else (h, false)

def close (h : Handshake) : Handshake := { h with phase := .closed }

end Handshake
end TransitLink
