import TransitLink.Link.Pending
import TransitLink.Message.Envelope
import TransitLink.Text.Lossy

/-!
# What a connection takes in and gives out

* `Event` : what can happen to a connection, in the order in which it looks for them.
* `Circumstances` : the clock, the stream and the random ids while it deals with one event.
* `Effect` : what it does about it: it sends, tells its callers, and writes to the log.
-/

namespace TransitLink

set_option autoImplicit false

/-! ## Log lines -/

inductive Level where
  | debug
  | info
  | warn
  | error
deriving DecidableEq

def Level.name : Level → String
  | debug => "DEBUG"
  | info => "INFO"
  | warn => "WARN"
  | error => "ERROR"

structure LogLine where
  level : Level
  text : String
deriving DecidableEq

def previewLength : Nat := 200

def preview (frame : Bytes) : String := String.ofList ((Text.lossy frame).take previewLength)

/-! ## Events -/

/-- What can happen to a connection. -/
inductive Event where
  /-- A caller wants an action done and waits so long for it. -/
  | request (caller : Nat) (action : String) (payload : Json) (timeout : Duration)
  /-- A caller wants a sign of life sent. -/
  | ping (caller : Nat)
  /-- A caller wants the connection closed. -/
  | close
  /-- Nobody is left who could want anything. -/
  | orphaned
  /-- A frame has arrived. -/
  | frame (body : Bytes)
  /-- The stream has ended. -/
  | ended
  /-- The stream has failed. -/
  | readFailed (why : Failure)
  /-- The time for the handshake is over. -/
  | handshakeDue
  /-- The time for some request is over. -/
  | requestDue
  /-- A sign of life is due. -/
  | pingDue

/-- The world while a connection deals with one event. -/
structure Circumstances where
  now : Time
  /-- The time of day, in milliseconds. -/
  wallClock : Int := 0
  /-- The fault that writing meets. -/
  writeFault : Option Failure := none
  /-- The fault that closing the writing side meets. -/
  shutdownFault : Option Failure := none
  /-- Random ids, in the order in which they are drawn. -/
  draws : List String := []
  /-- Callers that no longer wait for their requests. -/
  gone : List Nat := []

/-! ## Effects -/

/-- What a connection does. -/
inductive Effect where
  /-- It sends an envelope, which may meet a fault. -/
  | send (e : Envelope) (fault : Option Failure)
  /-- It closes its writing side. -/
  | shutdown
  /-- It tells the caller that opened it how the handshake ended. -/
  | connected (result : Except Failure Acknowledgement)
  /-- It ends a request. -/
  | settle (s : Settled)
  /-- It tells a caller whether its sign of life was sent. -/
  | pinged (caller : Nat) (result : Except Failure Unit)
  /-- It tells a caller that it is closed. -/
  | closed
  /-- It writes to the log. -/
  | log (line : LogLine)

namespace Effect

def debug (text : String) : Effect := log ⟨.debug, text⟩

def info (text : String) : Effect := log ⟨.info, text⟩

def warn (text : String) : Effect := log ⟨.warn, text⟩

def error (text : String) : Effect := log ⟨.error, text⟩

end Effect
end TransitLink
