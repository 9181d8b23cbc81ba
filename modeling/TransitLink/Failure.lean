import TransitLink.Base64
import TransitLink.Duration
import TransitLink.Json.Fault
import TransitLink.Snapshot.Unpack

/-!
# Failures

* `Failure` : why a connection, a request or a decoding failed.
* `Failure.message` : the failure in words.
* `Failure.isFatal` : whether it ends the connection rather than a single request.
-/

namespace TransitLink

set_option autoImplicit false

inductive Failure where
  /-- The socket could not be opened, read or written. -/
  | transport (reason : String)
  /-- The machine's own input or output failed. -/
  | inputOutput (reason : String)
  /-- A frame holds no valid envelope, or an envelope is out of place. -/
  | protocolViolation (reason : String)
  /-- The server answered the handshake with an error. -/
  | handshakeRejected (code message : String)
  /-- The server did not acknowledge the handshake in time. -/
  | handshakeTimeout (limit : Duration)
  /-- The connection ended before the handshake was done. -/
  | closedBeforeHandshake (reason : String)
  /-- There is no established connection. -/
  | notEstablished
  /-- No response came in time. -/
  | timeout (action requestId : String)
  /-- The connection ended while the request was pending. -/
  | connectionClosed
  /-- A text is not the JSON that was wanted. -/
  | serialization (reason : String)
  /-- A snapshot could not be decoded. -/
  | snapshotDecode (reason : String)
  /-- The configuration cannot be used. -/
  | configuration (reason : String)
deriving DecidableEq

namespace Failure

def message : Failure → String
  | transport reason => "Transport error: " ++ reason
  | inputOutput reason => "I/O error: " ++ reason
  | protocolViolation reason => "Protocol violation: " ++ reason
  | handshakeRejected code message => "Handshake rejected (" ++ code ++ "): " ++ message
  | handshakeTimeout limit => "Handshake not acknowledged within " ++ limit.text
  | closedBeforeHandshake reason => "Connection closed before handshake: " ++ reason
  | notEstablished => "Gateway handshake not completed"
  | timeout action requestId => action ++ " (" ++ requestId ++ ") timed out"
  | connectionClosed => "Connection closed"
  | serialization reason => "Serialization error: " ++ reason
  | snapshotDecode reason => "Snapshot decode error: " ++ reason
  | configuration reason => "Invalid configuration: " ++ reason

/-- Whether the failure ends the connection. -/
def isFatal : Failure → Bool
  | transport _ => true
  | inputOutput _ => true
  | handshakeRejected _ _ => true
  | handshakeTimeout _ => true
  | closedBeforeHandshake _ => true
  | connectionClosed => true
  | protocolViolation _ => false
  | notEstablished => false
  | timeout _ _ => false
  | serialization _ => false
  | snapshotDecode _ => false
  | configuration _ => false

def ofJsonFault (f : Json.Fault) : Failure := serialization f.message

def ofBase64Fault (f : Base64.Fault) : Failure := snapshotDecode ("invalid base64: " ++ f.message)

def ofUnpackFault (f : Snapshot.UnpackFault) : Failure := snapshotDecode f.message

end Failure
end TransitLink
