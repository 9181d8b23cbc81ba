import TransitLink.Json.Printer
import TransitLink.Message.Body
import TransitLink.Message.Kind

/-!
# Envelopes

* `Envelope` : what a client sends: a kind, a time, the id of the connection and a body.
* `Inbound` : what a client receives. `Inbound.decode` reads and classifies the body of a frame.

A frame that is no envelope is a violation of the protocol; so is one whose type is unknown or whose body does not fit
its type.
-/

namespace TransitLink

set_option autoImplicit false

/-! ## Outbound -/

structure Envelope where
  kind : MessageKind
  timestamp : Int
  connectionId : Option String
  body : Json

namespace Envelope

/-- The first envelope of a connection; it has no connection id. -/
def greeting (timestamp : Int) (g : Greeting) : Envelope := ⟨.handshake, timestamp, none, g.toJson⟩

/-- A call on an established connection. -/
def call (timestamp : Int) (connectionId : String) (c : Call) : Envelope :=
  ⟨.request, timestamp, some connectionId, c.toJson⟩

def ping (timestamp : Int) (connectionId : String) : Envelope := ⟨.ping, timestamp, some connectionId, .obj []⟩

def toJson (e : Envelope) : Json :=
  .obj ([("type", .str e.kind.wireName), ("timestamp", .int e.timestamp)] ++
    optionalMember "connectionId" e.connectionId .str ++ [("body", e.body)])

/-- The envelope as the body of a frame. -/
def toBytes (e : Envelope) : Bytes := e.toJson.toBytes

end Envelope

/-! ## Inbound -/

inductive Inbound where
  | acknowledgement (a : Acknowledgement)
  | response (r : Response)
  | refusal (r : Refusal)
  | pong
  /-- A kind that a server does not send. -/
  | unexpected (kind : MessageKind)

namespace Inbound

/-- The fields of an envelope that matter to its receiver. -/
def envelopeShape : Json.Shape where
  name := "RawEnvelope"
  fields := [⟨"type", .text, .required⟩, ⟨"body", .any, .defaulted⟩]

/-- The body of an envelope: an object as it is, an empty object in place of anything else. -/
def bodyOf : Json → Json
  | .obj ms => .obj ms
  | _ => .obj []

def badBody (kind : MessageKind) (f : Json.Fault) : Failure :=
  .protocolViolation ("invalid " ++ kind.wireName ++ " body: " ++ f.message)

def ofBody (kind : MessageKind) (body : Json) : Except Failure Inbound :=
  match kind with
  | .handshakeAck => ((Acknowledgement.ofJson body).map acknowledgement).mapError (badBody kind)
  | .response => ((Response.ofJson body).map response).mapError (badBody kind)
  | .error => ((Refusal.ofJson body).map refusal).mapError (badBody kind)
  | .pong => .ok pong
  | kind => .ok (unexpected kind)

/-- What an envelope of this type and body means. -/
def classify (type : String) (body : Json) : Except Failure Inbound :=
  match MessageKind.ofWireName? type with
  | some kind => ofBody kind (bodyOf body)
  | none => .error (.protocolViolation ("unknown message type: " ++ type))

def decode (frame : Bytes) : Except Failure Inbound :=
  match envelopeShape.parse frame with
  | .ok ms => classify ((ms.text? "type").getD "") ((ms.find? "body").getD .null)
  | .error f => .error (.protocolViolation ("invalid frame JSON: " ++ f.message))

end Inbound
end TransitLink
