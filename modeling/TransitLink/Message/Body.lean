import TransitLink.Failure
import TransitLink.Json.Record

/-!
# Bodies of messages

* `Greeting` : what a client says first. `Call` : an action that it wants done.
* `Acknowledgement` : the server's answer to a greeting. `Refusal` : the error that it may send instead.
* `ResultCode`, `Response` : how an action ended.

Each body has a `toJson`, and a `parse` that reads it from text; the bodies that a server sends have an `ofJson`, which
takes them out of a JSON value.
-/

namespace TransitLink

set_option autoImplicit false

def protocolVersion : Nat := 1

def capabilities : List String := ["actions"]

/-! ## Fields -/

namespace Members

def text? (ms : Members Json) (name : String) : Option String := (ms.find? name).bind Json.text?

def number? (ms : Members Json) (name : String) : Option Nat :=
  match ms.find? name with
  | some (.int n) => some n.toNat
  | _ => none

def texts (ms : Members Json) (name : String) : List String :=
  (((ms.find? name).bind Json.items?).getD []).filterMap Json.text?

end Members

/-- A member that is left out when it has no value. -/
def optionalMember {α : Type} (name : String) (v : Option α) (write : α → Json) : Members Json :=
  (v.map fun x => (name, write x)).toList

def Json.ofNat (n : Nat) : Json := .int n

/-! ## Greetings -/

/-- What a client says first. -/
structure Greeting where
  protocolVersion : Nat
  clientId : String
  token : String
  capabilities : List String
deriving DecidableEq

namespace Greeting

def make (clientId token : String) : Greeting :=
  ⟨TransitLink.protocolVersion, clientId, token, TransitLink.capabilities⟩

def shape : Json.Shape where
  name := "HandshakeBody"
  fields := [⟨"protocolVersion", .natural 32, .required⟩, ⟨"clientId", .text, .required⟩, ⟨"token", .text, .required⟩,
    ⟨"capabilities", .texts, .required⟩]

def ofMembers (ms : Members Json) : Greeting :=
  ⟨(ms.number? "protocolVersion").getD 0, (ms.text? "clientId").getD "", (ms.text? "token").getD "",
    ms.texts "capabilities"⟩

def parse (bs : Bytes) : Except Json.Fault Greeting := (shape.parse bs).map ofMembers

def toJson (g : Greeting) : Json :=
  .obj [("protocolVersion", .ofNat g.protocolVersion), ("clientId", .str g.clientId), ("token", .str g.token),
    ("capabilities", .arr (g.capabilities.map .str))]

end Greeting

/-! ## Calls -/

/-- An action that a client wants done. -/
structure Call where
  protocolVersion : Nat
  requestId : String
  action : String
  payload : Json

namespace Call

def make (requestId action : String) (payload : Json) : Call :=
  ⟨TransitLink.protocolVersion, requestId, action, payload⟩

def shape : Json.Shape where
  name := "RequestBody"
  fields := [⟨"protocolVersion", .natural 32, .required⟩, ⟨"requestId", .text, .required⟩,
    ⟨"action", .text, .required⟩, ⟨"payload", .any, .required⟩]

def ofMembers (ms : Members Json) : Call :=
  ⟨(ms.number? "protocolVersion").getD 0, (ms.text? "requestId").getD "", (ms.text? "action").getD "",
    (ms.find? "payload").getD .null⟩

def parse (bs : Bytes) : Except Json.Fault Call := (shape.parse bs).map ofMembers

def toJson (c : Call) : Json :=
  .obj [("protocolVersion", .ofNat c.protocolVersion), ("requestId", .str c.requestId), ("action", .str c.action),
    ("payload", c.payload)]

end Call

/-! ## Acknowledgements -/

/-- The server's answer to a greeting. -/
structure Acknowledgement where
  connectionId : String
  serverName : String
  modVersion : String
  protocolVersion : Option Nat
  heartbeatSeconds : Option Nat
  message : Option String
deriving DecidableEq

namespace Acknowledgement

def shape : Json.Shape where
  name := "HandshakeInfo"
  fields := [⟨"connectionId", .text, .required⟩, ⟨"serverName", .text, .defaulted⟩, ⟨"modVersion", .text, .defaulted⟩,
    ⟨"protocolVersion", .natural 32, .nullable⟩, ⟨"heartbeatIntervalSeconds", .natural 64, .nullable⟩,
    ⟨"message", .text, .nullable⟩]

def ofMembers (ms : Members Json) : Acknowledgement :=
  ⟨(ms.text? "connectionId").getD "", (ms.text? "serverName").getD "", (ms.text? "modVersion").getD "",
    ms.number? "protocolVersion", ms.number? "heartbeatIntervalSeconds", ms.text? "message"⟩

def ofJson (j : Json) : Except Json.Fault Acknowledgement := (shape.ofJson j).map ofMembers

def parse (bs : Bytes) : Except Json.Fault Acknowledgement := (shape.parse bs).map ofMembers

def toJson (a : Acknowledgement) : Json :=
  .obj ([("connectionId", .str a.connectionId), ("serverName", .str a.serverName), ("modVersion", .str a.modVersion)] ++
    optionalMember "protocolVersion" a.protocolVersion .ofNat ++
    optionalMember "heartbeatIntervalSeconds" a.heartbeatSeconds .ofNat ++ optionalMember "message" a.message .str)

end Acknowledgement

/-! ## Refusals -/

/-- An error that the server reports. -/
structure Refusal where
  errorCode : Option String
  message : Option String
deriving DecidableEq

namespace Refusal

/-- The code, or the one that stands for a missing code. -/
def code (r : Refusal) : String := r.errorCode.getD "ERROR"

/-- The message, or the one that stands for a missing message. -/
def text (r : Refusal) : String := r.message.getD "Unknown gateway error"

/-- The failure of a handshake that is answered by this error. -/
def rejection (r : Refusal) : Failure := .handshakeRejected r.code r.text

def shape : Json.Shape where
  name := "ErrorBody"
  fields := [⟨"errorCode", .text, .nullable⟩, ⟨"message", .text, .nullable⟩]

def ofMembers (ms : Members Json) : Refusal := ⟨ms.text? "errorCode", ms.text? "message"⟩

def ofJson (j : Json) : Except Json.Fault Refusal := (shape.ofJson j).map ofMembers

def parse (bs : Bytes) : Except Json.Fault Refusal := (shape.parse bs).map ofMembers

def toJson (r : Refusal) : Json :=
  .obj [("errorCode", (r.errorCode.map .str).getD .null), ("message", (r.message.map .str).getD .null)]

end Refusal

/-! ## Result codes -/

inductive ResultCode where
  | ok
  | busy
  | invalidAction
  | invalidPayload
  | notReady
  | error
deriving DecidableEq

namespace ResultCode

def all : List ResultCode := [ok, busy, invalidAction, invalidPayload, notReady, error]

def wireName : ResultCode → String
  | ok => "OK"
  | busy => "BUSY"
  | invalidAction => "INVALID_ACTION"
  | invalidPayload => "INVALID_PAYLOAD"
  | notReady => "NOT_READY"
  | error => "ERROR"

def ofWireName? (name : String) : Option ResultCode := all.find? fun c => c.wireName = name

/-- The code with this name, or the fault of a name that is none. -/
def named (name : String) : Except Json.Fault ResultCode :=
  match ofWireName? name with
  | some c => .ok c
  | none => .error (.unknownVariant name (all.map wireName))

def readNull (bs : Bytes) : Except Json.Fault Bytes :=
  match Json.skipSpace bs with
  | [] => .error .endInValue
  | b :: bs => if b = 0x6e then Json.keyword [0x75, 0x6c, 0x6c] bs else .error (Json.mismatch "unit" b bs)

/-- Reads the name that comes first in an object, after the opening brace. -/
def readName : Json.Reader String := fun bs =>
  match Json.skipSpace bs with
  | [] => .error .endInObject
  | b :: bs =>
    if b = 0x22 then Json.stringBody bs else if b = 0x7d then .error .expectedValue else .error .keyMustBeString

/-- Reads a code after the brace of an object whose one name it is. -/
def readInObject : Json.Reader ResultCode := fun bs => do
  let (name, bs) ← readName bs
  let c ← named name
  let bs ← readNull (← Json.colon bs)
  match Json.skipSpace bs with
  | [] => .error .endInObject
  | b :: bs => if b = 0x7d then .ok (c, bs) else .error .expectedValue

/-- Reads a code: a string, or an object that has the code as its one name and null as its value. -/
def read : Json.Reader ResultCode := fun bs =>
  match Json.skipSpace bs with
  | [] => .error .endInValue
  | b :: bs =>
    if b = 0x22 then do
      let (name, bs) ← Json.stringBody bs
      .ok (← named name, bs)
    else if b = 0x7b then readInObject bs
    else .error .expectedValue

def parse (bs : Bytes) : Except Json.Fault ResultCode := Json.complete read bs

def toJson (c : ResultCode) : Json := .str c.wireName

end ResultCode

/-! ## Responses -/

/-- The server's answer to a call, as it was received. -/
structure Response where
  requestId : String
  result : Option String
  message : Option String
  /-- Absent when the server sent none; a null that was sent is kept. -/
  payload? : Option Json
  /-- The fields that this protocol does not know. -/
  extra : Members Json

namespace Response

/-- The payload, null when there was none. -/
def payload (r : Response) : Json := r.payload?.getD .null

/-- The result, if it is a known code. -/
def code? (r : Response) : Option ResultCode := r.result.bind ResultCode.ofWireName?

/-- Whether the server reported no other result than success. -/
def isOk (r : Response) : Bool := r.result.isNone || r.code? == some .ok

def shape : Json.Shape where
  name := "ActionResponse"
  fields := [⟨"requestId", .text, .required⟩, ⟨"result", .text, .nullable⟩, ⟨"message", .text, .nullable⟩,
    ⟨"payload", .any, .defaulted⟩]
  isOpen := true

def ofMembers (ms : Members Json) : Response where
  requestId := (ms.text? "requestId").getD ""
  result := ms.text? "result"
  message := ms.text? "message"
  payload? := ms.find? "payload"
  extra := Members.merge (ms.filter fun m => (shape.field? m.1).isNone)

def ofJson (j : Json) : Except Json.Fault Response := (shape.ofJson j).map ofMembers

def parse (bs : Bytes) : Except Json.Fault Response := (shape.parse bs).map ofMembers

/-- The response as JSON: the known fields that are there, then the others in their order. -/
def toJson (r : Response) : Json :=
  .obj ([("requestId", .str r.requestId)] ++ optionalMember "result" r.result .str ++
    optionalMember "message" r.message .str ++ optionalMember "payload" r.payload? id ++ r.extra)

end Response
end TransitLink
