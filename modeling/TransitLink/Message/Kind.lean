/-!
# Kinds of messages

* `MessageKind` : the seven kinds of envelopes, with the name of each on the wire.
* `MessageKind.ofWireName?` : the kind of a name, capital and small ASCII letters being the same.
-/

namespace TransitLink

set_option autoImplicit false

inductive MessageKind where
  | handshake
  | handshakeAck
  | request
  | response
  | ping
  | pong
  | error
deriving DecidableEq

namespace MessageKind

def all : List MessageKind := [handshake, handshakeAck, request, response, ping, pong, error]

def wireName : MessageKind → String
  | handshake => "handshake"
  | handshakeAck => "handshake_ack"
  | request => "request"
  | response => "response"
  | ping => "ping"
  | pong => "pong"
  | error => "error"

def lowerChar (c : Char) : Char := if 'A' ≤ c ∧ c ≤ 'Z' then Char.ofNat (c.toNat + 32) else c

/-- A name with its capital ASCII letters made small. -/
def lowered (name : String) : List Char := name.toList.map lowerChar

def ofWireName? (name : String) : Option MessageKind := all.find? fun k => k.wireName.toList = lowered name

end MessageKind
end TransitLink
