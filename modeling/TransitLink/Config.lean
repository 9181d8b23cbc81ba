import TransitLink.Failure
import TransitLink.Text.Blank

/-!
# Configuration of a client

* `Config` : where the server is, who the client is, and how long it waits.
* `Config.default` : the configuration of a client that was told nothing.
* `Config.validate` : what keeps a configuration from being used, if anything.
-/

namespace TransitLink

set_option autoImplicit false

/-- Where the server is, who the client is, and how long it waits. -/
structure Config where
  host : String
  /-- The number of the server's TCP service. -/
  service : UInt16
  token : String
  clientId : String
  requestTimeout : Duration
  connectTimeout : Duration
  handshakeTimeout : Duration
  maxFrameLength : Nat
  /-- Whether to send signs of life at the interval that the server asks for. -/
  keepalive : Bool
deriving DecidableEq

namespace Config

def clientIdStart : String := "beacon-probe-"

/-- The configuration of a client that was told nothing and runs as this process. -/
def default (process : Nat) : Config where
  host := "127.0.0.1"
  service := 28545
  token := "change-me"
  clientId := clientIdStart ++ toString process
  requestTimeout := .ofMilliseconds 15000
  connectTimeout := .ofSeconds 10
  handshakeTimeout := .ofSeconds 10
  maxFrameLength := 64 * 1024 * 1024
  keepalive := true

def address (c : Config) : String := c.host ++ ":" ++ toString c.service.toNat

/-- The first thing that keeps the configuration from being used. -/
def problem? (c : Config) : Option String :=
  if (Text.trimChars c.host.toList).isEmpty then some "host must not be empty"
  else if c.service = 0 then some "port must not be 0"
  else if c.token = "" then some "token must not be empty"
  else if c.clientId = "" then some "client id must not be empty"
  else if c.requestTimeout.nanoseconds = 0 then some "request timeout must be non-zero"
  else if c.connectTimeout.nanoseconds = 0 then some "connect timeout must be non-zero"
  else if c.handshakeTimeout.nanoseconds = 0 then some "handshake timeout must be non-zero"
  else if c.maxFrameLength = 0 then some "max frame length must be non-zero"
  else none

def validate (c : Config) : Except Failure Unit :=
  match c.problem? with
  | some why => .error (.configuration why)
  | none => .ok ()

end Config
end TransitLink
