import Std.Async.DNS
import Std.Async.TCP
import Std.Async.Timer
import Std.Time.DateTime.Timestamp
import TransitLink.Client
import TransitLink.Frame.Stream
import TransitLink.Probe.Suite
import TransitLink.Probe.Timestamp
import TransitLink.Probe.Visit

/-!
# The command line

Probes a server: reads the settings, clears the output directory, connects, asks for everything in the suite, and writes
the responses. The first argument is the output directory.

* `Live` : a client over a real stream and by a real clock.
* `Live.perform` : lets the client do something and carries out what it does. `Live.turn` : one event of the stream or
  the clock.
* `probe` : the whole program. Its trouble, if any, goes to standard error.
-/

namespace TransitLink.Probe
open Std.Async Std.Net

set_option autoImplicit false

/-! ## Faults -/

def faultNumber? : IO.Error → Option UInt32
  | .alreadyExists _ n _ => some n
  | .otherError n _ => some n
  | .resourceBusy n _ => some n
  | .resourceVanished n _ => some n
  | .unsupportedOperation n _ => some n
  | .hardwareFault n _ => some n
  | .unsatisfiedConstraints n _ => some n
  | .illegalOperation n _ => some n
  | .protocolError n _ => some n
  | .timeExpired n _ => some n
  | .interrupted _ n _ => some n
  | .noFileOrDirectory _ n _ => some n
  | .invalidArgument _ n _ => some n
  | .permissionDenied _ n _ => some n
  | .resourceExhausted _ n _ => some n
  | .inappropriateType _ n _ => some n
  | .noSuchThing _ n _ => some n
  | _ => none

/-- The operating system's fault. Some faults carry its number with the sign turned. -/
def osFault (e : IO.Error) : OsFault :=
  match faultNumber? e with
  | some n => .ofNumber (if n.toNat < 2 ^ 31 then n.toNat else 2 ^ 32 - n.toNat)
  | none => .other (toString e)

def attempt {α : Type} (act : IO α) : BaseIO (Except OsFault α) := do
  return (← act.toBaseIO).mapError osFault

/-! ## The disk -/

/-- Takes a removal for done if there is nothing left to remove. -/
def gone : Except OsFault Unit → Except OsFault Unit
  | .error .notFound => .ok ()
  | removed => removed

def disk {m : Type → Type} [Monad m] [MonadLiftT BaseIO m] : Disk m where
  leads r := return (← attempt (IO.FS.Handle.mk r.text .read)).isOk
  leadsToDirectory r := return (← attempt (IO.FS.Handle.mk (r.text ++ "/.") .read)).isOk
  make r := attempt (IO.FS.createDir r.text)
  remove r := return gone (← attempt (IO.FS.removeDirAll r.text))
  write r content := attempt (IO.FS.writeBinFile r.text ⟨content.toArray⟩)

/-! ## The surroundings -/

/-- The number of this process; zero where the system does not tell. -/
def processNumber : BaseIO Nat := do
  match ← attempt (IO.FS.readFile "/proc/self/stat") with
  | .ok stat => return (String.ofList (stat.toList.takeWhile (· ≠ ' '))).toNat?.getD 0
  | .error _ => return 0

def processVariables : BaseIO (Members String) :=
  Settings.variableNames.filterMapM fun name => do
    return (← IO.getEnv name).map fun value => (name, value)

def settingsFile : BaseIO Settings.File := do
  match ← attempt (IO.FS.readBinFile ".env") with
  | .ok content => return .content content.toList
  | .error .notFound => return .absent
  | .error why => return .unreadable why

/-- Nanoseconds since the beginning of 1970. -/
def wallClock : IO Nat := do
  return (← Std.Time.Timestamp.now).toNanosecondsSinceUnixEpoch.val.toNat

/-- The world at this moment: the clocks, and enough random ids to choose from. -/
def circumstances : IO Circumstances := do
  let ids := RequestId.ofOctets 8 (← IO.getRandomBytes 4096).toList
  return { now := ← IO.monoNanosNow, wallClock := (← wallClock) / 1000000, draws := ids }

/-! ## Streams -/

def socketAddress (service : UInt16) : IPAddr → SocketAddress
  | .v4 ip => .v4 ⟨ip, service⟩
  | .v6 ip => .v6 ⟨ip, service⟩

def openFirst (service : UInt16) : List IPAddr → OsFault → Async (Except OsFault TCP.Socket.Client)
  | [], why => return .error why
  | ip :: ips, _ => do
    try
      let socket ← TCP.Socket.Client.mk
      socket.connect (socketAddress service ip)
      return .ok socket
    catch e => openFirst service ips (osFault e)

def unresolved : OsFault := .other "failed to lookup address information: Name or service not known"

def openStream (c : Config) : Async (Except OsFault TCP.Socket.Client) := do
  try
    let ips ← DNS.getAddrInfo c.host (toString c.service.toNat)
    openFirst c.service ips.toList.eraseDups unresolved
  catch _ => return .error unresolved

/-- So many milliseconds, rounded up, for a span in nanoseconds. -/
def milliseconds (nanoseconds : Nat) : Std.Time.Millisecond.Offset := .ofNat ((nanoseconds + 999999) / 1000000)

/-- Opens a stream that sends at once, or gives up when the time for it is over. -/
def dial (c : Config) : IO (DialOutcome × Option TCP.Socket.Client) := do
  let opened := do return some (← openStream c)
  let late := do
    sleep (milliseconds c.connectTimeout.nanoseconds)
    return none
  match ← (Async.race opened late).block with
  | some (.ok socket) =>
    try
      socket.noDelay
      return (.opened, some socket)
    catch e => return (.delaying (osFault e).message, none)
  | some (.error why) => return (.refused why.message, none)
  | none => return (.timedOut, none)

def readStream (socket : TCP.Socket.Client) (span : Nat) : BaseIO ReadOutcome := do
  let arrival : Selectable ReadOutcome := .case (socket.recvSelector readLength.toUInt64) fun bs =>
    return match bs with
      | some bs => .octets bs.toList
      | none => .ended
  let outcome ← attempt do
    if span = 0 then
      return (← (Selectable.tryOne #[arrival]).block).getD .nothing
    else
      (do Selectable.one #[arrival, .case (← Selector.sleep (milliseconds span)) fun _ => return .nothing] :
        Async ReadOutcome).block
  match outcome with
  | .ok o => return o
  | .error why => return .failed why.message

/-! ## A live client -/

structure Live where
  settings : Settings
  client : Client
  reader : FrameReader
  socket : Option TCP.Socket.Client := none

namespace Live

def isRunning (l : Live) : Bool := l.client.connection.any fun c => !c.stopped

def write (l : Live) (e : Envelope) : BaseIO (Option Failure) := do
  match Frame.encode e.toBytes, l.socket with
  | .ok frame, some socket =>
    match ← attempt (socket.send ⟨frame.toArray⟩).block with
    | .ok () => return none
    | .error why => return some (Frame.writeFault why.message)
  | _, _ => return none

/-- Carries out effects up to the first fault of the stream. -/
def carryOut (l : Live) : List Effect → BaseIO (Option Failure)
  | [] => return none
  | .send e none :: effects => do
    match ← l.write e with
    | some fault => return some fault
    | none => l.carryOut effects
  | .shutdown :: effects => do
    if let some socket := l.socket then
      discard (attempt socket.shutdown.block)
    l.carryOut effects
  | _ :: effects => l.carryOut effects

/-- Lets the client do something. When the stream does not take what it sends, it does the same thing with that fault
instead. -/
def perform (act : Circumstances → Client × List Effect) : StateT Live IO (List Effect) := do
  let l ← get
  let w ← circumstances
  let (client, effects) := act w
  match ← l.carryOut effects with
  | none =>
    set { l with client := client }
    return effects
  | some fault =>
    let (client, effects) := act { w with writeFault := some fault }
    discard (l.carryOut (effects.filter fun
      | .shutdown => true
      | _ => false))
    set { l with client := client }
    return effects

def feed (e : Event) : StateT Live IO (List Effect) := do
  let client := (← get).client
  perform fun w => client.feed w e

/-- What the stream yields before the next timer runs out. -/
def read (l : Live) : IO (List ReadOutcome) := do
  match l.reader.ready, l.socket with
  | [], some socket =>
    let now ← IO.monoNanosNow
    let next := (l.client.connection.bind Connection.nextTimer?).getD (now + 1000000000)
    return [← readStream socket (next - now)]
  | _, _ => return []

/-- One event of the stream or, if that is silent, of the clock. -/
def turn : StateT Live IO (List Effect) := do
  let l ← get
  let (taken, reader, _) := l.reader.next (← l.read)
  set { l with reader := reader }
  match taken with
  | .frame body => feed (.frame body)
  | .ended => feed .ended
  | .failed why => feed (.readFailed why)
  | .waiting =>
    match l.client.connection.bind (·.due? (← IO.monoNanosNow)) with
    | some e => feed e
    | none => return []

/-- Waits for an effect, beginning with those that have already happened. -/
partial def await {α : Type} (pick : Effect → Option α) (otherwise : α) (effects : List Effect) :
    StateT Live IO α := do
  match effects.findSome? pick with
  | some a => return a
  | none => if (← get).isRunning then await pick otherwise (← turn) else return otherwise

def handshakeEnd : Effect → Option (Except Failure Acknowledgement)
  | .connected r => some r
  | _ => none

def requestEnd : Effect → Option Outcome
  | .settle s => some s.outcome
  | _ => none

def connect : StateT Live IO (Except Failure Acknowledgement) := do
  let l ← get
  let (outcome, socket) ← dial l.client.config
  set { l with socket := socket }
  match l.client.dial (← circumstances) outcome with
  | (_, _, some e) => return .error e
  | (_, _, none) =>
    let effects ← perform fun w =>
      let (client, effects, _) := l.client.dial w outcome
      (client, effects)
    await handshakeEnd (.error .connectionClosed) effects

def ask (action : String) (payload : Json) : StateT Live IO (Except Failure Response) := do
  let client := (← get).client
  let effects ← perform fun w => client.request w 0 action payload client.config.requestTimeout
  await requestEnd (.error .connectionClosed) effects

/-- Leaves a note. Warnings are not shown. -/
def leave : Note → StateT Live IO (Except Trouble Unit)
  | .warning _ => return .ok ()
  | .file name content => do
    let bs := Report.octets (timestampText (← wallClock)) content
    return (← Report.write disk (← get).settings.outputDir name bs).map fun _ => ()

def host : Host (StateT Live IO) where
  ask := ask
  leave := leave
  connect := return (← connect).map fun _ => ()
  close := do
    let client := (← get).client
    discard (perform client.close)

end Live

/-! ## The program -/

def probe (args : List String) : IO (Except Trouble Unit) := do
  match Settings.load (← processNumber) (← processVariables) (← settingsFile) args.head? with
  | .error t => return .error t
  | .ok settings =>
    match ← Report.prepare disk settings.outputDir with
    | .error t => return .error t
    | .ok () =>
      let live : Live := {
        settings := settings
        client := { config := settings.gateway }
        reader := ⟨[], [], settings.gateway.maxFrameLength⟩ }
      return (← (visit Live.host (Suite.plan settings.railway)).run live).1

end TransitLink.Probe

def main (args : List String) : IO UInt32 := do
  let result ← TransitLink.Probe.probe args
  if let .error t := result then
    (← IO.getStderr).putStr t.report
  return TransitLink.Probe.exitCode result
