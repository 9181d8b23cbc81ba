import TransitLink.Probe.FileTree
import TransitLink.Probe.Suite
import TransitLink.Probe.Visit
import TransitLink.Rehearsal

/-!
# Rehearsals of a probe

* `Scene` : the rehearsed client, the file tree, and what has happened so far.
* `Scene.play` : what a probe does with its settings: it prepares its directory, connects, asks for everything in the
  suite, and closes the connection. The server follows a script: a list of acts while the client connects, and a `Turn`
  for each request.
-/

namespace TransitLink.Probe

set_option autoImplicit false

/-- What the server does about a request. -/
inductive Turn where
  /-- It sends frames with these bodies. -/
  | answer (bodies : List Bytes)
  /-- It does nothing until the request is overdue. -/
  | silence
  /-- It ends its side of the stream. -/
  | finish

/-- A probe that is being rehearsed. -/
structure Scene where
  settings : Settings
  link : Rehearsal
  tree : FileTree
  /-- The time that stands in every file. -/
  timestamp : String
  /-- What the server does about the requests that reach it, by number; it knows the request's id. -/
  turns : Nat → String → Turn
  /-- The requests that reached the server. -/
  asked : List (String × Json) := []
  log : List LogLine := []

namespace Scene

def record (s : Scene) (happened : Rehearsal × Account) : Scene :=
  { s with link := happened.1, log := s.log ++ happened.2.log }

def outcome? (caller : Nat) (a : Account) : Option Outcome :=
  (a.settled.find? fun e => e.caller = caller).map Settled.outcome

def timeOut (s : Scene) : Rehearsal × Account := s.link.advance s.settings.gateway.requestTimeout

def framed (bodies : List Bytes) : List Bytes := bodies.filterMap fun body => (Frame.encode body).toOption

/-- The server does something about the request that it has read last. -/
def take (s : Scene) (id : String) : Rehearsal × Account :=
  match s.turns s.asked.length id with
  | .answer bodies => s.link.arrive (framed bodies)
  | .silence => s.timeOut
  | .finish => s.link.finish []

/-- Has an action done. What the server's turn leaves undecided is decided by time. -/
def ask (action : String) (payload : Json) : StateM Scene (Except Failure Response) := fun s =>
  let caller := s.link.callers
  let made := s.link.request action payload none false
  let s := s.record made
  match outcome? caller made.2, s.link.idOf? caller with
  | some o, _ => (o, s)
  | none, none => (.error .connectionClosed, s)
  | none, some id =>
    let taken := s.take id
    let s := { s with asked := s.asked ++ [(action, payload)] }.record taken
    match outcome? caller taken.2 with
    | some o => (o, s)
    | none =>
      let late := s.timeOut
      ((outcome? caller late.2).getD (.error .connectionClosed), s.record late)

def leave (n : Note) : StateM Scene (Except Trouble Unit) := fun s =>
  match n with
  | .warning text => (.ok (), { s with log := s.log ++ [⟨.warn, text⟩] })
  | .file name content =>
    let (written, tree) := Report.write FileTree.disk s.settings.outputDir name (Report.octets s.timestamp content) s.tree
    (written.map fun _ => (), { s with tree := tree })

/-- Connects. The server follows its script. -/
def connect (outcome : DialOutcome) (acts : List ServerAct) : StateM Scene (Except Failure Unit) := fun s =>
  let opened := s.link.connect outcome acts
  let s := s.record opened
  match opened.2.reply with
  | .connected _ => (.ok (), s)
  | .failed e => (.error e, s)
  | _ => (.error .connectionClosed, s)

def host (outcome : DialOutcome) (acts : List ServerAct) : Host (StateM Scene) where
  ask := ask
  leave := leave
  connect := connect outcome acts
  close := modify fun s => s.record (s.link.close false)

def play (s : Scene) (outcome : DialOutcome) (acts : List ServerAct) : Scene × Except Trouble Unit :=
  match Report.prepare FileTree.disk s.settings.outputDir s.tree with
  | (.error t, tree) => ({ s with tree := tree }, .error t)
  | (.ok (), tree) =>
    let s := { s with tree := tree }
    Prod.swap (visit (host outcome acts) (Suite.plan s.settings.railway) s)

end Scene
end TransitLink.Probe
