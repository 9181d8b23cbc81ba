import TransitLink.Probe.Plan

/-!
# Visits

* `Host` : somebody to ask who has to be connected to first.
* `visit` : connects, carries out a plan and closes the connection.
* `exitCode` : what a program ends with that has been on a visit.
-/

namespace TransitLink.Probe

set_option autoImplicit false

/-- Where a plan is carried out behind a connection. -/
structure Host (m : Type → Type) extends Plan.Stage m where
  /-- Opens the connection. -/
  connect : m (Except Failure Unit)
  /-- Closes the connection, if it was opened. -/
  close : m Unit

/-- Carries out a plan if the connection opens. The connection is closed in any case. -/
def visit {m : Type → Type} [Monad m] (host : Host m) (p : Plan) : m (Except Trouble Unit) := do
  let result ← match ← host.connect with
    | .ok () => p.run host.toStage
    | .error e => pure (.error (.ofFailure e))
  host.close
  return result

def exitCode : Except Trouble Unit → UInt32
  | .ok () => 0
  | .error _ => 1

end TransitLink.Probe
