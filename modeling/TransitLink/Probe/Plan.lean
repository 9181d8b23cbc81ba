import TransitLink.Message.Body
import TransitLink.Probe.Trouble

/-!
# Plans

* `Note` : what a probe leaves behind: a file of its report, or a warning.
* `Plan` : which actions a probe asks for and which notes it leaves, each as far as the responses before it decide.
* `Plan.run` : carries out a plan where there is somebody to ask and a place for notes. The first trouble ends it.

Plans are put together with `++`.
-/

namespace TransitLink.Probe

set_option autoImplicit false

/-! ## Notes -/

/-- What a file of a report holds. -/
inductive Content where
  /-- A value, under the time at which it is written. -/
  | document (data : Json)
  | octets (bs : Bytes)

inductive Note where
  | file (name : String) (content : Content)
  | warning (text : String)

/-! ## Plans -/

inductive Plan where
  | done
  /-- It leaves a note. -/
  | note (n : Note) (rest : Plan)
  /-- It asks for an action; what it does then depends on the response. -/
  | ask (action : String) (payload : Json) (next : Response → Plan)

namespace Plan

def append : Plan → Plan → Plan
  | done, q => q
  | note n rest, q => note n (rest.append q)
  | ask action payload next, q => ask action payload fun r => (next r).append q

instance : Append Plan := ⟨append⟩

def notes (ns : List Note) : Plan := ns.foldr note done

def all (ps : List Plan) : Plan := ps.foldr append done

/-! ## Carrying out a plan -/

structure Stage (m : Type → Type) where
  /-- Has an action done. -/
  ask : String → Json → m (Except Failure Response)
  /-- Leaves a note. -/
  leave : Note → m (Except Trouble Unit)

def unanswered (action : String) (e : Failure) : Trouble := (Trouble.ofFailure e).within (action ++ " failed")

/-- Carries out a plan up to the first trouble. -/
def run {m : Type → Type} [Monad m] (stage : Stage m) : Plan → m (Except Trouble Unit)
  | done => pure (.ok ())
  | note n rest => do
    match ← stage.leave n with
    | .ok () => rest.run stage
    | .error t => pure (.error t)
  | ask action payload next => do
    match ← stage.ask action payload with
    | .ok r => (next r).run stage
    | .error e => pure (.error (unanswered action e))

end Plan
end TransitLink.Probe
