import TransitLink.Failure
import TransitLink.Probe.OsFault

/-!
# Why a probe stops

* `Trouble` : what was being done, outermost first, and what went wrong.
* `Trouble.summary` : all of it in one line. `Trouble.report` : the lines of a report, the causes below the first.
-/

namespace TransitLink.Probe

set_option autoImplicit false

inductive Cause where
  | failure (f : Failure)
  | fault (words : String)
deriving DecidableEq

def Cause.message : Cause → String
  | failure f => f.message
  | fault words => words

/-- What was being done, outermost first, and what went wrong. -/
structure Trouble where
  context : List String
  cause : Cause
deriving DecidableEq

namespace Trouble

def ofFailure (f : Failure) : Trouble := ⟨[], .failure f⟩

def ofOsFault (doing : String) (e : OsFault) : Trouble := ⟨[doing], .fault e.message⟩

def within (t : Trouble) (doing : String) : Trouble := { t with context := doing :: t.context }

def parts (t : Trouble) : List String := t.context ++ [t.cause.message]

def summary (t : Trouble) : String := String.intercalate ": " t.parts

/-- A cause on a line of its own, with its number if there are several. -/
def causeLine (several : Bool) (n : Nat) (words : String) : String :=
  "    " ++ (if several then toString n ++ ": " else "") ++ words ++ "\n"

/-- The causes, each on a line of its own; `n` is the number of the first. -/
def causeLines (several : Bool) (n : Nat) : List String → String
  | [] => ""
  | w :: ws => causeLine several n w ++ causeLines several (n + 1) ws

/-- The report with which a program ends. -/
def report (t : Trouble) : String :=
  match t.parts with
  | [] => ""
  | [first] => "Error: " ++ first ++ "\n"
  | first :: causes => "Error: " ++ first ++ "\n\nCaused by:\n" ++ causeLines (1 < causes.length) 0 causes

end Trouble
end TransitLink.Probe
