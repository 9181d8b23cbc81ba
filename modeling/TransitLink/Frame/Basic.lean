import TransitLink.Failure

/-!
# Frames

A frame is a body behind its length in four octets.

* `Frame.encode` : the frame of a body.
* `Frame.declared?` : the length that the octets at hand announce.
* `Frame.first?` : the first frame's body and what follows it, if it is complete.
* `Frame.split` : all complete frames at the front of some octets, and the rest.
* `Frame.feed` : the same for octets held back and octets that have just arrived.
-/

namespace TransitLink.Frame

set_option autoImplicit false

def headerLength : Nat := 4

/-- The frame of a body. The length has to fit its four octets. -/
def encode (body : Bytes) : Except Failure Bytes :=
  if body.length < 2 ^ 32 then .ok (Bytes.toBigEndian headerLength body.length ++ body)
  else .error (.protocolViolation ("frame body too large: " ++ toString body.length ++ " bytes"))

/-- The length announced at the front, if its four octets are there. -/
def declared? : Bytes → Option Nat
  | a :: b :: c :: d :: _ => some (Bytes.ofBigEndian [a, b, c, d])
  | _ => none

/-- The body of the first frame and the octets after it, if the frame is complete. -/
def first? (bs : Bytes) : Option (Bytes × Bytes) :=
  match declared? bs with
  | some n => Bytes.split? (bs.drop headerLength) n
  | none => none

/-- The complete frames at the front, `fuel` bounding their number, and the rest; `done` holds those before, last
first. -/
def splitFrom (done : List Bytes) : (fuel : Nat) → Bytes → List Bytes × Bytes
  | 0, bs => (done.reverse, bs)
  | fuel + 1, bs =>
    match first? bs with
    | some (body, rest) => splitFrom (body :: done) fuel rest
    | none => (done.reverse, bs)

/-- The bodies of all complete frames at the front, and the octets of the incomplete one after them. -/
def split (bs : Bytes) : List Bytes × Bytes := splitFrom [] bs.length bs

def consumed (bs : Bytes) : Nat := bs.length - (split bs).2.length

/-- The frames that a chunk completes, and the octets then held back; `held` are those held back before. -/
def feed (held chunk : Bytes) : List Bytes × Bytes := split (held ++ chunk)

end TransitLink.Frame
