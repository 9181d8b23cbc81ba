import TransitLink.Frame.Basic

/-!
# Frames over a stream

* `FrameReader` : reads frames from a stream of octets. `FrameReader.accept` takes in the outcome of one read of the
  stream, `FrameReader.next` takes the next frame, reading as long as none is ready.
* `writeFrame` : writes a frame to a stream.

A stream is known by what it answers: `ReadOutcome` for a read, `WriteOutcome` for a write. Between two reads nothing is
lost, so a caller may stop waiting at any time.
-/

namespace TransitLink

set_option autoImplicit false

/-! ## Reading -/

inductive ReadOutcome where
  /-- Some octets, at least one. -/
  | octets (bs : Bytes)
  /-- The end of the stream. -/
  | ended
  /-- A fault of the stream. -/
  | failed (reason : String)
  /-- Nothing yet. -/
  | nothing

/-- The stream's octets are read in pieces of at most this length. -/
def readLength : Nat := 8 * 1024

/-- The reads that take in some octets which arrive at once; `fuel` bounds their number. -/
def ReadOutcome.ofArrival : (fuel : Nat) → Bytes → List ReadOutcome
  | 0, _ => []
  | fuel + 1, bs => if bs = [] then [] else .octets (bs.take readLength) :: ofArrival fuel (bs.drop readLength)

/-- The receiving side: octets held back for an incomplete frame, and complete frames not yet taken. -/
structure FrameReader where
  held : Bytes := []
  ready : List Bytes := []
  maxLength : Nat

namespace FrameReader

def tooLong (n limit : Nat) : Failure :=
  .transport ("Frame too large: " ++ toString n ++ " bytes (limit " ++ toString limit ++ ")")

/-- The frames before the first that is too long, and that one's length. -/
def checkLengths (limit : Nat) : List Bytes → List Bytes × Option Nat
  | [] => ([], none)
  | f :: fs =>
    if limit < f.length then ([], some f.length)
    else
      let (good, bad) := checkLengths limit fs
      (f :: good, bad)

/-- What an accepted read means: frames may be ready, the stream has ended between frames, reading has failed, or the
stream has nothing to read yet. -/
inductive Accepted where
  | more
  | ended
  | failed (why : Failure)
  | waiting

/-- Takes in the outcome of a read. A frame over the limit fails at once, frames before it stay ready. -/
def accept (r : FrameReader) : ReadOutcome → FrameReader × Accepted
  | .nothing => (r, .waiting)
  | .failed reason => (r, .failed (.transport ("TCP read failed: " ++ reason)))
  | .ended =>
    if r.held.isEmpty then (r, .ended)
    else
      (r, .failed (.transport ("Connection closed mid-frame with " ++ toString r.held.length ++ " bytes buffered")))
  | .octets chunk =>
    let (frames, held) := Frame.feed r.held chunk
    let (good, bad) := checkLengths r.maxLength frames
    let r := { r with held := held, ready := r.ready ++ good }
    match bad with
    | some n => (r, .failed (tooLong n r.maxLength))
    | none =>
      match Frame.declared? held with
      | some n => if r.maxLength < n then (r, .failed (tooLong n r.maxLength)) else (r, .more)
      | none => (r, .more)

inductive Taken where
  | frame (body : Bytes)
  | ended
  | failed (why : Failure)
  /-- The stream has nothing to read yet. -/
  | waiting

/-- Takes the next frame: one that is ready, else from the outcomes of the next reads. Gives back the outcomes that it
did not need. When the outcomes run out, the stream has nothing more to read yet. -/
def next (r : FrameReader) : List ReadOutcome → Taken × FrameReader × List ReadOutcome
  | [] =>
    match r.ready with
    | f :: fs => (.frame f, { r with ready := fs }, [])
    | [] => (.waiting, r, [])
  | o :: os =>
    match r.ready with
    | f :: fs => (.frame f, { r with ready := fs }, o :: os)
    | [] =>
      match r.accept o with
      | (r, .more) => next r os
      | (r, .ended) => (.ended, r, os)
      | (r, .failed why) => (.failed why, r, os)
      | (r, .waiting) => (.waiting, r, os)

end FrameReader

/-! ## Writing -/

inductive WriteOutcome where
  /-- It takes so many of them. -/
  | taken (n : Nat)
  /-- A fault of the stream. -/
  | failed (reason : String)

def Frame.writeFault (reason : String) : Failure := .transport ("TCP write failed: " ++ reason)

/-- Offers octets until all are taken. After the listed outcomes the stream takes everything. Gives back the octets that
were taken, the outcomes not needed, and the fault that ended the writing. -/
def writeAll : List WriteOutcome → Bytes → Bytes × List WriteOutcome × Option Failure
  | [], bs => (bs, [], none)
  | o :: os, bs =>
    if bs = [] then ([], o :: os, none)
    else match o with
      | .failed reason => ([], os, some (Frame.writeFault reason))
      | .taken 0 => ([], os, some (Frame.writeFault "write zero"))
      | .taken n =>
        let (taken, os, fault) := writeAll os (bs.drop n)
        (bs.take n ++ taken, os, fault)

/-- Writes a frame and then flushes the stream; `flush` is the fault of the flush, if any. Gives back what was written,
the outcomes not needed, whether the stream was flushed, and how it ended. -/
def writeFrame (outcomes : List WriteOutcome) (flush : Option String) (body : Bytes) :
    Bytes × List WriteOutcome × Bool × Except Failure Unit :=
  match Frame.encode body with
  | .error e => ([], outcomes, false, .error e)
  | .ok frame =>
    match writeAll outcomes frame with
    | (written, rest, some e) => (written, rest, false, .error e)
    | (written, rest, none) =>
      match flush with
      | some reason => (written, rest, true, .error (.transport ("TCP flush failed: " ++ reason)))
      | none => (written, rest, true, .ok ())

def Frame.shutdownFault (reason : String) : Failure := .transport ("TCP shutdown failed: " ++ reason)

end TransitLink
