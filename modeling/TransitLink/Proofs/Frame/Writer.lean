import TransitLink.Frame.Stream
import TransitLink.Proofs.Frame.Bijection

/-!
# Writing frame by frame

* `writeFrame_of_taking` : a stream that takes something at every write takes the whole frame.
* `encode_of_writeFrame` : what has been written with success is the frame, in however many pieces.
* `Written` : bodies that have been written with success. `written_iff` : the stream then has their frames.
-/

namespace TransitLink

set_option autoImplicit false

theorem writeAll_of_taking {os : List WriteOutcome} (h : ∀ o ∈ os, ∃ n, o = .taken (n + 1)) (bs : Bytes) :
    ∃ rest, writeAll os bs = (bs, rest, none) := by
  induction os generalizing bs with
  | nil => exact ⟨[], rfl⟩
  | cons o os ih =>
    obtain ⟨⟨n, rfl⟩, hlater⟩ := List.forall_mem_cons.mp h
    unfold writeAll
    split
    · rename_i hbs
      exact ⟨_, by rw [hbs]⟩
    · obtain ⟨rest, hrest⟩ := ih hlater (bs.drop (n + 1))
      refine ⟨rest, ?_⟩
      simp only [hrest, List.take_append_drop]

theorem writeAll_eq {os rest : List WriteOutcome} {bs written : Bytes} (h : writeAll os bs = (written, rest, none)) :
    written = bs := by
  induction os generalizing bs written with
  | nil =>
    cases h
    rfl
  | cons o os ih =>
    unfold writeAll at h
    split at h
    · rename_i hbs
      cases h
      exact hbs.symm
    · split at h
      · cases h
      · cases h
      · rename_i n _
        cases hlater : writeAll os (bs.drop n) with
        | mk later x =>
          obtain ⟨rest', fault⟩ := x
          rw [hlater] at h
          cases h
          rw [ih hlater, List.take_append_drop]

theorem writeFrame_of_taking {os : List WriteOutcome} (hos : ∀ o ∈ os, ∃ n, o = .taken (n + 1)) {body frame : Bytes}
    (h : Frame.encode body = .ok frame) : ∃ rest, writeFrame os none body = (frame, rest, true, .ok ()) := by
  obtain ⟨rest, hrest⟩ := writeAll_of_taking hos frame
  refine ⟨rest, ?_⟩
  simp only [writeFrame, h, hrest]

theorem encode_of_writeFrame {os rest : List WriteOutcome} {flush : Option String} {body octets : Bytes} {flushed : Bool}
    (h : writeFrame os flush body = (octets, rest, flushed, .ok ())) : Frame.encode body = .ok octets := by
  unfold writeFrame at h
  split at h
  · cases h
  · rename_i frame hframe
    split at h
    · cases h
    · rename_i written rest' hall
      cases flush with
      | some reason => cases h
      | none =>
        cases h
        rw [hframe, writeAll_eq hall]

/-- The bodies have been written one after the other, each with success, and the stream has taken these octets. -/
inductive Written : List Bytes → Bytes → Prop where
  | nil : Written [] []
  | frame {body octets wire : Bytes} {bodies : List Bytes} {outcomes rest : List WriteOutcome} {flush : Option String}
      {flushed : Bool} : writeFrame outcomes flush body = (octets, rest, flushed, .ok ()) → Written bodies wire →
      Written (body :: bodies) (octets ++ wire)

theorem written_iff {bodies : List Bytes} {wire : Bytes} : Written bodies wire ↔ Frame.encodeAll bodies = .ok wire := by
  constructor
  · intro h
    induction h with
    | nil => rfl
    | frame hframe _ ih => exact Frame.encodeAll_cons_eq_ok_iff.mpr ⟨_, _, encode_of_writeFrame hframe, ih, rfl⟩
  · intro h
    induction bodies generalizing wire with
    | nil =>
      cases h
      exact .nil
    | cons body bodies ih =>
      obtain ⟨frame, frames, hframe, hframes, rfl⟩ := Frame.encodeAll_cons_eq_ok_iff.mp h
      obtain ⟨rest, hwrite⟩ := @writeFrame_of_taking [] (fun o ho => absurd ho List.not_mem_nil) body frame hframe
      exact .frame hwrite (ih hframes)

end TransitLink
