import TransitLink.Proofs.Frame.Reader

/-!
# Frames over the limit

* `Delivers.reveals` : one chunk of a delivery completes the first header that announces too much.
* `excess_overtakes` : the fault is told as soon as that chunk is read, so it comes before the frames that the same chunk
  completes, and after those of the chunks before.
* `one_chunk_puts_the_fault_first` : hence where the chunks are cut makes a difference.
-/

namespace TransitLink

set_option autoImplicit false

open TransitLink.Frame

theorem Delivers.reveals {os : List ReadOutcome} {s : Bytes} (h : Delivers os s) {limit n : Nat} (front : Bytes)
    (hfront : excess? limit front = none) (hs : excess? limit (front ++ s) = some n) :
    ∃ before chunk after earlier rest, os = before ++ .octets chunk :: after ∧ Delivers before earlier ∧
      s = earlier ++ (chunk ++ rest) ∧ excess? limit (front ++ earlier) = none ∧
      excess? limit (front ++ earlier ++ chunk) = some n := by
  induction h generalizing front with
  | nil =>
    rw [List.append_nil, hfront] at hs
    cases hs
  | @octets chunk s os hchunk _ ih =>
    -- this chunk or a later one
    rw [← List.append_assoc] at hs
    cases hnow : excess? limit (front ++ chunk) with
    | some m =>
      rw [(append_of_excess hnow s).1] at hs
      cases hs
      exact ⟨[], chunk, os, [], s, rfl, .nil, rfl, by rw [List.append_nil, hfront], by rw [List.append_nil, hnow]⟩
    | none =>
      obtain ⟨before, last, after, earlier, rest, rfl, hbefore, rfl, hnone, hsome⟩ := ih _ hnow hs
      refine ⟨.octets chunk :: before, last, after, chunk ++ earlier, rest, rfl, .octets hchunk hbefore, ?_, ?_, ?_⟩
      · rw [List.append_assoc]
      · rw [← List.append_assoc, hnone]
      · rw [← List.append_assoc, hsome]
  | nothing _ ih =>
    obtain ⟨before, chunk, after, earlier, rest, rfl, hbefore, hrest⟩ := ih front hfront hs
    exact ⟨.nothing :: before, chunk, after, earlier, rest, rfl, .nothing hbefore, hrest⟩

namespace FrameReader

/-- A chunk that completes a header over the limit fails at once. The frames it completes before are taken later. -/
theorem results_excess {limit n : Nat} {held chunk : Bytes} (h : excess? limit (held ++ chunk) = some n)
    (os : List ReadOutcome) :
    results ((admitted limit (held ++ chunk)).length + 1) ⟨held, [], limit⟩ (.octets chunk :: os) =
      .failed (tooLong n limit) :: (admitted limit (held ++ chunk)).map .frame := by
  have hready := results_ready 0 ⟨(split (held ++ chunk)).2, admitted limit (held ++ chunk), limit⟩ os
  have hnone : results 0 ⟨(split (held ++ chunk)).2, [], limit⟩ os = [] := rfl
  rw [hnone, List.append_nil, Nat.add_zero] at hready
  rw [results_stop rfl (accept_of_excess h) rfl, hready]
  rfl

/-- **A fault overtakes frames.** Some frame of a stream announces more than the limit, and the stream is cut into chunks in
any way. The first chunk that completes such a header divides the frames before that one: those that earlier chunks complete
are given back first, then comes the fault, and then, if calls go on, those that the same chunk completes. So all frames
come before the fault exactly if that chunk completes none of them. -/
theorem excess_overtakes (limit : Nat) (os : List ReadOutcome) (s : Bytes) (n : Nat) (hos : Delivers os s)
    (hn : excess? limit s = some n) :
    ∃ before chunk after earlier overtaken, os = before ++ .octets chunk :: after ∧ Delivers before earlier ∧
      excess? limit earlier = none ∧ excess? limit (earlier ++ chunk) = some n ∧
      admitted limit s = (split earlier).1 ++ overtaken ∧
      results ((admitted limit s).length + pauses before + 1) { maxLength := limit } os =
        (split earlier).1.map .frame ++ .failed (tooLong n limit) :: overtaken.map .frame ∧
      (results ((admitted limit s).length + pauses before + 1) { maxLength := limit } os =
        (admitted limit s).map .frame ++ [.failed (tooLong n limit)] ↔ overtaken = []) := by
  obtain ⟨before, chunk, after, earlier, rest, rfl, hbefore, rfl, hnone, hsome⟩ := hos.reveals [] rfl hn
  rw [List.nil_append] at hnone hsome
  have hnow : excess? limit ((split earlier).2 ++ chunk) = some n := (excess?_append hnone chunk).symm.trans hsome
  -- the frames before the excess are those of the earlier chunks and those of this one
  have hadmitted : admitted limit (earlier ++ (chunk ++ rest)) =
      (split earlier).1 ++ admitted limit ((split earlier).2 ++ chunk) := by
    rw [← List.append_assoc, (append_of_excess hsome rest).2, admitted_append hnone chunk]
  have hresults : results ((admitted limit (earlier ++ (chunk ++ rest))).length + pauses before + 1) { maxLength := limit }
      (before ++ .octets chunk :: after) = (split earlier).1.map .frame ++
        .failed (tooLong n limit) :: (admitted limit ((split earlier).2 ++ chunk)).map .frame := by
    have hearlier := results_delivered hbefore limit [] rfl hnone
      ((admitted limit ((split earlier).2 ++ chunk)).length + 1) (.octets chunk :: after)
    rw [List.nil_append, results_excess hnow] at hearlier
    rw [← hearlier, hadmitted, List.length_append]
    congr 1
    omega
  refine ⟨before, chunk, after, earlier, admitted limit ((split earlier).2 ++ chunk), rfl, hbefore, hnone, hsome, hadmitted,
    hresults, ?_⟩
  rw [hresults, hadmitted, List.map_append, List.append_assoc, List.append_cancel_left_eq]
  cases admitted limit ((split earlier).2 ++ chunk) with
  | nil => simp
  | cons f fs => simp

/-- Two frames and a header that announces too much come in two chunks. The second frame is overtaken. -/
theorem second_frame_is_overtaken :
    Delivers [.octets [0, 0, 0, 1, 97], .octets [0, 0, 0, 1, 98, 0, 0, 0, 9]]
        [0, 0, 0, 1, 97, 0, 0, 0, 1, 98, 0, 0, 0, 9] ∧
      excess? 4 [0, 0, 0, 1, 97, 0, 0, 0, 1, 98, 0, 0, 0, 9] = some 9 ∧
      ∃ before earlier overtaken, Delivers before earlier ∧
        [[97], [98]] = (split earlier).1 ++ overtaken ∧
        results (2 + pauses before + 1) { maxLength := 4 }
          [.octets [0, 0, 0, 1, 97], .octets [0, 0, 0, 1, 98, 0, 0, 0, 9]] =
            (split earlier).1.map .frame ++ .failed (tooLong 9 4) :: overtaken.map .frame := by
  have hos : Delivers [.octets [0, 0, 0, 1, 97], .octets [0, 0, 0, 1, 98, 0, 0, 0, 9]]
      [0, 0, 0, 1, 97, 0, 0, 0, 1, 98, 0, 0, 0, 9] :=
    .octets (by decide) (.octets (by decide) .nil)
  have hexcess : excess? 4 [0, 0, 0, 1, 97, 0, 0, 0, 1, 98, 0, 0, 0, 9] = some 9 := by decide
  have hadmitted : admitted 4 [0, 0, 0, 1, 97, 0, 0, 0, 1, 98, 0, 0, 0, 9] = [[97], [98]] := by decide
  obtain ⟨before, _, _, earlier, overtaken, -, hbefore, -, -, hframes, hresults, -⟩ := excess_overtakes 4 _ _ 9 hos hexcess
  rw [hadmitted] at hframes hresults
  exact ⟨hos, hexcess, before, earlier, overtaken, hbefore, hframes, hresults⟩

/-- A frame and, behind it, a header that announces too much: in one chunk the fault comes first, in two the frame. -/
theorem one_chunk_puts_the_fault_first :
    admitted 4 [0, 0, 0, 1, 97, 0, 0, 0, 9] = [[97]] ∧ excess? 4 [0, 0, 0, 1, 97, 0, 0, 0, 9] = some 9 ∧
      results 2 { maxLength := 4 } [.octets [0, 0, 0, 1, 97, 0, 0, 0, 9]] = [.failed (tooLong 9 4), .frame [97]] ∧
      results 2 { maxLength := 4 } [.octets [0, 0, 0, 1, 97], .octets [0, 0, 0, 9]] =
        [.frame [97], .failed (tooLong 9 4)] := by
  refine ⟨by decide, by decide, rfl, rfl⟩

end FrameReader
end TransitLink
