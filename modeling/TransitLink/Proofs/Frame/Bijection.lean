import TransitLink.Proofs.Frame.Split

/-!
# Framing is a bijection

* `encodeAll` : the frames of some bodies, one after the other.
* `first?_eq_some_iff_encode` : the first frame is complete when the octets begin with the frame of its body.
* `split_encodeAll` : frames are split into the bodies they were made of. `encodeAll_split` : what is found by splitting
  gives back the octets when it is framed again.
* `framing_is_a_bijection` : so lists of bodies are the same as octets that complete frames fill.
-/

namespace TransitLink.Frame

set_option autoImplicit false

def encodeAll : List Bytes → Except Failure Bytes
  | [] => .ok []
  | body :: bodies => do
    let frame ← encode body
    let frames ← encodeAll bodies
    .ok (frame ++ frames)

/-! ## One frame -/

theorem encode_eq_ok_iff {body frame : Bytes} :
    encode body = .ok frame ↔ body.length < 2 ^ 32 ∧ frame = Bytes.toBigEndian headerLength body.length ++ body := by
  unfold encode
  split
  · rename_i h
    simp only [Except.ok.injEq, h, true_and, eq_comm]
  · rename_i h
    simp only [reduceCtorEq, h, false_and]

theorem first?_eq_some_iff_encode {bs body rest : Bytes} :
    first? bs = some (body, rest) ↔ ∃ frame, encode body = .ok frame ∧ bs = frame ++ rest := by
  rw [first?_eq_some_iff]
  constructor
  · rintro ⟨header, hheader, hn, rfl⟩
    have hback := Bytes.toBigEndian_ofBigEndian hheader
    have hlt := Bytes.ofBigEndian_lt header
    rw [hheader, hn] at hlt
    rw [hn] at hback
    refine ⟨header ++ body, encode_eq_ok_iff.mpr ⟨hlt, ?_⟩, (List.append_assoc ..).symm⟩
    rw [hback]
  · rintro ⟨frame, hframe, rfl⟩
    obtain ⟨hlt, rfl⟩ := encode_eq_ok_iff.mp hframe
    refine ⟨_, Bytes.length_toBigEndian _ _, ?_, List.append_assoc ..⟩
    rw [Bytes.ofBigEndian_toBigEndian]
    exact Nat.mod_eq_of_lt hlt

/-! ## Many frames -/

theorem encodeAll_cons_eq_ok_iff {body wire : Bytes} {bodies : List Bytes} :
    encodeAll (body :: bodies) = .ok wire ↔
      ∃ frame frames, encode body = .ok frame ∧ encodeAll bodies = .ok frames ∧ wire = frame ++ frames := by
  rw [encodeAll]
  cases hframe : encode body with
  | error e => simp [bind, Except.bind]
  | ok frame =>
    cases hframes : encodeAll bodies with
    | error e => simp [bind, Except.bind]
    | ok frames => simp [bind, Except.bind, eq_comm]

theorem exists_encodeAll {bodies : List Bytes} (h : ∀ body ∈ bodies, body.length < 2 ^ 32) :
    ∃ wire, encodeAll bodies = .ok wire := by
  induction bodies with
  | nil => exact ⟨[], rfl⟩
  | cons body bodies ih =>
    obtain ⟨hbody, hbodies⟩ := List.forall_mem_cons.mp h
    obtain ⟨frames, hframes⟩ := ih hbodies
    exact ⟨_, encodeAll_cons_eq_ok_iff.mpr ⟨_, frames, encode_eq_ok_iff.mpr ⟨hbody, rfl⟩, hframes, rfl⟩⟩

theorem split_encodeAll {bodies : List Bytes} {wire tail : Bytes} (h : encodeAll bodies = .ok wire)
    (htail : first? tail = none) : split (wire ++ tail) = (bodies, tail) := by
  induction bodies generalizing wire with
  | nil =>
    cases h
    exact split_of_none htail
  | cons body bodies ih =>
    obtain ⟨frame, frames, hframe, hframes, rfl⟩ := encodeAll_cons_eq_ok_iff.mp h
    have hfirst : first? (frame ++ frames ++ tail) = some (body, frames ++ tail) :=
      first?_eq_some_iff_encode.mpr ⟨frame, hframe, List.append_assoc ..⟩
    rw [split_of_some hfirst, ih hframes]

theorem encodeAll_split (s : Bytes) : ∃ wire, encodeAll (split s).1 = .ok wire ∧ s = wire ++ (split s).2 := by
  induction s using frames_induction with
  | none s h =>
    rw [split_of_none h]
    exact ⟨[], rfl, rfl⟩
  | frame s body rest h ih =>
    obtain ⟨frame, hframe, rfl⟩ := first?_eq_some_iff_encode.mp h
    obtain ⟨frames, hframes, hrest⟩ := ih
    rw [split_of_some h]
    refine ⟨frame ++ frames, encodeAll_cons_eq_ok_iff.mpr ⟨frame, frames, hframe, hframes, rfl⟩, ?_⟩
    rw [List.append_assoc, ← hrest]

/-- **Framing is a bijection** between lists of bodies and the octets that complete frames fill. Bodies whose length fits
four octets are framed one after the other, and whatever incomplete frame follows, splitting gives back these bodies and
has consumed exactly their frames. Whatever the octets are, framing the bodies that splitting finds gives exactly the
octets that it has consumed, and the others hold no complete frame. -/
theorem framing_is_a_bijection :
    (∀ (bodies : List Bytes) (tail : Bytes), (∀ body ∈ bodies, body.length < 2 ^ 32) → Incomplete tail →
      ∃ wire, encodeAll bodies = .ok wire ∧ split (wire ++ tail) = (bodies, tail) ∧
        consumed (wire ++ tail) = wire.length) ∧
    ∀ s : Bytes, encodeAll (split s).1 = .ok (s.take (consumed s)) ∧ (split s).2 = s.drop (consumed s) ∧
      Incomplete (s.drop (consumed s)) := by
  refine ⟨?_, ?_⟩
  · intro bodies tail hbodies htail
    obtain ⟨wire, hwire⟩ := exists_encodeAll hbodies
    have hsplit := split_encodeAll hwire (first?_eq_none_iff.mpr htail)
    refine ⟨wire, hwire, hsplit, ?_⟩
    rw [consumed, hsplit, List.length_append, Nat.add_sub_cancel]
  · intro s
    obtain ⟨wire, hwire, hs⟩ := encodeAll_split s
    have hlength : wire.length = consumed s := by
      have hsum := congrArg List.length hs
      rw [List.length_append] at hsum
      rw [consumed]
      omega
    have htake : s.take wire.length = wire := by
      rw [hs]
      exact List.take_left
    rw [← rest_eq_drop, ← hlength, htake]
    exact ⟨hwire, rfl, first?_eq_none_iff.mp (first?_rest s)⟩

/-- An empty body between two others, and a frame that is cut behind its first octet. -/
theorem empty_body_is_kept :
    (∀ body ∈ ([[97], [], [98, 99]] : List Bytes), body.length < 2 ^ 32) ∧ Incomplete [0, 0, 0, 9, 112] ∧
      ∃ wire, encodeAll [[97], [], [98, 99]] = .ok wire ∧
        split (wire ++ [0, 0, 0, 9, 112]) = ([[97], [], [98, 99]], [0, 0, 0, 9, 112]) ∧
        consumed (wire ++ [0, 0, 0, 9, 112]) = wire.length := by
  have hbodies : ∀ body ∈ ([[97], [], [98, 99]] : List Bytes), body.length < 2 ^ 32 := by decide
  have htail : Incomplete [0, 0, 0, 9, 112] := by decide
  exact ⟨hbodies, htail, framing_is_a_bijection.1 _ _ hbodies htail⟩

end TransitLink.Frame
