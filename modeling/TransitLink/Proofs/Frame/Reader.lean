import TransitLink.Proofs.Frame.Lengths
import TransitLink.Proofs.Frame.Writer

/-!
# Reading frame by frame

* `Delivers` : a stream delivers some octets, chunk by chunk, and may have nothing to read at any time.
* `accept_octets` : what a reader makes of a chunk. It keeps the admitted frames, and fails at once at an excess.
* `calls`, `results` : what successive calls for a frame give back; in `results` those are left out that were given up
  because there was nothing to read.
* `results_delivered` : calls give back the frames of what the stream delivers, however it does.
* `frames_are_read_in_order` : the frames of a stream are read one by one, and then its end is told.
-/

namespace TransitLink

set_option autoImplicit false

/-! ## Streams -/

/-- The stream delivers these octets, in chunks that are not empty. Between two chunks it may have nothing to read. -/
inductive Delivers : List ReadOutcome → Bytes → Prop where
  | nil : Delivers [] []
  | octets {chunk s : Bytes} {os : List ReadOutcome} : chunk ≠ [] → Delivers os s →
      Delivers (.octets chunk :: os) (chunk ++ s)
  | nothing {s : Bytes} {os : List ReadOutcome} : Delivers os s → Delivers (.nothing :: os) s

def pauses : List ReadOutcome → Nat
  | [] => 0
  | .nothing :: os => pauses os + 1
  | _ :: os => pauses os

namespace FrameReader

open TransitLink.Frame

/-! ## Taking in a chunk -/

theorem checkLengths_eq (limit : Nat) (fs : List Bytes) :
    checkLengths limit fs = (fs.takeWhile (·.length ≤ limit), (fs.map List.length).find? (limit < ·)) := by
  induction fs with
  | nil => rfl
  | cons f fs ih =>
    rw [checkLengths, ih, List.takeWhile_cons, List.map_cons, List.find?_cons]
    by_cases hf : limit < f.length
    · simp [hf]
    · simp [hf, Nat.le_of_not_lt hf]

/-- **What a reader makes of a chunk.** The admitted frames become ready, and an excess is a fault, whether its frame is
complete or only announced. -/
theorem accept_octets (r : FrameReader) (chunk : Bytes) :
    r.accept (.octets chunk) =
      ({ r with held := (split (r.held ++ chunk)).2, ready := r.ready ++ admitted r.maxLength (r.held ++ chunk) },
        match excess? r.maxLength (r.held ++ chunk) with
        | some n => .failed (tooLong n r.maxLength)
        | none => .more) := by
  rw [accept, excess?, announced, List.find?_append, admitted]
  simp only [feed, checkLengths_eq]
  cases hbad : ((split (r.held ++ chunk)).1.map List.length).find? (r.maxLength < ·) with
  | some n => rfl
  | none =>
    cases hn : declared? (split (r.held ++ chunk)).2 with
    | none => rfl
    | some n => by_cases hlt : r.maxLength < n <;> simp [hlt]

theorem accept_of_within {limit : Nat} {held chunk : Bytes} (h : excess? limit (held ++ chunk) = none) :
    accept ⟨held, [], limit⟩ (.octets chunk) =
      (⟨(split (held ++ chunk)).2, (split (held ++ chunk)).1, limit⟩, .more) := by
  rw [accept_octets]
  simp only [h, List.nil_append, admitted_eq_split h]

theorem accept_of_excess {limit n : Nat} {held chunk : Bytes} (h : excess? limit (held ++ chunk) = some n) :
    accept ⟨held, [], limit⟩ (.octets chunk) =
      (⟨(split (held ++ chunk)).2, admitted limit (held ++ chunk), limit⟩, .failed (tooLong n limit)) := by
  rw [accept_octets]
  simp only [h, List.nil_append]

/-! ## Calls -/

def calls : (n : Nat) → FrameReader → List ReadOutcome → List Taken
  | 0, _, _ => []
  | n + 1, r, os =>
    let (taken, r, os) := r.next os
    taken :: calls n r os

def Taken.isWaiting : Taken → Bool
  | .waiting => true
  | _ => false

/-- What the calls give back that were not given up. -/
def results (n : Nat) (r : FrameReader) (os : List ReadOutcome) : List Taken :=
  (calls n r os).filter fun t => !t.isWaiting

theorem next_of_ready {r : FrameReader} {f : Bytes} {fs : List Bytes} (h : r.ready = f :: fs) (os : List ReadOutcome) :
    r.next os = (.frame f, { r with ready := fs }, os) := by
  cases os <;> simp only [next, h]

/-- What the caller is told after a read, if the call ends with it. -/
def Accepted.taken? : Accepted → Option Taken
  | .more => none
  | .ended => some .ended
  | .failed why => some (.failed why)
  | .waiting => some .waiting

theorem next_of_accept {r r' : FrameReader} {o : ReadOutcome} {a : Accepted} (h : r.ready = []) (ha : r.accept o = (r', a))
    (os : List ReadOutcome) :
    r.next (o :: os) = match a.taken? with
      | none => r'.next os
      | some t => (t, r', os) := by
  cases a <;> simp only [next, h, ha, Accepted.taken?]

/-- Frames that are ready are taken first. -/
theorem results_ready (n : Nat) (r : FrameReader) (os : List ReadOutcome) :
    results (r.ready.length + n) r os = r.ready.map .frame ++ results n { r with ready := [] } os := by
  obtain ⟨held, ready, maxLength⟩ := r
  induction ready with
  | nil => simp
  | cons f fs ih =>
    have hnext := @next_of_ready ⟨held, f :: fs, maxLength⟩ f fs rfl os
    simp only [results] at ih ⊢
    simp only [List.length_cons, Nat.succ_add, calls, hnext, List.map_cons, List.cons_append]
    rw [List.filter_cons_of_pos rfl, ih]

/-- A chunk without a fault is taken in by the next call, whichever it is. -/
theorem results_more {r r' : FrameReader} {o : ReadOutcome} (h : r.ready = []) (ha : r.accept o = (r', .more)) (n : Nat)
    (os : List ReadOutcome) : results n r (o :: os) = results n r' os := by
  cases n with
  | zero => rfl
  | succ n => simp only [results, calls, next_of_accept h ha, Accepted.taken?]

theorem results_stop {r r' : FrameReader} {o : ReadOutcome} {a : Accepted} {t : Taken} (h : r.ready = [])
    (ha : r.accept o = (r', a)) (ht : a.taken? = some t) (n : Nat) (os : List ReadOutcome) :
    results (n + 1) r (o :: os) = [t].filter (fun t => !t.isWaiting) ++ results n r' os := by
  simp only [results, calls, next_of_accept h ha, ht]
  rw [← List.filter_append, List.singleton_append]

/-- **Calls give back the frames of what the stream delivers,** as long as none is over the limit. -/
theorem results_delivered {os : List ReadOutcome} {s : Bytes} (h : Delivers os s) (limit : Nat) (held : Bytes)
    (hheld : first? held = none) (hs : excess? limit (held ++ s) = none) (n : Nat) (later : List ReadOutcome) :
    results ((split (held ++ s)).1.length + pauses os + n) ⟨held, [], limit⟩ (os ++ later) =
      (split (held ++ s)).1.map .frame ++ results n ⟨(split (held ++ s)).2, [], limit⟩ later := by
  -- over the delivery; what is held back never holds a complete frame
  induction h generalizing held with
  | nil =>
    rw [List.append_nil, split_of_none hheld]
    simp [pauses]
  | @octets chunk s os _ _ ih =>
    rw [← List.append_assoc] at hs ⊢
    have hchunk := excess?_eq_none_of_append hs
    have hrest := ih _ (first?_rest (held ++ chunk)) ((excess?_append hchunk s).symm.trans hs)
    have hready := results_ready ((split ((split (held ++ chunk)).2 ++ s)).1.length + pauses os + n)
      ⟨(split (held ++ chunk)).2, (split (held ++ chunk)).1, limit⟩ (os ++ later)
    rw [split_append (held ++ chunk) s, List.cons_append, results_more rfl (accept_of_within hchunk), List.length_append,
      List.map_append, List.append_assoc, ← hrest, ← hready]
    -- only the number of calls is left
    congr 1
    simp only [pauses]
    omega
  | @nothing s os _ ih =>
    have hwait : accept ⟨held, [], limit⟩ .nothing = (⟨held, [], limit⟩, .waiting) := rfl
    rw [pauses, ← Nat.add_assoc, Nat.add_right_comm, List.cons_append, results_stop rfl hwait rfl]
    exact ih held hheld hs

/-! ## The end -/

/-- What a caller is told at the end of a stream that leaves these octets over. -/
def ending (rest : Bytes) : Taken :=
  if rest = [] then .ended
  else .failed (.transport ("Connection closed mid-frame with " ++ toString rest.length ++ " bytes buffered"))

theorem accept_ended (limit : Nat) (rest : Bytes) :
    ∃ a, accept ⟨rest, [], limit⟩ .ended = (⟨rest, [], limit⟩, a) ∧ a.taken? = some (ending rest) := by
  cases rest with
  | nil => exact ⟨_, rfl, rfl⟩
  | cons b rest => exact ⟨_, rfl, rfl⟩

theorem results_ended (n limit : Nat) (rest : Bytes) :
    results n ⟨rest, [], limit⟩ (List.replicate n .ended) = List.replicate n (ending rest) := by
  induction n with
  | zero => rfl
  | succ n ih =>
    obtain ⟨a, haccept, htold⟩ := accept_ended limit rest
    rw [List.replicate_succ, List.replicate_succ, results_stop rfl haccept htold, ih, ending]
    split <;> rfl

/-- **Frames are read in order.** A stream delivers octets in which no frame announces more than the limit, cut into
chunks in any way, and then ends. Calls for a frame are made one after the other, and any of them may be given up while
there is nothing to read. Those that are not give back exactly the complete frames, and every later one tells how the
stream has ended: between two frames, or inside one, and then with how many octets left over. In particular the
stream may have been written frame by frame, and then the bodies are read that were written. Writing a body whose length
fits four octets succeeds on every stream that takes something at every write and is flushed without a fault. -/
theorem frames_are_read_in_order (limit : Nat) :
    (∀ os s, Delivers os s → (∀ n ∈ announced s, n ≤ limit) → ∀ later,
      results ((split s).1.length + pauses os + later) { maxLength := limit } (os ++ List.replicate later .ended) =
        (split s).1.map .frame ++ List.replicate later (ending (split s).2)) ∧
    (∀ bodies wire, Written bodies wire → (∀ body ∈ bodies, body.length ≤ limit) → ∀ os, Delivers os wire → ∀ later,
      results (bodies.length + pauses os + later) { maxLength := limit } (os ++ List.replicate later .ended) =
        bodies.map .frame ++ List.replicate later .ended) ∧
    ∀ body outcomes, body.length < 2 ^ 32 → (∀ o ∈ outcomes, ∃ n, o = .taken (n + 1)) →
      ∃ octets rest, writeFrame outcomes none body = (octets, rest, true, .ok ()) := by
  have hread : ∀ os s, Delivers os s → (∀ n ∈ announced s, n ≤ limit) → ∀ later,
      results ((split s).1.length + pauses os + later) { maxLength := limit } (os ++ List.replicate later .ended) =
        (split s).1.map .frame ++ List.replicate later (ending (split s).2) := by
    intro os s hos hs later
    have hresults := results_delivered hos limit [] rfl (excess?_eq_none_iff.mpr hs) later
      (List.replicate later .ended)
    rw [List.nil_append, results_ended] at hresults
    exact hresults
  refine ⟨hread, ?_, ?_⟩
  · intro bodies wire hwritten hbodies os hos later
    have hsplit := @split_encodeAll bodies wire [] (written_iff.mp hwritten) rfl
    rw [List.append_nil] at hsplit
    have hannounced : ∀ n ∈ announced wire, n ≤ limit := by
      intro n hn
      rw [announced, hsplit] at hn
      obtain ⟨body, hbody, rfl⟩ := List.mem_map.mp (List.append_nil _ ▸ hn)
      exact hbodies body hbody
    have hresults := hread os wire hos hannounced later
    rw [hsplit] at hresults
    exact hresults
  · intro body outcomes hbody houtcomes
    exact ⟨_, writeFrame_of_taking houtcomes (encode_eq_ok_iff.mpr ⟨hbody, rfl⟩)⟩

/-- A caller gives up inside the first header, two frames come with one chunk, and the stream ends inside the third.
Without the third, the two are what has been written, the first of them in three pieces. -/
theorem pause_inside_a_header :
    Delivers [.octets [0, 0], .nothing, .octets [0, 1, 97, 0, 0, 0, 0, 0]] [0, 0, 0, 1, 97, 0, 0, 0, 0, 0] ∧
      (∀ n ∈ announced [0, 0, 0, 1, 97, 0, 0, 0, 0, 0], n ≤ 16) ∧
      results 5 { maxLength := 16 } [.octets [0, 0], .nothing, .octets [0, 1, 97, 0, 0, 0, 0, 0], .ended, .ended] =
        [.frame [97], .frame [], ending [0], ending [0]] ∧
      Written [[97], []] [0, 0, 0, 1, 97, 0, 0, 0, 0] ∧ (∀ body ∈ ([[97], []] : List Bytes), body.length ≤ 16) ∧
      results 3 { maxLength := 16 } [.octets [0, 0, 0, 1, 97, 0, 0, 0, 0], .ended] = [.frame [97], .frame [], .ended] ∧
      (∀ o ∈ [WriteOutcome.taken 2, .taken 1], ∃ n, o = .taken (n + 1)) ∧
      ∃ octets rest, writeFrame [.taken 2, .taken 1] none [97] = (octets, rest, true, .ok ()) := by
  have hos : Delivers [.octets [0, 0], .nothing, .octets [0, 1, 97, 0, 0, 0, 0, 0]] [0, 0, 0, 1, 97, 0, 0, 0, 0, 0] :=
    .octets (by decide) (.nothing (.octets (by decide) .nil))
  have hshort : ∀ n ∈ announced [0, 0, 0, 1, 97, 0, 0, 0, 0, 0], n ≤ 16 := by decide
  have hsplit : split [0, 0, 0, 1, 97, 0, 0, 0, 0, 0] = ([[97], []], [0]) := by decide
  have hresults := (frames_are_read_in_order 16).1 _ _ hos hshort 2
  rw [hsplit] at hresults
  have hfirst : writeFrame [.taken 2, .taken 1] none [97] = ([0, 0, 0, 1, 97], [], true, .ok ()) := rfl
  have hsecond : writeFrame [] none [] = ([0, 0, 0, 0], [], true, .ok ()) := rfl
  have hwritten : Written [[97], []] [0, 0, 0, 1, 97, 0, 0, 0, 0] := .frame hfirst (.frame hsecond .nil)
  have hbodies : ∀ body ∈ ([[97], []] : List Bytes), body.length ≤ 16 := by decide
  have hone : Delivers [.octets [0, 0, 0, 1, 97, 0, 0, 0, 0]] [0, 0, 0, 1, 97, 0, 0, 0, 0] := .octets (by decide) .nil
  have hread := (frames_are_read_in_order 16).2.1 _ _ hwritten hbodies _ hone 1
  have htaking : ∀ o ∈ [WriteOutcome.taken 2, .taken 1], ∃ n, o = .taken (n + 1) :=
    List.forall_mem_cons.mpr ⟨⟨1, rfl⟩, List.forall_mem_singleton.mpr ⟨0, rfl⟩⟩
  exact ⟨hos, hshort, hresults, hwritten, hbodies, hread, htaking,
    (frames_are_read_in_order 16).2.2 [97] _ (by decide) htaking⟩

end FrameReader
end TransitLink
