import TransitLink.Proofs.Frame.Split

/-!
# Frames that arrive in chunks

* `feedAll` : the frames that chunks complete, one after the other, and the octets then held back.
* `feedAll_flatten` : together they are the frames of the octets held back before and of all chunks.
* `feedAll_take` : later chunks do not change what earlier ones complete.
* `chunks_do_not_matter` : where the chunks are cut makes no difference, at any point.
-/

namespace TransitLink.Frame

set_option autoImplicit false

/-- The frames that each of some chunks completes, and the octets held back after the last. -/
def feedAll (held : Bytes) : List Bytes → List (List Bytes) × Bytes
  | [] => ([], held)
  | chunk :: chunks =>
    let (frames, held) := feed held chunk
    let (later, held) := feedAll held chunks
    (frames :: later, held)

theorem feedAll_cons (held chunk : Bytes) (chunks : List Bytes) :
    feedAll held (chunk :: chunks) =
      ((feed held chunk).1 :: (feedAll (feed held chunk).2 chunks).1, (feedAll (feed held chunk).2 chunks).2) := rfl

/-- **Feeding chunk by chunk is splitting all of them at once.** -/
theorem feedAll_flatten {held : Bytes} (h : first? held = none) (chunks : List Bytes) :
    (feedAll held chunks).1.flatten = (split (held ++ chunks.flatten)).1 ∧
      (feedAll held chunks).2 = (split (held ++ chunks.flatten)).2 := by
  -- over the chunks, with the invariant that the octets held back contain no complete frame
  induction chunks generalizing held with
  | nil =>
    rw [List.flatten_nil, List.append_nil, split_of_none h]
    exact ⟨rfl, rfl⟩
  | cons chunk chunks ih =>
    have hheld : first? (feed held chunk).2 = none := first?_rest (held ++ chunk)
    obtain ⟨hframes, hrest⟩ := ih hheld
    have hsplit := split_append (held ++ chunk) chunks.flatten
    rw [List.append_assoc] at hsplit
    rw [feedAll_cons, List.flatten_cons, List.flatten_cons, hsplit, hframes, hrest]
    exact ⟨rfl, rfl⟩

theorem feedAll_take (held : Bytes) (chunks : List Bytes) (n : Nat) :
    (feedAll held (chunks.take n)).1 = (feedAll held chunks).1.take n := by
  induction chunks generalizing held n with
  | nil => rw [List.take_nil, feedAll, List.take_nil]
  | cons chunk chunks ih =>
    cases n with
    | zero => rfl
    | succ n => rw [List.take_succ_cons, feedAll_cons, feedAll_cons, List.take_succ_cons, ih]

/-- **Where the chunks are cut makes no difference.** However some octets are cut into chunks, feeding these in order
finds the frames that splitting all octets at once finds, and holds back the octets that those frames do not occupy. After
any number of chunks, the frames found so far are the complete frames of the octets that have arrived so far, and
the octets held back contain no other. -/
theorem chunks_do_not_matter (chunks : List Bytes) :
    (feedAll [] chunks).1.flatten = (split chunks.flatten).1 ∧
    (feedAll [] chunks).2 = chunks.flatten.drop (consumed chunks.flatten) ∧
    ∀ n, ((feedAll [] chunks).1.take n).flatten = (split (chunks.take n).flatten).1 ∧
      (feedAll [] (chunks.take n)).2 = (chunks.take n).flatten.drop (consumed (chunks.take n).flatten) ∧
      Framed (chunks.take n).flatten ((feedAll [] chunks).1.take n).flatten (feedAll [] (chunks.take n)).2 := by
  have hall : ∀ chunks : List Bytes, (feedAll [] chunks).1.flatten = (split chunks.flatten).1 ∧
      (feedAll [] chunks).2 = (split chunks.flatten).2 := fun chunks => feedAll_flatten rfl chunks
  refine ⟨(hall chunks).1, ?_, ?_⟩
  · rw [(hall chunks).2, rest_eq_drop]
  · intro n
    obtain ⟨hframes, hrest⟩ := hall (chunks.take n)
    rw [← feedAll_take, hframes, hrest]
    exact ⟨rfl, rest_eq_drop _, split_framed _⟩

end TransitLink.Frame
