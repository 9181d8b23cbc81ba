import TransitLink.Frame.Basic

/-!
# Laws of splitting

* `first?_eq_some_iff` : when the first frame is complete: four octets announce as many octets as follow at least.
* `Incomplete` : octets that hold no complete frame. `first?_eq_none_iff` : those in which none is found.
* `first?_append` : a complete frame stays what it is when more octets come after it.
* `split_of_none`, `split_of_some` : splitting goes frame by frame. `frames_induction` : so do proofs.
* `split_append` : octets may be split as they come, those that are left over before those that come next.
* `Framed` : octets that are some frames and a rest without a complete one. `split_framed` : splitting finds them.
* `rest_eq_drop` : the rest is what the complete frames do not occupy.
-/

namespace TransitLink.Frame

set_option autoImplicit false

/-! ## The first frame -/

theorem declared?_append {header : Bytes} (h : header.length = headerLength) (bs : Bytes) :
    declared? (header ++ bs) = some (Bytes.ofBigEndian header) := by
  match header, h with
  | [a, b, c, d], _ => rfl

theorem first?_eq_some_iff {bs body rest : Bytes} :
    first? bs = some (body, rest) ↔
      ∃ header, header.length = headerLength ∧ Bytes.ofBigEndian header = body.length ∧ bs = header ++ (body ++ rest) := by
  constructor
  · intro h
    unfold first? at h
    split at h
    · rename_i n hn
      have hlength : headerLength ≤ bs.length := by
        unfold declared? at hn
        split at hn
        · simp [headerLength]
        · cases hn
      have hheader : (bs.take headerLength).length = headerLength := List.length_take_of_le hlength
      -- what is declared is the number that the first four octets write
      have hdeclared := declared?_append hheader (bs.drop headerLength)
      rw [List.take_append_drop, hn, Option.some.injEq] at hdeclared
      rw [Bytes.split?_eq] at h
      split at h
      · rename_i hle
        simp only [Option.some.injEq, Prod.mk.injEq] at h
        obtain ⟨rfl, rfl⟩ := h
        refine ⟨bs.take headerLength, hheader, ?_, ?_⟩
        · rw [List.length_take_of_le hle, hdeclared]
        · rw [List.take_append_drop, List.take_append_drop]
      · cases h
    · cases h
  · rintro ⟨header, hheader, hn, rfl⟩
    have hdrop : (header ++ (body ++ rest)).drop headerLength = body ++ rest := by
      rw [← hheader, List.drop_left]
    have hle : body.length ≤ (body ++ rest).length := by
      rw [List.length_append]
      omega
    simp only [first?, declared?_append hheader, hdrop, Bytes.split?_eq, hn, if_pos hle, List.take_left, List.drop_left]

theorem first?_append {bs body rest : Bytes} (h : first? bs = some (body, rest)) (more : Bytes) :
    first? (bs ++ more) = some (body, rest ++ more) := by
  obtain ⟨header, hheader, hn, rfl⟩ := first?_eq_some_iff.mp h
  refine first?_eq_some_iff.mpr ⟨header, hheader, hn, ?_⟩
  rw [List.append_assoc, List.append_assoc]

theorem length_of_first? {bs body rest : Bytes} (h : first? bs = some (body, rest)) :
    bs.length = headerLength + body.length + rest.length := by
  obtain ⟨header, hheader, -, rfl⟩ := first?_eq_some_iff.mp h
  rw [List.length_append, List.length_append, hheader]
  omega

theorem length_lt_of_first? {bs body rest : Bytes} (h : first? bs = some (body, rest)) : rest.length < bs.length := by
  have hlength := length_of_first? h
  have hpos : 0 < headerLength := by decide
  omega

/-- There is no complete frame: fewer octets than a header has, or fewer after the header than it announces. -/
def Incomplete (bs : Bytes) : Prop :=
  bs.length < headerLength ∨ ∃ n, declared? bs = some n ∧ bs.length < headerLength + n

theorem declared?_eq_none_iff {bs : Bytes} : declared? bs = none ↔ bs.length < headerLength := by
  match bs with
  | [] | [_] | [_, _] | [_, _, _] => simp [declared?, headerLength]
  | _ :: _ :: _ :: _ :: _ => simp [declared?, headerLength]

theorem first?_eq_none_iff {bs : Bytes} : first? bs = none ↔ Incomplete bs := by
  unfold first? Incomplete
  cases hn : declared? bs with
  | none => simp [declared?_eq_none_iff.mp hn]
  | some n =>
    have hlong : ¬ bs.length < headerLength := by
      intro hshort
      rw [declared?_eq_none_iff.mpr hshort] at hn
      cases hn
    simp only [Bytes.split?_eq, List.length_drop, ite_eq_right_iff, reduceCtorEq, imp_false, Option.some.injEq,
      exists_eq_left', hlong, false_or]
    omega

instance (bs : Bytes) : Decidable (Incomplete bs) := decidable_of_iff _ first?_eq_none_iff

/-! ## Frame by frame -/

/-- The frames found before only go in front. -/
theorem splitFrom_done (done : List Bytes) (fuel : Nat) (bs : Bytes) :
    splitFrom done fuel bs = (done.reverse ++ (splitFrom [] fuel bs).1, (splitFrom [] fuel bs).2) := by
  induction fuel generalizing done bs with
  | zero => simp [splitFrom]
  | succ fuel ih =>
    simp only [splitFrom]
    cases first? bs with
    | none => simp
    | some x =>
      obtain ⟨body, rest⟩ := x
      simp only
      rw [ih (body :: done) rest, ih [body] rest]
      simp

/-- Any two bounds that are large enough find the same frames. -/
theorem splitFrom_congr {n m : Nat} {bs : Bytes} (hn : bs.length ≤ n) (hm : bs.length ≤ m) (done : List Bytes) :
    splitFrom done n bs = splitFrom done m bs := by
  induction n generalizing m bs done with
  | zero =>
    have hnil : bs = [] := List.eq_nil_of_length_eq_zero (Nat.le_zero.mp hn)
    subst hnil
    cases m <;> rfl
  | succ n ih =>
    cases h : first? bs with
    | none => cases m <;> simp only [splitFrom, h]
    | some x =>
      obtain ⟨body, rest⟩ := x
      -- a frame has its header at least, so the octets run out before either bound does
      have hlt := length_lt_of_first? h
      cases m with
      | zero => omega
      | succ m =>
        simp only [splitFrom, h]
        exact ih (by omega) (by omega) (body :: done)

theorem split_of_none {bs : Bytes} (h : first? bs = none) : split bs = ([], bs) := by
  rw [split]
  cases bs.length with
  | zero => rfl
  | succ n => simp only [splitFrom, h, List.reverse_nil]

theorem split_of_some {bs body rest : Bytes} (h : first? bs = some (body, rest)) :
    split bs = (body :: (split rest).1, (split rest).2) := by
  have hlt := length_lt_of_first? h
  have hrest : splitFrom [] (bs.length - 1) rest = split rest := splitFrom_congr (by omega) (Nat.le_refl _) []
  rw [split, show bs.length = bs.length - 1 + 1 by omega, splitFrom]
  simp only [h]
  rw [splitFrom_done, hrest]
  rfl

/-- What holds of octets without a complete frame, and holds of a frame and what follows whenever it holds of what
follows, holds of all octets. -/
theorem frames_induction {P : Bytes → Prop} (none : ∀ bs, first? bs = none → P bs)
    (frame : ∀ bs body rest, first? bs = some (body, rest) → P rest → P bs) (bs : Bytes) : P bs := by
  induction hn : bs.length using Nat.strongRecOn generalizing bs with
  | _ n ih =>
    cases h : first? bs with
    | none => exact none bs h
    | some x =>
      obtain ⟨body, rest⟩ := x
      have hlt := length_lt_of_first? h
      exact frame bs body rest h (ih rest.length (by omega) rest rfl)

/-- No complete frame is left over. -/
theorem first?_rest (bs : Bytes) : first? (split bs).2 = none := by
  induction bs using frames_induction with
  | none bs h => rw [split_of_none h, h]
  | frame bs body rest h ih => rw [split_of_some h, ih]

/-- **Octets may be split as they come.** Those that are left over go before those that come next. -/
theorem split_append (bs more : Bytes) :
    split (bs ++ more) = ((split bs).1 ++ (split ((split bs).2 ++ more)).1, (split ((split bs).2 ++ more)).2) := by
  induction bs using frames_induction with
  | none bs h => rw [split_of_none h, List.nil_append]
  | frame bs body rest h ih => rw [split_of_some (first?_append h more), split_of_some h, ih, List.cons_append]

/-! ## What splitting finds -/

/-- The octets are frames with these bodies, and then a rest that holds no complete frame. -/
inductive Framed : Bytes → List Bytes → Bytes → Prop where
  | rest {bs : Bytes} : Incomplete bs → Framed bs [] bs
  | frame {header body bs rest : Bytes} {bodies : List Bytes} : header.length = headerLength →
      Bytes.ofBigEndian header = body.length → Framed bs bodies rest →
      Framed (header ++ (body ++ bs)) (body :: bodies) rest

theorem framed_nil : Framed [] [] [] := .rest (.inl (by decide))

theorem split_framed (bs : Bytes) : Framed bs (split bs).1 (split bs).2 := by
  induction bs using frames_induction with
  | none bs h =>
    rw [split_of_none h]
    exact .rest (first?_eq_none_iff.mp h)
  | frame bs body rest h ih =>
    rw [split_of_some h]
    obtain ⟨header, hheader, hn, rfl⟩ := first?_eq_some_iff.mp h
    exact .frame hheader hn ih

theorem Framed.suffix {bs rest : Bytes} {bodies : List Bytes} (h : Framed bs bodies rest) : rest <:+ bs := by
  induction h with
  | rest => exact List.suffix_rfl
  | frame _ _ _ ih => exact (ih.trans (List.suffix_append _ _)).trans (List.suffix_append _ _)

theorem rest_eq_drop (bs : Bytes) : (split bs).2 = bs.drop (consumed bs) :=
  List.suffix_iff_eq_drop.mp (split_framed bs).suffix

end TransitLink.Frame
