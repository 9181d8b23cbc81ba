import TransitLink.Proofs.Frame.Bijection

/-!
# Announced lengths

* `announced` : the lengths that the frames at the front announce, that of an incomplete one behind them included.
* `excess?` : the first announced length over a limit. `admitted` : the complete frames before it.
* `excess?_append`, `admitted_append` : both as more octets come in, as long as no length is over the limit.
* `append_of_excess` : once one is, neither changes.
-/

namespace TransitLink.Frame

set_option autoImplicit false

/-- The lengths that the frames announce, in order. The last may be that of an incomplete frame. -/
def announced (bs : Bytes) : List Nat := (split bs).1.map List.length ++ (declared? (split bs).2).toList

def excess? (limit : Nat) (bs : Bytes) : Option Nat := (announced bs).find? (limit < ·)

/-- The complete frames before the first that is over the limit. -/
def admitted (limit : Nat) (bs : Bytes) : List Bytes := (split bs).1.takeWhile (·.length ≤ limit)

theorem excess?_eq_none_iff {limit : Nat} {bs : Bytes} : excess? limit bs = none ↔ ∀ n ∈ announced bs, n ≤ limit := by
  rw [excess?, List.find?_eq_none]
  simp only [decide_eq_true_eq, Nat.not_lt]

/-! ## Frame by frame -/

theorem declared?_of_some {bs body rest : Bytes} (h : first? bs = some (body, rest)) :
    declared? bs = some body.length := by
  obtain ⟨header, hheader, hn, rfl⟩ := first?_eq_some_iff.mp h
  rw [declared?_append hheader, hn]

theorem declared?_append_of_some {bs : Bytes} {n : Nat} (h : declared? bs = some n) (more : Bytes) :
    declared? (bs ++ more) = some n := by
  match bs, h with
  | _ :: _ :: _ :: _ :: _, h => exact h

theorem announced_of_none {bs : Bytes} (h : first? bs = none) : announced bs = (declared? bs).toList := by
  rw [announced, split_of_none h]
  rfl

theorem announced_of_some {bs body rest : Bytes} (h : first? bs = some (body, rest)) :
    announced bs = body.length :: announced rest := by
  rw [announced, split_of_some h]
  rfl

theorem head?_announced (bs : Bytes) : (announced bs).head? = declared? bs := by
  cases h : first? bs with
  | none =>
    rw [announced_of_none h]
    cases declared? bs <;> rfl
  | some x =>
    rw [announced_of_some h, declared?_of_some h]
    rfl

theorem admitted_of_none {limit : Nat} {bs : Bytes} (h : first? bs = none) : admitted limit bs = [] := by
  rw [admitted, split_of_none h]
  rfl

theorem admitted_of_some {limit : Nat} {bs body rest : Bytes} (h : first? bs = some (body, rest)) :
    admitted limit bs = if body.length ≤ limit then body :: admitted limit rest else [] := by
  rw [admitted, split_of_some h, List.takeWhile_cons]
  simp only [decide_eq_true_eq]
  rfl

theorem excess?_of_some {limit : Nat} {bs body rest : Bytes} (h : first? bs = some (body, rest)) :
    excess? limit bs = if body.length ≤ limit then excess? limit rest else some body.length := by
  rw [excess?, announced_of_some h]
  by_cases hle : body.length ≤ limit
  · rw [if_pos hle, List.find?_cons_of_neg (by simpa using hle)]
    rfl
  · rw [if_neg hle, List.find?_cons_of_pos (by simpa using hle)]

theorem excess?_of_declared {limit n : Nat} {bs : Bytes} (h : declared? bs = some n) (hn : limit < n) :
    excess? limit bs = some n := by
  have hhead := head?_announced bs
  rw [h] at hhead
  obtain ⟨later, hlater⟩ := List.head?_eq_some_iff.mp hhead
  rw [excess?, hlater, List.find?_cons_of_pos (by simpa using hn)]

theorem admitted_of_declared {limit n : Nat} {bs : Bytes} (h : declared? bs = some n) (hn : limit < n) :
    admitted limit bs = [] := by
  cases hfirst : first? bs with
  | none => exact admitted_of_none hfirst
  | some x =>
    obtain ⟨body, rest⟩ := x
    have hbody : body.length = n := Option.some.inj ((declared?_of_some hfirst).symm.trans h)
    rw [admitted_of_some hfirst, if_neg (by omega)]

theorem declared?_of_excess {limit n : Nat} {bs : Bytes} (hfirst : first? bs = none) (h : excess? limit bs = some n) :
    declared? bs = some n ∧ limit < n := by
  rw [excess?, announced_of_none hfirst] at h
  have hmem := List.mem_of_find?_eq_some h
  have hlt := List.find?_some h
  rw [Option.mem_toList] at hmem
  rw [decide_eq_true_eq] at hlt
  exact ⟨hmem, hlt⟩

/-! ## As octets come in -/

theorem excess?_append {limit : Nat} {bs : Bytes} (h : excess? limit bs = none) (more : Bytes) :
    excess? limit (bs ++ more) = excess? limit ((split bs).2 ++ more) := by
  induction bs using frames_induction with
  | none bs hfirst => rw [split_of_none hfirst]
  | frame bs body rest hfirst ih =>
    rw [excess?_of_some hfirst] at h
    split at h
    · rename_i hle
      rw [excess?_of_some (first?_append hfirst more), if_pos hle, split_of_some hfirst, ih h]
    · cases h

theorem admitted_append {limit : Nat} {bs : Bytes} (h : excess? limit bs = none) (more : Bytes) :
    admitted limit (bs ++ more) = (split bs).1 ++ admitted limit ((split bs).2 ++ more) := by
  induction bs using frames_induction with
  | none bs hfirst => rw [split_of_none hfirst, List.nil_append]
  | frame bs body rest hfirst ih =>
    rw [excess?_of_some hfirst] at h
    split at h
    · rename_i hle
      rw [admitted_of_some (first?_append hfirst more), if_pos hle, split_of_some hfirst, ih h, List.cons_append]
    · cases h

theorem admitted_eq_split {limit : Nat} {bs : Bytes} (h : excess? limit bs = none) : admitted limit bs = (split bs).1 := by
  have hadmitted := admitted_append h []
  rw [List.append_nil, List.append_nil, admitted_of_none (first?_rest bs), List.append_nil] at hadmitted
  exact hadmitted

/-- Once a length over the limit has been announced, it stays the first, and the frames before it are all there. -/
theorem append_of_excess {limit n : Nat} {bs : Bytes} (h : excess? limit bs = some n) (more : Bytes) :
    excess? limit (bs ++ more) = some n ∧ admitted limit (bs ++ more) = admitted limit bs := by
  induction bs using frames_induction with
  | none bs hfirst =>
    -- the frame itself is not complete, but its header is
    have hn := declared?_of_excess hfirst h
    have hmore := declared?_append_of_some hn.1 more
    rw [admitted_of_declared hmore hn.2, admitted_of_none hfirst]
    exact ⟨excess?_of_declared hmore hn.2, rfl⟩
  | frame bs body rest hfirst ih =>
    have hmore := first?_append hfirst more
    rw [excess?_of_some hfirst] at h
    rw [excess?_of_some hmore, admitted_of_some hmore, admitted_of_some hfirst]
    split at h
    · rename_i hle
      obtain ⟨hexcess, hadmitted⟩ := ih h
      rw [if_pos hle, if_pos hle, if_pos hle, hexcess, hadmitted]
      exact ⟨rfl, rfl⟩
    · rename_i hlt
      rw [if_neg hlt, if_neg hlt, if_neg hlt]
      exact ⟨h, rfl⟩

theorem excess?_eq_none_of_append {limit : Nat} {bs more : Bytes} (h : excess? limit (bs ++ more) = none) :
    excess? limit bs = none := by
  cases hexcess : excess? limit bs with
  | none => rfl
  | some n =>
    rw [(append_of_excess hexcess more).1] at h
    cases h

end TransitLink.Frame
