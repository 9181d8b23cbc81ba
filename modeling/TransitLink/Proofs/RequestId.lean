import TransitLink.RequestId

/-!
# Ids that are drawn

* `pick?_eq_some` : the id that is picked was drawn and is free. `pick?_eq_none` : none is picked if all are taken.
* `regular_of_ofWords` : ids from random words have twelve small digits. `isValid_of_ofWords` : a server accepts such ids.
-/

namespace TransitLink.RequestId

set_option autoImplicit false

theorem pick?_eq_some {taken draws : List String} {id : String} (h : pick? taken draws = some id) :
    id ∈ draws ∧ id ∉ taken :=
  ⟨List.mem_of_find?_eq_some h, by simpa using List.find?_some h⟩

theorem pick?_eq_none {taken draws : List String} (h : pick? taken draws = none) : ∀ id ∈ draws, id ∈ taken := by
  intro id hid
  simpa using List.find?_eq_none.mp h id hid

/-! ## Ids from random words -/

/-- Twelve small digits of base 36. -/
def Regular (id : String) : Prop := id.length = 12 ∧ ∀ c ∈ id.toList, '0' ≤ c ∧ c ≤ '9' ∨ 'a' ≤ c ∧ c ≤ 'z'

theorem small_of_mem_alphabet {c : Char} (h : c ∈ alphabet) : '0' ≤ c ∧ c ≤ '9' ∨ 'a' ≤ c ∧ c ≤ 'z' := by
  have hall : (alphabet.all fun c => decide ('0' ≤ c ∧ c ≤ '9' ∨ 'a' ≤ c ∧ c ≤ 'z')) = true := by decide +kernel
  exact of_decide_eq_true (List.all_eq_true.mp hall c h)

theorem accepted_of_mem_alphabet {c : Char} (h : c ∈ alphabet) : isAlphanumeric c = true ∧ c.utf8Size = 1 := by
  have hall : (alphabet.all fun c => isAlphanumeric c && c.utf8Size == 1) = true := by decide +kernel
  have hboth := List.all_eq_true.mp hall c h
  rwa [Bool.and_eq_true, beq_iff_eq] at hboth

theorem digit?_mem {w : UInt64} {c : Char} (h : digit? w = some c) : c ∈ alphabet := by
  simp only [digit?] at h
  split at h
  · exact List.mem_of_getElem? h
  · cases h

theorem digitsOfWords_spec {missing : Nat} {ws rest : List UInt64} {cs : List Char}
    (h : digitsOfWords missing ws = some (cs, rest)) : cs.length = missing ∧ ∀ c ∈ cs, c ∈ alphabet := by
  fun_induction digitsOfWords missing ws generalizing cs rest with
  | case1 =>
    cases h
    exact ⟨rfl, fun c hc => absurd hc List.not_mem_nil⟩
  | case2 => cases h
  | case3 missing w ws c hc ih =>
    obtain ⟨⟨cs', rest'⟩, hd, hcs⟩ := Option.map_eq_some_iff.mp h
    cases hcs
    obtain ⟨hlength, hmem⟩ := ih hd
    exact ⟨congrArg (· + 1) hlength, List.forall_mem_cons.mpr ⟨digit?_mem hc, hmem⟩⟩
  | case4 missing w ws hc ih => exact ih h

section
variable {ws rest : List UInt64} {id : String}

theorem ofWords_spec (h : ofWords ws = some (id, rest)) :
    ∃ cs : List Char, id = String.ofList cs ∧ cs.length = 12 ∧ ∀ c ∈ cs, c ∈ alphabet := by
  obtain ⟨⟨cs, rest'⟩, hd, hid⟩ := Option.map_eq_some_iff.mp h
  cases hid
  exact ⟨cs, rfl, digitsOfWords_spec hd⟩

/-- **Every id from random words is regular.** -/
theorem regular_of_ofWords (h : ofWords ws = some (id, rest)) : Regular id := by
  obtain ⟨cs, rfl, hlength, hmem⟩ := ofWords_spec h
  refine ⟨by rw [String.length_ofList, hlength], ?_⟩
  rw [String.toList_ofList]
  exact fun c hc => small_of_mem_alphabet (hmem c hc)

theorem length_ofText_ofList {cs : List Char} (h : ∀ c ∈ cs, c.utf8Size = 1) :
    (Bytes.ofText (String.ofList cs)).length = cs.length := by
  have hsize : ∀ s : String, (Bytes.ofText s).length = s.utf8ByteSize := fun s => rfl
  induction cs with
  | nil => rfl
  | cons c cs ih =>
    obtain ⟨hc, hcs⟩ := List.forall_mem_cons.mp h
    rw [hsize] at ih ⊢
    rw [String.ofList_cons, String.utf8ByteSize_append, String.utf8ByteSize_singleton, hc, ih hcs, List.length_cons]
    omega

/-- A server accepts every id from random words. -/
theorem isValid_of_ofWords (h : ofWords ws = some (id, rest)) : isValid id = true := by
  obtain ⟨cs, rfl, hlength, hmem⟩ := ofWords_spec h
  have hbytes : (Bytes.ofText (String.ofList cs)).length = length := by
    rw [length_ofText_ofList fun c hc => (accepted_of_mem_alphabet (hmem c hc)).2, hlength]
    rfl
  rw [isValid, hbytes, beq_self_eq_true, Bool.true_and, List.all_eq_true, String.toList_ofList]
  exact fun c hc => (accepted_of_mem_alphabet (hmem c hc)).1

end

end TransitLink.RequestId
