import Mathlib
import TransitLink.Proofs.Snapshot.Rendering

/-!
# Numbers in renderings are safe

* `part_of_compact` : compaction moves and overwrites values, but every number in its result was there before.
* `NumberOf` : a number is that of an integer of the safe range, to `2 ^ 53 - 1` in magnitude, or of a finite double.
* `number_of_part` : every number in a rendering is that of an integer or a double inside the value.
* `spelled` : a value with the integers beyond the safe range spelled out as texts.
* `numbers_are_safe` : so no rendering holds an unsafe number.
-/

namespace TransitLink.Snapshot

set_option autoImplicit false

/-! ## Numbers -/

theorem renderInteger_of_within {n : Int} (h : n.natAbs ≤ 2 ^ 53 - 1) : renderInteger n = .int n := by
  have hrange : -maxSafeInteger ≤ n ∧ n ≤ maxSafeInteger := by
    unfold maxSafeInteger
    omega
  rw [renderInteger, if_pos hrange]

theorem renderInteger_of_beyond {n : Int} (h : ¬ n.natAbs ≤ 2 ^ 53 - 1) : renderInteger n = .str (toString n) := by
  have hrange : ¬ (-maxSafeInteger ≤ n ∧ n ≤ maxSafeInteger) := by
    unfold maxSafeInteger
    omega
  rw [renderInteger, if_neg hrange]

/-- `NumberOf k u`: the value `u` is an integer of the safe range or a finite double, and `k` is the same number. -/
inductive NumberOf : Json → Snapshot → Prop where
  | int {n : Int} : n.natAbs ≤ 2 ^ 53 - 1 → NumberOf (.int n) (integer n)
  | float {x : Double} : x.isFinite = true → NumberOf (.float x) (float x)

section Numbers
variable {k : Json} (hk : k.IsNumber)
include hk

theorem part_arr_iff {items : List Json} : Json.Part k (.arr items) ↔ ∃ j ∈ items, Json.Part k j := by
  constructor
  · intro h
    cases h with
    | self => exact hk.elim
    | item hj h => exact ⟨_, hj, h⟩
  · rintro ⟨j, hj, h⟩
    exact .item hj h

theorem part_obj_iff {ms : Members Json} : Json.Part k (.obj ms) ↔ ∃ m ∈ ms, Json.Part k m.2 := by
  constructor
  · intro h
    cases h with
    | self => exact hk.elim
    | member hm h => exact ⟨_, hm, h⟩
  · rintro ⟨m, hm, h⟩
    exact .member hm h

/-! ## Compaction -/

theorem part_of_compactAfter {last j : Json} {items : List Json} (hj : j ∈ compactAfter last items)
    (h : Json.Part k j) : ∃ i ∈ last :: items, Json.Part k i := by
  -- the loop invariant: all numbers in the last item so far, and in the items to come, are among the given ones
  fun_induction compactAfter last items with
  | case1 last => exact ⟨j, hj, h⟩
  | case2 last item => exact ⟨j, hj, h⟩
  | case3 next items ms name ih =>
    obtain ⟨i, hi, h⟩ := ih hj
    rcases List.mem_cons.mp hi with rfl | hi
    · obtain ⟨m, hm, h⟩ := (part_obj_iff hk).mp h
      rcases Members.mem_put hm with rfl | hm
      · exact ⟨next, by simp, h⟩
      · exact ⟨.obj ms, by simp, (part_obj_iff hk).mpr ⟨m, hm, h⟩⟩
    · exact ⟨i, by simp [hi], h⟩
  | case4 last item next items _ ih =>
    rcases List.mem_cons.mp hj with rfl | hj
    · exact ⟨j, by simp, h⟩
    · obtain ⟨i, hi, h⟩ := ih hj
      exact ⟨i, List.mem_cons_of_mem _ hi, h⟩

theorem part_of_compact {j : Json} {items : List Json} (hj : j ∈ compact items) (h : Json.Part k j) :
    ∃ i ∈ items, Json.Part k i := by
  cases items with
  | nil => exact absurd hj List.not_mem_nil
  | cons item items => exact part_of_compactAfter hk hj h

/-! ## Where numbers come from -/

/-- **Every number in a rendering is that of an integer or a double in the value.** -/
theorem number_of_part {compacting : Bool} {v : Snapshot} (h : Json.Part k (render compacting v)) :
    ∃ u, Part u v ∧ NumberOf k u := by
  induction v with
  | sequence items ih =>
    rw [render, part_arr_iff hk] at h
    obtain ⟨j, hj, h⟩ := h
    have hitem : ∃ i ∈ renderItems compacting items, Json.Part k i := by
      cases compacting with
      | true => exact part_of_compact hk hj h
      | false => exact ⟨j, hj, h⟩
    rw [renderItems_eq_map] at hitem
    obtain ⟨i, hi, h⟩ := hitem
    obtain ⟨v, hv, rfl⟩ := List.mem_map.mp hi
    obtain ⟨u, hu, hnumber⟩ := ih v hv h
    exact ⟨u, .item hv hu, hnumber⟩
  | mapping es ih =>
    rw [render, taggedMap, part_obj_iff hk] at h
    obtain ⟨m, hm, h⟩ := h
    rw [List.mem_cons, List.mem_singleton] at hm
    rcases hm with rfl | rfl
    · cases h
      exact hk.elim
    · rw [part_arr_iff hk, renderEntries_eq_map] at h
      obtain ⟨j, hj, h⟩ := h
      obtain ⟨e, he, rfl⟩ := List.mem_map.mp hj
      obtain ⟨i, hi, h⟩ := (part_arr_iff hk).mp h
      rw [List.mem_cons, List.mem_singleton] at hi
      rcases hi with rfl | rfl
      · obtain ⟨u, hu, hnumber⟩ := (ih e he).1 h
        exact ⟨u, .key he hu, hnumber⟩
      · obtain ⟨u, hu, hnumber⟩ := (ih e he).2 h
        exact ⟨u, .value he hu, hnumber⟩
  | record fs ih =>
    rw [render_record, part_obj_iff hk] at h
    obtain ⟨m, hm, h⟩ := h
    obtain ⟨f, hf, rfl⟩ := List.mem_map.mp (Members.mem_merge hm)
    have hfield := (List.mem_filter.mp hf).1
    obtain ⟨u, hu, hnumber⟩ := ih f hfield h
    exact ⟨u, .field hfield hu, hnumber⟩
  | integer n =>
    rw [render] at h
    by_cases hsafe : n.natAbs ≤ 2 ^ 53 - 1
    · rw [renderInteger_of_within hsafe] at h
      cases h
      exact ⟨integer n, .self _, .int hsafe⟩
    · rw [renderInteger_of_beyond hsafe] at h
      cases h
      exact hk.elim
  | float x =>
    rw [render, renderFloat] at h
    split at h
    · rename_i hfinite
      cases h
      exact ⟨float x, .self _, .float hfinite⟩
    · cases h
      exact hk.elim
  | _ =>
    cases h
    exact hk.elim

end Numbers

/-! ## Integers spelled out -/

/-- An integer beyond the safe range as a text of its digits. -/
def spell : Snapshot → Snapshot
  | integer n => if n.natAbs ≤ 2 ^ 53 - 1 then integer n else text (toString n)
  | v => v

def spelled (v : Snapshot) : Snapshot := mapLeaves spell v

theorem render_spell {compacting : Bool} (u : Snapshot) : render compacting (spell u) = render compacting u := by
  cases u with
  | integer n =>
    rw [spell]
    split
    · rfl
    · rename_i h
      exact (renderInteger_of_beyond h).symm
  | _ => rfl

/-- **Renderings hold no unsafe numbers.** However deep, with lists compacted or not: an integer in a rendering is at most
`2 ^ 53 - 1` in magnitude and is an integer inside the value, a double is finite and is a double inside the value. A larger
integer is rendered as its decimal digits, which read back as the integer, and wherever it stands, keys of maps included,
it is rendered as if the value held the text of these digits in its place. -/
theorem numbers_are_safe (compacting : Bool) (v : Snapshot) :
    (∀ n, Json.Part (.int n) (render compacting v) → n.natAbs ≤ 2 ^ 53 - 1 ∧ Part (integer n) v) ∧
    (∀ x, Json.Part (.float x) (render compacting v) → x.isFinite = true ∧ Part (float x) v) ∧
    (∀ n : Int, ¬ n.natAbs ≤ 2 ^ 53 - 1 →
      render compacting (integer n) = .str (toString n) ∧ (toString n).toInt? = some n) ∧
    render compacting (spelled v) = render compacting v := by
  refine ⟨fun n h => ?_, fun x h => ?_, fun n h => ?_, render_mapLeaves render_spell v⟩
  · obtain ⟨_, hu, hsafe⟩ := number_of_part (k := .int n) trivial h
    cases hsafe with
    | int hsafe => exact ⟨hsafe, hu⟩
  · obtain ⟨_, hu, hfinite⟩ := number_of_part (k := .float x) trivial h
    cases hfinite with
    | float hfinite => exact ⟨hfinite, hu⟩
  · exact ⟨renderInteger_of_beyond h, Int.toInt?_repr n⟩

end TransitLink.Snapshot
