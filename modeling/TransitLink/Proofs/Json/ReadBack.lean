import TransitLink.Proofs.Json.Printing

/-!
# Values that are read back from their texts

* `Fits depth j` : no name is repeated, and nothing is too deep or too large. `DoublesGivenBack j` : every double is read
  from its digits as itself.
* `textOf_toBytes` : such a value is read back from its text.
* `TextOf.fits` : every value that is read fits.
-/

namespace TransitLink.Json

set_option autoImplicit false

/-! ## Values that fit the reader -/

/-- Lists and objects nest at most so deep, integers have 64 bits, and every name of an object stands once. -/
def Fits : (depth : Nat) → Json → Prop
  | _, .null => True
  | _, .bool _ => True
  | _, .int n => -2 ^ 63 ≤ n ∧ n < 2 ^ 64
  | _, .float _ => True
  | _, .str _ => True
  | 0, .arr _ => False
  | 0, .obj _ => False
  | depth + 1, .arr items => ∀ j ∈ items, Fits depth j
  | depth + 1, .obj ms => (Members.names ms).Nodup ∧ ∀ m ∈ ms, Fits depth m.2

/-- The digits of the double are read as the double again. -/
def GivenBack (x : Double) : Prop := ScalarText (Bytes.ofText (floatText x)) (.float x)

/-- Ten to the sixteenth is written with an exponent, and read from it. -/
theorem givenBack_of_large : GivenBack ⟨0x4341C37937E08000⟩ := by
  have htext : Bytes.ofText (floatText ⟨0x4341C37937E08000⟩) = [0x31] ++ ([] ++ [0x65, 0x2b, 0x31, 0x36]) := by
    decide +kernel
  have hnumeral : NumeralText ([0x31] ++ ([] ++ [0x65, 0x2b, 0x31, 0x36]))
      ⟨false, [0x31], none, some (false, [0x31, 0x36])⟩ := by
    have hwhole : Digits [0x31] := ⟨by decide, by decide +kernel⟩
    have hexponent : Digits [0x31, 0x36] := ⟨by decide, by decide +kernel⟩
    exact ⟨hwhole, by decide, _, _, .absent, .plus (.inl rfl) hexponent, rfl⟩
  have hproduct : (Double.ofNat 1).mul (powerOfTen 16) = ⟨0x4341C37937E08000⟩ := by decide +kernel
  have hvalue : (scaleByPower 1 16).map (fun x => Json.float (withSign false x)) =
      .ok (.float ⟨0x4341C37937E08000⟩) := by
    unfold scaleByPower
    simp only [show (16 : Int).toNat = 16 from rfl, hproduct]
    rfl
  unfold GivenBack
  rw [htext]
  exact .positive hnumeral rfl hvalue

/-- The digits of every double in the value are read as that double again. -/
def DoublesGivenBack (j : Json) : Prop := ∀ x, Part (.float x) j → GivenBack x

theorem mergedItems_eq_map (js : List Json) : mergedItems js = js.map merged := by
  induction js with
  | nil => rfl
  | cons j js ih => rw [mergedItems, ih, List.map_cons]

theorem mergedMembers_eq_map (ms : Members Json) : mergedMembers ms = ms.map fun m => (m.1, merged m.2) := by
  induction ms with
  | nil => rfl
  | cons m ms ih => rw [mergedMembers, ih, List.map_cons]

theorem Fits.merged {depth : Nat} {j : Json} (h : Fits depth j) : merged j = j := by
  induction depth generalizing j with
  | zero =>
    cases j with
    | arr | obj => cases h
    | _ => rfl
  | succ depth ih =>
    cases j with
    | arr items =>
      rw [Json.merged, mergedItems_eq_map, List.map_congr_left fun j hj => ih (h j hj), List.map_id']
    | obj ms =>
      obtain ⟨hnames, hms⟩ := h
      have hmap : ms.map (fun m => (m.1, Json.merged m.2)) = ms := by
        refine (List.map_congr_left fun m hm => ?_).trans (List.map_id' ms)
        rw [ih (hms m hm)]
      rw [Json.merged, mergedMembers_eq_map, hmap, Members.merge_of_nodup hnames]
    | _ => rfl

theorem scalarText_leafText {depth : Nat} {j : Json} (hlist : ∀ js, j ≠ .arr js) (hobject : ∀ ms, j ≠ .obj ms)
    (h : Fits depth j) (hx : DoublesGivenBack j) : ScalarText (Bytes.ofText (leafText j)) j := by
  cases j with
  | null => exact .null
  | bool b =>
    cases b with
    | true => exact .yes
    | false => exact .no
  | int n =>
    have hfits : -2 ^ 63 ≤ n ∧ n < 2 ^ 64 := by cases depth <;> exact h
    exact scalarText_of_int hfits.1 hfits.2
  | float x => exact hx x (.self _)
  | str s =>
    obtain ⟨n, hn, hspelled⟩ := stringText_spelled s
    exact hn ▸ .string hspelled
  | arr js => exact absurd rfl (hlist js)
  | obj ms => exact absurd rfl (hobject ms)

/-- **A value that fits is read back from its text,** if each of its doubles is. -/
theorem textOf_toBytes {depth : Nat} {j : Json} (h : Fits depth j) (hx : DoublesGivenBack j) :
    TextOf depth (toBytes j) j := by
  induction depth generalizing j with
  | zero =>
    cases j with
    | arr | obj => cases h
    | _ => exact scalarText_leafText nofun nofun h hx
  | succ depth ih =>
    cases j with
    | arr js =>
      have hitems : ∀ j ∈ js, TextOf depth (toBytes j) j := fun j hj => ih (h j hj) fun x hpart => hx x (.item hj hpart)
      rw [toBytes_arr]
      exact .inr (.list (parts_joined 0x5d blank_nil blank_nil _)
        (List.forall₂_map_left_iff.mpr (List.forall₂_same.mpr hitems)))
    | obj ms =>
      have hmembers : ∀ m ∈ ms, TextOf depth (toBytes m.2) m.2 := fun m hm => ih (h.2 m hm) fun x hpart =>
        hx x (.member hm hpart)
      rw [toBytes_obj]
      exact .inr (.object (parts_joined 0x7d blank_nil blank_nil _) (memberText_memberBytes ms)
        (List.forall₂_map_left_iff.mpr (List.forall₂_same.mpr fun m hm => ⟨rfl, hmembers m hm⟩)))
    | _ => exact .inl (scalarText_leafText nofun nofun h hx)

/-! ## Values that are read fit -/

theorem absorb_le {n : Nat} (h : n ≤ significandMax) (ds : Bytes) : (absorb n ds).1 ≤ significandMax := by
  induction ds generalizing n with
  | nil => exact h
  | cons d ds ih =>
    rw [absorb]
    split
    · exact h
    · rename_i hnext
      exact ih (Nat.not_lt.mp hnext)

/-- A number that is read is a double or an integer of 64 bits. -/
theorem value_fits {n : Numeral} {j : Json} (h : n.value = .ok j) (depth : Nat) : Fits depth j ∧ merged j = j := by
  have hfloat : ∀ x : Double, Fits depth (.float x) ∧ merged (.float x) = .float x := by
    intro x
    cases depth <;> exact ⟨trivial, rfl⟩
  have hint : ∀ k : Int, -2 ^ 63 ≤ k → k < 2 ^ 64 → Fits depth (.int k) ∧ merged (.int k) = .int k := by
    intro k hlow hhigh
    cases depth <;> exact ⟨⟨hlow, hhigh⟩, rfl⟩
  have hscaled : ∀ (significand : Nat) (exponent : Int),
      (scaleByPower significand exponent).map (fun x => Json.float (withSign n.negative x)) = .ok j →
        Fits depth j ∧ merged j = j := by
    intro significand exponent h
    cases hx : scaleByPower significand exponent with
    | error e =>
      rw [hx] at h
      cases h
    | ok x =>
      rw [hx] at h
      cases h
      exact hfloat _
  have hwhole := absorb_le (Nat.zero_le _) n.whole
  unfold significandMax at hwhole
  unfold Numeral.value at h
  simp only at h
  split at h
  · split at h
    · split at h
      · cases h
      · cases h
        exact hfloat _
    · exact hscaled _ _ h
  · split at h
    · exact hscaled _ _ h
    split at h
    · split at h
      · cases h
        exact hfloat _
      · cases h
        exact hint _ (by omega) (by omega)
    · cases h
      exact hint _ (by omega) (by omega)

theorem ScalarText.fits {t : Bytes} {j : Json} (h : ScalarText t j) (depth : Nat) : Fits depth j ∧ merged j = j := by
  cases h with
  | null | yes | no | string => cases depth <;> exact ⟨trivial, rfl⟩
  | positive _ _ hj => exact value_fits hj depth
  | negative _ _ hj => exact value_fits hj depth

/-- **What is read fits,** once every name is merged. -/
theorem TextOf.fits {depth : Nat} {t : Bytes} {j : Json} (h : TextOf depth t j) : Fits depth (merged j) := by
  induction depth generalizing t j with
  | zero =>
    obtain ⟨hfits, hmerged⟩ := ScalarText.fits h 0
    rwa [hmerged]
  | succ depth ih =>
    rcases h with h | h
    · obtain ⟨hfits, hmerged⟩ := h.fits (depth + 1)
      rwa [hmerged]
    · cases h with
      | list _ hjs =>
        have hall := forall_of_forall₂ hjs.flip fun j t _ hj => ih hj
        rw [merged, mergedItems_eq_map]
        exact List.forall_mem_map.mpr hall
      | @object t us fs ms _ _ hms =>
        have hall := forall_of_forall₂ hms.flip fun m f _ hm => ih hm.2
        rw [merged, mergedMembers_eq_map]
        have hmap : ∀ m ∈ ms.map (fun m => (m.1, merged m.2)), Fits depth m.2 := List.forall_mem_map.mpr hall
        exact ⟨Members.nodup_names_merge _, fun m hm => hmap m (Members.mem_merge hm)⟩

end TransitLink.Json
