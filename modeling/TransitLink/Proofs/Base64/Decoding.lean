import TransitLink.Base64
import TransitLink.Proofs.Outcome

/-!
# Base64 read and written

* `value?_eq_some_iff` : symbols and six-bit numbers are the same.
* `decode_eq_ok_iff` : a text is decoded exactly if it is what encoding gives, so that padding and unused bits have one
  form each.
* `ofText_encodeText`, `encodeText_injective` : the same for texts rather than octets.
-/

namespace TransitLink.Base64

set_option autoImplicit false

/-! ## Symbols -/

theorem value?_symbol {n : Nat} (h : n < 64) : value? (symbol n) = some n := by
  have hall : ∀ n < 64, value? (symbol n) = some n := by decide
  exact hall n h

set_option maxRecDepth 4096 in
theorem value?_eq_some_iff {b : UInt8} {n : Nat} : value? b = some n ↔ n < 64 ∧ b = symbol n := by
  constructor
  · intro h
    have hb := Bytes.forall_octet (p := fun b => (value? b).all fun n => n < 64 ∧ b = symbol n) (by decide) b
    rw [h] at hb
    simpa using hb
  · rintro ⟨hn, rfl⟩
    exact value?_symbol hn

theorem symbol_ne_pad {n : Nat} (h : n < 64) : symbol n ≠ pad := by
  have hall : ∀ n < 64, symbol n ≠ pad := by decide
  exact hall n h

theorem valueAt_eq_ok_iff {offset : Nat} {b : UInt8} {n : Nat} :
    valueAt offset b = .ok n ↔ n < 64 ∧ b = symbol n := by
  rw [← value?_eq_some_iff, valueAt]
  cases value? b <;> simp

/-! ## Groups -/

section Groups
variable {w x y z : Nat} (hw : w < 64) (hx : x < 64)
include hw hx

/-- Four symbols are the group of the three octets that they are read as. -/
theorem encode_octets (hy : y < 64) (hz : z < 64) (bs : Bytes) :
    encode (octets w x y z ++ bs) = symbol w :: symbol x :: symbol y :: symbol z :: encode bs := by
  have h₁ : w * 4 + x / 16 < 256 := by omega
  have h₂ : x % 16 * 16 + y / 4 < 256 := by omega
  have h₃ : y % 4 * 64 + z < 256 := by omega
  simp only [octets, List.cons_append, List.nil_append, encode, UInt8.toNat_ofNat_of_lt' h₁, UInt8.toNat_ofNat_of_lt' h₂,
    UInt8.toNat_ofNat_of_lt' h₃]
  rw [show (w * 4 + x / 16) / 4 = w by omega, show (w * 4 + x / 16) % 4 * 16 + (x % 16 * 16 + y / 4) / 16 = x by omega,
    show (x % 16 * 16 + y / 4) % 16 * 4 + (y % 4 * 64 + z) / 64 = y by omega, show (y % 4 * 64 + z) % 64 = z by omega]

theorem encode_take_one (hunused : x % 16 = 0) :
    encode ((octets w x 0 0).take 1) = [symbol w, symbol x, pad, pad] := by
  have h₁ : w * 4 + x / 16 < 256 := by omega
  simp only [octets, List.take_succ_cons, List.take_zero, encode, UInt8.toNat_ofNat_of_lt' h₁]
  rw [show (w * 4 + x / 16) / 4 = w by omega, show (w * 4 + x / 16) % 4 * 16 = x by omega]

theorem encode_take_two (hy : y < 64) (hunused : y % 4 = 0) :
    encode ((octets w x y 0).take 2) = [symbol w, symbol x, symbol y, pad] := by
  have h₁ : w * 4 + x / 16 < 256 := by omega
  have h₂ : x % 16 * 16 + y / 4 < 256 := by omega
  simp only [octets, List.take_succ_cons, List.take_zero, encode, UInt8.toNat_ofNat_of_lt' h₁, UInt8.toNat_ofNat_of_lt' h₂]
  rw [show (w * 4 + x / 16) / 4 = w by omega, show (w * 4 + x / 16) % 4 * 16 + (x % 16 * 16 + y / 4) / 16 = x by omega,
    show (x % 16 * 16 + y / 4) % 16 * 4 = y by omega]

end Groups

/-- Three octets are what the four symbols of their group are read as. -/
theorem octets_group (a b c : UInt8) :
    octets (a.toNat / 4) (a.toNat % 4 * 16 + b.toNat / 16) (b.toNat % 16 * 4 + c.toNat / 64) (c.toNat % 64) = [a, b, c] := by
  have ha := a.toNat_lt
  have hb := b.toNat_lt
  have hc := c.toNat_lt
  rw [octets, show a.toNat / 4 * 4 + (a.toNat % 4 * 16 + b.toNat / 16) / 16 = a.toNat by omega,
    show (a.toNat % 4 * 16 + b.toNat / 16) % 16 * 16 + (b.toNat % 16 * 4 + c.toNat / 64) / 4 = b.toNat by omega,
    show (b.toNat % 16 * 4 + c.toNat / 64) % 4 * 64 + c.toNat % 64 = c.toNat by omega]
  simp only [UInt8.ofNat_toNat]

theorem encode_ne_nil {bs : Bytes} (h : bs ≠ []) : encode bs ≠ [] := by
  fun_cases encode bs with
  | case1 => exact absurd rfl h
  | _ => simp

theorem length_encode_mod (bs : Bytes) : (encode bs).length % 4 = 0 := by
  fun_induction encode bs with
  | case4 a b c bs ih =>
    simp only [List.length_cons]
    omega
  | _ => simp

/-! ## The last group -/

theorem of_lastSymbols {offset : Nat} {bs padding : Bytes} {ns : List Nat}
    (h : lastSymbols offset bs = .ok (ns, padding)) : bs = ns.map symbol ++ padding ∧ ∀ n ∈ ns, n < 64 := by
  fun_induction lastSymbols offset bs generalizing ns with
  | case1 =>
    cases h
    simp
  | case2 =>
    cases h
    simp
  | case3 offset b bs _ ih =>
    obtain ⟨n, hn, h⟩ := bind_eq_ok_iff.mp h
    obtain ⟨⟨ns', padding'⟩, hns, h⟩ := bind_eq_ok_iff.mp h
    cases h
    obtain ⟨hlt, rfl⟩ := valueAt_eq_ok_iff.mp hn
    obtain ⟨rfl, hall⟩ := ih hns
    exact ⟨rfl, List.forall_mem_cons.mpr ⟨hlt, hall⟩⟩

theorem lastSymbols_append (ns : List Nat) (padding : Bytes) (hns : ∀ n ∈ ns, n < 64)
    (hpadding : padding = [] ∨ padding.head? = some pad) (offset : Nat) :
    lastSymbols offset (ns.map symbol ++ padding) = .ok (ns, padding) := by
  induction ns generalizing offset with
  | nil =>
    rcases hpadding with rfl | hhead
    · rfl
    · obtain ⟨rest, rfl⟩ := List.head?_eq_some_iff.mp hhead
      rw [List.map_nil, List.nil_append, lastSymbols, if_pos rfl]
  | cons n ns ih =>
    obtain ⟨hn, hns⟩ := List.forall_mem_cons.mp hns
    have hvalue : valueAt offset (symbol n) = .ok n := valueAt_eq_ok_iff.mpr ⟨hn, rfl⟩
    simp only [List.map_cons, List.cons_append, lastSymbols, if_neg (symbol_ne_pad hn), hvalue, ih hns, bind, Except.bind]

theorem encode_of_decodeLast {offset : Nat} {bs out : Bytes} (h : decodeLast offset bs = .ok out) : bs = encode out := by
  obtain ⟨⟨ns, padding⟩, hsymbols, h⟩ := bind_eq_ok_iff.mp h
  obtain ⟨hbs, hns⟩ := of_lastSymbols hsymbols
  simp only at h
  split at h
  · cases h
  rename_i hpadding
  have hpads : padding = List.replicate padding.length pad := by
    rw [List.eq_replicate_iff]
    refine ⟨rfl, fun b hb => ?_⟩
    have hne : padding ≠ [] := List.ne_nil_of_mem hb
    simp only [hne, ne_eq, not_false_eq_true, true_and, not_or, Classical.not_not, List.all_eq_true, decide_eq_true_eq] at hpadding
    exact hpadding.2 b hb
  split at h
  · -- a whole group: two, three or four symbols, and the pads that are missing
    rename_i hlength
    rw [hbs, List.length_append, List.length_map] at hlength
    split at h
    · rename_i w x
      split at h
      · rename_i hunused
        cases h
        have htwo : padding.length = 2 := by
          simp only [List.length_cons, List.length_nil] at hlength
          omega
        rw [hbs, hpads, htwo, encode_take_one (hns w (by simp)) (hns x (by simp)) hunused]
        rfl
      · cases h
    · rename_i w x y
      split at h
      · rename_i hunused
        cases h
        have hone : padding.length = 1 := by
          simp only [List.length_cons, List.length_nil] at hlength
          omega
        rw [hbs, hpads, hone, encode_take_two (hns w (by simp)) (hns x (by simp)) (hns y (by simp)) hunused]
        rfl
      · cases h
    · rename_i w x y z
      cases h
      have hnone : padding.length = 0 := by
        simp only [List.length_cons, List.length_nil] at hlength
        omega
      have hgroup := encode_octets (hns w (by simp)) (hns x (by simp)) (hns y (by simp)) (hns z (by simp)) []
      rw [List.append_nil] at hgroup
      rw [hbs, hpads, hnone, hgroup]
      rfl
    · cases h
  · split at h
    · rename_i hnil
      cases h
      exact hnil
    · split at h <;> cases h

section LastGroup
variable {w x y z : Nat} (hw : w < 64) (hx : x < 64) (offset : Nat)
include hw hx

theorem decodeLast_two (hunused : x % 16 = 0) :
    decodeLast offset [symbol w, symbol x, pad, pad] = .ok ((octets w x 0 0).take 1) := by
  have hsymbols := lastSymbols_append [w, x] [pad, pad] (by simp [hw, hx]) (.inr rfl) offset
  simp only [List.map_cons, List.map_nil, List.cons_append, List.nil_append] at hsymbols
  simp [decodeLast, hsymbols, bind, Except.bind, hunused]

theorem decodeLast_three (hy : y < 64) (hunused : y % 4 = 0) :
    decodeLast offset [symbol w, symbol x, symbol y, pad] = .ok ((octets w x y 0).take 2) := by
  have hsymbols := lastSymbols_append [w, x, y] [pad] (by simp [hw, hx, hy]) (.inr rfl) offset
  simp only [List.map_cons, List.map_nil, List.cons_append, List.nil_append] at hsymbols
  simp [decodeLast, hsymbols, bind, Except.bind, hunused]

theorem decodeLast_four (hy : y < 64) (hz : z < 64) :
    decodeLast offset [symbol w, symbol x, symbol y, symbol z] = .ok (octets w x y z) := by
  have hsymbols := lastSymbols_append [w, x, y, z] [] (by simp [hw, hx, hy, hz]) (.inl rfl) offset
  simp only [List.map_cons, List.map_nil, List.append_nil] at hsymbols
  simp [decodeLast, hsymbols, bind, Except.bind]

end LastGroup

/-! ## All groups -/

theorem encode_of_decodeFrom {offset : Nat} {done bs out : Bytes} (h : decodeFrom offset done bs = .ok out) :
    ∃ more, out = done.reverse ++ more ∧ bs = encode more := by
  fun_induction decodeFrom offset done bs with
  | case1 offset done a b c d e bs ih =>
    obtain ⟨w, hw, h⟩ := bind_eq_ok_iff.mp h
    obtain ⟨x, hx, h⟩ := bind_eq_ok_iff.mp h
    obtain ⟨y, hy, h⟩ := bind_eq_ok_iff.mp h
    obtain ⟨z, hz, h⟩ := bind_eq_ok_iff.mp h
    obtain ⟨more, rfl, hmore⟩ := ih w x y z h
    rw [valueAt_eq_ok_iff] at hw hx hy hz
    refine ⟨octets w x y z ++ more, by simp, ?_⟩
    rw [encode_octets hw.1 hx.1 hy.1 hz.1, ← hmore, hw.2, hx.2, hy.2, hz.2]
  | case2 offset done bs =>
    obtain ⟨last, hlast, h⟩ := bind_eq_ok_iff.mp h
    cases h
    exact ⟨last, rfl, encode_of_decodeLast hlast⟩

theorem decodeFrom_of_last {offset : Nat} {done bs out : Bytes} (hlength : bs.length ≤ 4)
    (h : decodeLast offset bs = .ok out) : decodeFrom offset done bs = .ok (done.reverse ++ out) := by
  unfold decodeFrom
  split
  · simp only [List.length_cons] at hlength
    omega
  · rw [h]
    rfl

theorem decodeFrom_encode (offset : Nat) (done bs : Bytes) :
    decodeFrom offset done (encode bs) = .ok (done.reverse ++ bs) := by
  -- over the groups; for the decoder a group is the last if no octet follows it, even where `encode` goes on to `[]`
  fun_induction encode bs generalizing offset done with
  | case1 => rfl
  | case2 a =>
    have ha := a.toNat_lt
    have hgroup : octets (a.toNat / 4) (a.toNat % 4 * 16) 0 0 = [a, 0, 0] := by simpa using octets_group a 0 0
    have hlast := decodeLast_two (w := a.toNat / 4) (x := a.toNat % 4 * 16) (by omega) (by omega) offset (by omega)
    rw [hgroup] at hlast
    exact decodeFrom_of_last (Nat.le_refl 4) hlast
  | case3 a b =>
    have ha := a.toNat_lt
    have hb := b.toNat_lt
    have hgroup : octets (a.toNat / 4) (a.toNat % 4 * 16 + b.toNat / 16) (b.toNat % 16 * 4) 0 = [a, b, 0] := by
      simpa using octets_group a b 0
    have hlast := decodeLast_three (w := a.toNat / 4) (x := a.toNat % 4 * 16 + b.toNat / 16) (y := b.toNat % 16 * 4)
      (by omega) (by omega) offset (by omega) (by omega)
    rw [hgroup] at hlast
    exact decodeFrom_of_last (Nat.le_refl 4) hlast
  | case4 a b c bs ih =>
    have ha := a.toNat_lt
    have hb := b.toNat_lt
    have hc := c.toNat_lt
    have hw : a.toNat / 4 < 64 := by omega
    have hx : a.toNat % 4 * 16 + b.toNat / 16 < 64 := by omega
    have hy : b.toNat % 16 * 4 + c.toNat / 64 < 64 := by omega
    have hz : c.toNat % 64 < 64 := by omega
    cases hrest : encode bs with
    | nil =>
      have hnil : bs = [] := Classical.byContradiction fun hne => encode_ne_nil hne hrest
      have hlast := decodeLast_four hw hx offset hy hz
      rw [octets_group] at hlast
      rw [hnil]
      exact decodeFrom_of_last (Nat.le_refl 4) hlast
    | cons e es =>
      have hstep := ih (offset + 4) ((octets (a.toNat / 4) (a.toNat % 4 * 16 + b.toNat / 16)
        (b.toNat % 16 * 4 + c.toNat / 64) (c.toNat % 64)).reverse ++ done)
      rw [hrest, List.reverse_append, List.reverse_reverse, octets_group, List.append_assoc] at hstep
      simp only [decodeFrom, valueAt_eq_ok_iff.mpr ⟨hw, rfl⟩, valueAt_eq_ok_iff.mpr ⟨hx, rfl⟩,
        valueAt_eq_ok_iff.mpr ⟨hy, rfl⟩, valueAt_eq_ok_iff.mpr ⟨hz, rfl⟩, bind, Except.bind, octets_group]
      exact hstep

/-- **Decoding accepts exactly what encoding gives.** -/
theorem decode_eq_ok_iff {bs out : Bytes} : decode bs = .ok out ↔ bs = encode out := by
  constructor
  · intro h
    unfold decode at h
    split at h
    · split at h
      · cases h
      · obtain ⟨more, rfl, hbs⟩ := encode_of_decodeFrom h
        exact hbs
    · rename_i hnone
      cases h
      rw [List.getLast?_eq_none_iff.mp hnone, encode]
  · rintro rfl
    unfold decode
    split
    · have hlength := length_encode_mod out
      rw [if_neg (by omega), decodeFrom_encode]
      rfl
    · rename_i hnone
      have hnil : out = [] := Classical.byContradiction fun hne => encode_ne_nil hne (List.getLast?_eq_none_iff.mp hnone)
      rw [hnil]

/-! ## Texts -/

theorem forall_mem_encode {p : UInt8 → Prop} (hsymbol : ∀ n < 64, p (symbol n)) (hpad : p pad) (bs : Bytes) :
    ∀ b ∈ encode bs, p b := by
  fun_induction encode bs with
  | case1 => simp
  | case2 a =>
    have ha := a.toNat_lt
    simp only [List.forall_mem_cons]
    exact ⟨hsymbol _ (by omega), hsymbol _ (by omega), hpad, hpad, by simp⟩
  | case3 a b =>
    have ha := a.toNat_lt
    have hb := b.toNat_lt
    simp only [List.forall_mem_cons]
    exact ⟨hsymbol _ (by omega), hsymbol _ (by omega), hsymbol _ (by omega), hpad, by simp⟩
  | case4 a b c bs ih =>
    have ha := a.toNat_lt
    have hb := b.toNat_lt
    have hc := c.toNat_lt
    simp only [List.forall_mem_cons]
    exact ⟨hsymbol _ (by omega), hsymbol _ (by omega), hsymbol _ (by omega), hsymbol _ (by omega), ih⟩

theorem ofText_ofAscii {bs : Bytes} (h : ∀ b ∈ bs, b.toNat < 128) :
    Bytes.ofText (String.ofList (bs.map fun b => Char.ofNat b.toNat)) = bs := by
  rw [Bytes.ofText_ofList]
  induction bs with
  | nil => rfl
  | cons b bs ih =>
    obtain ⟨hb, hbs⟩ := List.forall_mem_cons.mp h
    have hall : ∀ n < 128, String.utf8EncodeChar (Char.ofNat n) = [UInt8.ofNat n] := by decide
    rw [List.map_cons, List.flatMap_cons, hall _ hb, ih hbs, UInt8.ofNat_toNat, List.singleton_append]

theorem ofText_encodeText (bs : Bytes) : Bytes.ofText (encodeText bs) = encode bs :=
  ofText_ofAscii (forall_mem_encode (by decide) (by decide) bs)

theorem ofText_eq_encode_iff {s : String} {bs : Bytes} : Bytes.ofText s = encode bs ↔ s = encodeText bs := by
  rw [← ofText_encodeText, Bytes.ofText_inj]

theorem encodeText_injective {as bs : Bytes} (h : encodeText as = encodeText bs) : as = bs := by
  have has : decode (encode as) = .ok as := decode_eq_ok_iff.mpr rfl
  have hbs : decode (encode bs) = .ok bs := decode_eq_ok_iff.mpr rfl
  rw [← ofText_encodeText, h, ofText_encodeText, hbs, Except.ok.injEq] at has
  exact has.symm

end TransitLink.Base64
