import TransitLink.Number.Decimal
import TransitLink.Proofs.Outcome

/-!
# Integers between two bounds

* `parse_le` : what is read from a text does not exceed the upper bound.
* `lt_of_parseNatural` : a natural number of so many bits fits them.
-/

namespace TransitLink.Decimal

set_option autoImplicit false

theorem digits_le {bound : Nat} {beyond : Fault} {sofar n : Nat} {cs : List Char} (hsofar : sofar ≤ bound)
    (h : digits bound beyond sofar cs = .ok n) : n ≤ bound := by
  fun_induction digits bound beyond sofar cs with
  | case1 sofar =>
    cases h
    exact hsofar
  | case2 sofar c cs hdigit next hbeyond => cases h
  | case3 sofar c cs hdigit next hbeyond ih => exact ih (Nat.le_of_not_lt hbeyond) h
  | case4 sofar c cs hdigit => cases h

theorem parse_le {low high n : Int} {s : String} (hhigh : 0 ≤ high) (h : parse low high s = .ok n) :
    n ≤ high := by
  have hpositive : ∀ cs, (digits high.toNat .tooLarge 0 cs).map Int.ofNat = .ok n → n ≤ high := by
    intro cs hcs
    obtain ⟨m, hm, rfl⟩ := map_eq_ok_iff.mp hcs
    have hle := digits_le (Nat.zero_le _) hm
    exact Int.le_trans (Int.ofNat_le.mpr hle) (Int.le_of_eq (Int.toNat_of_nonneg hhigh))
  rw [parse] at h
  split at h
  · cases h
  · cases h
  · cases h
  · exact hpositive _ h
  · split at h
    · obtain ⟨_, hdigits, rfl⟩ := map_eq_ok_iff.mp h
      obtain ⟨m, -, hm⟩ := bind_eq_ok_iff.mp hdigits
      obtain rfl := Except.ok.inj hm
      exact Int.le_trans (Int.neg_nonpos_of_nonneg (Int.natCast_nonneg m)) hhigh
    · cases h
  · exact hpositive _ h

theorem lt_of_parseNatural {bits n : Nat} {s : String} (h : parseNatural bits s = .ok n) : n < 2 ^ bits := by
  obtain ⟨i, hi, rfl⟩ := map_eq_ok_iff.mp h
  have hpos : 0 < 2 ^ bits := Nat.two_pow_pos bits
  have hcast : ((2 ^ bits : Nat) : Int) = 2 ^ bits := Int.natCast_pow 2 bits
  have hle : i ≤ 2 ^ bits - 1 := parse_le (by omega) hi
  omega

end TransitLink.Decimal
