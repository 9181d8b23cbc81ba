import TransitLink.Proofs.Base64.Decoding

/-!
# Base64 said by bits

* `standard` : a letter for every six bits, zero bits to fill up the last six, and `=` to fill up the last four letters.
* `ofBits_seam` : six bits that lie in two octets are the number that arithmetic makes of the two.
* `toList_encodeText` : what is written is `standard`.
-/

namespace TransitLink.Base64

set_option autoImplicit false

def letters : List Char := "ABCDEFGHIJKLMNOPQRSTUVWXYZabcdefghijklmnopqrstuvwxyz0123456789+/".toList

/-- The bits of an octet, highest first. -/
def bits (b : UInt8) : List Bool := [7, 6, 5, 4, 3, 2, 1, 0].map b.toNat.testBit

/-- The number with these bits, highest first. -/
def ofBits : List Bool → Nat
  | [] => 0
  | b :: bs => b.toNat * 2 ^ bs.length + ofBits bs

/-- The numbers that the bits make, six at a time. Zero bits fill up the last six. -/
def sextets : List Bool → List Nat
  | a :: b :: c :: d :: e :: f :: bs => ofBits [a, b, c, d, e, f] :: sextets bs
  | [] => []
  | bs => [ofBits (bs ++ List.replicate (6 - bs.length) false)]

def letter (n : Nat) : Char := letters.getD n '='

/-- The characters with `=` up to a multiple of four. -/
def filled (cs : List Char) : List Char := cs ++ List.replicate ((4 - cs.length % 4) % 4) '='

/-- Padded standard base64. -/
def standard (bs : Bytes) : List Char := filled ((sextets (bs.flatMap bits)).map letter)

theorem ofBits_append (as bs : List Bool) : ofBits (as ++ bs) = ofBits as * 2 ^ bs.length + ofBits bs := by
  induction as with
  | nil => simp [ofBits]
  | cons a as ih =>
    rw [List.cons_append, ofBits, ofBits, ih, List.length_append, Nat.pow_add, Nat.add_mul, Nat.mul_assoc, Nat.add_assoc]

/-- So many bits of a number, from the bit `low` on. -/
theorem ofBits_testBit (n low count : Nat) :
    ofBits ((List.range count).reverse.map fun i => n.testBit (low + i)) = n / 2 ^ low % 2 ^ count := by
  induction count with
  | zero => simp [ofBits, Nat.mod_one]
  | succ count ih =>
    rw [List.range_succ, List.reverse_append, List.reverse_singleton, List.singleton_append, List.map_cons, ofBits, ih,
      Nat.toNat_testBit, List.length_map, List.length_reverse, List.length_range, Nat.mod_pow_succ, Nat.pow_add,
      Nat.div_div_eq_div_mul, Nat.mul_comm, Nat.add_comm]

/-- Six bits over the seam of two octets: the low ones of the first, and the high ones of the second. -/
theorem ofBits_seam (m : Nat) {n i : Nat} (hi : i ≤ 6) (hn : n < 256) :
    ofBits (((List.range i).reverse.map fun j => m.testBit (0 + j)) ++
      (List.range (6 - i)).reverse.map fun j => n.testBit (2 + i + j)) = m % 2 ^ i * 2 ^ (6 - i) + n / 2 ^ (2 + i) := by
  have hhigh : n / 2 ^ (2 + i) < 2 ^ (6 - i) := by
    rw [Nat.div_lt_iff_lt_mul (Nat.two_pow_pos _), ← Nat.pow_add, show 6 - i + (2 + i) = 8 by omega]
    exact hn
  rw [ofBits_append, ofBits_testBit, ofBits_testBit, List.length_map, List.length_reverse, List.length_range, Nat.pow_zero,
    Nat.div_one, Nat.mod_eq_of_lt hhigh]

set_option maxRecDepth 4096 in
theorem char_symbol {n : Nat} (h : n < 64) : Char.ofNat (symbol n).toNat = letter n := by
  have hall : ∀ n < 64, Char.ofNat (symbol n).toNat = letter n := by decide
  exact hall n h

theorem filled_cons (w x y z : Char) (cs : List Char) : filled (w :: x :: y :: z :: cs) = w :: x :: y :: z :: filled cs := by
  have hlength : (w :: x :: y :: z :: cs).length % 4 = cs.length % 4 := by
    simp only [List.length_cons]
    omega
  rw [filled, hlength]
  rfl

/-! ## Groups -/

section Groups
variable (a b c : UInt8)

theorem sextets_one : sextets ([a].flatMap bits) = [a.toNat / 4, a.toNat % 4 * 16] := by
  have hw : ofBits [_, _, _, _, _, _] = _ := ofBits_seam 0 (n := a.toNat) (i := 0) (by omega) a.toNat_lt
  have hx : ofBits [_, _, false, false, false, false] = _ := ofBits_seam a.toNat (n := 0) (i := 2) (by omega) (by omega)
  simp only [List.flatMap_cons, List.flatMap_nil, bits, List.map_cons, List.map_nil, List.cons_append, List.nil_append,
    sextets, List.length_cons, List.length_nil, List.replicate]
  rw [hw, hx]
  simp

theorem sextets_two : sextets ([a, b].flatMap bits) =
    [a.toNat / 4, a.toNat % 4 * 16 + b.toNat / 16, b.toNat % 16 * 4] := by
  have hw : ofBits [_, _, _, _, _, _] = _ := ofBits_seam 0 (n := a.toNat) (i := 0) (by omega) a.toNat_lt
  have hx : ofBits [_, _, _, _, _, _] = _ := ofBits_seam a.toNat (n := b.toNat) (i := 2) (by omega) b.toNat_lt
  have hy : ofBits [_, _, _, _, false, false] = _ := ofBits_seam b.toNat (n := 0) (i := 4) (by omega) (by omega)
  simp only [List.flatMap_cons, List.flatMap_nil, bits, List.map_cons, List.map_nil, List.cons_append, List.nil_append,
    sextets, List.length_cons, List.length_nil, List.replicate]
  rw [hw, hx, hy]
  simp

theorem sextets_three (bs : Bytes) : sextets ((a :: b :: c :: bs).flatMap bits) =
    a.toNat / 4 :: (a.toNat % 4 * 16 + b.toNat / 16) :: (b.toNat % 16 * 4 + c.toNat / 64) :: (c.toNat % 64) ::
      sextets (bs.flatMap bits) := by
  have hw : ofBits [_, _, _, _, _, _] = _ := ofBits_seam 0 (n := a.toNat) (i := 0) (by omega) a.toNat_lt
  have hx : ofBits [_, _, _, _, _, _] = _ := ofBits_seam a.toNat (n := b.toNat) (i := 2) (by omega) b.toNat_lt
  have hy : ofBits [_, _, _, _, _, _] = _ := ofBits_seam b.toNat (n := c.toNat) (i := 4) (by omega) c.toNat_lt
  have hz : ofBits [_, _, _, _, _, _] = _ := ofBits_seam c.toNat (n := 0) (i := 6) (by omega) (by omega)
  simp only [List.flatMap_cons, bits, List.map_cons, List.map_nil, List.cons_append, List.nil_append, sextets]
  rw [hw, hx, hy, hz]
  simp

end Groups

/-- **What is written is padded standard base64.** -/
theorem toList_encodeText (bs : Bytes) : (encodeText bs).toList = standard bs := by
  rw [encodeText, String.toList_ofList, standard]
  fun_induction encode bs with
  | case1 => rfl
  | case2 a =>
    have ha := a.toNat_lt
    rw [sextets_one]
    simp only [List.map_cons, char_symbol (show a.toNat / 4 < 64 by omega),
      char_symbol (show a.toNat % 4 * 16 < 64 by omega)]
    rfl
  | case3 a b =>
    have ha := a.toNat_lt
    have hb := b.toNat_lt
    rw [sextets_two]
    simp only [List.map_cons, char_symbol (show a.toNat / 4 < 64 by omega),
      char_symbol (show a.toNat % 4 * 16 + b.toNat / 16 < 64 by omega),
      char_symbol (show b.toNat % 16 * 4 < 64 by omega)]
    rfl
  | case4 a b c bs ih =>
    have ha := a.toNat_lt
    have hb := b.toNat_lt
    have hc := c.toNat_lt
    rw [sextets_three]
    simp only [List.map_cons, filled_cons, ih, char_symbol (show a.toNat / 4 < 64 by omega),
      char_symbol (show a.toNat % 4 * 16 + b.toNat / 16 < 64 by omega),
      char_symbol (show b.toNat % 16 * 4 + c.toNat / 64 < 64 by omega), char_symbol (show c.toNat % 64 < 64 by omega)]

end TransitLink.Base64
