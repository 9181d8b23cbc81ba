import TransitLink.Snapshot.Pack
import TransitLink.Snapshot.Unpack

/-!
# Numbers and headers read back

* `readNatural_toBigEndian`, `readContent_append`, `readMany_flatMap` : fields, content and repetitions.
* `readWith_lengthHeader` : whatever form a length is written in, it is read as if the marker told it.
* `readWith_integerOctets` : an integer that can be held is read back from its shortest form.
-/

namespace TransitLink.Snapshot

set_option autoImplicit false

/-! ## Fields, content, repetitions -/

theorem readNatural_toBigEndian {width n : Nat} (h : n < 256 ^ width) (rest : Bytes) :
    readNatural width (Bytes.toBigEndian width n ++ rest) = .ok (n, rest) := by
  have hlength : (Bytes.toBigEndian width n).length = width := Bytes.length_toBigEndian width n
  have hle : width ≤ (Bytes.toBigEndian width n ++ rest).length := by
    rw [List.length_append, hlength]
    omega
  simp only [readNatural, Bytes.split?_eq, if_pos hle, List.take_left' hlength, List.drop_left' hlength,
    Bytes.ofBigEndian_toBigEndian, Nat.mod_eq_of_lt h]

theorem readContent_append (content rest : Bytes) : readContent content.length (content ++ rest) = .ok (content, rest) := by
  have hle : content.length ≤ (content ++ rest).length := by
    rw [List.length_append]
    omega
  simp only [readContent, Bytes.split?_eq, if_pos hle, List.take_left, List.drop_left]

theorem readMany_flatMap {α β : Type} {item : Reader β} {write : α → Bytes} {f : α → β} {xs : List α}
    (h : ∀ x ∈ xs, ∀ rest, item (write x ++ rest) = .ok (f x, rest)) (done : List β) (rest : Bytes) :
    readMany item done xs.length (xs.flatMap write ++ rest) = .ok (done.reverse ++ xs.map f, rest) := by
  induction xs generalizing done with
  | nil => simp [readMany]
  | cons x xs ih =>
    obtain ⟨hx, hxs⟩ := List.forall_mem_cons.mp h
    rw [List.flatMap_cons, List.append_assoc, List.length_cons, readMany, hx]
    simp only
    rw [ih hxs, List.reverse_cons, List.append_assoc, List.map_cons, List.singleton_append]

/-! ## Lengths -/

theorem readWith_octet (item : Option (Reader Snapshot)) (n : Nat) (rest : Bytes) :
    readWith item (octet n ++ rest) = readAfter item (Marker.ofOctet (.ofNat n)) rest := rfl

/-- A length in a field is read as if the marker told it. -/
theorem readAfter_field {item : Option (Reader Snapshot)} {kind : Extent → Marker}
    (hkind : kind = .text ∨ kind = .binary ∨ kind = .list ∨ kind = .map) {width n : Nat} (hn : n < 256 ^ width)
    (rest : Bytes) :
    readAfter item (kind (.field width)) (Bytes.toBigEndian width n ++ rest) = readAfter item (kind (.known n)) rest := by
  rcases hkind with rfl | rfl | rfl | rfl <;> simp only [readAfter, readExtent, readNatural_toBigEndian hn]

/-- **A length is read back from any of its forms.** -/
theorem readWith_lengthHeader {item : Option (Reader Snapshot)} {kind : Extent → Marker}
    (hkind : kind = .text ∨ kind = .binary ∨ kind = .list ∨ kind = .map) {base small two four : Nat} {one : Option Nat}
    (hsmall : ∀ n < small, Marker.ofOctet (.ofNat (base + n)) = kind (.known n))
    (hone : ∀ marker, one = some marker → Marker.ofOctet (.ofNat marker) = kind (.field 1))
    (htwo : Marker.ofOctet (.ofNat two) = kind (.field 2)) (hfour : Marker.ofOctet (.ofNat four) = kind (.field 4))
    {n : Nat} (hn : n < 2 ^ 32) (rest : Bytes) :
    readWith item (lengthHeader base small one two four n ++ rest) = readAfter item (kind (.known n)) rest := by
  have hwide : readWith item (lengthHeader.wide two four n ++ rest) = readAfter item (kind (.known n)) rest := by
    unfold lengthHeader.wide
    split
    · rename_i hlt
      rw [List.append_assoc, readWith_octet, htwo, readAfter_field hkind (by omega)]
    · rw [List.append_assoc, readWith_octet, hfour, readAfter_field hkind (by omega)]
  unfold lengthHeader
  split
  · rename_i hlt
    rw [readWith_octet, hsmall n hlt]
  · split
    · rename_i marker
      split
      · rename_i hlt
        rw [List.append_assoc, readWith_octet, hone marker rfl, readAfter_field hkind (by omega)]
      · exact hwide
    · exact hwide

theorem readWith_textHeader {item : Option (Reader Snapshot)} {n : Nat} (hn : n < 2 ^ 32) (rest : Bytes) :
    readWith item (textHeader n ++ rest) = readAfter item (.text (.known n)) rest :=
  readWith_lengthHeader (.inl rfl) (by decide) (by decide) (by decide) (by decide) hn rest

theorem readWith_binaryHeader {item : Option (Reader Snapshot)} {n : Nat} (hn : n < 2 ^ 32) (rest : Bytes) :
    readWith item (binaryHeader n ++ rest) = readAfter item (.binary (.known n)) rest :=
  readWith_lengthHeader (.inr (.inl rfl)) (by decide) (by decide) (by decide) (by decide) hn rest

theorem readWith_listHeader {item : Option (Reader Snapshot)} {n : Nat} (hn : n < 2 ^ 32) (rest : Bytes) :
    readWith item (listHeader n ++ rest) = readAfter item (.list (.known n)) rest :=
  readWith_lengthHeader (.inr (.inr (.inl rfl))) (by decide) (by decide) (by decide) (by decide) hn rest

theorem readWith_mapHeader {item : Option (Reader Snapshot)} {n : Nat} (hn : n < 2 ^ 32) (rest : Bytes) :
    readWith item (mapHeader n ++ rest) = readAfter item (.map (.known n)) rest :=
  readWith_lengthHeader (.inr (.inr (.inr rfl))) (by decide) (by decide) (by decide) (by decide) hn rest

/-! ## Integers -/

theorem readWith_natural {item : Option (Reader Snapshot)} {marker width n : Nat}
    (hmarker : Marker.ofOctet (.ofNat marker) = .natural width) (hn : n < 256 ^ width) (rest : Bytes) :
    readWith item (octet marker ++ Bytes.toBigEndian width n ++ rest) = .ok (integer n, rest) := by
  rw [List.append_assoc, readWith_octet, hmarker]
  simp only [readAfter, readNatural_toBigEndian hn]
  rfl

theorem signed_complement {bits : Nat} {n : Int} (hlow : -2 ^ bits ≤ n) (hneg : n < 0) :
    (n + 2 ^ (bits + 1)).toNat < 2 ^ (bits + 1) ∧ Bytes.signed (bits + 1) (n + 2 ^ (bits + 1)).toNat = n := by
  have hdouble : (2 : Int) ^ (bits + 1) = 2 * 2 ^ bits := by rw [Int.pow_succ, Int.mul_comm]
  have hcast : ∀ k : Nat, ((2 ^ k : Nat) : Int) = 2 ^ k := fun k => by norm_cast
  have hpos : (0 : Int) < 2 ^ bits := by
    rw [← hcast]
    exact_mod_cast Nat.two_pow_pos bits
  have hvalue : ((n + 2 ^ (bits + 1)).toNat : Int) = n + 2 ^ (bits + 1) := Int.toNat_of_nonneg (by omega)
  have hlt : (n + 2 ^ (bits + 1)).toNat < 2 ^ (bits + 1) := by
    have hbound := hcast (bits + 1)
    omega
  have hhigh : ¬ (n + 2 ^ (bits + 1)).toNat < 2 ^ bits := by
    have hbound := hcast bits
    omega
  refine ⟨hlt, ?_⟩
  rw [Bytes.signed, Nat.add_sub_cancel, if_neg hhigh, hvalue]
  omega

theorem readWith_signed {item : Option (Reader Snapshot)} {marker width bits : Nat} {n : Int} (hbits : 8 * width = bits + 1)
    (hmarker : Marker.ofOctet (.ofNat marker) = .signed width) (hlow : -2 ^ bits ≤ n) (hneg : n < 0)
    (rest : Bytes) : readWith item (octet marker ++ complement width n ++ rest) = .ok (integer n, rest) := by
  obtain ⟨hlt, hback⟩ := signed_complement hlow hneg
  have hfits : (n + 2 ^ (8 * width)).toNat < 256 ^ width := by
    rw [show (256 : Nat) = 2 ^ 8 from rfl, ← Nat.pow_mul, hbits]
    exact hlt
  rw [List.append_assoc, readWith_octet, hmarker, complement]
  simp only [readAfter, readNatural_toBigEndian hfits]
  rw [hbits]
  exact congrArg (fun m => Except.ok (integer m, rest)) hback

theorem readWith_small {item : Option (Reader Snapshot)} {m : Nat} {n : Int}
    (hmarker : Marker.ofOctet (.ofNat m) = .small n) (rest : Bytes) :
    readWith item (octet m ++ rest) = .ok (integer n, rest) := by
  rw [readWith_octet, hmarker]
  rfl

/-- **An integer is read back from its shortest form.** -/
theorem readWith_integerOctets {item : Option (Reader Snapshot)} {n : Int} (h : holdable n = true) (rest : Bytes) :
    readWith item (integerOctets n ++ rest) = .ok (integer n, rest) := by
  -- the markers that hold an integer themselves
  have hsmall : ∀ m < 128, Marker.ofOctet (.ofNat m) = .small m := by decide
  have hnegative : ∀ m < 32, Marker.ofOctet (.ofNat (224 + m)) = .small (m - 32) := by decide
  rw [holdable, Bool.and_eq_true, decide_eq_true_eq, decide_eq_true_eq] at h
  obtain ⟨hlow, hhigh⟩ := h
  unfold integerOctets
  split
  · rename_i hneg
    unfold negativeOctets
    split
    · obtain ⟨m, hm⟩ : ∃ m : Nat, n = m - 32 := ⟨(n + 32).toNat, by omega⟩
      have hoctet : (256 + n).toNat = 224 + m := by omega
      rw [hoctet, readWith_small (hnegative m (by omega)), hm]
    · split
      · exact readWith_signed (show 8 * 1 = 7 + 1 from rfl) (by decide) (by omega) hneg rest
      · split
        · exact readWith_signed (show 8 * 2 = 15 + 1 from rfl) (by decide) (by omega) hneg rest
        · split
          · exact readWith_signed (show 8 * 4 = 31 + 1 from rfl) (by decide) (by omega) hneg rest
          · exact readWith_signed (show 8 * 8 = 63 + 1 from rfl) (by decide) (by omega) hneg rest
  · rename_i hpos
    obtain ⟨m, rfl⟩ : ∃ m : Nat, n = m := ⟨n.toNat, by omega⟩
    rw [Int.toNat_natCast]
    unfold naturalOctets
    split
    · exact readWith_small (hsmall m (by omega)) rest
    · split
      · exact readWith_natural (by decide) (by omega) rest
      · split
        · exact readWith_natural (by decide) (by omega) rest
        · split
          · exact readWith_natural (by decide) (by omega) rest
          · exact readWith_natural (by decide) (by omega) rest

end TransitLink.Snapshot
