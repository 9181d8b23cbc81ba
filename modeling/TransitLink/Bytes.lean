/-!
# Byte strings

* `Bytes` : the octets that travel on the wire or lie in a file.
* `ofBigEndian`, `toBigEndian` : fixed-width numbers, most significant octet first; `ofBigEndian_toBigEndian` and
  `toBigEndian_ofBigEndian` say that the two are inverse to each other.
* `split?` : the first so many octets and the others, if there are so many; `split?_eq` says it by `take` and `drop`.
* `ofText`, `text?` : the UTF-8 form of a text, and the text of a well-formed UTF-8 string; `text?_ofText` and
  `ofText_of_text?` say that the two are inverse to each other; `ofText_ofList` gives it character by character.
* `forall_octet` : a property of all octets, by looking at each.
-/

namespace TransitLink

set_option autoImplicit false

-- powers of numbers are the core library's, whatever else is imported
attribute [instance (1100), default_instance 20000] instPowNat

abbrev Bytes := List UInt8

namespace Bytes

/-- What holds of the 256 octets, looked at one by one, holds of every octet. -/
theorem forall_octet {p : UInt8 → Prop} (h : ∀ n < 256, p (.ofNat n)) (b : UInt8) : p b := by
  have hb := h b.toNat b.toNat_lt
  rwa [UInt8.ofNat_toNat] at hb

/-! ## Fixed-width numbers -/

def ofBigEndian (bs : Bytes) : Nat := bs.foldl (fun n b => 256 * n + b.toNat) 0

/-- The last `width` octets of `n`, most significant first. -/
def toBigEndian : (width : Nat) → (n : Nat) → Bytes
  | 0, _ => []
  | width + 1, n => toBigEndian width (n / 256) ++ [UInt8.ofNat (n % 256)]

@[simp] theorem length_toBigEndian (width n : Nat) : (toBigEndian width n).length = width := by
  induction width generalizing n with
  | zero => rfl
  | succ w ih => simp [toBigEndian, ih]

theorem ofBigEndian_toBigEndian (width n : Nat) : ofBigEndian (toBigEndian width n) = n % 256 ^ width := by
  induction width generalizing n with
  | zero => simp [toBigEndian, ofBigEndian, Nat.mod_one]
  | succ w ih =>
    have h := ih (n / 256)
    simp only [ofBigEndian] at h
    simp only [toBigEndian, ofBigEndian, List.foldl_append, h, List.foldl_cons, List.foldl_nil]
    have : (UInt8.ofNat (n % 256)).toNat = n % 256 := by
      simp
    rw [this, Nat.pow_succ, Nat.mul_comm (256 ^ w), Nat.mod_mul, Nat.add_comm]

theorem ofBigEndian_concat (bs : Bytes) (b : UInt8) : ofBigEndian (bs ++ [b]) = 256 * ofBigEndian bs + b.toNat := by
  simp only [ofBigEndian, List.foldl_append, List.foldl_cons, List.foldl_nil]

theorem toBigEndian_ofBigEndian {width : Nat} {bs : Bytes} (h : bs.length = width) :
    toBigEndian width (ofBigEndian bs) = bs := by
  induction width generalizing bs with
  | zero =>
    rw [List.eq_nil_of_length_eq_zero h]
    rfl
  | succ w ih =>
    -- the last octet is the remainder by 256, the others write the quotient
    obtain ⟨front, last, rfl⟩ : ∃ front last, bs = front ++ [last] := by
      have hne : bs ≠ [] := by
        rintro rfl
        cases h
      exact ⟨bs.dropLast, bs.getLast hne, (List.dropLast_concat_getLast hne).symm⟩
    have hfront : front.length = w := by
      rw [List.length_append, List.length_singleton] at h
      omega
    have hlast := last.toNat_lt
    have hquotient : (256 * ofBigEndian front + last.toNat) / 256 = ofBigEndian front := by omega
    have hremainder : (256 * ofBigEndian front + last.toNat) % 256 = last.toNat := by omega
    rw [ofBigEndian_concat, toBigEndian, hquotient, hremainder, ih hfront, UInt8.ofNat_toNat]

theorem ofBigEndian_lt (bs : Bytes) : ofBigEndian bs < 256 ^ bs.length := by
  have hback := ofBigEndian_toBigEndian bs.length (ofBigEndian bs)
  rw [toBigEndian_ofBigEndian rfl] at hback
  rw [hback]
  exact Nat.mod_lt _ (Nat.pow_pos (by decide))

/-- The two's complement reading of an unsigned number of `bits` bits. -/
def signed (bits n : Nat) : Int := if n < 2 ^ (bits - 1) then n else (n : Int) - 2 ^ bits

/-! ## Cutting -/

/-- Moves so many octets from the front to `done`, which holds those before, last first. -/
def splitFrom (done : Bytes) : (n : Nat) → Bytes → Option (Bytes × Bytes)
  | 0, bs => some (done.reverse, bs)
  | _ + 1, [] => none
  | n + 1, b :: bs => splitFrom (b :: done) n bs

def split? (bs : Bytes) (n : Nat) : Option (Bytes × Bytes) := splitFrom [] n bs

theorem splitFrom_eq (done : Bytes) (n : Nat) (bs : Bytes) :
    splitFrom done n bs = if n ≤ bs.length then some (done.reverse ++ bs.take n, bs.drop n) else none := by
  induction n generalizing done bs with
  | zero => simp [splitFrom]
  | succ n ih => cases bs with
    | nil => simp [splitFrom]
    | cons b bs => simp [splitFrom, ih]

theorem split?_eq (bs : Bytes) (n : Nat) :
    bs.split? n = if n ≤ bs.length then some (bs.take n, bs.drop n) else none := by
  simp [split?, splitFrom_eq]

/-! ## Text -/

def ofText (s : String) : Bytes := s.toByteArray.data.toList

def text? (bs : Bytes) : Option String := String.fromUTF8? ⟨bs.toArray⟩

@[simp] theorem text?_ofText (s : String) : text? (ofText s) = some s := by
  have h : (⟨(ofText s).toArray⟩ : ByteArray) = s.toByteArray := by
    rw [ofText, Array.toArray_toList]
  rw [text?, h, String.fromUTF8?, dif_pos s.isValidUTF8]
  rfl

theorem ofText_inj {s t : String} : ofText s = ofText t ↔ s = t := by
  constructor
  · intro h
    have hs := text?_ofText s
    rw [h, text?_ofText, Option.some.injEq] at hs
    exact hs.symm
  · rintro rfl
    rfl

/-- The octets of a text are those of its characters. -/
theorem ofText_ofList (cs : List Char) : ofText (String.ofList cs) = cs.flatMap String.utf8EncodeChar := by
  simp [ofText, List.utf8Encode]

theorem ofText_of_text? {bs : Bytes} {s : String} (h : text? bs = some s) : ofText s = bs := by
  simp only [text?, String.fromUTF8?] at h
  split at h
  · cases h
    simp [ofText, String.fromUTF8]
  · simp at h

end Bytes
end TransitLink
