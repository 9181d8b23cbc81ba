import TransitLink.Bytes

/-!
# Reading ill-formed UTF-8

* `lossy` : the characters of an octet string in which every maximal ill-formed part counts as one U+FFFD.

An ill-formed part is the longest prefix of a character's form that stops before an octet that cannot continue it, or a
single octet that cannot begin a character.
-/

namespace TransitLink.Text

set_option autoImplicit false

/-- A character that has begun: the octets still to come, the bounds of the next one, and the bits seen. -/
structure Unfinished where
  missing : Nat
  low : Nat
  high : Nat
  bits : Nat

def replacement : Char := Char.ofNat 0xfffd

/-- What one octet begins: a whole character, an unfinished one, or nothing. -/
def begin? (b : Nat) : Option (Char ⊕ Unfinished) :=
  if b < 0x80 then some (.inl (Char.ofNat b))
  else if 0xc2 ≤ b ∧ b ≤ 0xdf then some (.inr ⟨1, 0x80, 0xbf, b % 32⟩)
  else if b = 0xe0 then some (.inr ⟨2, 0xa0, 0xbf, 0⟩)
  else if b = 0xed then some (.inr ⟨2, 0x80, 0x9f, 13⟩)
  else if 0xe1 ≤ b ∧ b ≤ 0xef then some (.inr ⟨2, 0x80, 0xbf, b % 16⟩)
  else if b = 0xf0 then some (.inr ⟨3, 0x90, 0xbf, 0⟩)
  else if 0xf1 ≤ b ∧ b ≤ 0xf3 then some (.inr ⟨3, 0x80, 0xbf, b % 8⟩)
  else if b = 0xf4 then some (.inr ⟨3, 0x80, 0x8f, 4⟩)
  else none

/-- The characters of `bs` after the unfinished one, if any; `done` holds those before it, last first. -/
def lossyFrom (done : List Char) : Option Unfinished → Bytes → List Char
  | none, [] => done.reverse
  | some _, [] => (replacement :: done).reverse
  | state, b :: bs =>
    let fresh (done : List Char) : List Char :=
      match begin? b.toNat with
      | some (.inl c) => lossyFrom (c :: done) none bs
      | some (.inr u) => lossyFrom done (some u) bs
      | none => lossyFrom (replacement :: done) none bs
    match state with
    | none => fresh done
    | some u =>
      if u.low ≤ b.toNat ∧ b.toNat ≤ u.high then
        let bits := u.bits * 64 + b.toNat % 64
        if u.missing ≤ 1 then lossyFrom (Char.ofNat bits :: done) none bs
        else lossyFrom done (some ⟨u.missing - 1, 0x80, 0xbf, bits⟩) bs
      else fresh (replacement :: done)

/-- The characters of an octet string, one U+FFFD for each ill-formed part. -/
def lossy (bs : Bytes) : List Char := lossyFrom [] none bs

end TransitLink.Text
