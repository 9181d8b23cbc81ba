import TransitLink.Proofs.Json.Tokens

/-!
# Numbers in JSON texts

* `Digits` : some decimal digits. `FractionText`, `ExponentText` : what may follow the digits of an integer.
* `NumeralText t n` : the octets `t` write the numeral `n` after its sign.
* `numeral_of_text`, `text_of_numeral` : numerals are read as far as they are written.
-/

namespace TransitLink.Json

set_option autoImplicit false

/-! ## Digits -/

def Digits (ds : Bytes) : Prop := ds ≠ [] ∧ ∀ d ∈ ds, isDigit d = true

def NoDigit (bs : Bytes) : Prop := ∀ b ∈ bs.head?, isDigit b = false

theorem Digits.exists_cons {ds : Bytes} (h : Digits ds) : ∃ d es, ds = d :: es ∧ isDigit d = true := by
  obtain ⟨hne, hall⟩ := h
  obtain ⟨d, es, rfl⟩ := List.exists_cons_of_ne_nil hne
  exact ⟨d, es, rfl, hall d List.mem_cons_self⟩

theorem someDigits_of_digits {ds rest : Bytes} (h : Digits ds) (hrest : NoDigit rest) :
    someDigits (ds ++ rest) = .ok (ds, rest) := by
  obtain ⟨hne, hall⟩ := h
  have hstop : rest.takeWhile isDigit = [] ∧ rest.dropWhile isDigit = rest := by
    cases rest with
    | nil => simp
    | cons b rest => simp [hrest b rfl]
  unfold someDigits
  rw [List.takeWhile_append_of_pos hall, List.dropWhile_append_of_pos hall, hstop.1, hstop.2, List.append_nil]
  simp [hne]

theorem digits_of_someDigits {bs ds rest : Bytes} (h : someDigits bs = .ok (ds, rest)) : Digits ds ∧ bs = ds ++ rest := by
  unfold someDigits at h
  simp only at h
  split at h
  · cases h
  · rename_i hne
    cases h
    refine ⟨⟨by simpa using hne, fun d hd => ?_⟩, List.takeWhile_append_dropWhile.symm⟩
    exact List.all_eq_true.mp List.all_takeWhile d hd

/-! ## Fractions and exponents -/

/-- What may follow the digits of an integer: nothing, or a point and digits. -/
inductive FractionText : Bytes → Option Bytes → Prop where
  | absent : FractionText [] none
  | present {ds : Bytes} : Digits ds → FractionText (0x2e :: ds) (some ds)

/-- What may follow that: nothing, or an exponent mark, a sign or none, and digits. -/
inductive ExponentText : Bytes → Option (Bool × Bytes) → Prop where
  | absent : ExponentText [] none
  | plain {e : UInt8} {ds : Bytes} : e = 0x65 ∨ e = 0x45 → Digits ds → ExponentText (e :: ds) (some (false, ds))
  | plus {e : UInt8} {ds : Bytes} : e = 0x65 ∨ e = 0x45 → Digits ds → ExponentText (e :: 0x2b :: ds) (some (false, ds))
  | minus {e : UInt8} {ds : Bytes} : e = 0x65 ∨ e = 0x45 → Digits ds → ExponentText (e :: 0x2d :: ds) (some (true, ds))

theorem Delimited.head {bs : Bytes} (h : Delimited bs) {b : UInt8} (hb : bs.head? = some b) :
    isDigit b = false ∧ b ≠ 0x2e ∧ b ≠ 0x65 ∧ b ≠ 0x45 := by
  cases bs with
  | nil => cases hb
  | cons c bs =>
    obtain rfl := Option.some.inj hb
    simp only [Delimited, isSpace, Bool.or_eq_true, beq_iff_eq] at h
    rcases h with ((((rfl | rfl) | rfl) | rfl) | rfl | rfl | rfl) <;> decide

theorem ExponentText.noDigit {t rest : Bytes} {e : Option (Bool × Bytes)} (h : ExponentText t e) (hrest : Delimited rest) :
    NoDigit (t ++ rest) ∧ ∀ b ∈ (t ++ rest).head?, b ≠ 0x2e := by
  cases h with
  | absent => exact ⟨fun b hb => (hrest.head hb).1, fun b hb => (hrest.head hb).2.1⟩
  | plain he | plus he | minus he =>
    simp only [NoDigit, List.cons_append, List.head?_cons, Option.mem_some_iff, forall_eq']
    rcases he with rfl | rfl <;> decide

theorem FractionText.noDigit {t rest : Bytes} {f : Option Bytes} (h : FractionText t f) (hrest : NoDigit rest) :
    NoDigit (t ++ rest) := by
  cases h with
  | absent => exact hrest
  | present =>
    simp only [NoDigit, List.cons_append, List.head?_cons, Option.mem_some_iff, forall_eq']
    decide

theorem fractionDigits_of_text {t rest : Bytes} {f : Option Bytes} (h : FractionText t f) (hdigit : NoDigit rest)
    (hpoint : ∀ b ∈ rest.head?, b ≠ 0x2e) : fractionDigits (t ++ rest) = .ok (f, rest) := by
  cases h with
  | absent =>
    rw [List.nil_append]
    unfold fractionDigits
    split
    · exact absurd rfl (hpoint _ rfl)
    · rfl
  | present hds =>
    rw [List.cons_append, fractionDigits, someDigits_of_digits hds hdigit]
    rfl

theorem text_of_fractionDigits {bs rest : Bytes} {f : Option Bytes} (h : fractionDigits bs = .ok (f, rest)) :
    ∃ t, bs = t ++ rest ∧ FractionText t f := by
  unfold fractionDigits at h
  split at h
  · obtain ⟨⟨ds, after⟩, hds, h⟩ := bind_eq_ok_iff.mp h
    cases h
    obtain ⟨hdigits, rfl⟩ := digits_of_someDigits hds
    exact ⟨0x2e :: ds, rfl, .present hdigits⟩
  · cases h
    exact ⟨[], rfl, .absent⟩

theorem Digits.exponentSign {ds : Bytes} (h : Digits ds) (rest : Bytes) :
    exponentSign (ds ++ rest) = (false, ds ++ rest) := by
  obtain ⟨d, es, rfl, hd⟩ := h.exists_cons
  rw [List.cons_append]
  unfold Json.exponentSign
  split
  · rename_i hplus
    cases hplus
    cases hd
  · rename_i hminus
    cases hminus
    cases hd
  · rfl

theorem exponentSign_cases (bs : Bytes) :
    (bs = 0x2b :: (exponentSign bs).2 ∧ (exponentSign bs).1 = false) ∨
      (bs = 0x2d :: (exponentSign bs).2 ∧ (exponentSign bs).1 = true) ∨
      (bs = (exponentSign bs).2 ∧ (exponentSign bs).1 = false) := by
  unfold exponentSign
  split
  · exact .inl ⟨rfl, rfl⟩
  · exact .inr (.inl ⟨rfl, rfl⟩)
  · exact .inr (.inr ⟨rfl, rfl⟩)

theorem exponentDigits_of_text {t rest : Bytes} {e : Option (Bool × Bytes)} (h : ExponentText t e) (hrest : Delimited rest) :
    exponentDigits (t ++ rest) = .ok (e, rest) := by
  have hdigit : NoDigit rest := fun b hb => (hrest.head hb).1
  cases h with
  | absent =>
    cases rest with
    | nil => rfl
    | cons b rest =>
      obtain ⟨-, -, he, hE⟩ := hrest.head (b := b) rfl
      rw [List.nil_append, exponentDigits, if_neg (by simp [he, hE])]
  | plain he hds =>
    rw [List.cons_append, exponentDigits, if_pos he, hds.exponentSign]
    simp only [someDigits_of_digits hds hdigit]
    rfl
  | plus he hds | minus he hds =>
    rw [List.cons_append, exponentDigits, if_pos he, List.cons_append, Json.exponentSign]
    simp only [someDigits_of_digits hds hdigit]
    rfl

theorem text_of_exponentDigits {bs rest : Bytes} {e : Option (Bool × Bytes)} (h : exponentDigits bs = .ok (e, rest)) :
    ∃ t, bs = t ++ rest ∧ ExponentText t e := by
  cases bs with
  | nil =>
    cases h
    exact ⟨[], rfl, .absent⟩
  | cons b bs =>
    rw [exponentDigits] at h
    split at h
    · rename_i hb
      simp only at h
      obtain ⟨⟨ds, after⟩, hds, h⟩ := bind_eq_ok_iff.mp h
      cases h
      obtain ⟨hdigits, hbs⟩ := digits_of_someDigits hds
      rcases exponentSign_cases bs with ⟨hsign, hneg⟩ | ⟨hsign, hneg⟩ | ⟨hsign, hneg⟩
      · refine ⟨b :: 0x2b :: ds, ?_, hneg ▸ .plus hb hdigits⟩
        rw [hsign, hbs, List.cons_append, List.cons_append]
      · refine ⟨b :: 0x2d :: ds, ?_, hneg ▸ .minus hb hdigits⟩
        rw [hsign, hbs, List.cons_append, List.cons_append]
      · refine ⟨b :: ds, ?_, hneg ▸ .plain hb hdigits⟩
        rw [hsign, hbs, List.cons_append]
    · cases h
      exact ⟨[], rfl, .absent⟩

/-! ## Numerals -/

/-- The octets write the numeral after its sign: its digits, without a needless zero, its fraction and its exponent. -/
def NumeralText (t : Bytes) (n : Numeral) : Prop :=
  Digits n.whole ∧ ¬ (n.whole.head? = some 0x30 ∧ 1 < n.whole.length) ∧
    ∃ f e, FractionText f n.fraction ∧ ExponentText e n.exponent ∧ t = n.whole ++ (f ++ e)

theorem numeral_of_text {t rest : Bytes} {n : Numeral} (h : NumeralText t n) (hrest : Delimited rest) :
    numeral n.negative (t ++ rest) = .ok (n, rest) := by
  obtain ⟨negative, whole, fraction, exponent⟩ := n
  obtain ⟨hwhole, hzero, f, e, hf, he, rfl⟩ := h
  have hnodigit := he.noDigit hrest
  have hdigits : wholeDigits (whole ++ (f ++ (e ++ rest))) = .ok (whole, f ++ (e ++ rest)) := by
    unfold wholeDigits
    rw [someDigits_of_digits hwhole (hf.noDigit hnodigit.1)]
    exact if_neg hzero
  simp only [List.append_assoc]
  unfold numeral
  rw [hdigits]
  simp only [bind, Except.bind, fractionDigits_of_text hf hnodigit.1 hnodigit.2, exponentDigits_of_text he hrest]

theorem text_of_numeral {negative : Bool} {bs rest : Bytes} {n : Numeral} (h : numeral negative bs = .ok (n, rest)) :
    n.negative = negative ∧ ∃ t, bs = t ++ rest ∧ NumeralText t n := by
  unfold numeral at h
  obtain ⟨⟨whole, bs'⟩, hwhole, h⟩ := bind_eq_ok_iff.mp h
  obtain ⟨⟨fraction, bs''⟩, hfraction, h⟩ := bind_eq_ok_iff.mp h
  obtain ⟨⟨exponent, after⟩, hexponent, h⟩ := bind_eq_ok_iff.mp h
  cases h
  unfold wholeDigits at hwhole
  obtain ⟨⟨ds, after⟩, hds, hwhole⟩ := bind_eq_ok_iff.mp hwhole
  simp only at hwhole
  split at hwhole
  · cases hwhole
  · rename_i hzero
    cases hwhole
    obtain ⟨hdigits, rfl⟩ := digits_of_someDigits hds
    obtain ⟨f, rfl, hf⟩ := text_of_fractionDigits hfraction
    obtain ⟨e, rfl, he⟩ := text_of_exponentDigits hexponent
    exact ⟨rfl, _, by simp only [List.append_assoc], hdigits, hzero, f, e, hf, he, rfl⟩

end TransitLink.Json
