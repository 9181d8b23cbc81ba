import TransitLink.Json.Printer
import TransitLink.Proofs.Json.Parts
import TransitLink.Proofs.Json.Values
import TransitLink.Proofs.Number.Shortest

/-!
# Texts of numbers

* `decimal n` : the digits of a natural number. `scalarText_of_int` : an integer of 64 bits is read back from its digits.
* `RationalText t q` : the octets `t` write the exact number `q`, with a point or an exponent.
* `DoubleText t x` : they write a number that is rounded to the double `x`, after its sign.
* `doubleText_floatText` : so does the text of a double.
-/

namespace TransitLink.Json

set_option autoImplicit false

/-! ## Octets of texts -/

theorem ofText_append (s t : String) : Bytes.ofText (s ++ t) = Bytes.ofText s ++ Bytes.ofText t := by
  simp [Bytes.ofText]

theorem ofText_eq_flatMap (s : String) : Bytes.ofText s = s.toList.flatMap String.utf8EncodeChar := by
  rw [← Bytes.ofText_ofList, String.ofList_toList]

/-! ## Integers -/

def decimal (n : Nat) : Bytes := Bytes.ofText (toString n)

theorem decimal_of_lt {n : Nat} (h : n < 10) : decimal n = [UInt8.ofNat (0x30 + n)] := by
  revert n
  decide +kernel

theorem decimal_of_le {n : Nat} (h : 10 ≤ n) : decimal n = decimal (n / 10) ++ decimal (n % 10) := by
  have hdigits : ∀ n, decimal n = (Nat.toDigits 10 n).flatMap String.utf8EncodeChar := by
    intro n
    unfold decimal
    rw [ofText_eq_flatMap, Nat.toString_eq_repr, Nat.toList_repr]
  rw [hdigits, hdigits, hdigits, Nat.toDigits_of_base_le (by decide) h, Nat.toDigits_of_lt_base (Nat.mod_lt n (by decide)),
    List.flatMap_append]

theorem digits_decimal (n : Nat) : Digits (decimal n) := by
  induction n using Nat.strongRecOn with
  | ind n ih =>
    have hdigit : ∀ d < 10, Digits (decimal d) := by
      intro d hd
      rw [decimal_of_lt hd]
      refine ⟨by simp, ?_⟩
      revert d
      decide +kernel
    rcases Nat.lt_or_ge n 10 with hn | hn
    · exact hdigit n hn
    · rw [decimal_of_le hn]
      have hfront := ih (n / 10) (by omega)
      have hlast := hdigit (n % 10) (Nat.mod_lt n (by decide))
      refine ⟨by simp [hfront.1], fun d hd => ?_⟩
      exact (List.mem_append.mp hd).elim (hfront.2 d) (hlast.2 d)

/-- There is no needless zero in front. -/
theorem head?_decimal {n : Nat} (h : n ≠ 0) : (decimal n).head? ≠ some 0x30 := by
  induction n using Nat.strongRecOn with
  | ind n ih =>
    have hdigit : ∀ d < 10, d ≠ 0 → [UInt8.ofNat (0x30 + d)].head? ≠ some 0x30 := by decide
    rcases Nat.lt_or_ge n 10 with hn | hn
    · rw [decimal_of_lt hn]
      exact hdigit n hn h
    · rw [decimal_of_le hn, List.head?_append_of_ne_nil _ (digits_decimal _).1]
      exact ih (n / 10) (by omega) (by omega)

theorem digitsValue_decimal (n : Nat) : digitsValue (decimal n) = n := by
  unfold digitsValue
  induction n using Nat.strongRecOn with
  | ind n ih =>
    have hdigit : ∀ d < 10, ∀ start, (decimal d).foldl (fun n d => n * 10 + digitValue d) start = start * 10 + d := by
      intro d hd start
      rw [decimal_of_lt hd, List.foldl_cons, List.foldl_nil]
      have hvalue : digitValue (UInt8.ofNat (0x30 + d)) = d := by
        revert d
        decide
      rw [hvalue]
    rcases Nat.lt_or_ge n 10 with hn | hn
    · rw [hdigit n hn]
      omega
    · rw [decimal_of_le hn, List.foldl_append, ih (n / 10) (by omega), hdigit (n % 10) (Nat.mod_lt n (by decide))]
      omega

theorem le_foldl_digits (ds : Bytes) (n : Nat) : n ≤ ds.foldl (fun n d => n * 10 + digitValue d) n := by
  induction ds generalizing n with
  | nil => exact Nat.le_refl n
  | cons d ds ih => exact Nat.le_trans (by omega) (ih (n * 10 + digitValue d))

theorem absorb_of_fits {ds : Bytes} {n : Nat} (h : ds.foldl (fun n d => n * 10 + digitValue d) n ≤ significandMax) :
    absorb n ds = (ds.foldl (fun n d => n * 10 + digitValue d) n, ds.length) := by
  induction ds generalizing n with
  | nil => rfl
  | cons d ds ih =>
    rw [List.foldl_cons] at h
    have hnext := Nat.le_trans (le_foldl_digits ds _) h
    rw [absorb]
    simp only [Nat.not_lt.mpr hnext, if_false, ih h]
    rfl

theorem numeralText_decimal (negative : Bool) (n : Nat) : NumeralText (decimal n) ⟨negative, decimal n, none, none⟩ := by
  refine ⟨digits_decimal n, ?_, [], [], .absent, .absent, by simp⟩
  rintro ⟨hzero, hlong⟩
  by_cases hn : n = 0
  · subst hn
    rw [decimal_of_lt (by decide)] at hlong
    exact Nat.lt_irrefl 1 hlong
  · exact head?_decimal hn hzero

theorem ofText_negSucc (m : Nat) : Bytes.ofText (toString (Int.negSucc m)) = 0x2d :: decimal (m + 1) :=
  ofText_append "-" (toString (m + 1))

theorem scalarText_of_int {n : Int} (hlow : -2 ^ 63 ≤ n) (hhigh : n < 2 ^ 64) :
    ScalarText (Bytes.ofText (toString n)) (.int n) := by
  have hvalue : ∀ m : Nat, m < 2 ^ 64 → absorb 0 (decimal m) = (m, (decimal m).length) := by
    intro m hm
    have hfold : (decimal m).foldl (fun n d => n * 10 + digitValue d) 0 = m := digitsValue_decimal m
    rw [absorb_of_fits (by rw [hfold]; unfold significandMax; omega), hfold]
  cases n with
  | ofNat m =>
    have hm : m < 2 ^ 64 := Int.ofNat_lt.mp hhigh
    refine .positive (numeralText_decimal false m) rfl ?_
    unfold Numeral.value
    simp only [hvalue m hm]
    simp
  | negSucc m =>
    have hm : m + 1 ≤ 2 ^ 63 := by
      rw [Int.negSucc_eq] at hlow
      omega
    rw [ofText_negSucc]
    refine .negative (numeralText_decimal true (m + 1)) rfl ?_
    unfold Numeral.value
    have hfits : ¬(m + 1 = 0 ∨ 2 ^ 63 < m + 1) := by omega
    simp only [hvalue (m + 1) (by omega), Option.isSome_none, Nat.sub_self, ne_eq, not_true_eq_false, or_self,
      Bool.false_eq_true, if_false, if_true, hfits]
    rfl

/-! ## Numbers with a point or an exponent -/

/-- The power of ten behind the exponent mark. -/
def Numeral.power (n : Numeral) : Int :=
  match n.exponent with
  | none => 0
  | some (negative, ds) => if negative then -digitsValue ds else digitsValue ds

/-- The exact number that a numeral writes after its sign. -/
def Numeral.magnitude (n : Numeral) : ℚ :=
  digitsValue (n.whole ++ n.fraction.getD []) * 10 ^ (n.power - (n.fraction.getD []).length)

/-- The octets write the number, with a point or an exponent. -/
def RationalText (t : Bytes) (q : ℚ) : Prop :=
  ∃ n : Numeral, NumeralText t n ∧ (n.fraction.isSome ∨ n.exponent.isSome) ∧ n.magnitude = q

/-- The octets write, after the sign of the double, a number that is rounded to it. -/
def DoubleText (t : Bytes) (x : Double) : Prop :=
  ∃ u q, t = (if x.isNegative then [0x2d] else []) ++ u ∧ RationalText u q ∧ x.IsRounded q

theorem digitsValue_append (ds es : Bytes) :
    digitsValue (ds ++ es) = digitsValue ds * 10 ^ es.length + digitsValue es := by
  have hfold : ∀ (es : Bytes) (n : Nat),
      es.foldl (fun n d => n * 10 + digitValue d) n = n * 10 ^ es.length + digitsValue es := by
    intro es
    induction es with
    | nil => exact fun n => (Nat.mul_one n).symm
    | cons e es ih =>
      intro n
      unfold digitsValue at ih ⊢
      rw [List.foldl_cons, List.foldl_cons, ih, ih (0 * 10 + digitValue e), List.length_cons, Nat.pow_succ]
      ring
  rw [← hfold, digitsValue, List.foldl_append]
  rfl

theorem digitsValue_zeros (k : Nat) : digitsValue (List.replicate k 0x30) = 0 := by
  induction k with
  | zero => rfl
  | succ k ih =>
    have hzero : digitsValue [0x30] = 0 := by decide
    rw [List.replicate_succ, ← List.singleton_append, digitsValue_append, ih, hzero, Nat.zero_mul]

theorem Digits.append {ds es : Bytes} (hds : Digits ds) (hes : ∀ e ∈ es, isDigit e = true) : Digits (ds ++ es) := by
  refine ⟨List.append_ne_nil_of_left_ne_nil hds.1 es, fun d hd => ?_⟩
  exact (List.mem_append.mp hd).elim (hds.2 d) (hes d)

theorem isDigit_of_mem_zeros {k : Nat} {b : UInt8} (h : b ∈ List.replicate k 0x30) : isDigit b = true := by
  rw [List.eq_of_mem_replicate h]
  rfl

theorem digits_zero : Digits [0x30] := ⟨List.cons_ne_nil _ _, fun _ => isDigit_of_mem_zeros (k := 1)⟩

/-- A number with a point. -/
theorem rationalText_of_point {whole fraction : Bytes} (hwhole : Digits whole)
    (hzero : ¬(whole.head? = some 0x30 ∧ 1 < whole.length)) (hfraction : Digits fraction) :
    RationalText (whole ++ 0x2e :: fraction) (digitsValue (whole ++ fraction) * 10 ^ (-fraction.length : Int)) := by
  have htext : NumeralText (whole ++ (0x2e :: fraction ++ [])) ⟨false, whole, some fraction, none⟩ :=
    ⟨hwhole, hzero, _, _, .present hfraction, .absent, rfl⟩
  rw [List.append_nil] at htext
  refine ⟨_, htext, .inl rfl, ?_⟩
  simp only [Numeral.magnitude, Numeral.power, Option.getD_some, zero_sub]

/-! ## Digits of doubles -/

/-- The octet of a digit. -/
def octet (c : Char) : UInt8 := c.val.toUInt8

theorem ofText_ofList_digits {cs : List Char} (h : ∀ c ∈ cs, c.isDigit = true) :
    Bytes.ofText (String.ofList cs) = cs.map octet := by
  rw [Bytes.ofText_ofList]
  induction cs with
  | nil => rfl
  | cons c cs ih =>
    obtain ⟨hc, hcs⟩ := List.forall_mem_cons.mp h
    have hsmall : c.val.toNat ≤ 0x7f := by
      have hle := (Char.isDigit_iff_toNat.mp hc).2
      exact Nat.le_trans hle (by decide)
    rw [List.flatMap_cons, ih hcs, List.map_cons]
    unfold String.utf8EncodeChar
    simp only [hsmall, if_true]
    rfl

theorem isDigit_of_mem_digits {d : Nat} {c : Char} (h : c ∈ Nat.toDigits 10 d) : c.isDigit = true :=
  Nat.isDigit_of_mem_toDigits (by decide) (by decide) h

theorem decimal_eq_map (d : Nat) : decimal d = (Nat.toDigits 10 d).map octet := by
  rw [← ofText_ofList_digits fun c => isDigit_of_mem_digits]
  unfold decimal
  rw [Nat.toString_eq_repr, Nat.repr_eq_ofList_toDigits]

theorem isDigit_of_mem_zeroChars {k : Nat} {c : Char} (h : c ∈ List.replicate k '0') : c.isDigit = true := by
  rw [List.eq_of_mem_replicate h]
  rfl

/-- Digits with a point before the last `k`, and zeros in front if there are too few. -/
theorem rationalText_padded {d k : Nat} (hd : d ≠ 0) (hk : 0 < k) {bs : Bytes}
    (hbs : bs = List.replicate (k + 1 - (decimal d).length) 0x30 ++ decimal d) :
    RationalText (bs.take (bs.length - k) ++ 0x2e :: bs.drop (bs.length - k)) (d * 10 ^ (-k : Int)) := by
  have hlength : bs.length = k + 1 - (decimal d).length + (decimal d).length := by
    rw [hbs, List.length_append, List.length_replicate]
  have hdigit : ∀ b ∈ bs, isDigit b = true := by
    intro b hb
    rw [hbs] at hb
    exact (List.mem_append.mp hb).elim isDigit_of_mem_zeros ((digits_decimal d).2 b)
  have hwhole : Digits (bs.take (bs.length - k)) :=
    ⟨List.ne_nil_of_length_pos (by rw [List.length_take]; omega), fun b hb => hdigit b (List.mem_of_mem_take hb)⟩
  have hfraction : Digits (bs.drop (bs.length - k)) :=
    ⟨List.ne_nil_of_length_pos (by rw [List.length_drop]; omega), fun b hb => hdigit b (List.mem_of_mem_drop hb)⟩
  -- more than one digit before the point means that no zeros are put in front
  have hzero : ¬((bs.take (bs.length - k)).head? = some 0x30 ∧ 1 < (bs.take (bs.length - k)).length) := by
    rintro ⟨hhead, hlong⟩
    rw [List.length_take] at hlong
    have hnone : k + 1 - (decimal d).length = 0 := by omega
    rw [hnone, List.replicate_zero, List.nil_append] at hbs
    rw [List.head?_take, if_neg (by omega), hbs] at hhead
    exact head?_decimal hd hhead
  have hpoint := rationalText_of_point hwhole hzero hfraction
  have hback : bs.length - (bs.length - k) = k := by omega
  rw [List.take_append_drop, List.length_drop, hback, hbs, digitsValue_append, digitsValue_zeros, digitsValue_decimal,
    Nat.zero_mul, Nat.zero_add, ← hbs] at hpoint
  exact hpoint

/-- Digits with zeros behind them. -/
theorem rationalText_extended {d : Nat} (hd : d ≠ 0) (k : Nat) :
    RationalText (decimal d ++ List.replicate k 0x30 ++ 0x2e :: [0x30]) (d * 10 ^ (k : Int)) := by
  have hwhole : Digits (decimal d ++ List.replicate k 0x30) :=
    (digits_decimal d).append fun b => isDigit_of_mem_zeros
  have hzero : (decimal d ++ List.replicate k 0x30).head? ≠ some 0x30 := by
    rw [List.head?_append_of_ne_nil _ (digits_decimal d).1]
    exact head?_decimal hd
  have hvalue : digitsValue (decimal d ++ List.replicate k 0x30 ++ [0x30]) = d * 10 ^ k * 10 := by
    have hlast : digitsValue [0x30] = 0 := by decide
    rw [digitsValue_append, digitsValue_append, digitsValue_decimal, digitsValue_zeros, hlast, List.length_replicate]
    rfl
  have hpoint := rationalText_of_point hwhole (fun h => hzero h.1) digits_zero
  rw [hvalue] at hpoint
  simpa using hpoint

theorem positional_rationalText {d : Nat} (hd : d ≠ 0) (p : Int) :
    RationalText (Bytes.ofText (positional (Nat.toDigits 10 d) p)) (d * 10 ^ p) := by
  unfold positional
  split
  · rename_i hp
    obtain ⟨k, rfl⟩ := Int.eq_ofNat_of_zero_le hp
    have hdigits : ∀ c ∈ Nat.toDigits 10 d ++ List.replicate k '0', c.isDigit = true := fun c hc =>
      (List.mem_append.mp hc).elim isDigit_of_mem_digits isDigit_of_mem_zeroChars
    rw [Int.toNat_natCast, ofText_append, ofText_ofList_digits hdigits, List.map_append, ← decimal_eq_map,
      List.map_replicate]
    exact rationalText_extended hd k
  · rename_i hp
    obtain ⟨k, hk⟩ := Int.eq_ofNat_of_zero_le (Int.neg_nonneg_of_nonpos (not_le.mp hp).le)
    obtain rfl : p = -k := by omega
    simp only [Int.neg_neg, Int.toNat_natCast]
    have hpadded : ∀ cs, cs = List.replicate (k + 1 - (Nat.toDigits 10 d).length) '0' ++ Nat.toDigits 10 d →
        (∀ c ∈ cs, c.isDigit = true) ∧
          cs.map octet = List.replicate (k + 1 - (decimal d).length) 0x30 ++ decimal d := by
      rintro cs rfl
      refine ⟨fun c hc => (List.mem_append.mp hc).elim isDigit_of_mem_zeroChars isDigit_of_mem_digits, ?_⟩
      rw [List.map_append, List.map_replicate, decimal_eq_map, List.length_map]
      rfl
    generalize List.replicate (k + 1 - (Nat.toDigits 10 d).length) '0' ++ Nat.toDigits 10 d = cs at hpadded ⊢
    obtain ⟨hdigits, hbytes⟩ := hpadded cs rfl
    have htext := rationalText_padded hd (k := k) (by omega) hbytes
    rw [List.length_map] at htext
    rw [ofText_append, ofText_append, ofText_ofList_digits fun c hc => hdigits c (List.mem_of_mem_take hc),
      ofText_ofList_digits fun c hc => hdigits c (List.mem_of_mem_drop hc), List.map_take, List.map_drop, List.append_assoc]
    exact htext

/-- The sign and the digits behind the exponent mark. -/
theorem exponentText_of_int (e : Int) :
    ∃ ds, ExponentText (Bytes.ofText ((if e < 0 then "e-" else "e+") ++ toString e.natAbs)) (some ds) ∧
      ∀ whole fraction, Numeral.power ⟨false, whole, fraction, some ds⟩ = e := by
  have hdigits := digits_decimal e.natAbs
  have hvalue := digitsValue_decimal e.natAbs
  rw [ofText_append]
  split
  · rename_i he
    refine ⟨(true, decimal e.natAbs), .minus (.inl rfl) hdigits, fun whole fraction => ?_⟩
    simp only [Numeral.power, if_true, hvalue]
    omega
  · rename_i he
    refine ⟨(false, decimal e.natAbs), .plus (.inl rfl) hdigits, fun whole fraction => ?_⟩
    simp only [Numeral.power, Bool.false_eq_true, if_false, hvalue]
    omega

theorem ofText_ofList_point {cs ds : List Char} (hcs : ∀ c ∈ cs, c.isDigit = true)
    (hds : ∀ c ∈ ds, c.isDigit = true) : Bytes.ofText (String.ofList (cs ++ '.' :: ds)) =
      cs.map octet ++ 0x2e :: ds.map octet := by
  rw [← ofText_ofList_digits hcs, ← ofText_ofList_digits hds]
  simp only [Bytes.ofText_ofList, List.flatMap_append, List.flatMap_cons]
  rfl

theorem scientific_rationalText {d : Nat} (hd : d ≠ 0) {p e : Int} (he : e = p + (Nat.toDigits 10 d).length - 1) :
    RationalText (Bytes.ofText (scientific (Nat.toDigits 10 d) e)) (d * 10 ^ p) := by
  have hlength : (Nat.toDigits 10 d).length = (decimal d).length := by rw [decimal_eq_map, List.length_map]
  have hdigits := digits_decimal d
  have hpos : 0 < (decimal d).length := List.length_pos_iff.mpr hdigits.1
  obtain ⟨ds, hexponent, hpower⟩ := exponentText_of_int e
  unfold scientific
  simp only
  rw [String.append_assoc, ofText_append]
  generalize (if e < 0 then "e-" else "e+") ++ toString e.natAbs = mark at hexponent ⊢
  split
  · rename_i hone
    have htext : NumeralText (decimal d ++ ([] ++ Bytes.ofText mark)) ⟨false, decimal d, none, some ds⟩ :=
      ⟨hdigits, fun h => head?_decimal hd h.1, _, _, .absent, hexponent, rfl⟩
    have hp : e - ([] : Bytes).length = p := by
      rw [List.length_nil]
      omega
    rw [ofText_ofList_digits fun c => isDigit_of_mem_digits, ← decimal_eq_map]
    refine ⟨_, htext, .inr rfl, ?_⟩
    unfold Numeral.magnitude
    rw [hpower]
    simp only [Option.getD_none, List.append_nil, digitsValue_decimal, hp]
  · rename_i hmore
    have hwhole : Digits ((decimal d).take 1) :=
      ⟨List.ne_nil_of_length_pos (by rw [List.length_take]; omega), fun b hb => hdigits.2 b (List.mem_of_mem_take hb)⟩
    have hfraction : Digits ((decimal d).drop 1) :=
      ⟨List.ne_nil_of_length_pos (by rw [List.length_drop]; omega), fun b hb => hdigits.2 b (List.mem_of_mem_drop hb)⟩
    have hzero : ¬(((decimal d).take 1).head? = some 0x30 ∧ 1 < ((decimal d).take 1).length) := by
      rw [List.length_take]
      omega
    have htext : NumeralText ((decimal d).take 1 ++ (0x2e :: (decimal d).drop 1 ++ Bytes.ofText mark))
        ⟨false, (decimal d).take 1, some ((decimal d).drop 1), some ds⟩ :=
      ⟨hwhole, hzero, _, _, .present hfraction, hexponent, rfl⟩
    have hp : e - ((decimal d).drop 1).length = p := by
      rw [List.length_drop]
      omega
    rw [ofText_ofList_point (fun c hc => isDigit_of_mem_digits (List.mem_of_mem_take hc))
      fun c hc => isDigit_of_mem_digits (List.mem_of_mem_drop hc), List.map_take, List.map_drop, ← decimal_eq_map,
      List.append_assoc]
    refine ⟨_, htext, .inl rfl, ?_⟩
    unfold Numeral.magnitude
    rw [hpower]
    simp only [Option.getD_some, List.take_append_drop, digitsValue_decimal, hp]

/-- **The text of a double is rounded to the double.** -/
theorem doubleText_floatText (x : Double) : DoubleText (Bytes.ofText (floatText x)) x := by
  have hsign : Bytes.ofText (if x.isNegative then "-" else "") = if x.isNegative then [0x2d] else [] := by
    split <;> rfl
  unfold floatText
  simp only
  split
  · rename_i hzero
    rw [ofText_append, hsign]
    refine ⟨_, 0, rfl, ?_, Double.isRounded_zero hzero⟩
    have hpoint := rationalText_of_point digits_zero (by decide) digits_zero
    have hvalue : digitsValue ([0x30] ++ [0x30]) = 0 := by decide
    rw [hvalue, Nat.cast_zero, zero_mul] at hpoint
    exact hpoint
  · rename_i hsignificand
    obtain ⟨hd, hrounded⟩ := Double.isRounded_shortest hsignificand
    rw [ofText_append, hsign]
    refine ⟨_, _, rfl, ?_, hrounded⟩
    split
    · exact positional_rationalText hd _
    · exact scientific_rationalText hd rfl

end TransitLink.Json
