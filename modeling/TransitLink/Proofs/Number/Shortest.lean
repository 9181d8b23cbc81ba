import Mathlib.Algebra.Order.Field.Power
import Mathlib.Tactic.Linarith
import Mathlib.Tactic.LinearCombination
import Mathlib.Tactic.Positivity
import Mathlib.Tactic.Ring
import TransitLink.Number.Shortest

/-!
# Shortest digits are rounded to their double

* `magnitude x` : the exact number that a finite double stands for, without its sign.
* `IsRounded q x` : no other double is as near to `q` as `x` is, but where `q` is half way and `x` is the even one.
* `magnitude_apart` : how far the other doubles are. `Between x q` : the number is within half of that.
* `isRounded_shortest` : so are the digits that the search ends with.
-/

namespace TransitLink.Double

set_option autoImplicit false

/-! ## Exact values -/

/-- The number that a finite double stands for, without its sign. -/
def magnitude (x : Double) : ℚ := x.significand * 2 ^ x.exponent

/-- Every other finite double is farther from the number, or just as far from it and the significand of this one is even. -/
def IsRounded (q : ℚ) (x : Double) : Prop :=
  ∀ y : Double, y.isFinite → y.magnitude = x.magnitude ∨ |q - x.magnitude| < |q - y.magnitude| ∨
    (|q - x.magnitude| = |q - y.magnitude| ∧ x.significand % 2 = 0)

theorem significand_lt (x : Double) : x.significand < 2 ^ 53 := by
  have hfraction : x.fraction < 2 ^ 52 := Nat.mod_lt _ (by decide)
  unfold significand
  split <;> omega

theorem exponent_ge (x : Double) : -1074 ≤ x.exponent := by
  unfold exponent
  split <;> omega

theorem significand_of_large {x : Double} (h : -1074 < x.exponent) :
    x.significand = 2 ^ 52 + x.fraction ∧ 1 < x.field := by
  unfold exponent at h
  split at h
  · omega
  · rename_i hfield
    exact ⟨if_neg hfield, by omega⟩

theorem isRounded_zero {x : Double} (h : x.significand = 0) : IsRounded 0 x := by
  have hzero : x.magnitude = 0 := by
    rw [magnitude, h, Nat.cast_zero, zero_mul]
  intro y _
  rw [hzero]
  by_cases hy : y.magnitude = 0
  · exact .inl hy
  · rw [zero_sub, zero_sub, abs_neg, abs_neg, abs_zero]
    exact .inr (.inl (abs_pos.mpr hy))

/-! ## Doubles are apart -/

/-- The distance to the next double below, in halves of the last place. -/
def stepBelow (x : Double) : Nat := if x.fraction = 0 ∧ 1 < x.field then 1 else 2

theorem stepBelow_le (x : Double) : x.stepBelow ≤ 2 := by
  unfold stepBelow
  split <;> omega

theorem one_le_stepBelow (x : Double) : 1 ≤ x.stepBelow := by
  unfold stepBelow
  split <;> omega

theorem two_zpow_pos (e : Int) : (0 : ℚ) < 2 ^ e := zpow_pos (by norm_num) e

/-- A double of a smaller exponent ends below this one. -/
theorem significand_add_stepBelow_le {x y : Double} (h : y.exponent < x.exponent) (k : Nat) :
    y.significand + x.stepBelow * 2 ^ k ≤ x.significand * 2 ^ (k + 1) := by
  obtain ⟨hsignificand, hfield⟩ := significand_of_large (Int.lt_of_le_of_lt y.exponent_ge h)
  have hy := y.significand_lt
  have hk : 0 < 2 ^ k := Nat.two_pow_pos k
  have hpow : 2 ^ (k + 1) = 2 ^ k * 2 := Nat.pow_succ 2 k
  rw [hsignificand, hpow]
  generalize 2 ^ k = K at hk ⊢
  unfold stepBelow
  split
  · rename_i hzero
    rw [hzero.1]
    omega
  · rename_i hzero
    have hfraction : 1 ≤ x.fraction := Nat.one_le_iff_ne_zero.mpr fun h => hzero ⟨h, hfield⟩
    have hmul := Nat.mul_le_mul_right (K * 2) (Nat.add_le_add_left hfraction (2 ^ 52))
    omega

theorem magnitude_apart (x y : Double) : y.magnitude = x.magnitude ∨ x.magnitude + 2 ^ x.exponent ≤ y.magnitude ∨
    y.magnitude + x.stepBelow * 2 ^ (x.exponent - 1) ≤ x.magnitude := by
  have hunit : (2 : ℚ) ^ (x.exponent - 1) = 2 ^ x.exponent / 2 := zpow_sub_one₀ (by norm_num) _
  have hpos := two_zpow_pos x.exponent
  rcases lt_or_ge y.exponent x.exponent with h | h
  · obtain ⟨k, hk⟩ : ∃ k : Nat, x.exponent = y.exponent + (k + 1 : Nat) :=
      ⟨(x.exponent - y.exponent - 1).toNat, by omega⟩
    have hle : (y.significand + x.stepBelow * 2 ^ k : ℚ) ≤ x.significand * 2 ^ (k + 1) := by
      exact_mod_cast significand_add_stepBelow_le h k
    right
    right
    rw [hunit]
    unfold magnitude
    rw [hk, zpow_add₀ (by norm_num), zpow_natCast]
    have hmul := mul_le_mul_of_nonneg_right hle (two_zpow_pos y.exponent).le
    rw [pow_succ] at hmul ⊢
    linarith
  · obtain ⟨k, hk⟩ : ∃ k : Nat, y.exponent = x.exponent + (k : Nat) := ⟨(y.exponent - x.exponent).toNat, by omega⟩
    have hy : y.magnitude = (y.significand * 2 ^ k : Nat) * 2 ^ x.exponent := by
      unfold magnitude
      rw [hk, zpow_add₀ (by norm_num), zpow_natCast]
      push_cast
      ring
    rw [hy, hunit]
    unfold magnitude
    generalize y.significand * 2 ^ k = n
    have hstep : (x.stepBelow : ℚ) ≤ 2 := by exact_mod_cast x.stepBelow_le
    rcases Nat.lt_trichotomy n x.significand with hlt | rfl | hgt
    · have hle : (n : ℚ) + 1 ≤ x.significand := by exact_mod_cast hlt
      right
      right
      nlinarith
    · exact .inl rfl
    · have hle : (x.significand : ℚ) + 1 ≤ n := by exact_mod_cast hgt
      right
      left
      nlinarith

/-! ## Numbers that are rounded to a double -/

/-- The number is at most half way to the doubles beside this one, and nearer where the significand is odd. -/
def Between (x : Double) (q : ℚ) : Prop :=
  let low := x.magnitude - x.stepBelow * 2 ^ (x.exponent - 2)
  let high := x.magnitude + 2 * 2 ^ (x.exponent - 2)
  (low < q ∧ q < high) ∨ (x.significand % 2 = 0 ∧ low ≤ q ∧ q ≤ high)

/-- Which of two numbers is nearer depends on the side of their middle. -/
theorem abs_sub_lt_abs_sub {m n q : ℚ} (h : 0 < (n - m) * (m + n - 2 * q)) : |q - m| < |q - n| :=
  sq_lt_sq.mp (by linear_combination h)

theorem abs_sub_le_abs_sub {m n q : ℚ} (h : 0 ≤ (n - m) * (m + n - 2 * q)) : |q - m| ≤ |q - n| :=
  sq_le_sq.mp (by linear_combination h)

theorem Between.isRounded {x : Double} {q : ℚ} (h : Between x q) : IsRounded q x := by
  have hunit : (2 : ℚ) ^ x.exponent = 4 * 2 ^ (x.exponent - 2) := by
    rw [zpow_sub₀ (by norm_num)]
    ring
  have hhalf : (2 : ℚ) ^ (x.exponent - 1) = 2 * 2 ^ (x.exponent - 2) := by
    rw [zpow_sub₀ (by norm_num), zpow_sub₀ (by norm_num)]
    ring
  have hpos := two_zpow_pos (x.exponent - 2)
  have hstep : (1 : ℚ) ≤ x.stepBelow := by exact_mod_cast x.one_le_stepBelow
  intro y _
  have hapart := magnitude_apart x y
  rw [hunit, hhalf] at hapart
  have hmul := mul_le_mul_of_nonneg_right hstep hpos.le
  rcases hapart with hsame | habove | hbelow
  · exact .inl hsame
  · right
    rcases h with ⟨-, hhigh⟩ | ⟨heven, -, hhigh⟩
    · exact .inl (abs_sub_lt_abs_sub (mul_pos (by linarith) (by linarith)))
    · exact (abs_sub_le_abs_sub (mul_nonneg (by linarith) (by linarith))).lt_or_eq.imp_right fun heq => ⟨heq, heven⟩
  · right
    rcases h with ⟨hlow, -⟩ | ⟨heven, hlow, -⟩
    · exact .inl (abs_sub_lt_abs_sub (mul_pos_of_neg_of_neg (by linarith) (by linarith)))
    · exact (abs_sub_le_abs_sub (mul_nonneg_of_nonpos_of_nonpos (by linarith) (by linarith))).lt_or_eq.imp_right
        fun heq => ⟨heq, heven⟩

/-! ## The interval in whole numbers -/

/-- A power of a negative exponent is a quotient of whole powers. -/
theorem zpow_eq_div (b : Nat) (e : Int) (hb : b ≠ 0) :
    ((b ^ e.toNat : Nat) : ℚ) / (b ^ (-e).toNat : Nat) = (b : ℚ) ^ e := by
  have hb : (b : ℚ) ≠ 0 := Nat.cast_ne_zero.mpr hb
  rcases le_total 0 e with h | h
  · obtain ⟨n, rfl⟩ := Int.eq_ofNat_of_zero_le h
    simp
  · obtain ⟨n, hn⟩ := Int.eq_ofNat_of_zero_le (Int.neg_nonneg_of_nonpos h)
    obtain rfl : e = -n := by omega
    simp

/-- The unit of the interval, a quarter of the last place. -/
theorem interval_unit (x : Double) :
    (2 : ℚ) ^ (x.exponent - 2) = (2 ^ (x.exponent - 2).toNat : Nat) / x.interval.den :=
  (zpow_eq_div 2 (x.exponent - 2) (by decide)).symm

theorem interval_den_pos (x : Double) : 0 < x.interval.den := Nat.two_pow_pos _

theorem magnitude_eq (x : Double) : x.magnitude = 4 * x.significand * 2 ^ (x.exponent - 2) := by
  unfold magnitude
  rw [zpow_sub₀ (by norm_num)]
  ring

theorem interval_value (x : Double) : (x.interval.value : ℚ) / x.interval.den = x.magnitude := by
  rw [magnitude_eq, interval_unit]
  unfold interval
  push_cast
  ring

theorem interval_low {x : Double} (h : x.significand ≠ 0) :
    (x.interval.low : ℚ) / x.interval.den = x.magnitude - x.stepBelow * 2 ^ (x.exponent - 2) := by
  have hle : x.stepBelow ≤ 4 * x.significand := by
    have hstep := x.stepBelow_le
    omega
  have hlow : x.interval.low = (4 * x.significand - x.stepBelow) * 2 ^ (x.exponent - 2).toNat := rfl
  rw [← interval_value, interval_unit, hlow, Nat.cast_mul, Nat.cast_sub hle]
  unfold interval
  push_cast
  ring

theorem interval_high (x : Double) :
    (x.interval.high : ℚ) / x.interval.den = x.magnitude + 2 * 2 ^ (x.exponent - 2) := by
  rw [← interval_value, interval_unit]
  unfold interval
  push_cast
  ring

theorem holds_iff {x : Double} (h : x.significand ≠ 0) {num den : Nat} (hden : 0 < den) :
    x.interval.holds num den ↔ Between x (num / den) := by
  have hden : (0 : ℚ) < den := Nat.cast_pos.mpr hden
  have hunit : (0 : ℚ) < x.interval.den := Nat.cast_pos.mpr x.interval_den_pos
  have hclosed : x.interval.closed = (x.significand % 2 == 0) := rfl
  unfold Between
  simp only
  rw [← interval_low h, ← interval_high, div_lt_div_iff₀ hunit hden, div_lt_div_iff₀ hden hunit,
    div_le_div_iff₀ hunit hden, div_le_div_iff₀ hden hunit]
  norm_cast
  unfold Interval.holds
  rw [hclosed]
  by_cases heven : x.significand % 2 = 0
  · simp [heven]
    omega
  · simp [heven]

/-! ## Searching -/

theorem grid_value (d : Nat) (p : Int) : ((d * 10 ^ p.toNat : Nat) : ℚ) / (10 ^ (-p).toNat : Nat) = d * 10 ^ p := by
  have hpower : (10 : ℚ) ^ p = (10 ^ p.toNat : Nat) / (10 ^ (-p).toNat : Nat) := (zpow_eq_div 10 p (by decide)).symm
  rw [hpower, Nat.cast_mul, mul_div_assoc]

theorem holds_grid_iff {x : Double} (h : x.significand ≠ 0) (d : Nat) (p : Int) :
    x.interval.holds (d * 10 ^ p.toNat) (10 ^ (-p).toNat) ↔ Between x (d * 10 ^ p) := by
  rw [holds_iff h (Nat.pow_pos (by decide)), grid_value]

theorem between_of_onGrid {x : Double} (h : x.significand ≠ 0) {p : Int} {d : Nat} (hd : x.interval.onGrid? p = some d) :
    Between x (d * 10 ^ p) := by
  rw [← holds_grid_iff h]
  unfold Interval.onGrid? at hd
  simp only at hd
  split at hd
  · rename_i hboth
    obtain ⟨hbelow, habove⟩ := Bool.and_eq_true_iff.mp hboth
    split at hd
    · cases hd
      exact hbelow
    split at hd
    · cases hd
      exact habove
    · cases hd
      rcases Nat.mod_two_eq_zero_or_one
        (x.interval.value * 10 ^ (-p).toNat / (x.interval.den * 10 ^ p.toNat)) with hmod | hmod
      · rwa [hmod, Nat.add_zero]
      · rwa [hmod]
  · split at hd
    · rename_i hbelow
      cases hd
      exact hbelow
    split at hd
    · rename_i habove
      cases hd
      exact habove
    · cases hd

/-- The multiple of the grid's unit below the double. -/
def floorOn (x : Double) (p : Int) : Nat := x.interval.value * 10 ^ (-p).toNat / (x.interval.den * 10 ^ p.toNat)

theorem floorOn_le (x : Double) (p : Int) : (x.floorOn p : ℚ) * 10 ^ p ≤ x.magnitude := by
  have hdown : (0 : ℚ) < (10 ^ (-p).toNat : Nat) := Nat.cast_pos.mpr (Nat.pow_pos (by decide))
  have hden : (0 : ℚ) < x.interval.den := Nat.cast_pos.mpr x.interval_den_pos
  have hle := Nat.div_mul_le_self (x.interval.value * 10 ^ (-p).toNat) (x.interval.den * 10 ^ p.toNat)
  rw [← grid_value, ← interval_value, div_le_div_iff₀ hdown hden, ← Nat.cast_mul, ← Nat.cast_mul, Nat.cast_le]
  calc
    x.floorOn p * 10 ^ p.toNat * x.interval.den = x.floorOn p * (x.interval.den * 10 ^ p.toNat) := by ring
    _ ≤ x.interval.value * 10 ^ (-p).toNat := hle

theorem lt_floorOn (x : Double) (p : Int) : x.magnitude < ((x.floorOn p + 1 : Nat) : ℚ) * 10 ^ p := by
  have hdown : (0 : ℚ) < (10 ^ (-p).toNat : Nat) := Nat.cast_pos.mpr (Nat.pow_pos (by decide))
  have hden : (0 : ℚ) < x.interval.den := Nat.cast_pos.mpr x.interval_den_pos
  have hunit : 0 < x.interval.den * 10 ^ p.toNat := Nat.mul_pos x.interval_den_pos (Nat.pow_pos (by decide))
  have hlt := Nat.lt_mul_div_succ (x.interval.value * 10 ^ (-p).toNat) hunit
  rw [← grid_value, ← interval_value, div_lt_div_iff₀ hden hdown, ← Nat.cast_mul, ← Nat.cast_mul, Nat.cast_lt]
  calc
    x.interval.value * 10 ^ (-p).toNat < x.interval.den * 10 ^ p.toNat * (x.floorOn p + 1) := hlt
    _ = (x.floorOn p + 1) * 10 ^ p.toNat * x.interval.den := by ring

/-- A grid is passed over only if neither multiple beside the double is in the interval. -/
theorem not_between_of_onGrid {x : Double} (h : x.significand ≠ 0) {p : Int} (hnone : x.interval.onGrid? p = none) :
    ¬Between x (x.floorOn p * 10 ^ p) ∧ ¬Between x ((x.floorOn p + 1 : Nat) * 10 ^ p) := by
  rw [← holds_grid_iff h, ← holds_grid_iff h]
  unfold Interval.onGrid? at hnone
  simp only at hnone
  split at hnone
  · cases hnone
  split at hnone
  · cases hnone
  rename_i hbelow
  split at hnone
  · cases hnone
  · rename_i habove
    exact ⟨hbelow, habove⟩

/-- A grid that is finer than the interval is long meets it. -/
theorem exists_onGrid {x : Double} (h : x.significand ≠ 0) {p : Int}
    (hfine : (10 : ℚ) ^ p < (x.stepBelow + 2) * 2 ^ (x.exponent - 2)) : ∃ d, x.interval.onGrid? p = some d := by
  refine Option.ne_none_iff_exists'.mp fun hnone => ?_
  obtain ⟨hbelow, habove⟩ := not_between_of_onGrid h hnone
  have hle := x.floorOn_le p
  have hlt := x.lt_floorOn p
  have hunit := two_zpow_pos (x.exponent - 2)
  have hstep : (1 : ℚ) ≤ x.stepBelow := by exact_mod_cast x.one_le_stepBelow
  have hmul := mul_le_mul_of_nonneg_right hstep hunit.le
  rw [Nat.cast_succ] at hlt habove
  -- the multiple below is too low and the one above too high, so the interval is shorter than one unit
  have hlow : x.floorOn p * 10 ^ p ≤ x.magnitude - x.stepBelow * 2 ^ (x.exponent - 2) := by
    by_contra hlow
    exact hbelow (.inl ⟨not_le.mp hlow, by linarith⟩)
  have hhigh : x.magnitude + 2 * 2 ^ (x.exponent - 2) ≤ (x.floorOn p + 1) * 10 ^ p := by
    by_contra hhigh
    exact habove (.inl ⟨by linarith, not_le.mp hhigh⟩)
  linarith

theorem stripZeros_value (fuel d : Nat) (p : Int) :
    ((stripZeros fuel d p).1 : ℚ) * 10 ^ (stripZeros fuel d p).2 = d * 10 ^ p := by
  induction fuel generalizing d p with
  | zero => rfl
  | succ fuel ih =>
    rw [stripZeros]
    split
    · rename_i hzero
      have hd : (d : ℚ) = (d / 10 : Nat) * 10 := by
        exact_mod_cast (Nat.div_mul_cancel (Nat.dvd_of_mod_eq_zero hzero)).symm
      rw [ih, hd, zpow_add_one₀ (by norm_num)]
      ring
    · rfl

/-- The search ends in the interval if some grid that is tried is fine enough. -/
theorem between_searchGrids {x : Double} (h : x.significand ≠ 0) {tries k : Nat} {p : Int} (hk : k < tries)
    (hfine : (10 : ℚ) ^ (p - k) < (x.stepBelow + 2) * 2 ^ (x.exponent - 2)) :
    Between x ((searchGrids x.interval tries p).1 * 10 ^ (searchGrids x.interval tries p).2) := by
  induction tries generalizing p k with
  | zero => exact absurd hk (Nat.not_lt_zero k)
  | succ tries ih =>
    rw [searchGrids]
    split
    · rename_i d hd
      rw [stripZeros_value]
      exact between_of_onGrid h hd
    · rename_i hnone
      cases k with
      | zero =>
        obtain ⟨d, hd⟩ := exists_onGrid h (p := p) (by simpa using hfine)
        rw [hd] at hnone
        cases hnone
      | succ k =>
        refine ih (Nat.lt_of_succ_lt_succ hk) ?_
        rwa [show p - 1 - k = p - (k + 1 : Nat) by omega]

/-! ## The first digit -/

theorem digitCount_pos (n : Nat) : 0 < digitCount n := Nat.length_toDigits_pos

theorem lt_pow_digitCount (n : Nat) : n < 10 ^ digitCount n :=
  (Nat.length_toDigits_le_iff (by decide) (digitCount_pos n)).mp (Nat.le_refl _)

theorem pow_digitCount_le {n : Nat} (hn : n ≠ 0) : 10 ^ (digitCount n - 1) ≤ n := by
  have hpos := digitCount_pos n
  rcases Nat.eq_zero_or_pos (digitCount n - 1) with hone | hmore
  · rw [hone]
    exact Nat.one_le_iff_ne_zero.mpr hn
  · refine Nat.not_lt.mp fun hlt => ?_
    have hle : digitCount n ≤ digitCount n - 1 := (Nat.length_toDigits_le_iff (by decide) hmore).mpr hlt
    omega

theorem leadingPower_le {num den : Nat} (hnum : 0 < num) (hden : 0 < den) :
    (10 : ℚ) ^ leadingPower num den ≤ num / den := by
  have hden' : (0 : ℚ) < den := Nat.cast_pos.mpr hden
  unfold leadingPower
  split
  · rename_i hle
    have hquotient : num / den ≠ 0 := Nat.div_ne_zero_iff.mpr ⟨hden.ne', hle⟩
    have hpos := digitCount_pos (num / den)
    have hpower : (digitCount (num / den) : Int) - 1 = (digitCount (num / den) - 1 : Nat) := by omega
    rw [hpower, zpow_natCast, le_div_iff₀ hden']
    exact_mod_cast (Nat.mul_le_mul_right den (pow_digitCount_le hquotient)).trans (Nat.div_mul_le_self num den)
  · rename_i hlt
    have hlast := lt_pow_digitCount ((den + num - 1) / num - 1)
    generalize digitCount ((den + num - 1) / num - 1) = count at hlast
    have hceil : den ≤ num * 10 ^ count := by
      have hdiv := Nat.lt_mul_div_succ (den + num - 1) hnum
      have hmul := Nat.mul_le_mul_left num (show (den + num - 1) / num ≤ 10 ^ count by omega)
      rw [Nat.mul_succ] at hdiv
      omega
    have hnum' : (0 : ℚ) < num := Nat.cast_pos.mpr hnum
    rw [Nat.mul_comm] at hceil
    rw [zpow_neg, zpow_natCast, inv_le_comm₀ (by positivity) (by positivity), inv_div, div_le_iff₀ hnum']
    exact_mod_cast hceil

/-! ## Shortest digits -/

/-- Sixteen places after the first digit are finer than any interval. -/
theorem pow_lt_length (x : Double) {p : Int} (hp : (10 : ℚ) ^ p ≤ x.magnitude) :
    (10 : ℚ) ^ (p - 16) < (x.stepBelow + 2) * 2 ^ (x.exponent - 2) := by
  have hunit := two_zpow_pos (x.exponent - 2)
  have hpower : (10 : ℚ) ^ (p - 16) = 10 ^ p / 10 ^ 16 := zpow_sub₀ (by norm_num) p 16
  have hsignificand : (x.significand : ℚ) < 2 ^ 51 * (x.stepBelow + 2) := by
    have hlt := x.significand_lt
    unfold stepBelow
    split
    · rename_i hzero
      have hfield : x.field ≠ 0 := by omega
      rw [significand, if_neg hfield, hzero.1]
      norm_num
    · push_cast
      have hlt : (x.significand : ℚ) < 2 ^ 53 := by exact_mod_cast hlt
      linarith
  have hmul := mul_lt_mul_of_pos_right hsignificand hunit
  rw [hpower, div_lt_iff₀ (by norm_num)]
  rw [magnitude_eq] at hp
  nlinarith

/-- **The shortest digits of a double are rounded to it.** -/
theorem isRounded_shortest {x : Double} (h : x.significand ≠ 0) :
    x.shortest.1 ≠ 0 ∧ IsRounded (x.shortest.1 * 10 ^ x.shortest.2) x := by
  have hone : (1 : ℚ) ≤ x.significand := by exact_mod_cast Nat.one_le_iff_ne_zero.mpr h
  have hunit := two_zpow_pos (x.exponent - 2)
  have hvalue : 0 < x.interval.value := Nat.mul_pos (by omega) (Nat.two_pow_pos _)
  have hleading := leadingPower_le hvalue x.interval_den_pos
  rw [interval_value] at hleading
  have hbetween : Between x (x.shortest.1 * 10 ^ x.shortest.2) :=
    between_searchGrids h (k := 16) (by decide) (pow_lt_length x hleading)
  refine ⟨fun hzero => ?_, hbetween.isRounded⟩
  -- the lower end of the interval is positive
  have hstep : (x.stepBelow : ℚ) ≤ 2 := by exact_mod_cast x.stepBelow_le
  have hlow : 0 < x.magnitude - x.stepBelow * 2 ^ (x.exponent - 2) := by
    rw [magnitude_eq]
    nlinarith
  rw [hzero, Nat.cast_zero, zero_mul] at hbetween
  rcases hbetween with ⟨hq, -⟩ | ⟨-, hq, -⟩ <;> linarith

end TransitLink.Double
