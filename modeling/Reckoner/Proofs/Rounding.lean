/-
# Rounding depends on the value alone

A number is read by rounding a fraction, and what it is rounded to is a matter of the value of the
fraction, not of how the fraction is written (`Number.nearest_eq`, after `floorLog2_eq` and
`divideToEven_eq`).  So it does not matter where the point of a decimal stands or how many zeros it
has: `Number.Decimal.toBits_eq` says that a decimal is read as its value, also where the power of
ten is never computed.

What needs no rounding stays as it is: the value of a finite number is read as that number
(`Number.toBits_rounded_value`).  Hence the shortest decimal of a number reads back
(`Number.toBits_shortest`).
-/
import Mathlib.Algebra.Order.Field.Power
import Mathlib.Algebra.Order.Floor.Semifield
import Mathlib.Data.Int.Log
import Mathlib.Data.Rat.Floor
import Mathlib.Tactic.FieldSimp
import Mathlib.Tactic.Linarith
import Mathlib.Tactic.NormNum
import Mathlib.Tactic.Positivity
import Mathlib.Tactic.Ring
import Reckoner.Number.Shortest

namespace Reckoner.Number

/-! ## 1. Values -/

def ratio (f : Nat × Nat) : ℚ := f.1 / f.2

def Magnitude.value (s : Magnitude) : ℚ := s.mantissa * 2 ^ s.exponent

def Decimal.value (d : Decimal) : ℚ := d.digits * 10 ^ d.exponent

/-- Scaling multiplies the value by the power. -/
theorem ratio_scale {base : Nat} (hbase : base ≠ 0) (exponent : Int) (f : Nat × Nat) :
    ratio (scale base exponent f) = ratio f * (base : ℚ) ^ exponent := by
  have hne : (base : ℚ) ≠ 0 := by exact_mod_cast hbase
  have hexponent : (exponent.toNat : Int) - (-exponent).toNat = exponent :=
    Int.toNat_sub_toNat_neg exponent
  have hpower : (base : ℚ) ^ exponent = base ^ exponent.toNat / base ^ (-exponent).toNat := by
    rw [← zpow_natCast, ← zpow_natCast, ← zpow_sub₀ hne, hexponent]
  simp only [ratio, scale, Nat.pow_eq, Nat.cast_mul, Nat.cast_pow]
  rw [hpower, div_mul_div_comm]

theorem scale_snd_pos {base : Nat} (hbase : base ≠ 0) (exponent : Int) {f : Nat × Nat}
    (hf : 0 < f.2) : 0 < (scale base exponent f).2 :=
  Nat.mul_pos hf (Nat.pow_pos (Nat.pos_of_ne_zero hbase))

theorem Magnitude.ratio_fraction (s : Magnitude) : ratio s.fraction = s.value := by
  rw [fraction, ratio_scale two_ne_zero]
  simp [ratio, value]

theorem Decimal.ratio_fraction (d : Decimal) : ratio d.fraction = d.value := by
  rw [fraction, ratio_scale (by decide)]
  simp [ratio, value]

/-! ## 2. The exponent -/

/-- The binary logarithm of a natural as a power of two. -/
theorem zpow_log2_le {n : Nat} (hn : 0 < n) :
    (2 : ℚ) ^ (n.log2 : Int) ≤ n ∧ (n : ℚ) < 2 ^ (n.log2 + 1 : Int) := by
  have hle : 2 ^ n.log2 ≤ n := Nat.log2_self_le (Nat.ne_of_gt hn)
  have hlt : n < 2 ^ (n.log2 + 1) := Nat.lt_log2_self
  constructor
  · rw [zpow_natCast]
    exact_mod_cast hle
  · have hcast : (n.log2 + 1 : Int) = ((n.log2 + 1 : Nat) : Int) := by push_cast; ring
    rw [hcast, zpow_natCast]
    exact_mod_cast hlt

/-- The logarithms of the two parts give that of a fraction, or one more.  So an estimate from the
lengths of the two numbers needs a single comparison to be right. -/
theorem log_ratio_bounds {n d : Nat} (hn : 0 < n) (hd : 0 < d) :
    (n.log2 : Int) - d.log2 - 1 ≤ Int.log 2 (ratio (n, d)) ∧
    Int.log 2 (ratio (n, d)) < (n.log2 : Int) - d.log2 + 1 := by
  obtain ⟨hnle, hnlt⟩ := zpow_log2_le hn
  obtain ⟨hdle, hdlt⟩ := zpow_log2_le hd
  have hn' : (0 : ℚ) < n := by exact_mod_cast hn
  have hd' : (0 : ℚ) < d := by exact_mod_cast hd
  have hq : 0 < ratio (n, d) := div_pos hn' hd'
  constructor
  · rw [← Int.zpow_le_iff_le_log (by decide) hq, Nat.cast_ofNat, ratio, le_div_iff₀ hd']
    have hsplit : (2 : ℚ) ^ ((n.log2 : Int) - d.log2 - 1) * 2 ^ (d.log2 + 1 : Int) =
        2 ^ (n.log2 : Int) := by
      rw [← zpow_add₀ two_ne_zero]
      congr 1
      omega
    calc
      (2 : ℚ) ^ ((n.log2 : Int) - d.log2 - 1) * d
          ≤ 2 ^ ((n.log2 : Int) - d.log2 - 1) * 2 ^ (d.log2 + 1 : Int) := by gcongr
      _ ≤ n := by rw [hsplit]; exact hnle
  · rw [← Int.lt_zpow_iff_log_lt (by decide) hq, Nat.cast_ofNat, ratio, div_lt_iff₀ hd']
    have hsplit : (2 : ℚ) ^ ((n.log2 : Int) - d.log2 + 1) * 2 ^ (d.log2 : Int) =
        2 ^ (n.log2 + 1 : Int) := by
      rw [← zpow_add₀ two_ne_zero]
      congr 1
      omega
    calc
      (n : ℚ) < 2 ^ ((n.log2 : Int) - d.log2 + 1) * 2 ^ (d.log2 : Int) := by rw [hsplit]; exact hnlt
      _ ≤ 2 ^ ((n.log2 : Int) - d.log2 + 1) * d := by gcongr

/-- Comparing the parts of a scaled fraction compares the exponent with the logarithm. -/
theorem scale_le_iff {n d : Nat} (hn : 0 < n) (hd : 0 < d) (exponent : Int) :
    (scale 2 (-exponent) (n, d)).2 ≤ (scale 2 (-exponent) (n, d)).1 ↔
      exponent ≤ Int.log 2 (ratio (n, d)) := by
  have hn' : (0 : ℚ) < n := by exact_mod_cast hn
  have hd' : (0 : ℚ) < d := by exact_mod_cast hd
  have hq : 0 < ratio (n, d) := div_pos hn' hd'
  have hpos : (0 : ℚ) < (scale 2 (-exponent) (n, d)).2 := by
    exact_mod_cast scale_snd_pos two_ne_zero (-exponent) (f := (n, d)) hd
  have hratio := ratio_scale two_ne_zero (-exponent) (n, d)
  rw [ratio, zpow_neg, ← div_eq_mul_inv, Nat.cast_ofNat] at hratio
  rw [← Int.zpow_le_iff_le_log (by decide) hq, Nat.cast_ofNat, ← Nat.cast_le (α := ℚ),
    ← one_le_div hpos, hratio, one_le_div (by positivity)]

/-- **The estimate of the logarithm is corrected.** -/
theorem floorLog2_eq {n d : Nat} (hn : 0 < n) (hd : 0 < d) :
    floorLog2 n d = Int.log 2 (ratio (n, d)) := by
  obtain ⟨hlow, hhigh⟩ := log_ratio_bounds hn hd
  have htest := scale_le_iff hn hd ((n.log2 : Int) - d.log2)
  simp only [floorLog2]
  split
  · rename_i hle
    have := htest.mp hle
    omega
  · rename_i hle
    have := mt htest.mpr hle
    omega

/-! ## 3. The mantissa -/

/-- A positive value to the nearest natural, a half to the even one.  This says on values what
`divideToEven` does with quotient and remainder. -/
def roundToEven (q : ℚ) : Nat :=
  if q - ⌊q⌋₊ < 1 / 2 ∨ (q - ⌊q⌋₊ = 1 / 2 ∧ ⌊q⌋₊ % 2 = 0) then ⌊q⌋₊ else ⌊q⌋₊ + 1

theorem divideToEven_eq (n : Nat) {d : Nat} (hd : 0 < d) :
    divideToEven n d = roundToEven (ratio (n, d)) := by
  have hd' : (0 : ℚ) < d := by exact_mod_cast hd
  have hfloor : ⌊ratio (n, d)⌋₊ = n / d := Nat.floor_div_eq_div n d
  have hrest : ratio (n, d) - (n / d : Nat) = (n % d : Nat) / d := by
    have hparts : (d : ℚ) * (n / d : Nat) + (n % d : Nat) = n := by
      exact_mod_cast Nat.div_add_mod n d
    rw [ratio, eq_div_iff (ne_of_gt hd')]
    simp only
    rw [sub_mul, div_mul_cancel₀ _ (ne_of_gt hd')]
    linarith
  have hless : ratio (n, d) - (n / d : Nat) < 1 / 2 ↔ 2 * (n % d) < d := by
    rw [hrest, div_lt_div_iff₀ hd' two_pos, one_mul, mul_comm]
    exact_mod_cast Iff.rfl
  have hhalf : ratio (n, d) - (n / d : Nat) = 1 / 2 ↔ 2 * (n % d) = d := by
    rw [hrest, div_eq_div_iff (ne_of_gt hd') two_ne_zero, one_mul, mul_comm]
    exact_mod_cast Iff.rfl
  simp only [divideToEven, roundToEven, hfloor, hless, hhalf]

theorem roundToEven_natCast (n : Nat) : roundToEven n = n := by
  simp [roundToEven]

/-! ## 4. Rounding -/

/-- A value rounded to a magnitude. -/
def rounded (q : ℚ) : Magnitude :=
  if q = 0 then ⟨0, -1074⟩
  else
    let exponent := max (Int.log 2 q - 52) (-1074)
    ⟨roundToEven (q * 2 ^ (-exponent)), exponent⟩

/-- **A fraction is rounded as its value.**  So it does not matter in which of its forms a value
comes to be rounded, scaled or reduced or neither. -/
theorem nearest_eq (n : Nat) {d : Nat} (hd : 0 < d) : nearest n d = rounded (ratio (n, d)) := by
  have hd' : (d : ℚ) ≠ 0 := by exact_mod_cast Nat.ne_of_gt hd
  rcases Nat.eq_zero_or_pos n with rfl | hn
  · simp [nearest, rounded, ratio]
  · have hn' : (n : ℚ) ≠ 0 := by exact_mod_cast Nat.ne_of_gt hn
    have hq : ratio (n, d) ≠ 0 := div_ne_zero hn' hd'
    have hexponent : roundingExponent n d = max (Int.log 2 (ratio (n, d)) - 52) (-1074) := by
      rw [roundingExponent, floorLog2_eq hn hd]
    simp only [nearest, rounded, if_neg (Nat.ne_of_gt hn), if_neg hq, hexponent]
    rw [divideToEven_eq _ (scale_snd_pos two_ne_zero _ hd), ratio_scale two_ne_zero, Nat.cast_ofNat]

/-! ## 5. What needs no rounding -/

/-- The mantissa has 53 bits, or fewer at the least exponent.  This is what makes the mantissa and
the exponent of a value unique. -/
structure Magnitude.Canonical (s : Magnitude) : Prop where
  mantissa_lt : s.mantissa < 2 ^ 53
  le_exponent : -1074 ≤ s.exponent
  full : 2 ^ 52 ≤ s.mantissa ∨ s.exponent = -1074

theorem Magnitude.canonical_ofBits {bits : Nat} (h : bits < infinityBits) :
    (ofBits bits).Canonical := by
  have hhidden : Nat.pow 2 52 = 2 ^ 52 := rfl
  simp only [infinityBits, hhidden] at h
  simp only [ofBits, hhidden]
  split
  · exact ⟨show bits < 2 ^ 53 by omega, le_rfl, Or.inr rfl⟩
  · exact ⟨show 2 ^ 52 + bits % 2 ^ 52 < 2 ^ 53 by omega,
      show (-1074 : Int) ≤ (bits / 2 ^ 52 : Nat) - 1075 by omega, Or.inl (Nat.le_add_right ..)⟩

/-- **Taking a finite number apart and putting it together** gives it back.  A mantissa with its
leading bit carries one into the field of the exponent, where the exponent by itself would be one
too small. -/
theorem Magnitude.toBits_ofBits {bits : Nat} (h : bits < infinityBits) :
    (ofBits bits).toBits = bits := by
  have hhidden : Nat.pow 2 52 = 2 ^ 52 := rfl
  simp only [infinityBits, hhidden] at h
  simp only [ofBits, toBits, infinityBits, hhidden]
  split <;> simp only <;> omega

theorem Magnitude.log_value {s : Magnitude} (h : 0 < s.mantissa) :
    Int.log 2 s.value = s.mantissa.log2 + s.exponent := by
  obtain ⟨hle, hlt⟩ := zpow_log2_le h
  have hpower : (0 : ℚ) < 2 ^ s.exponent := by positivity
  have hpos : 0 < s.value := mul_pos (by exact_mod_cast h) hpower
  have hbase : 1 < 2 := by decide
  have hlow : s.mantissa.log2 + s.exponent ≤ Int.log 2 s.value := by
    rw [← Int.zpow_le_iff_le_log hbase hpos, Nat.cast_ofNat, zpow_add₀ two_ne_zero]
    exact mul_le_mul_of_nonneg_right hle hpower.le
  have hhigh : Int.log 2 s.value < s.mantissa.log2 + 1 + s.exponent := by
    rw [← Int.lt_zpow_iff_log_lt hbase hpos, Nat.cast_ofNat, zpow_add₀ two_ne_zero]
    exact mul_lt_mul_of_pos_right hlt hpower
  omega

/-- **The value of a finite number is rounded to that number.**  The logarithm of the value finds
the exponent again, and at this exponent the mantissa is a natural. -/
theorem rounded_value {s : Magnitude} (h : s.Canonical) : rounded s.value = s := by
  obtain ⟨hlt, hle, hfull⟩ := h
  rcases Nat.eq_zero_or_pos s.mantissa with hzero | hpos
  · have hexponent : s.exponent = -1074 := by omega
    have hvalue : s.value = 0 := by simp [Magnitude.value, hzero]
    rw [rounded, if_pos hvalue, ← hzero, ← hexponent]
  · have hvalue : s.value ≠ 0 := by
      rw [Magnitude.value]
      positivity
    have hlog : s.mantissa.log2 ≤ 52 :=
      Nat.lt_succ_iff.mp ((Nat.log2_lt (Nat.ne_of_gt hpos)).mpr hlt)
    have hexponent : max (Int.log 2 s.value - 52) (-1074) = s.exponent := by
      rw [Magnitude.log_value hpos]
      rcases hfull with hfull | hleast
      · have : 52 ≤ s.mantissa.log2 := (Nat.le_log2 (Nat.ne_of_gt hpos)).mpr hfull
        omega
      · omega
    have hmantissa : s.value * 2 ^ (-s.exponent) = s.mantissa := by
      rw [Magnitude.value, mul_assoc, ← zpow_add₀ two_ne_zero, add_neg_cancel, zpow_zero, mul_one]
    simp only [rounded, if_neg hvalue, hexponent, hmantissa, roundToEven_natCast]

theorem toBits_rounded_value {bits : Nat} (h : bits < infinityBits) :
    (rounded (Magnitude.ofBits bits).value).toBits = bits := by
  rw [rounded_value (Magnitude.canonical_ofBits h), Magnitude.toBits_ofBits h]

/-! ## 6. Too large and too small -/

theorem toBits_rounded_zero : (rounded 0).toBits = 0 := by
  simp [rounded, Magnitude.toBits]

/-- From `2 ^ 1024` on, everything is infinite.  Decimals with large exponents are settled by this
alone, before any power of ten is computed. -/
theorem toBits_rounded_of_le {q : ℚ} (h : 2 ^ (1024 : Int) ≤ q) :
    (rounded q).toBits = infinityBits := by
  have hpos : 0 < q := lt_of_lt_of_le (by positivity) h
  have hlog : 1024 ≤ Int.log 2 q := by
    rw [← Int.zpow_le_iff_le_log (by decide) hpos]
    exact_mod_cast h
  have hexponent : max (Int.log 2 q - 52) (-1074) = Int.log 2 q - 52 := by omega
  -- the mantissa has its 53 bits
  have hmantissa : ((2 ^ 52 : Nat) : ℚ) ≤ q * 2 ^ (-(Int.log 2 q - 52)) := by
    have hle : (2 : ℚ) ^ Int.log 2 q ≤ q := by
      exact_mod_cast Int.zpow_log_le_self (b := 2) (by decide) hpos
    calc
      ((2 ^ 52 : Nat) : ℚ) = 2 ^ Int.log 2 q * 2 ^ (-(Int.log 2 q - 52)) := by
        rw [← zpow_add₀ two_ne_zero]
        have : Int.log 2 q + -(Int.log 2 q - 52) = ((52 : Nat) : Int) := by push_cast; ring
        rw [this, zpow_natCast]
        norm_num
      _ ≤ q * 2 ^ (-(Int.log 2 q - 52)) := by gcongr
  have hround : 2 ^ 52 ≤ roundToEven (q * 2 ^ (-(Int.log 2 q - 52))) := by
    have hfloor := Nat.le_floor hmantissa
    unfold roundToEven
    split <;> omega
  have hhidden : Nat.pow 2 52 = 2 ^ 52 := rfl
  simp only [rounded, if_neg (ne_of_gt hpos), hexponent, Magnitude.toBits, infinityBits, hhidden]
  omega

/-- What is less than half of the least positive number is zero. -/
theorem toBits_rounded_of_lt {q : ℚ} (hq : 0 ≤ q) (h : q < 2 ^ (-1075 : Int)) :
    (rounded q).toBits = 0 := by
  rcases hq.eq_or_lt with rfl | hpos
  · exact toBits_rounded_zero
  · have hlog : Int.log 2 q < -1075 := by
      rw [← Int.lt_zpow_iff_log_lt (by decide) hpos]
      exact_mod_cast h
    have hexponent : max (Int.log 2 q - 52) (-1074) = -1074 := by omega
    have hhalf : q * 2 ^ (1074 : Int) < 1 / 2 := by
      calc
        q * 2 ^ (1074 : Int) < 2 ^ (-1075 : Int) * 2 ^ (1074 : Int) := by gcongr
        _ = 1 / 2 := by rw [← zpow_add₀ two_ne_zero]; norm_num
    have hfloor : ⌊q * 2 ^ (1074 : Int)⌋₊ = 0 :=
      Nat.floor_eq_zero.mpr (hhalf.trans one_half_lt_one)
    have hround : roundToEven (q * 2 ^ (1074 : Int)) = 0 := by
      rw [roundToEven, hfloor, Nat.cast_zero, sub_zero, if_pos (Or.inl hhalf)]
    simp only [rounded, if_neg (ne_of_gt hpos), hexponent, neg_neg, hround, Magnitude.toBits]
    simp

theorem two_pow_le : 2 ^ 1024 ≤ 10 ^ 310 := by decide +kernel

theorem two_pow_lt : 2 ^ 1075 < 10 ^ 330 := by decide +kernel

/-- **A decimal is read as its value.**  The short cuts for large and small exponents agree with the
computation that they save. -/
theorem Decimal.toBits_eq (d : Decimal) : d.toBits = (rounded d.value).toBits := by
  unfold toBits
  split
  · rename_i hzero
    have hvalue : d.value = 0 := by simp [value, hzero]
    rw [hvalue, toBits_rounded_zero]
  · rename_i hdigits
    have hpos : 0 < d.digits := Nat.pos_of_ne_zero hdigits
    have hpower : (0 : ℚ) < 10 ^ d.exponent := by positivity
    split
    · rename_i hlarge
      refine (toBits_rounded_of_le ?_).symm
      have hone : (1 : ℚ) ≤ d.digits := by exact_mod_cast hpos
      calc
        (2 : ℚ) ^ (1024 : Int) ≤ 10 ^ (310 : Int) := by exact_mod_cast two_pow_le
        _ ≤ 10 ^ d.exponent := zpow_le_zpow_right₀ (by norm_num) hlarge
        _ ≤ d.digits * 10 ^ d.exponent := le_mul_of_one_le_left hpower.le hone
    · split
      · rename_i hsmall
        refine (toBits_rounded_of_lt (by rw [value]; positivity) ?_).symm
        obtain ⟨-, hlt⟩ := zpow_log2_le hpos
        calc
          d.digits * (10 : ℚ) ^ d.exponent < 2 ^ (d.digits.log2 + 1 : Int) * 10 ^ d.exponent := by
            gcongr
          _ ≤ 10 ^ (d.digits.log2 + 1 : Int) * 10 ^ d.exponent :=
            mul_le_mul_of_nonneg_right
              (zpow_le_zpow_left₀ (by omega) (by norm_num) (by norm_num)) hpower.le
          _ = 10 ^ (d.digits.log2 + 1 + d.exponent) := (zpow_add₀ (by norm_num) _ _).symm
          _ ≤ 10 ^ (-330 : Int) := zpow_le_zpow_right₀ (by norm_num) (by omega)
          _ < 2 ^ (-1075 : Int) := by
            rw [zpow_neg, zpow_neg, inv_lt_inv₀ (by positivity) (by positivity)]
            exact_mod_cast two_pow_lt
      · have hdenominator : 0 < d.fraction.2 := scale_snd_pos (by decide) _ Nat.one_pos
        have hratio : ratio (d.fraction.1, d.fraction.2) = d.value := d.ratio_fraction
        rw [nearestBits, nearest_eq _ hdenominator, hratio]

/-! ## 7. Shortest decimals -/

theorem Decimal.toBits_congr {c d : Decimal} (h : c.value = d.value) : c.toBits = d.toBits := by
  rw [toBits_eq, toBits_eq, h]

theorem value_dropZeros (d : Decimal) : (dropZeros d).value = d.value := by
  fun_induction dropZeros d with
  | case1 d h ih =>
    have hdigits : (d.digits : ℚ) = 10 * (d.digits / 10 : Nat) := by
      have : d.digits = 10 * (d.digits / 10) := by omega
      exact_mod_cast this
    rw [ih, Decimal.value, Decimal.value, hdigits, zpow_add_one₀ (by norm_num)]
    ring
  | case2 d h => rfl

theorem Magnitude.value_toDecimal (s : Magnitude) : s.toDecimal.value = s.value := by
  simp only [Decimal.value, toDecimal, value, Nat.pow_eq, Nat.cast_mul, Nat.cast_pow,
    Nat.cast_ofNat]
  rcases Int.le_total 0 s.exponent with hwhole | hplaces
  · have hfive : (-s.exponent).toNat = 0 := by omega
    have htwo : (s.exponent.toNat : Int) = s.exponent := Int.toNat_of_nonneg hwhole
    rw [hfive, min_eq_right hwhole, pow_zero, zpow_zero, mul_one, mul_one, ← zpow_natCast, htwo]
  · have htwo : s.exponent.toNat = 0 := by omega
    have hfive : ((-s.exponent).toNat : Int) = -s.exponent := Int.toNat_of_nonneg (by omega)
    have hten : (10 : ℚ) ^ s.exponent = 5 ^ s.exponent * 2 ^ s.exponent := by
      rw [← mul_zpow]
      norm_num
    rw [htwo, min_eq_left hplaces, pow_zero, mul_one, ← zpow_natCast, hfive, hten, mul_assoc,
      ← mul_assoc (5 ^ (-s.exponent)), ← zpow_add₀ (by norm_num), neg_add_cancel, zpow_zero,
      one_mul]

/-- What the search finds has been read back. -/
theorem toBits_of_hitOnGrid {bits numerator denominator : Nat} {exponent : Int} {d : Decimal}
    (h : hitOnGrid bits numerator denominator exponent = some d) : d.toBits = bits := by
  have hfound := List.find?_some h
  simpa using hfound

/-- **The shortest decimal of a number reads back**, whether the search finds one or not.  If it
does, it has been tried; if not, the number is written in full, which is exact. -/
theorem toBits_shortest {bits : Nat} (h : bits < infinityBits) :
    (shortest (Magnitude.ofBits bits)).toBits = bits := by
  simp only [shortest]
  rw [Decimal.toBits_congr (value_dropZeros _)]
  generalize hhit : (List.range 17).findSome? _ = hit
  cases hit with
  | none =>
    rw [Option.getD_none, Decimal.toBits_eq, Magnitude.value_toDecimal, toBits_rounded_value h]
  | some d =>
    obtain ⟨n, -, hn⟩ := List.exists_of_findSome?_eq_some hhit
    rw [Option.getD_some, toBits_of_hitOnGrid hn, Magnitude.toBits_ofBits h]

end Reckoner.Number
