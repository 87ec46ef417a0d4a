/-
# Printed numbers are literals

What a finite number is printed as is the text of a literal, under every separator, and the literal
has the value of the number, except that a zero has lost its sign (`Number.exists_literal_render`).
There are two ways to print a number, and both come down to the digits of a decimal with a point
where it belongs (`Number.exists_literal_layout`): a whole number below `10 ^ 15` is a decimal
without places, and every other number is printed as its shortest decimal.

For this a number is told by its sign and the 63 bits below it (`Number.shape_cases`).
-/
import Mathlib
import Reckoner.Number.Written
import Reckoner.Proofs.Literal
import Reckoner.Proofs.Rounding

namespace Reckoner

namespace Number

/-! ## 1. Numbers and their bits -/

/-- A number is what its sign and its other bits say. -/
theorem ofSignBits_toBits (x : Float) :
    ofSignBits (decide (signBit ≤ x.toBits.toNat)) (x.toBits.toNat % signBit) = x := by
  have hbits : x.toBits.toNat % signBit +
      (if decide (signBit ≤ x.toBits.toNat) = true then signBit else 0) = x.toBits.toNat := by
    have hlt := x.toBits.toNat_lt
    have hsign : signBit = 2 ^ 63 := rfl
    simp only [hsign, decide_eq_true_eq]
    split <;> omega
  rw [ofSignBits, hbits, UInt64.ofNat_toNat, Float.ofBits_toBits]

theorem toNat_unpackExponent (bits : BitVec 64) :
    (@Float.Model.UnpackedFloat.unpackExponent .binary64 bits).toNat =
      bits.toNat / 2 ^ 52 % 2 ^ 11 := by
  simp [Float.Model.UnpackedFloat.unpackExponent, Nat.shiftRight_eq_div_pow]

theorem toNat_unpackMantissa (bits : BitVec 64) :
    (@Float.Model.UnpackedFloat.unpackMantissa .binary64 bits).toNat = bits.toNat % 2 ^ 52 := by
  simp [Float.Model.UnpackedFloat.unpackMantissa]

/-- Only one pattern of bits is not a number. -/
theorem eq_notANumber {x : Float} (h : infinityBits < x.toBits.toNat % signBit) :
    x = notANumber := by
  have hsign : signBit = 2 ^ 63 := rfl
  have hinfinity : infinityBits = 2047 * 2 ^ 52 := rfl
  rw [hsign, hinfinity] at h
  have hexponent : @Float.Model.UnpackedFloat.unpackExponent .binary64 x.toBits.toBitVec =
      -1#11 := by
    rw [← BitVec.toNat_inj, toNat_unpackExponent, UInt64.toNat_toBitVec]
    have hones : (-1#11).toNat = 2047 := rfl
    omega
  have hmantissa : @Float.Model.UnpackedFloat.unpackMantissa .binary64 x.toBits.toBitVec ≠
      0#52 := by
    rw [Ne, ← BitVec.toNat_inj, toNat_unpackMantissa, UInt64.toNat_toBitVec]
    have hzero : (0#52).toNat = 0 := rfl
    omega
  have hbits := x.toModel.valid.eq_packedNaN hexponent hmantissa
  rw [← Float.toBits_inj, ← UInt64.toBitVec_inj]
  exact hbits.trans (by decide +kernel)

/-- **What a number can be**: not a number, infinite or finite, and in each case its sign and its
shape say which it is. -/
theorem shape_cases (x : Float) :
    (shape x = .notANumber ∧ x = notANumber) ∨
    (∃ negative, shape x = .infinite negative ∧ x = ofSignBits negative infinityBits) ∨
    ∃ negative bits, bits < infinityBits ∧ shape x = .finite negative (.ofBits bits) ∧
      x = ofSignBits negative bits := by
  have hx := ofSignBits_toBits x
  rcases Nat.lt_trichotomy (x.toBits.toNat % signBit) infinityBits with h | h | h
  · right; right
    exact ⟨_, _, h, by rw [shape, Shape.ofBits, if_pos h], hx.symm⟩
  · right; left
    refine ⟨_, ?_, (h ▸ hx).symm⟩
    rw [shape, Shape.ofBits, if_neg (by omega), if_pos h]
  · left
    exact ⟨by rw [shape, Shape.ofBits, if_neg (by omega), if_neg (by omega)], eq_notANumber h⟩

/-- A finite number has a finite shape. -/
theorem exists_finite {x : Float} (h : x.isFinite = true) :
    ∃ negative bits, bits < infinityBits ∧ shape x = .finite negative (.ofBits bits) ∧
      x = ofSignBits negative bits := by
  rcases shape_cases x with ⟨-, rfl⟩ | ⟨negative, -, rfl⟩ | hfinite
  · exact absurd h (by decide +kernel)
  · cases negative with
    | true => exact absurd h (by decide +kernel)
    | false => exact absurd h (by decide +kernel)
  · exact hfinite

/-- Only the zeros have no bits but a sign. -/
theorem beq_zero_iff {x : Float} {negative : Bool} {bits : Nat} (hbits : bits < infinityBits)
    (hshape : shape x = .finite negative (.ofBits bits)) (hx : x = ofSignBits negative bits) :
    (x == 0) = true ↔ bits = 0 := by
  constructor
  · intro hzero
    obtain ⟨-, -, hzero⟩ := Float.beq_iff_ne_nan_and_eq.mp hzero
    have hsize : Magnitude.ofBits bits = .ofBits 0 := by
      rcases hzero with rfl | ⟨rfl, -⟩ | ⟨rfl, -⟩ <;> exact (Shape.finite.inj hshape).2.symm
    rw [← Magnitude.toBits_ofBits hbits, hsize]
    decide
  · rintro rfl
    rw [hx]
    cases negative <;> decide +kernel

/-! ## 2. Digits -/

theorem digitsValue_toDigits (n : Nat) : digitsValue (Nat.toDigits 10 n) = n :=
  Nat.ofDigitChars_ten_toDigits

/-- Zeros in front do not count. -/
theorem digitsValue_zeros_append (count : Nat) (text : List Char) :
    digitsValue (List.replicate count '0' ++ text) = digitsValue text := by
  have happend : Nat.ofDigitChars 10 (List.replicate count '0' ++ text) 0 =
      Nat.ofDigitChars 10 text (Nat.ofDigitChars 10 (List.replicate count '0') 0) :=
    Nat.ofDigitChars_append 0
  rwa [Nat.ofDigitChars_replicate_zero, Nat.mul_zero] at happend

theorem digitsValue_append_zeros (text : List Char) (count : Nat) :
    digitsValue (text ++ List.replicate count '0') = 10 ^ count * digitsValue text := by
  have happend : Nat.ofDigitChars 10 (text ++ List.replicate count '0') 0 =
      Nat.ofDigitChars 10 (List.replicate count '0') (Nat.ofDigitChars 10 text 0) :=
    Nat.ofDigitChars_append 0
  rwa [Nat.ofDigitChars_replicate_zero] at happend

theorem all_isDigit_toDigits (n : Nat) : (Nat.toDigits 10 n).all Char.isDigit = true := by
  rw [List.all_eq_true]
  intro c hc
  exact Nat.isDigit_of_mem_toDigits (by decide) (by decide) hc

theorem all_isDigit_zeros (count : Nat) : (List.replicate count '0').all Char.isDigit = true := by
  rw [List.all_eq_true]
  intro c hc
  rw [List.eq_of_mem_replicate hc]
  rfl

/-! ## 3. Literals -/

theorem text_eq_signed (separator : Char) (l : Literal) :
    l.text separator = signed l.negative (l.whole ++ l.places.elim [] (separator :: ·)) := by
  cases hn : l.negative <;> simp [Literal.text, Literal.sign, signed, hn]

theorem exists_literal_whole (negative : Bool) {text : List Char}
    (hdigits : text.all Char.isDigit = true) (hne : text ≠ []) :
    ∃ l : Literal, l.places = none ∧ l.text '.' = signed negative text ∧
      l.value = (Decimal.mk (digitsValue text) 0).toNumber negative := by
  let l : Literal := ⟨negative, text, none, hdigits, rfl, by simp [hne]⟩
  refine ⟨l, rfl, ?_, ?_⟩
  · rw [text_eq_signed]
    simp [l]
  · simp [l, Literal.value, Literal.complete]

theorem exists_literal_places (negative : Bool) {text : List Char}
    (hdigits : ∀ c ∈ text, c.isDigit = true) {places : Nat} (hpos : 0 < places)
    (hlt : places < text.length) :
    ∃ l : Literal, l.places ≠ some [] ∧
      l.text '.' = signed negative (text.take (text.length - places) ++
        '.' :: text.drop (text.length - places)) ∧
      l.value = (Decimal.mk (digitsValue text) (-places)).toNumber negative := by
  have hfront : (text.take (text.length - places)).length = text.length - places := by
    rw [List.length_take]
    omega
  have hback : (text.drop (text.length - places)).length = places := by
    rw [List.length_drop]
    omega
  have hbegins : text.take (text.length - places) ≠ [] := by
    rw [← List.length_pos_iff_ne_nil]
    omega
  have hends : text.drop (text.length - places) ≠ [] := by
    rw [← List.length_pos_iff_ne_nil]
    omega
  let l : Literal :=
    { negative
      whole := text.take (text.length - places)
      places := some (text.drop (text.length - places))
      whole_digits := List.all_eq_true.mpr fun c hc => hdigits c (List.mem_of_mem_take hc)
      places_digits := List.all_eq_true.mpr fun c hc => hdigits c (List.mem_of_mem_drop hc)
      begins := by simp [hbegins] }
  have hcomplete : l.places ≠ some [] := by
    intro h
    exact hends (Option.some.inj h)
  refine ⟨l, hcomplete, text_eq_signed '.' l, ?_⟩
  rw [Literal.value, Literal.complete_eq_self hcomplete]
  simp [l, hback]

/-- **The digits of a decimal are a literal** of its value.  Zeros are put behind or in front where
the exponent asks for places that there are no digits for, and they do not change the value. -/
theorem exists_literal_layout (negative : Bool) (d : Decimal) :
    ∃ l : Literal, l.places ≠ some [] ∧ (0 ≤ d.exponent → l.places = none) ∧
      l.text '.' = signed negative d.layout ∧ l.value = d.toNumber negative := by
  have hdigits := all_isDigit_toDigits d.digits
  by_cases hexponent : 0 ≤ d.exponent
  · have hall : (Nat.toDigits 10 d.digits ++ List.replicate d.exponent.toNat '0').all
        Char.isDigit = true := by
      rw [List.all_append, hdigits, all_isDigit_zeros]
      rfl
    obtain ⟨l, hnone, htext, hvalue⟩ :=
      exists_literal_whole negative hall (by simp [Nat.toDigits_ne_nil])
    refine ⟨l, by simp [hnone], fun _ => hnone, ?_, ?_⟩
    · rw [htext, Decimal.layout, if_pos hexponent]
    · -- the zeros stand for the power of ten
      rw [hvalue, digitsValue_append_zeros, digitsValue_toDigits]
      apply congrArg (ofSignBits negative)
      apply Decimal.toBits_congr
      have hpower : (10 : ℚ) ^ d.exponent = 10 ^ d.exponent.toNat := by
        rw [← zpow_natCast, Int.toNat_of_nonneg hexponent]
      rw [Decimal.value, Decimal.value, hpower]
      push_cast
      ring
  · have hpos : 0 < (-d.exponent).toNat := by omega
    have hall : ∀ c ∈ List.replicate ((-d.exponent).toNat + 1 - (Nat.toDigits 10 d.digits).length)
        '0' ++ Nat.toDigits 10 d.digits, c.isDigit = true := by
      rw [← List.all_eq_true, List.all_append, hdigits, all_isDigit_zeros]
      rfl
    obtain ⟨l, hcomplete, htext, hvalue⟩ := exists_literal_places negative hall hpos
      (by rw [List.length_append, List.length_replicate]; omega)
    refine ⟨l, hcomplete, fun h => absurd h hexponent, ?_, ?_⟩
    · rw [htext, Decimal.layout, if_neg hexponent]
    · have hback : -((-d.exponent).toNat : Int) = d.exponent := by omega
      rw [hvalue, digitsValue_zeros_append, digitsValue_toDigits, hback]

/-! ## 4. Numbers -/

theorem Magnitude.value_of_natural? {s : Magnitude} {n : Nat} (h : s.natural? = some n) :
    s.value = n := by
  have hdenominator : 0 < s.fraction.2 := scale_snd_pos two_ne_zero _ Nat.one_pos
  simp only [natural?] at h
  split at h
  · rename_i hrest
    have hquotient : s.fraction.1 / s.fraction.2 = n := Option.some.inj h
    have hparts : s.fraction.1 = n * s.fraction.2 := by
      rw [← hquotient, Nat.div_mul_cancel (Nat.dvd_of_mod_eq_zero hrest)]
    have hne : (s.fraction.2 : ℚ) ≠ 0 := by exact_mod_cast Nat.ne_of_gt hdenominator
    rw [← s.ratio_fraction, ratio, hparts, Nat.cast_mul, mul_div_cancel_right₀ _ hne]
  · cases h

theorem Magnitude.natural?_zero : (Magnitude.ofBits 0).natural? = some 0 := by decide +kernel

theorem Magnitude.value_ofBits_zero : (Magnitude.ofBits 0).value = 0 := by
  simp [value, ofBits]

theorem Magnitude.value_eq_zero_iff {bits : Nat} (h : bits < infinityBits) :
    (Magnitude.ofBits bits).value = 0 ↔ bits = 0 := by
  constructor
  · intro hzero
    rw [← toBits_rounded_value h, hzero, toBits_rounded_zero]
  · rintro rfl
    exact value_ofBits_zero

/-- A whole number is printed as a literal without places. -/
theorem exists_literal_integer (negative : Bool) {bits n : Nat} (h : bits < infinityBits)
    (hn : (Magnitude.ofBits bits).natural? = some n) :
    ∃ l : Literal, l.places = none ∧ l.text '.' = integerText negative n ∧
      l.value = ofSignBits (negative && n != 0) bits := by
  obtain ⟨l, -, hnone, htext, hvalue⟩ := exists_literal_layout (negative && n != 0) ⟨n, 0⟩
  refine ⟨l, hnone le_rfl, ?_, ?_⟩
  · rw [htext, Decimal.layout, if_pos le_rfl]
    simp [integerText]
  · have hsame : (Decimal.mk n 0).value = (Magnitude.ofBits bits).value := by
      rw [Magnitude.value_of_natural? hn]
      simp [Decimal.value]
    rw [hvalue, Decimal.toNumber, Decimal.toBits_eq, hsame, toBits_rounded_value h]

/-- **The shortest digits of a number are a literal** of its value.  The digits read back as the
number, which is all that is asked of them; that they are the shortest is not needed. -/
theorem exists_literal_display (negative : Bool) {bits : Nat} (h : bits < infinityBits)
    (hne : bits ≠ 0) :
    ∃ l : Literal, l.places ≠ some [] ∧
      l.text '.' = signed negative (Magnitude.ofBits bits).display ∧
      l.value = ofSignBits negative bits := by
  obtain ⟨l, hcomplete, -, htext, hvalue⟩ :=
    exists_literal_layout negative (shortest (Magnitude.ofBits bits))
  refine ⟨l, hcomplete, ?_, ?_⟩
  · have hmantissa : (Magnitude.ofBits bits).mantissa ≠ 0 := by
      intro hzero
      apply hne
      rw [← Magnitude.value_eq_zero_iff h, Magnitude.value, hzero]
      simp
    rw [htext, Magnitude.display, if_neg hmantissa]
  · rw [hvalue, Decimal.toNumber, toBits_shortest h]

theorem ofSignBits_zero : ofSignBits false 0 = 0 := by decide +kernel

theorem separates_point : Separates '.' := separates_of_separatorAllowed (by decide)

section Printed

variable {x : Float} {negative : Bool} {bits : Nat} (hbits : bits < infinityBits)
  (hshape : shape x = .finite negative (.ofBits bits)) (hx : x = ofSignBits negative bits)

include hbits hshape hx

/-- The shortest digits of a number other than zero, with the separator in the place of the point.
This is the branch for numbers with a fraction and for whole numbers that are too large. -/
theorem exists_literal_separated (separator : Char) (hne : bits ≠ 0) :
    ∃ l : Literal, l.places ≠ some [] ∧
      ((Shape.finite negative (.ofBits bits)).display.map fun c =>
        if c = '.' then separator else c) = l.text separator ∧
      l.value = if x == 0 then 0 else x := by
  obtain ⟨l, hcomplete, htext, hvalue⟩ := exists_literal_display negative hbits hne
  refine ⟨l, hcomplete, ?_, ?_⟩
  · rw [Shape.display, ← htext, l.map_text separates_point]
  · rw [hvalue, if_neg (mt (beq_zero_iff hbits hshape hx).mp hne), hx]

/-- A whole number, zero included, printed as an integer: it has no place for a separator. -/
theorem exists_literal_unseparated (separator : Char) {n : Nat}
    (hn : (Magnitude.ofBits bits).natural? = some n) :
    ∃ l : Literal, l.places ≠ some [] ∧ integerText negative n = l.text separator ∧
      l.value = if x == 0 then 0 else x := by
  have hzero : (x == 0) = true ↔ bits = 0 := beq_zero_iff hbits hshape hx
  have hn0 : n = 0 ↔ bits = 0 := by
    rw [← Magnitude.value_eq_zero_iff hbits, Magnitude.value_of_natural? hn, Nat.cast_eq_zero]
  obtain ⟨l, hnone, htext, hvalue⟩ := exists_literal_integer negative hbits hn
  refine ⟨l, by simp [hnone], ?_, ?_⟩
  · rw [← htext, Literal.text, Literal.text, hnone]
    rfl
  · rw [hvalue]
    by_cases hnumber : bits = 0
    · rw [if_pos (hzero.mpr hnumber), hn0.mpr hnumber, hnumber, bne_self_eq_false, Bool.and_false,
        ofSignBits_zero]
    · have hne : (n != 0) = true := bne_iff_ne.mpr (mt hn0.mp hnumber)
      rw [if_neg (mt hzero.mp hnumber), hne, Bool.and_true, hx]

/-- **A finite number is printed as a literal**, whose value it is unless a zero loses its sign. -/
theorem exists_literal_render (separator : Char) :
    ∃ l : Literal, l.places ≠ some [] ∧ (shape x).render separator = l.text separator ∧
      l.value = if x == 0 then 0 else x := by
  rw [hshape]
  simp only [Shape.render]
  split
  · rename_i n hn
    split
    · exact exists_literal_unseparated hbits hshape hx separator hn
    · rename_i hlimit
      apply exists_literal_separated hbits hshape hx separator
      rintro rfl
      rw [Magnitude.natural?_zero] at hn
      cases hn
      exact hlimit (by decide)
  · rename_i hnone
    apply exists_literal_separated hbits hshape hx separator
    rintro rfl
    rw [Magnitude.natural?_zero] at hnone
    cases hnone

end Printed

end Number

end Reckoner
