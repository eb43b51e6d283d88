import HostBridge.Number.Binary

/-!
# Widening single precision numbers

Every single precision number has an exact counterpart in double precision, and
rounding that one back gives the number again.  A NaN stays a NaN on the way
there and back, but its payload need not survive.

The argument is about magnitude words alone.  Rounding an exactly representable
dyadic value gives the word of that value, and it does not matter how the value
is split into a significand and a scale.
-/

namespace HostBridge

-- Powers are those of the core library, whatever else is imported.
attribute [local instance (2000)] instPowNat

namespace Format

/-- The scale of the last digit that a format keeps of `value * 2 ^ scale`. -/
def unitScale (format : Format) (value : Nat) (scale : Int) : Int :=
  max format.minScale ((Nat.log2 value : Int) + 1 + scale - (format.fractionBits + 1))

/-- The word of a rounded value that is not zero. -/
theorem round_of_ne_zero (format : Format) {value : Nat} (scale : Int) (positive : value ≠ 0) :
    format.round value scale =
      min format.infinity
        ((format.unitScale value scale - format.minScale).toNat * format.step +
          if format.unitScale value scale ≤ scale then
            value * 2 ^ (scale - format.unitScale value scale).toNat
          else roundHalfEven value (format.unitScale value scale - scale).toNat) := by
  simp only [round, positive, if_false]
  rfl

/-- Rounding keeps a value that ends above the last digit of the format. -/
theorem round_of_unitScale_le (format : Format) {value : Nat} {scale : Int}
    (positive : value ≠ 0) (fine : format.unitScale value scale ≤ scale) :
    format.round value scale =
      min format.infinity
        ((format.unitScale value scale - format.minScale).toNat * format.step +
          value * 2 ^ (scale - format.unitScale value scale).toNat) := by
  rw [round_of_ne_zero format scale positive, if_pos fine]

/-- The number of digits grows with a power of two. -/
theorem log2_mul_two_pow {value : Nat} (positive : value ≠ 0) (shift : Nat) :
    Nat.log2 (value * 2 ^ shift) = Nat.log2 value + shift := by
  induction shift with
  | zero => simp
  | succ shift ih =>
    have larger : value * 2 ^ shift ≠ 0 := by
      have power : 0 < 2 ^ shift := Nat.two_pow_pos shift
      exact Nat.mul_ne_zero positive (Nat.ne_of_gt power)
    rw [Nat.pow_succ, ← Nat.mul_assoc, Nat.mul_comm (value * 2 ^ shift) 2,
      Nat.log2_two_mul larger, ih]
    omega

/-- How a value is split into significand and scale does not matter. -/
theorem unitScale_mul_two_pow (format : Format) {value : Nat} (positive : value ≠ 0)
    (shift : Nat) (scale : Int) :
    format.unitScale (value * 2 ^ shift) (scale - shift) = format.unitScale value scale := by
  simp only [unitScale, log2_mul_two_pow positive]
  congr 1
  omega

/-- A multiple of the power of two is divided without a rest. -/
theorem roundHalfEven_mul_two_pow (value shift : Nat) :
    roundHalfEven (value * 2 ^ shift) shift = value := by
  have power : 0 < 2 ^ shift := Nat.two_pow_pos shift
  simp [roundHalfEven, Nat.mul_div_cancel _ power, Nat.mul_mod_left, power]

/-- Rounding an exactly representable value does not depend on how it is split. -/
theorem round_mul_two_pow (format : Format) {value : Nat} {scale : Int} (shift : Nat)
    (positive : value ≠ 0) (fine : format.unitScale value scale ≤ scale) :
    format.round (value * 2 ^ shift) (scale - shift) = format.round value scale := by
  have larger : value * 2 ^ shift ≠ 0 :=
    Nat.mul_ne_zero positive (Nat.ne_of_gt (Nat.two_pow_pos shift))
  have shifted := unitScale_mul_two_pow format positive shift scale
  rw [round_of_unitScale_le format positive fine]
  by_cases below : format.unitScale value scale ≤ scale - shift
  · rw [round_of_unitScale_le format larger (by rw [shifted]; exact below), shifted,
      Nat.mul_assoc, ← Nat.pow_add]
    congr 4
    omega
  · -- The unit lies between the two scales, so the quotient is exact.
    have quotient : ∀ above below, shift = above + below →
        roundHalfEven (value * 2 ^ shift) below = value * 2 ^ above := by
      rintro above below rfl
      rw [Nat.pow_add, ← Nat.mul_assoc]
      exact roundHalfEven_mul_two_pow _ _
    rw [round_of_ne_zero format _ larger, shifted, if_neg below,
      quotient (scale - format.unitScale value scale).toNat _ (by omega)]

/-! ## Magnitude words -/

theorem step_pos (format : Format) : 0 < format.step := Nat.two_pow_pos _

/-- The digits of a significand with its leading one. -/
theorem log2_of_normal {format : Format} {significand : Nat} (low : format.step ≤ significand)
    (high : significand < 2 * format.step) : Nat.log2 significand = format.fractionBits := by
  have positive : significand ≠ 0 := by
    have := format.step_pos
    omega
  refine (Nat.log2_eq_iff positive).mpr ⟨low, ?_⟩
  rw [Nat.pow_succ]
  unfold step at high
  omega

theorem significand_ne_zero (format : Format) {magnitude : Nat} (positive : magnitude ≠ 0) :
    format.significand magnitude ≠ 0 := by
  unfold significand
  split
  · exact positive
  · have := format.step_pos
    omega

/-- A magnitude word ends at the last digit of its format. -/
theorem unitScale_significand (format : Format) {magnitude : Nat} (positive : magnitude ≠ 0) :
    format.unitScale (format.significand magnitude) (format.scale magnitude) =
      format.scale magnitude := by
  by_cases small : magnitude / format.step = 0
  · have below : magnitude < format.step :=
      (Nat.div_eq_zero_iff.mp small).resolve_left (Nat.ne_of_gt format.step_pos)
    have digits : Nat.log2 magnitude < format.fractionBits := (Nat.log2_lt positive).mpr below
    simp only [significand, scale, unitScale, small, if_true]
    omega
  · have remainder : magnitude % format.step < format.step := Nat.mod_lt _ format.step_pos
    have digits : Nat.log2 (format.step + magnitude % format.step) = format.fractionBits :=
      log2_of_normal (by omega) (by omega)
    simp only [significand, scale, unitScale, small, if_false, digits]
    omega

/-- Rounding the value of a finite magnitude word gives the word. -/
theorem round_significand_scale (format : Format) {magnitude : Nat}
    (finite : magnitude < format.infinity) :
    format.round (format.significand magnitude) (format.scale magnitude) = magnitude := by
  by_cases zero : magnitude = 0
  · subst zero
    simp [significand, round]
  have unit := format.unitScale_significand zero
  rw [round_of_unitScale_le format (format.significand_ne_zero zero) (Int.le_of_eq unit), unit,
    Int.sub_self, Int.toNat_zero, Nat.pow_zero, Nat.mul_one]
  have index : (format.scale magnitude - format.minScale).toNat =
      magnitude / format.step - 1 := by
    unfold scale
    omega
  have whole : (magnitude / format.step - 1) * format.step + format.significand magnitude =
      magnitude := by
    have division := Nat.div_add_mod magnitude format.step
    unfold significand
    split
    · rename_i small
      simp [small]
    · rename_i large
      obtain ⟨count, counted⟩ := Nat.exists_eq_succ_of_ne_zero large
      rw [counted] at division ⊢
      rw [Nat.succ_sub_one, Nat.mul_comm]
      rw [Nat.mul_succ] at division
      omega
  rw [index, whole]
  exact Nat.min_eq_right (Nat.le_of_lt finite)

/-- Sign and magnitude of a word that is made of both. -/
theorem negative_signed (format : Format) (negative : Bool) {magnitude : Nat}
    (inside : magnitude < 2 ^ (format.fractionBits + format.exponentBits)) :
    format.negative (format.signed negative magnitude) = negative := by
  cases negative with
  | false => simp [Format.negative, signed, Nat.div_eq_of_lt inside]
  | true =>
    have power := Nat.two_pow_pos (format.fractionBits + format.exponentBits)
    have quotient : (2 ^ (format.fractionBits + format.exponentBits) + magnitude) /
        2 ^ (format.fractionBits + format.exponentBits) = 1 := by
      rw [Nat.add_div_left _ power, Nat.div_eq_of_lt inside]
    simp [Format.negative, signed, quotient]

theorem magnitude_signed (format : Format) (negative : Bool) {magnitude : Nat}
    (inside : magnitude < 2 ^ (format.fractionBits + format.exponentBits)) :
    format.magnitude (format.signed negative magnitude) = magnitude := by
  cases negative with
  | false => simp [Format.magnitude, signed, Nat.mod_eq_of_lt inside]
  | true => simp [Format.magnitude, signed, Nat.mod_eq_of_lt inside]

/-- A word is made of its sign and its magnitude. -/
theorem signed_negative_magnitude (format : Format) {word : Nat}
    (inside : word < 2 * 2 ^ (format.fractionBits + format.exponentBits)) :
    format.signed (format.negative word) (format.magnitude word) = word := by
  have division := Nat.div_add_mod word (2 ^ (format.fractionBits + format.exponentBits))
  have quotient : word / 2 ^ (format.fractionBits + format.exponentBits) < 2 :=
    Nat.div_lt_of_lt_mul (by rw [Nat.mul_comm]; exact inside)
  unfold Format.signed Format.negative Format.magnitude
  generalize word / 2 ^ (format.fractionBits + format.exponentBits) = sign at *
  have cases : sign = 0 ∨ sign = 1 := by omega
  rcases cases with rfl | rfl
  · simpa using division
  · simpa using division

/-- A value that has no more digits than double precision, and an exponent in its range, is
rounded to itself. -/
theorem double_round_digits {significand : Nat} {scale : Int} (positive : significand ≠ 0)
    (narrow : significand < 2 ^ (53 : Nat)) (low : -1022 ≤ (Nat.log2 significand : Int) + scale)
    (high : (Nat.log2 significand : Int) + scale ≤ 1023) :
    ∃ shift : Nat, double.round significand scale < double.infinity ∧
      double.significand (double.round significand scale) = significand * 2 ^ shift ∧
      double.scale (double.round significand scale) = scale - shift := by
  have digits : Nat.log2 significand < 53 := (Nat.log2_lt positive).mpr narrow
  have minimum : double.minScale = -1074 := by decide
  have unit : double.unitScale significand scale =
      (Nat.log2 significand : Int) + scale - 52 := by
    unfold unitScale
    have bits : double.fractionBits = 52 := rfl
    rw [bits]
    omega
  refine ⟨52 - Nat.log2 significand, ?_⟩
  have fine : double.unitScale significand scale ≤ scale := by omega
  have shift : (scale - double.unitScale significand scale).toNat =
      52 - Nat.log2 significand := by omega
  rw [round_of_unitScale_le double positive fine, shift]
  have above : double.step ≤ significand * 2 ^ (52 - Nat.log2 significand) := by
    have := Nat.mul_le_mul_right (2 ^ (52 - Nat.log2 significand)) (Nat.log2_self_le positive)
    rwa [← Nat.pow_add, Nat.add_sub_cancel' (by omega)] at this
  have below : significand * 2 ^ (52 - Nat.log2 significand) < 2 * double.step := by
    have exponent : significand < 2 ^ (Nat.log2 significand + 1) := Nat.lt_log2_self
    have := Nat.mul_lt_mul_of_pos_right exponent
      (Nat.two_pow_pos (52 - Nat.log2 significand))
    rw [← Nat.pow_add, show Nat.log2 significand + 1 + (52 - Nat.log2 significand) = 53 by omega]
      at this
    exact this
  have stepDouble : double.step = 2 ^ 52 := rfl
  have topDouble : double.infinity = 2047 * 2 ^ 52 := rfl
  generalize significand * 2 ^ (52 - Nat.log2 significand) = rounded at *
  have index : (double.unitScale significand scale - double.minScale).toNat + 1 < 2047 := by
    omega
  generalize place : (double.unitScale significand scale - double.minScale).toNat = exponent at *
  have finite : exponent * double.step + rounded < double.infinity := by
    rw [stepDouble, topDouble] at *
    omega
  rw [Nat.min_eq_right (Nat.le_of_lt finite)]
  have quotient : (exponent * double.step + rounded) / double.step = exponent + 1 := by
    rw [stepDouble] at *
    omega
  have rest : (exponent * double.step + rounded) % double.step = rounded - double.step := by
    rw [stepDouble] at *
    omega
  refine ⟨finite, ?_, ?_⟩
  · simp only [Format.significand, quotient, rest, Nat.add_one_ne_zero, if_false]
    omega
  · simp only [Format.scale, quotient]
    omega

/-- A finite single precision value in the digits of double precision. -/
theorem double_round_single {magnitude : Nat} (finite : magnitude < single.infinity)
    (positive : magnitude ≠ 0) :
    ∃ shift : Nat,
      double.round (single.significand magnitude) (single.scale magnitude) < double.infinity ∧
      double.significand
          (double.round (single.significand magnitude) (single.scale magnitude)) =
        single.significand magnitude * 2 ^ shift ∧
      double.scale (double.round (single.significand magnitude) (single.scale magnitude)) =
        single.scale magnitude - shift := by
  have top : single.infinity = 255 * 2 ^ 23 := rfl
  have stepValue : single.step = 2 ^ 23 := rfl
  have significandPositive := single.significand_ne_zero positive
  have significandBelow : single.significand magnitude < 2 ^ 24 := by
    unfold significand
    split
    · rename_i small
      have := (Nat.div_eq_zero_iff.mp small).resolve_left (by omega)
      omega
    · have := Nat.mod_lt magnitude single.step_pos
      omega
  have minimum : single.minScale = -149 := by decide
  have scaleLow : -149 ≤ single.scale magnitude := by
    unfold scale
    omega
  have scaleHigh : single.scale magnitude ≤ 104 := by
    have quotient : magnitude / single.step < 255 :=
      Nat.div_lt_of_lt_mul (by rw [Nat.mul_comm]; exact finite)
    unfold scale
    omega
  have digits : Nat.log2 (single.significand magnitude) < 24 :=
    (Nat.log2_lt significandPositive).mpr significandBelow
  exact double_round_digits significandPositive
    (Nat.lt_trans significandBelow (by decide)) (by omega) (by omega)

end Format

namespace Binary64

theorem word_ofMagnitude (negative : Bool) {magnitude : Nat}
    (inside : magnitude < 2 ^ (63 : Nat)) :
    (ofMagnitude negative magnitude).word = Format.double.signed negative magnitude := by
  have power : 2 ^ (Format.double.fractionBits + Format.double.exponentBits) = 2 ^ 63 := rfl
  have bound : Format.double.signed negative magnitude < 2 ^ 64 := by
    unfold Format.signed
    rw [power]
    split <;> omega
  exact UInt64.toNat_ofNat_of_lt' bound

theorem negative_ofMagnitude (negative : Bool) {magnitude : Nat}
    (inside : magnitude < 2 ^ (63 : Nat)) :
    (ofMagnitude negative magnitude).negative = negative := by
  rw [Binary64.negative, word_ofMagnitude negative inside]
  exact Format.negative_signed Format.double negative inside

theorem magnitude_ofMagnitude (negative : Bool) {magnitude : Nat}
    (inside : magnitude < 2 ^ (63 : Nat)) :
    (ofMagnitude negative magnitude).magnitude = magnitude := by
  rw [Binary64.magnitude, word_ofMagnitude negative inside]
  exact Format.magnitude_signed Format.double negative inside

end Binary64

namespace Binary32

/-- A word below `2 ^ 32` with the sign and the magnitude of a number is that number. -/
theorem eq_of_signed (number : Binary32) :
    (⟨UInt32.ofNat (Format.single.signed number.negative number.magnitude)⟩ : Binary32) =
      number := by
  have bound : number.word < 2 * 2 ^ (Format.single.fractionBits + Format.single.exponentBits) :=
    number.bits.toNat_lt
  rw [negative, magnitude, Format.signed_negative_magnitude Format.single bound]
  cases number
  simp [word]

theorem magnitude_ofSigned (negative : Bool) {magnitude : Nat}
    (inside : magnitude < 2 ^ (31 : Nat)) :
    (⟨UInt32.ofNat (Format.single.signed negative magnitude)⟩ : Binary32).magnitude =
      magnitude := by
  have power : 2 ^ (Format.single.fractionBits + Format.single.exponentBits) = 2 ^ 31 := rfl
  have bound : Format.single.signed negative magnitude < 2 ^ 32 := by
    unfold Format.signed
    rw [power]
    split <;> omega
  have kept : (UInt32.ofNat (Format.single.signed negative magnitude)).toNat =
      Format.single.signed negative magnitude := UInt32.toNat_ofNat_of_lt' bound
  rw [Binary32.magnitude, word, kept]
  exact Format.magnitude_signed Format.single negative inside

/-- Widening keeps a number that is none. -/
theorem isNaN_toBinary64 {number : Binary32} (none : number.isNaN = true) :
    number.toBinary64.isNaN = true := by
  have remainder := Nat.mod_lt number.magnitude (Nat.two_pow_pos 22)
  have inside : Format.double.infinity + 2 ^ 51 + number.magnitude % 2 ^ 22 * 2 ^ 29 < 2 ^ 63 := by
    have top : Format.double.infinity = 2047 * 2 ^ 52 := rfl
    omega
  simp only [toBinary64, none, if_true, Binary64.isNaN,
    Binary64.magnitude_ofMagnitude _ inside, decide_eq_true_eq]
  omega

/-- A number whose finite wide magnitude rounds to its own magnitude comes back. -/
theorem toBinary32_of_wide {number : Binary32} (magnitude : Nat)
    (wide : number.toBinary64 = .ofMagnitude number.negative magnitude)
    (finite : magnitude < Format.double.infinity)
    (narrow : Format.single.round (Format.double.significand magnitude)
      (Format.double.scale magnitude) = number.magnitude) :
    number.toBinary64.toBinary32 = number := by
  have inside : magnitude < 2 ^ 63 := Nat.lt_trans finite (by decide)
  have kept := Binary64.magnitude_ofMagnitude number.negative inside
  have real : (Binary64.ofMagnitude number.negative magnitude).isNaN = false := by
    rw [Binary64.isNaN, kept, decide_eq_false_iff_not]
    exact Nat.not_lt_of_lt finite
  have bounded : (Binary64.ofMagnitude number.negative magnitude).isInfinite = false := by
    rw [Binary64.isInfinite, kept, beq_eq_false_iff_ne]
    exact Nat.ne_of_lt finite
  rw [wide, Binary64.toBinary32]
  simp only [real, bounded, Bool.false_eq_true, if_false, Binary64.significand, Binary64.scale,
    kept, narrow, Binary64.negative_ofMagnitude _ inside]
  exact eq_of_signed number

/-- Widening a number and rounding it back gives the number, unless it is none. -/
theorem toBinary32_toBinary64 {number : Binary32} (real : number.isNaN = false) :
    number.toBinary64.toBinary32 = number := by
  have ordered : number.magnitude ≤ Format.single.infinity := by
    simpa [isNaN] using real
  rcases Nat.lt_or_eq_of_le ordered with finite | infinite
  · have bounded : number.isInfinite = false := by
      rw [isInfinite, beq_eq_false_iff_ne]
      exact Nat.ne_of_lt finite
    by_cases zero : number.magnitude = 0
    · refine toBinary32_of_wide 0 ?_ (by decide) ?_
      · simp [toBinary64, real, bounded, significand, Format.significand, zero]
      · rw [zero]
        simp [Format.significand]
    · obtain ⟨shift, below, digits, scaled⟩ := Format.double_round_single finite zero
      refine toBinary32_of_wide _ ?_ below ?_
      · simp [toBinary64, real, bounded, significand, scale]
      · rw [digits, scaled, Format.round_mul_two_pow _ _ (Format.significand_ne_zero _ zero)
          (Int.le_of_eq (Format.unitScale_significand _ zero))]
        exact Format.round_significand_scale _ finite
  · have inside : Format.double.infinity < 2 ^ 63 := by decide
    have kept := Binary64.magnitude_ofMagnitude number.negative inside
    have infinity : number.isInfinite = true := by simp [isInfinite, infinite]
    have wide : number.toBinary64 = .ofMagnitude number.negative Format.double.infinity := by
      simp [toBinary64, real, infinity]
    have wideReal : number.toBinary64.isNaN = false := by
      simp [wide, Binary64.isNaN, kept]
    have wideInfinity : number.toBinary64.isInfinite = true := by
      simp [wide, Binary64.isInfinite, kept]
    rw [Binary64.toBinary32]
    simp only [wideReal, wideInfinity, Bool.false_eq_true, if_false, if_true]
    rw [wide, Binary64.negative_ofMagnitude _ inside, ← infinite]
    exact eq_of_signed number

/-- Widening a number that is none and rounding it back gives a number that is none. -/
theorem isNaN_toBinary32_toBinary64 {number : Binary32} (none : number.isNaN = true) :
    number.toBinary64.toBinary32.isNaN = true := by
  have remainder := Nat.mod_lt (number.toBinary64.magnitude / 2 ^ 29) (Nat.two_pow_pos 22)
  have narrow : number.toBinary64.toBinary32.magnitude =
      Format.single.infinity + 2 ^ 22 + number.toBinary64.magnitude / 2 ^ 29 % 2 ^ 22 := by
    simp only [Binary64.toBinary32, isNaN_toBinary64 none, if_true]
    exact magnitude_ofSigned _ (by
      have top : Format.single.infinity = 255 * 2 ^ 23 := rfl
      omega)
  rw [isNaN, narrow, decide_eq_true_eq]
  omega

end Binary32

end HostBridge
