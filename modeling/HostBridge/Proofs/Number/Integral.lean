import HostBridge.Object.Equality
import HostBridge.Proofs.Number.Widening

/-!
# Whole numbers in double precision

A finite number that is a whole number is what this integer is rounded to.  So equal numbers
are the same integer, and of integers that are rounded to one number at most one is that
number.

The projection of a number to a key is compared with equality here.  For two numbers they agree.
For an integer and a number they agree if some number is that integer and the integer is below
the bound of `Key.integralBelow`; otherwise the integer may be equal to a number that has
another key.
-/

namespace HostBridge

-- Powers are those of the core library, whatever else is imported.
attribute [local instance (2000)] instPowNat

namespace Binary64

variable {number left right other : Binary64} {whole : Nat} {value : Int}

/-! ## Words -/

theorem ofMagnitude_magnitude (number : Binary64) :
    ofMagnitude number.negative number.magnitude = number := by
  have bound : number.word < 2 * 2 ^ (Format.double.fractionBits + Format.double.exponentBits) :=
    number.bits.toNat_lt
  rw [ofMagnitude, negative, magnitude, Format.signed_negative_magnitude Format.double bound]
  cases number
  simp [word]

theorem isFinite_of_wholeMagnitude (reading : number.wholeMagnitude? = some whole) :
    number.isFinite = true := by
  rw [wholeMagnitude?] at reading
  split at reading
  · assumption
  · cases reading

theorem isNaN_of_isFinite (finite : number.isFinite = true) : number.isNaN = false := by
  rw [isFinite, decide_eq_true_eq] at finite
  rw [isNaN, decide_eq_false_iff_not]
  exact Nat.not_lt_of_lt finite

/-! ## Rounding what needs no rounding -/

/-- Digits with zeros behind them are rounded to what they are the digits of: rounding does not see
how a value is split. -/
theorem round_significand_mul (finite : number.magnitude < Format.double.infinity)
    (nonzero : number.magnitude ≠ 0) (large : 0 ≤ number.scale) :
    Format.double.round (number.significand * 2 ^ number.scale.toNat) 0 = number.magnitude := by
  have kept := Format.double.round_significand_scale finite
  have unit := Format.double.unitScale_significand nonzero
  have moved := Format.double.round_mul_two_pow number.scale.toNat
    (Format.double.significand_ne_zero nonzero) (Int.le_of_eq unit)
  have end' : Format.double.scale number.magnitude - (number.scale.toNat : Int) = 0 := by
    rw [Int.toNat_of_nonneg large]
    exact Int.sub_self _
  rw [kept, end'] at moved
  exact moved

/-- Digits that end in zeros may be cut off before them. -/
theorem round_significand_div (finite : number.magnitude < Format.double.infinity)
    (nonzero : number.magnitude ≠ 0) {places : Nat} (scaled : number.scale = -(places : Int))
    (divides : number.significand % 2 ^ places = 0) :
    Format.double.round (number.significand / 2 ^ places) 0 = number.magnitude := by
  have kept := Format.double.round_significand_scale finite
  have unit := Format.double.unitScale_significand nonzero
  have split : Format.double.significand number.magnitude =
      number.significand / 2 ^ places * 2 ^ places :=
    (Nat.div_mul_cancel (Nat.dvd_of_mod_eq_zero divides)).symm
  have shifted : Format.double.scale number.magnitude = 0 - (places : Int) :=
    scaled.trans (Int.zero_sub _).symm
  have some : number.significand / 2 ^ places ≠ 0 := by
    intro none
    rw [none, Nat.zero_mul] at split
    exact Format.double.significand_ne_zero nonzero split
  have fine : Format.double.unitScale (number.significand / 2 ^ places) 0 ≤ 0 := by
    rw [← Format.unitScale_mul_two_pow Format.double some places 0, ← split, ← shifted, unit]
    show number.scale ≤ 0
    omega
  rw [← Format.round_mul_two_pow Format.double places some fine, ← split, ← shifted, kept]

/-- A whole number is rounded to itself. -/
theorem round_wholeMagnitude (reading : number.wholeMagnitude? = some whole) :
    Format.double.round whole 0 = number.magnitude := by
  have finite := isFinite_of_wholeMagnitude reading
  rw [wholeMagnitude?, if_pos finite] at reading
  rw [isFinite, decide_eq_true_eq] at finite
  by_cases zero : number.magnitude = 0
  · have nothing : number.significand = 0 := by simp [significand, Format.significand, zero]
    have none : whole = 0 := by
      rw [nothing] at reading
      split at reading
      · simpa using reading.symm
      · simpa using reading.symm
    rw [none, zero, Format.round_zero]
  · split at reading
    · rename_i large
      obtain rfl := Option.some.inj reading
      exact round_significand_mul finite zero large
    · split at reading
      · rename_i divides
        obtain rfl := Option.some.inj reading
        exact round_significand_div finite zero (by omega) divides
      · cases reading

/-! ## Equality -/

theorem equal_comm (left right : Binary64) : left.equal right = right.equal left := by
  rw [equal, equal, Bool.and_comm (!left.isNaN), Bool.beq_comm (a := left.bits),
    Bool.and_comm (left.magnitude == 0)]

theorem bits_eq_iff : left.bits = right.bits ↔ left = right :=
  ⟨fun same => by cases left; cases right; exact congrArg mk same, congrArg bits⟩

/-- Equal numbers are numbers, and one number or two zeros. -/
theorem equal_iff : left.equal right = true ↔
    left.isNaN = false ∧ right.isNaN = false ∧
      (left = right ∨ left.magnitude = 0 ∧ right.magnitude = 0) := by
  simp [equal, bits_eq_iff, and_assoc]

theorem equal_trans (front : left.equal right = true) (back : right.equal other = true) :
    left.equal other = true := by
  obtain ⟨real, _, same⟩ := equal_iff.mp front
  obtain ⟨_, real', same'⟩ := equal_iff.mp back
  refine equal_iff.mpr ⟨real, real', ?_⟩
  rcases same with rfl | ⟨zero, zero'⟩
  · exact same'
  · rcases same' with rfl | ⟨_, zero''⟩
    · exact .inr ⟨zero, zero'⟩
    · exact .inr ⟨zero, zero''⟩

/-- A zero is the integer zero. -/
theorem integer?_of_zero (zero : number.magnitude = 0) : number.integer? = some 0 := by
  have finite : number.isFinite = true := by
    rw [isFinite, zero]
    rfl
  have nothing : number.significand = 0 := by simp [significand, Format.significand, zero]
  rw [integer?, wholeMagnitude?, if_pos finite, nothing]
  split <;> simp

/-- Equal numbers are the same integer, if they are one. -/
theorem integer?_of_equal (equal : left.equal right = true) : left.integer? = right.integer? := by
  obtain ⟨_, _, rfl | ⟨zero, zero'⟩⟩ := equal_iff.mp equal
  · rfl
  · rw [integer?_of_zero zero, integer?_of_zero zero']

theorem integer?_eq (number : Binary64) : number.integer? = number.wholeMagnitude?.map
    fun whole : Nat => if number.negative then -(whole : Int) else whole := by
  rw [integer?]
  cases number.wholeMagnitude? <;> rfl

/-- A whole number is what the integer is rounded to. -/
theorem ofInt_equal_of_integer? (reading : number.integer? = some value) :
    (ofInt value).equal number = true := by
  rw [integer?_eq] at reading
  obtain ⟨whole, magnitude, rfl⟩ := Option.map_eq_some_iff.mp reading
  have real := isNaN_of_isFinite (isFinite_of_wholeMagnitude magnitude)
  have rounded := round_wholeMagnitude magnitude
  have size : (if number.negative = true then -(whole : Int) else whole).natAbs = whole := by
    split <;> simp
  rw [ofInt, size, rounded]
  by_cases zero : number.magnitude = 0
  · rw [zero]
    refine equal_iff.mpr ⟨?_, real, .inr ⟨magnitude_ofMagnitude _ (by decide), zero⟩⟩
    rw [isNaN, magnitude_ofMagnitude _ (by decide)]
    rfl
  · have nonzero : whole ≠ 0 := by
      rintro rfl
      rw [Format.round_zero] at rounded
      exact zero rounded.symm
    have sign : decide ((if number.negative = true then -(whole : Int) else whole) < 0) =
        number.negative := by
      cases number.negative with
      | true => simpa using Nat.pos_of_ne_zero nonzero
      | false => simp
    rw [sign, ofMagnitude_magnitude]
    exact equal_iff.mpr ⟨real, real, .inl rfl⟩

/-! ## Integers that are numbers -/

/-- Some number is an integer exactly. -/
def Holds (value : Int) : Prop := ∃ number : Binary64, number.integer? = some value

/-- An integer that some number is stays what it is when it is rounded. -/
theorem holds_iff_ofInt : Holds value ↔ (ofInt value).integer? = some value := by
  constructor
  · rintro ⟨number, reading⟩
    rw [integer?_of_equal (ofInt_equal_of_integer? reading), reading]
  · exact fun reading => ⟨_, reading⟩

theorem significand_lt (number : Binary64) : number.significand < 2 ^ (53 : Nat) := by
  have width : Format.double.step = 2 ^ 52 := rfl
  rw [significand, Format.significand]
  split
  · rename_i small
    have below := (Nat.div_eq_zero_iff.mp small).resolve_left (by rw [width]; decide)
    omega
  · have rest := Nat.mod_lt number.magnitude Format.double.step_pos
    omega

theorem scale_le_of_isFinite (finite : number.isFinite = true) : number.scale ≤ 971 := by
  rw [isFinite, decide_eq_true_eq] at finite
  have top : Format.double.infinity = 2047 * 2 ^ 52 := rfl
  have width : Format.double.step = 2 ^ 52 := rfl
  have minimum : Format.double.minScale = -1074 := by decide
  rw [scale, Format.scale, minimum, width]
  omega

/-- A whole number has the digits of double precision and zeros behind them. -/
theorem exists_digits_of_wholeMagnitude (reading : number.wholeMagnitude? = some whole) :
    ∃ digits shift : Nat, whole = digits * 2 ^ shift ∧ digits < 2 ^ (53 : Nat) ∧ shift ≤ 971 := by
  have finite := isFinite_of_wholeMagnitude reading
  rw [wholeMagnitude?, if_pos finite] at reading
  split at reading
  · obtain rfl := Option.some.inj reading
    have bounded := scale_le_of_isFinite finite
    exact ⟨_, _, rfl, number.significand_lt, by omega⟩
  · split at reading
    · obtain rfl := Option.some.inj reading
      refine ⟨_, 0, (Nat.mul_one _).symm, ?_, Nat.zero_le _⟩
      exact Nat.lt_of_le_of_lt (Nat.div_le_self _ _) number.significand_lt
    · cases reading

/-- Digits with zeros behind them are a whole number. -/
theorem exists_wholeMagnitude {digits shift : Nat} (narrow : digits < 2 ^ (53 : Nat))
    (bounded : shift ≤ 971) (negative : Bool) :
    ∃ number : Binary64, number.negative = negative ∧
      number.wholeMagnitude? = some (digits * 2 ^ shift) := by
  by_cases zero : digits = 0
  · have nothing : (ofMagnitude negative 0).magnitude = 0 := magnitude_ofMagnitude _ (by decide)
    refine ⟨ofMagnitude negative 0, negative_ofMagnitude _ (by decide), ?_⟩
    rw [wholeMagnitude?, isFinite, significand, nothing, zero, Nat.zero_mul]
    rw [show Format.double.significand 0 = 0 from rfl]
    simp
    decide
  · have length : Nat.log2 digits < 53 := (Nat.log2_lt zero).mpr narrow
    obtain ⟨moved, finite, digits', scaled⟩ : ∃ moved : Nat,
        Format.double.round digits shift < Format.double.infinity ∧
        Format.double.significand (Format.double.round digits shift) = digits * 2 ^ moved ∧
        Format.double.scale (Format.double.round digits shift) = (shift : Int) - moved :=
      Format.double_round_digits zero narrow (by omega) (by omega)
    generalize Format.double.round digits shift = magnitude at finite digits' scaled
    have inside : magnitude < 2 ^ 63 := Nat.lt_trans finite (by decide)
    have kept := magnitude_ofMagnitude negative inside
    refine ⟨ofMagnitude negative magnitude, negative_ofMagnitude _ inside, ?_⟩
    rw [wholeMagnitude?, isFinite, significand, scale, kept, digits', scaled,
      if_pos (decide_eq_true finite)]
    split
    · rename_i large
      rw [Nat.mul_assoc, ← Nat.pow_add, show moved + ((shift : Int) - moved).toNat = shift by omega]
    · rename_i small
      have split : moved = shift + (-((shift : Int) - moved)).toNat := by omega
      generalize (-((shift : Int) - moved)).toNat = places at split ⊢
      rw [split, Nat.pow_add, ← Nat.mul_assoc, Nat.mul_mod_left, if_pos rfl,
        Nat.mul_div_cancel _ (Nat.two_pow_pos places)]

/-- The integers that double precision holds have at most 53 digits, not counting zeros behind
them, and are below the power of two that is too large. -/
theorem holds_iff : Holds value ↔
    ∃ digits shift : Nat, value.natAbs = digits * 2 ^ shift ∧ digits < 2 ^ (53 : Nat) ∧
      shift ≤ 971 := by
  constructor
  · rintro ⟨number, reading⟩
    rw [integer?_eq] at reading
    obtain ⟨whole, magnitude, rfl⟩ := Option.map_eq_some_iff.mp reading
    have size : (if number.negative = true then -(whole : Int) else whole).natAbs = whole := by
      split <;> simp
    rw [size]
    exact exists_digits_of_wholeMagnitude magnitude
  · rintro ⟨digits, shift, whole, narrow, bounded⟩
    obtain ⟨number, sign, magnitude⟩ := exists_wholeMagnitude narrow bounded (decide (value < 0))
    refine ⟨number, ?_⟩
    rw [integer?_eq, magnitude, ← whole, sign, Option.map_some, Option.some.injEq]
    simp only [decide_eq_true_eq]
    split <;> omega

theorem holds_of_lt (small : value.natAbs < 2 ^ (53 : Nat)) : Holds value :=
  holds_iff.mpr ⟨_, 0, (Nat.mul_one _).symm, small, Nat.zero_le _⟩

end Binary64

namespace Key

variable {number left right : Binary64} {value : Int}

/-- A number is projected to the integer that it is, below the bound, and else to itself. -/
theorem ofFloat_cases (number : Binary64) :
    (∃ value, number.integer? = some value ∧ value.natAbs < integralBelow ∧
      ofFloat number = .int value) ∨
    (∀ value, number.integer? = some value → integralBelow ≤ value.natAbs) ∧
      ofFloat number = .float number.bits := by
  rw [ofFloat]
  cases reading : number.integer? with
  | none => exact .inr ⟨nofun, rfl⟩
  | some value =>
    by_cases small : value.natAbs < integralBelow
    · exact .inl ⟨value, rfl, small, if_pos small⟩
    · refine .inr ⟨?_, if_neg small⟩
      rintro _ ⟨⟩
      exact Nat.le_of_not_lt small

theorem ofFloat_eq_int :
    ofFloat number = .int value ↔ number.integer? = some value ∧ value.natAbs < integralBelow := by
  rcases ofFloat_cases number with ⟨other, reading, small, key⟩ | ⟨large, key⟩
  · rw [key, reading, int.injEq, Option.some.injEq]
    exact ⟨fun same => ⟨same, same ▸ small⟩, fun same => same.1⟩
  · rw [key]
    exact ⟨fun same => (nomatch same), fun ⟨reading, small⟩ =>
      absurd small (Nat.not_lt.mpr (large value reading))⟩

/-- Numbers have one projection exactly if they are equal. -/
theorem ofFloat_eq_iff (real : left.isNaN = false) (real' : right.isNaN = false) :
    ofFloat left = ofFloat right ↔ left.equal right = true := by
  constructor
  · intro same
    rcases ofFloat_cases left with ⟨value, reading, _, key⟩ | ⟨_, key⟩
    · have reading' := (ofFloat_eq_int.mp (same.symm.trans key)).1
      have front := Binary64.ofInt_equal_of_integer? reading
      rw [Binary64.equal_comm] at front
      exact Binary64.equal_trans front (Binary64.ofInt_equal_of_integer? reading')
    · rcases ofFloat_cases right with ⟨_, _, _, key'⟩ | ⟨_, key'⟩
      · rw [key, key'] at same
        cases same
      · rw [key, key', float.injEq] at same
        exact Binary64.equal_iff.mpr ⟨real, real', .inl (Binary64.bits_eq_iff.mp same)⟩
  · intro equal
    obtain ⟨_, _, rfl | ⟨zero, zero'⟩⟩ := Binary64.equal_iff.mp equal
    · rfl
    · have first : ofFloat left = .int 0 :=
        ofFloat_eq_int.mpr ⟨Binary64.integer?_of_zero zero, by decide⟩
      have second : ofFloat right = .int 0 :=
        ofFloat_eq_int.mpr ⟨Binary64.integer?_of_zero zero', by decide⟩
      rw [first, second]

end Key

end HostBridge
