import HostBridge.Proofs.Dict.Reference
import HostBridge.Proofs.Number.Integral

/-!
# Numbers as keys

A dict looks numbers up by their keys, and equality compares their values.  The two are meant
to agree, so that an entry is found under each number that is equal to its key, and they do
agree except for these pairs.

* An integer equals the number that it is rounded to.  Their keys differ if the integer is not
  a number of double precision, or if it is too large to be projected.
* Complex numbers off the real axis are projected part by part, so a real part that is a zero
  of one sign is not the zero of the other sign.
* A complex number on the real axis has the key of the real number there, which it does not
  equal.
-/

namespace HostBridge

/-- The value of a number object. -/
inductive Quantity where
  | numeric (value : Numeric)
  | complex (real imaginary : Binary64)

/-- The value of an object that is a number. -/
def Body.quantity? : Body → Option Quantity
  | .complex real imaginary => some (.complex real imaginary)
  | body => body.number?.map .numeric

namespace Quantity

/-- The projection of a number. -/
def key : Quantity → Key
  | .numeric (.int value) => .int value
  | .numeric (.float value) => .ofFloat value
  | .complex real imaginary => .ofComplex real imaginary

/-- Equality of numbers: that of values for real ones, and that of parts for complex ones. -/
def equal : Quantity → Quantity → Bool
  | .numeric left, .numeric right => left.equal right
  | .complex real imaginary, .complex real' imaginary' =>
    real.equal real' && imaginary.equal imaginary'
  | _, _ => false

/-- No part of a number is a NaN. -/
def Proper : Quantity → Prop
  | .numeric (.int _) => True
  | .numeric (.float value) => value.isNaN = false
  | .complex real imaginary => real.isNaN = false ∧ imaginary.isNaN = false

/-- Numbers that are equal and have different keys: an integer that is rounded or too large, and
complex numbers off the real axis with zeros of both signs. -/
def Splits : Quantity → Quantity → Prop
  | .numeric (.int value), .numeric (.float number)
  | .numeric (.float number), .numeric (.int value) =>
    (Binary64.ofInt value).equal number = true ∧
      (¬Binary64.Holds value ∨ Key.integralBelow ≤ value.natAbs)
  | .complex real imaginary, .complex real' imaginary' =>
    real.magnitude = 0 ∧ real'.magnitude = 0 ∧ real ≠ real' ∧
      imaginary = imaginary' ∧ imaginary.magnitude ≠ 0
  | _, _ => False

/-- Numbers that have one key and are not equal: a complex number on the real axis and the real
number there. -/
def Merges : Quantity → Quantity → Prop
  | .complex real imaginary, .numeric (.int value)
  | .numeric (.int value), .complex real imaginary =>
    imaginary.magnitude = 0 ∧ real.integer? = some value ∧ value.natAbs < Key.integralBelow
  | .complex real imaginary, .numeric (.float number)
  | .numeric (.float number), .complex real imaginary =>
    imaginary.magnitude = 0 ∧ real.equal number = true
  | _, _ => False

/-- Where keys and equality disagree about two numbers. -/
structure Compares (left right : Quantity) : Prop where
  splits : left.equal right = true ∧ left.key ≠ right.key ↔ left.Splits right
  merges : left.equal right = false ∧ left.key = right.key ↔ left.Merges right

variable {left right : Quantity}

theorem equal_comm (left right : Quantity) : left.equal right = right.equal left := by
  rcases left with (value | number) | ⟨real, imaginary⟩ <;>
    rcases right with (other | number') | ⟨real', imaginary'⟩
  · exact Bool.beq_comm
  · rfl
  · rfl
  · rfl
  · exact number.equal_comm number'
  · rfl
  · rfl
  · rfl
  · rw [equal, equal, real.equal_comm, imaginary.equal_comm]

theorem splits_comm (left right : Quantity) : left.Splits right ↔ right.Splits left := by
  rcases left with (value | number) | ⟨real, imaginary⟩ <;>
    rcases right with (other | number') | ⟨real', imaginary'⟩ <;>
    try exact Iff.rfl
  constructor <;>
  · rintro ⟨zero, zero', apart, rfl, off⟩
    exact ⟨zero', zero, apart.symm, rfl, off⟩

theorem merges_comm (left right : Quantity) : left.Merges right ↔ right.Merges left := by
  rcases left with (value | number) | ⟨real, imaginary⟩ <;>
    rcases right with (other | number') | ⟨real', imaginary'⟩ <;>
    exact Iff.rfl

/-- Whatever is said about two numbers may be said the other way round. -/
theorem Compares.symm (compares : left.Compares right) : right.Compares left where
  splits := by rw [equal_comm, ne_comm, compares.splits, splits_comm]
  merges := by rw [equal_comm, Eq.comm (a := right.key), compares.merges, merges_comm]

/-! ## Each pair of kinds -/

section

variable {value other : Int} {number number' real imaginary real' imaginary' : Binary64}

/-- Integers are compared exactly, and so are their keys. -/
theorem compares_int (value other : Int) :
    (numeric (.int value)).Compares (numeric (.int other)) where
  splits := by simp [equal, Numeric.equal, key, Splits]
  merges := by simp [equal, Numeric.equal, key, Merges]

/-- Numbers have one key exactly if they are equal. -/
theorem compares_float (proper : number.isNaN = false) (proper' : number'.isNaN = false) :
    (numeric (.float number)).Compares (numeric (.float number')) where
  splits := by
    have same := Key.ofFloat_eq_iff proper proper'
    simp [equal, Numeric.equal, key, Splits, same]
  merges := by
    have same := Key.ofFloat_eq_iff proper proper'
    simp [equal, Numeric.equal, key, Merges, same]

/-- An integer has the key of a number if the number is this integer and that is not too large. -/
theorem int_eq_ofFloat_iff : Key.int value = Key.ofFloat number ↔
    (Binary64.ofInt value).equal number = true ∧ Binary64.Holds value ∧
      value.natAbs < Key.integralBelow := by
  rw [eq_comm, Key.ofFloat_eq_int, ← and_assoc]
  refine and_congr_left fun _ => ⟨fun reading => ?_, fun ⟨equal, holds⟩ => ?_⟩
  · exact ⟨Binary64.ofInt_equal_of_integer? reading, number, reading⟩
  · rw [← Binary64.integer?_of_equal equal, Binary64.holds_iff_ofInt.mp holds]

/-- An integer is compared with a number by rounding, and their keys are compared exactly. -/
theorem compares_int_float (value : Int) (number : Binary64) :
    (numeric (.int value)).Compares (numeric (.float number)) where
  splits := by
    show (Binary64.ofInt value).equal number = true ∧ Key.int value ≠ Key.ofFloat number ↔ _
    rw [Ne, int_eq_ofFloat_iff, Splits, ← Nat.not_lt, ← not_and_or]
    exact and_congr_right fun equal => not_congr (and_iff_right equal)
  merges := by
    show (Binary64.ofInt value).equal number = false ∧ Key.int value = Key.ofFloat number ↔ False
    rw [int_eq_ofFloat_iff]
    refine ⟨fun ⟨apart, equal, _⟩ => ?_, False.elim⟩
    rw [apart] at equal
    cases equal

/-- A number that is equal to zero is a zero. -/
theorem equal_zero_iff : imaginary.equal .zero = true ↔ imaginary.magnitude = 0 := by
  rw [Binary64.equal_iff]
  constructor
  · rintro ⟨_, _, rfl | ⟨zero, _⟩⟩
    · rfl
    · exact zero
  · intro zero
    refine ⟨?_, rfl, .inr ⟨zero, rfl⟩⟩
    rw [Binary64.isNaN, zero]
    rfl

/-- A complex number on the real axis has the key of the real number there. -/
theorem ofComplex_of_axis (axis : imaginary.magnitude = 0) :
    Key.ofComplex real imaginary = Key.ofFloat real := by
  rw [Key.ofComplex, if_pos (equal_zero_iff.mpr axis)]

theorem ofComplex_of_off (off : imaginary.magnitude ≠ 0) :
    Key.ofComplex real imaginary = .complex real.bits imaginary.bits := by
  rw [Key.ofComplex, if_neg (mt equal_zero_iff.mp off)]

theorem ofFloat_ne_complex {bits bits' : UInt64} : Key.ofFloat number ≠ .complex bits bits' := by
  rcases Key.ofFloat_cases number with ⟨_, _, _, key⟩ | ⟨_, key⟩ <;> rw [key] <;> exact nofun

/-- A complex number does not equal an integer, but may have its key. -/
theorem compares_complex_int (real imaginary : Binary64) (value : Int) :
    (complex real imaginary).Compares (numeric (.int value)) where
  splits := by simp [equal, Splits]
  merges := by
    show false = false ∧ Key.ofComplex real imaginary = .int value ↔ _
    by_cases axis : imaginary.magnitude = 0
    · simp [Merges, axis, ofComplex_of_axis axis, Key.ofFloat_eq_int]
    · simp [Merges, axis, ofComplex_of_off axis]

theorem compares_complex_float (proper : real.isNaN = false) (imaginary : Binary64)
    (proper' : number.isNaN = false) :
    (complex real imaginary).Compares (numeric (.float number)) where
  splits := by simp [equal, Splits]
  merges := by
    show false = false ∧ Key.ofComplex real imaginary = Key.ofFloat number ↔ _
    by_cases axis : imaginary.magnitude = 0
    · simp [Merges, axis, ofComplex_of_axis axis, Key.ofFloat_eq_iff proper proper']
    · simp [Merges, axis, ofComplex_of_off axis, ofFloat_ne_complex.symm]

theorem ofComplex_eq_of_off (off : imaginary.magnitude ≠ 0) (off' : imaginary'.magnitude ≠ 0) :
    Key.ofComplex real imaginary = Key.ofComplex real' imaginary' ↔
      real = real' ∧ imaginary = imaginary' := by
  rw [ofComplex_of_off off, ofComplex_of_off off', Key.complex.injEq, Binary64.bits_eq_iff,
    Binary64.bits_eq_iff]

/-- A number on the real axis and one off it have different keys and are not equal. -/
theorem compares_axis_off (axis : imaginary.magnitude = 0) (off : imaginary'.magnitude ≠ 0) :
    (complex real imaginary).Compares (complex real' imaginary') := by
  have apart : imaginary.equal imaginary' = false := by
    rw [← Bool.not_eq_true, Binary64.equal_iff]
    rintro ⟨_, _, rfl | ⟨_, zero⟩⟩
    · exact off axis
    · exact off zero
  have keys : (complex real imaginary).key ≠ (complex real' imaginary').key := by
    rw [key, key, ofComplex_of_axis axis, ofComplex_of_off off]
    exact ofFloat_ne_complex
  constructor
  · rw [equal, apart, Bool.and_false, Splits]
    refine ⟨fun ⟨same, _⟩ => (nomatch same), ?_⟩
    rintro ⟨_, _, _, rfl, off'⟩
    exact absurd axis off'
  · exact ⟨fun ⟨_, same⟩ => absurd same keys, False.elim⟩

/-- Complex numbers on the real axis are compared as the real numbers there, and off it they are
told apart by the signs of their zeros. -/
theorem compares_complex (proper : (complex real imaginary).Proper)
    (proper' : (complex real' imaginary').Proper) :
    (complex real imaginary).Compares (complex real' imaginary') := by
  by_cases axis : imaginary.magnitude = 0 <;> by_cases axis' : imaginary'.magnitude = 0
  · have zeros : imaginary.equal imaginary' = true :=
      Binary64.equal_iff.mpr ⟨proper.2, proper'.2, .inr ⟨axis, axis'⟩⟩
    have keys : (complex real imaginary).key = (complex real' imaginary').key ↔
        real.equal real' = true := by
      rw [key, key, ofComplex_of_axis axis, ofComplex_of_axis axis',
        Key.ofFloat_eq_iff proper.1 proper'.1]
    constructor
    · rw [equal, zeros, Bool.and_true, Ne, keys]
      exact ⟨fun ⟨here, there⟩ => absurd here there, fun ⟨_, _, _, _, off⟩ => absurd axis off⟩
    · rw [equal, zeros, Bool.and_true, keys]
      refine ⟨fun ⟨apart, same⟩ => ?_, False.elim⟩
      rw [apart] at same
      cases same
  · exact compares_axis_off axis axis'
  · exact (compares_axis_off axis' axis).symm
  · have keys : Key.ofComplex real imaginary = Key.ofComplex real' imaginary' ↔ _ :=
      ofComplex_eq_of_off axis axis'
    have whole : (complex real imaginary).equal (complex real' imaginary') = true ↔
        (real = real' ∨ real.magnitude = 0 ∧ real'.magnitude = 0) ∧ imaginary = imaginary' := by
      simp [equal, Binary64.equal_iff, proper.1, proper.2, proper'.1, proper'.2, axis]
    constructor
    · rw [whole, key, key, Ne, keys, Splits]
      constructor
      · rintro ⟨⟨rfl | ⟨zero, zero'⟩, rfl⟩, apart⟩
        · exact absurd ⟨rfl, rfl⟩ apart
        · exact ⟨zero, zero', fun same => apart ⟨same, rfl⟩, rfl, axis⟩
      · rintro ⟨zero, zero', apart, rfl, _⟩
        exact ⟨⟨.inr ⟨zero, zero'⟩, rfl⟩, fun same => apart same.1⟩
    · rw [← Bool.not_eq_true, whole, key, key, keys]
      exact ⟨fun ⟨apart, same, same'⟩ => apart ⟨.inl same, same'⟩, False.elim⟩

end

/-- Keys and equality disagree about the numbers that split or merge, and about no others. -/
theorem compares : ∀ {left right : Quantity}, left.Proper → right.Proper → left.Compares right
  | .numeric (.int value), .numeric (.int other), _, _ => compares_int value other
  | .numeric (.int value), .numeric (.float number), _, _ => compares_int_float value number
  | .numeric (.float number), .numeric (.int value), _, _ => (compares_int_float value number).symm
  | .numeric (.float _), .numeric (.float _), proper, proper' => compares_float proper proper'
  | .complex real imaginary, .numeric (.int value), _, _ => compares_complex_int real imaginary value
  | .numeric (.int value), .complex real imaginary, _, _ =>
    (compares_complex_int real imaginary value).symm
  | .complex _ imaginary, .numeric (.float _), proper, proper' =>
    compares_complex_float proper.1 imaginary proper'
  | .numeric (.float _), .complex _ imaginary, proper, proper' =>
    (compares_complex_float proper'.1 imaginary proper).symm
  | .complex _ _, .complex _ _, proper, proper' => compares_complex proper proper'

/-- An integer of at most 53 digits is not rounded, and it is not too large. -/
theorem not_splits_of_lt {value : Int} (small : value.natAbs < 2 ^ (53 : Nat)) (number : Binary64) :
    ¬(numeric (.int value)).Splits (numeric (.float number)) := by
  rintro ⟨_, rounded | large⟩
  · exact rounded (Binary64.holds_of_lt small)
  · exact Nat.not_lt.mpr large (Nat.lt_trans small (by decide))

/-- Real numbers have one key exactly if they are equal, as long as the integers among them have at
most 53 digits. -/
theorem key_eq_iff {left right : Numeric} (proper : (numeric left).Proper)
    (proper' : (numeric right).Proper)
    (narrow : ∀ value, left = .int value ∨ right = .int value → value.natAbs < 2 ^ (53 : Nat)) :
    (numeric left).key = (numeric right).key ↔ left.equal right = true := by
  obtain ⟨splits, merges⟩ := compares proper proper'
  have whole : ¬(numeric left).Splits (numeric right) := by
    rcases left with value | number <;> rcases right with other | number'
    · exact id
    · exact not_splits_of_lt (narrow value (.inl rfl)) number'
    · exact not_splits_of_lt (narrow other (.inr rfl)) number
    · exact id
  have apart : ¬(numeric left).Merges (numeric right) := by
    rcases left with value | number <;> rcases right with other | number' <;> exact id
  constructor
  · intro same
    by_contra differ
    exact apart (merges.mp ⟨Bool.eq_false_of_not_eq_true differ, same⟩)
  · intro same
    by_contra differ
    exact whole (splits.mp ⟨same, differ⟩)

theorem equal_self (proper : left.Proper) : left.equal left = true := by
  rcases left with (value | number) | ⟨real, imaginary⟩
  · exact beq_self_eq_true value
  · exact Binary64.equal_iff.mpr ⟨proper, proper, .inl rfl⟩
  · exact Bool.and_eq_true_iff.mpr ⟨Binary64.equal_iff.mpr ⟨proper.1, proper.1, .inl rfl⟩,
      Binary64.equal_iff.mpr ⟨proper.2, proper.2, .inl rfl⟩⟩

end Quantity

/-! ## Number objects -/

namespace Heap

variable {heap : Heap} {left right : Ref} {number number' : Quantity}

/-- A number object is looked up by the key of its value. -/
theorem key_of_quantity {ref : Ref} (reading : (heap.body ref).quantity? = some number) :
    heap.key ref = .ok number.key := by
  rw [key, keyWithin]
  cases body : heap.body ref <;> rw [body] at reading <;> cases reading <;> rfl

/-- Number objects are compared by their values. -/
theorem equal_of_quantity (reading : (heap.body left).quantity? = some number)
    (reading' : (heap.body right).quantity? = some number') (proper : number.Proper) :
    heap.equal left right = number.equal number' := by
  rw [equal, equalWithin]
  by_cases one : left = right
  · subst one
    obtain rfl := Option.some.inj (reading.symm.trans reading')
    rw [beq_self_eq_true, Bool.true_or, Quantity.equal_self proper]
  · rw [beq_eq_false_iff_ne.mpr one, Bool.false_or]
    cases body : heap.body left <;> rw [body] at reading <;> cases reading <;>
      cases body' : heap.body right <;> rw [body'] at reading' <;> cases reading' <;> rfl

/-- Two number objects without NaNs have keys, and these disagree with equality exactly if the
numbers split or merge.  So in a dict that has nothing under the second number, what is stored
under the first is found under the second exactly if the two are equal and do not split, or
merge. -/
theorem numbers_collapse (reading : (heap.body left).quantity? = some number)
    (reading' : (heap.body right).quantity? = some number') (proper : number.Proper)
    (proper' : number'.Proper) :
    ∃ projection projection', heap.key left = .ok projection ∧ heap.key right = .ok projection' ∧
      (heap.equal left right = true ∧ projection ≠ projection' ↔ number.Splits number') ∧
      (heap.equal left right = false ∧ projection = projection' ↔ number.Merges number') ∧
      ∀ (dict : Dict) (value : Ref), (dict.perform heap (.get right)).1 = .value none →
        (((dict.perform heap (.set left value)).2.perform heap (.get right)).1 =
            .value (some value) ↔
          heap.equal left right = true ∧ ¬number.Splits number' ∨ number.Merges number') := by
  have compares := Quantity.compares proper proper'
  have stored := key_of_quantity reading
  have wanted := key_of_quantity reading'
  have same := equal_of_quantity reading reading' proper
  refine ⟨number.key, number'.key, stored, wanted, same ▸ compares.splits, same ▸ compares.merges,
    fun dict value absent => ?_⟩
  have found : ((dict.perform heap (.set left value)).2.perform heap (.get right)).1 =
      .value ((dict.set number.key left value).get? number'.key) := by
    simp only [Dict.perform, stored, wanted, Dict.set]
  have nothing : dict.get? number'.key = none := by
    simpa only [Dict.perform, wanted, Dict.Answer.value.injEq] using absent
  rw [found, Dict.Answer.value.injEq, same, ← compares.splits, ← compares.merges]
  by_cases keys : number'.key = number.key
  · rw [keys, Dict.get?_set_same]
    simp
  · rw [dict.get?_set_other left value keys, nothing]
    simp [Ne.symm keys]

/-- The first odd integer beyond the digits of double precision equals the number before it, and
is not found under it. -/
theorem numbers_collapse_odd :
    let heap := (Heap.initial.push (.int 9007199254740993)).push (.float ⟨0x4340000000000000⟩)
    let odd : Quantity := .numeric (.int 9007199254740993)
    let even : Quantity := .numeric (.float ⟨0x4340000000000000⟩)
    (heap.body ⟨3⟩).quantity? = some odd ∧ (heap.body ⟨4⟩).quantity? = some even ∧
      odd.Proper ∧ even.Proper ∧ (Dict.empty.perform heap (.get ⟨4⟩)).1 = .value none ∧
      odd.Splits even ∧
      ((Dict.empty.perform heap (.set ⟨3⟩ ⟨0⟩)).2.perform heap (.get ⟨4⟩)).1 ≠
        .value (some ⟨0⟩) := by
  intro heap odd even
  have real : even.Proper := by
    show Binary64.isNaN _ = false
    decide
  have nothing : (Dict.empty.perform heap (.get ⟨4⟩)).1 = .value none := rfl
  have values : heap.equal ⟨3⟩ ⟨4⟩ = odd.equal even := equal_of_quantity rfl rfl trivial
  have rounded : heap.equal ⟨3⟩ ⟨4⟩ = true := values.trans (by decide)
  obtain ⟨first, second, stored, wanted, splits, _, found⟩ :=
    numbers_collapse (show (heap.body ⟨3⟩).quantity? = some odd from rfl)
      (show (heap.body ⟨4⟩).quantity? = some even from rfl) trivial real
  have split : odd.Splits even := by
    refine splits.mp ⟨rounded, ?_⟩
    rintro rfl
    have keys := stored.trans wanted.symm
    cases (show Except.ok (Key.int 9007199254740993) = Except.ok (Key.int 9007199254740992) from keys)
  refine ⟨rfl, rfl, trivial, real, nothing, split, fun there => ?_⟩
  rcases (found _ _ nothing).mp there with ⟨_, whole⟩ | merged
  · exact whole split
  · exact merged

end Heap

namespace Figures

/-- Numbers that are equal and have different keys, and numbers that have one key and differ. -/
theorem numbers_disagree :
    let heap := (((((Heap.initial.push (.int 1000000000000000019884624838656)).push
      (.float ⟨0x46293e5939a08cea⟩)).push (.complex ⟨0⟩ ⟨0x3ff0000000000000⟩)).push
      (.complex ⟨0x8000000000000000⟩ ⟨0x3ff0000000000000⟩)).push
      (.complex ⟨0x3ff0000000000000⟩ ⟨0⟩)).push (.float ⟨0x3ff0000000000000⟩)
    (heap.equal ⟨3⟩ ⟨4⟩ = true ∧ (heap.key ⟨3⟩).toOption ≠ (heap.key ⟨4⟩).toOption ∧
      ((Dict.empty.perform heap (.set ⟨3⟩ ⟨0⟩)).2.perform heap (.get ⟨4⟩)).1 = .value none) ∧
    (heap.equal ⟨5⟩ ⟨6⟩ = true ∧ (heap.key ⟨5⟩).toOption ≠ (heap.key ⟨6⟩).toOption) ∧
    heap.equal ⟨7⟩ ⟨8⟩ = false ∧ (heap.key ⟨7⟩).toOption = (heap.key ⟨8⟩).toOption := by
  intro heap
  have values : heap.equal ⟨3⟩ ⟨4⟩ =
      Quantity.equal (.numeric (.int 1000000000000000019884624838656))
        (.numeric (.float ⟨0x46293e5939a08cea⟩)) := Heap.equal_of_quantity rfl rfl trivial
  exact ⟨⟨values.trans (by decide), by decide, rfl⟩, ⟨by cbv, by decide⟩, by cbv, rfl⟩

end Figures

end HostBridge
