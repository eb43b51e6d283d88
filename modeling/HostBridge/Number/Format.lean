/-!
# Binary interchange formats

A finite binary number is `significand * 2 ^ scale`.  A format says how many
bits the significand and the exponent have; from that follow how a word is
read and how an exact dyadic value is rounded into a word.

Everything here works on natural numbers, so the rounding rule is an ordinary
statement about quotients and remainders: the nearest representable value, and
of two equally near ones the one whose last bit is zero.
-/

namespace HostBridge

-- Powers are those of the core library, whatever else is imported.
attribute [local instance (2000)] instPowNat

/-- Quotient by `2 ^ shift`, rounded to the nearest, a tie going to the even one. -/
def roundHalfEven (value shift : Nat) : Nat :=
  let quotient := value / 2 ^ shift
  let rest := 2 * (value % 2 ^ shift)
  if rest < 2 ^ shift then quotient
  else if rest = 2 ^ shift ∧ quotient % 2 = 0 then quotient
  else quotient + 1

@[simp]
theorem roundHalfEven_zero (value : Nat) : roundHalfEven value 0 = value := by
  simp [roundHalfEven, Nat.mod_one]

/-- The sizes that fix a binary interchange format. -/
structure Format where
  /-- Stored bits of the significand, the leading one excluded. -/
  fractionBits : Nat
  /-- Bits of the biased exponent. -/
  exponentBits : Nat

namespace Format

/-- The 32-bit format. -/
def single : Format := ⟨23, 8⟩

/-- The 64-bit format. -/
def double : Format := ⟨52, 11⟩

/-- The number of words that share one exponent and sign. -/
def step (format : Format) : Nat := 2 ^ format.fractionBits

/-- The biased exponent of infinities and of numbers that are no numbers. -/
def topExponent (format : Format) : Nat := 2 ^ format.exponentBits - 1

/-- The magnitude word of infinity. -/
def infinity (format : Format) : Nat := format.topExponent * format.step

/-- The scale of the smallest positive number. -/
def minScale (format : Format) : Int :=
  2 - 2 ^ (format.exponentBits - 1) - (format.fractionBits : Int)

/-- The sign bit of a word. -/
def negative (format : Format) (word : Nat) : Bool :=
  word / 2 ^ (format.fractionBits + format.exponentBits) % 2 == 1

/-- A word without its sign bit. -/
def magnitude (format : Format) (word : Nat) : Nat :=
  word % 2 ^ (format.fractionBits + format.exponentBits)

/-- A magnitude with a sign bit in front. -/
def signed (format : Format) (negative : Bool) (magnitude : Nat) : Nat :=
  if negative then 2 ^ (format.fractionBits + format.exponentBits) + magnitude
  else magnitude

/-- The significand of a finite magnitude, its leading one included. -/
def significand (format : Format) (magnitude : Nat) : Nat :=
  if magnitude / format.step = 0 then magnitude
  else format.step + magnitude % format.step

/-- The power of two that scales the significand of a finite magnitude. -/
def scale (format : Format) (magnitude : Nat) : Int :=
  format.minScale + ((magnitude / format.step : Nat) - 1 : Nat)

/--
The magnitude word nearest to `value * 2 ^ scale`, ties to even, infinity past
the largest finite number.  The significand is cut to the digits that the
format holds at that size; a carry out of them is the next exponent, because
consecutive words are consecutive numbers.
-/
def round (format : Format) (value : Nat) (scale : Int) : Nat :=
  if value = 0 then 0
  else
    let width : Int := Nat.log2 value + 1
    let unit := max format.minScale (width + scale - (format.fractionBits + 1))
    let rounded :=
      if unit ≤ scale then value * 2 ^ (scale - unit).toNat
      else roundHalfEven value (unit - scale).toNat
    min format.infinity ((unit - format.minScale).toNat * format.step + rounded)

@[simp]
theorem round_zero (format : Format) (scale : Int) : format.round 0 scale = 0 := by
  simp [round]

theorem round_le_infinity (format : Format) (value : Nat) (scale : Int) :
    format.round value scale ≤ format.infinity := by
  unfold round
  split
  · exact Nat.zero_le _
  · exact Nat.min_le_left _ _

end Format

end HostBridge
