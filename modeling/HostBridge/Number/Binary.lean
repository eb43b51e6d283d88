import HostBridge.Number.Format

/-!
# Single and double precision numbers

The two number types are their bit patterns.  Equality of numbers, the test for
an integral value and the conversions between the widths are all computed from
the bits, so they can be reasoned about without any appeal to hardware.
-/

namespace HostBridge

-- Powers are those of the core library, whatever else is imported.
attribute [local instance (2000)] instPowNat

/-- A double precision number. -/
structure Binary64 where
  bits : UInt64
  deriving DecidableEq, Inhabited

/-- A single precision number. -/
structure Binary32 where
  bits : UInt32
  deriving DecidableEq, Inhabited

namespace Binary64

/-- The word of a number as a natural number. -/
def word (number : Binary64) : Nat := number.bits.toNat

/-- The number with a given sign and magnitude word. -/
def ofMagnitude (negative : Bool) (magnitude : Nat) : Binary64 :=
  ⟨UInt64.ofNat (Format.double.signed negative magnitude)⟩

def negative (number : Binary64) : Bool := Format.double.negative number.word

def magnitude (number : Binary64) : Nat := Format.double.magnitude number.word

def isNaN (number : Binary64) : Bool := Format.double.infinity < number.magnitude

def isInfinite (number : Binary64) : Bool := number.magnitude == Format.double.infinity

def isFinite (number : Binary64) : Bool := number.magnitude < Format.double.infinity

def significand (number : Binary64) : Nat := Format.double.significand number.magnitude

def scale (number : Binary64) : Int := Format.double.scale number.magnitude

/-- Positive zero. -/
def zero : Binary64 := ⟨0⟩

/-- Equality of numbers: the two zeros are equal and a NaN equals nothing. -/
def equal (left right : Binary64) : Bool :=
  !left.isNaN && !right.isNaN &&
    (left.bits == right.bits || (left.magnitude == 0 && right.magnitude == 0))

/-- Whether a number is below zero; neither a zero nor a NaN is. -/
def belowZero (number : Binary64) : Bool :=
  number.negative && !number.isNaN && number.magnitude != 0

/-- A number without its sign. -/
def abs (number : Binary64) : Binary64 := ofMagnitude false number.magnitude

/-- A number with the opposite sign. -/
def neg (number : Binary64) : Binary64 := ofMagnitude (!number.negative) number.magnitude

/-- The magnitude of a finite number, if it is a whole number. -/
def wholeMagnitude? (number : Binary64) : Option Nat :=
  if number.isFinite then
    if 0 ≤ number.scale then some (number.significand * 2 ^ number.scale.toNat)
    else if number.significand % 2 ^ (-number.scale).toNat = 0 then
      some (number.significand / 2 ^ (-number.scale).toNat)
    else none
  else none

/-- The exact value of a number, if it is a whole number. -/
def integer? (number : Binary64) : Option Int :=
  number.wholeMagnitude?.map fun whole => if number.negative then -whole else whole

/-- The number nearest to an integer, ties to even. -/
def ofInt (value : Int) : Binary64 :=
  ofMagnitude (value < 0) (Format.double.round value.natAbs 0)

/-- The NaN or the nearest number of single precision with the same sign. -/
def toBinary32 (number : Binary64) : Binary32 :=
  let magnitude :=
    if number.isNaN then
      Format.single.infinity + 2 ^ (22 : Nat) + number.magnitude / 2 ^ (29 : Nat) % 2 ^ (22 : Nat)
    else if number.isInfinite then Format.single.infinity
    else Format.single.round number.significand number.scale
  ⟨UInt32.ofNat (Format.single.signed number.negative magnitude)⟩

end Binary64

namespace Binary32

/-- The word of a number as a natural number. -/
def word (number : Binary32) : Nat := number.bits.toNat

def negative (number : Binary32) : Bool := Format.single.negative number.word

def magnitude (number : Binary32) : Nat := Format.single.magnitude number.word

def isNaN (number : Binary32) : Bool := Format.single.infinity < number.magnitude

def isInfinite (number : Binary32) : Bool := number.magnitude == Format.single.infinity

def significand (number : Binary32) : Nat := Format.single.significand number.magnitude

def scale (number : Binary32) : Int := Format.single.scale number.magnitude

/-- Positive zero. -/
def zero : Binary32 := ⟨0⟩

/-- The number nearest to `value * 2 ^ scale` with a given sign. -/
def ofScaled (negative : Bool) (value : Nat) (scale : Int) : Binary32 :=
  ⟨UInt32.ofNat (Format.single.signed negative (Format.single.round value scale))⟩

/-- The same number in double precision; every single precision number has one. -/
def toBinary64 (number : Binary32) : Binary64 :=
  let magnitude :=
    if number.isNaN then
      Format.double.infinity + 2 ^ (51 : Nat) + number.magnitude % 2 ^ (22 : Nat) * 2 ^ (29 : Nat)
    else if number.isInfinite then Format.double.infinity
    else Format.double.round number.significand number.scale
  Binary64.ofMagnitude number.negative magnitude

end Binary32

end HostBridge
