import HostBridge.Number.Binary

/-!
# The shortest decimal that reads back

A double precision number stands for all reals that round to it.  Among the
decimals of that interval we want one with the fewest digits, and of those the
one nearest to the number itself; of two equally near ones the larger.  On the
decimal grid with a given number of digits only the two neighbours of the number
have to be tried: if any point of the grid lies in the interval, one of the two
does.

All comparisons are between natural numbers; no step rounds.
-/

namespace HostBridge

-- Powers are those of the core library, whatever else is imported.
attribute [local instance (2000)] instPowNat

/-- The decimal number `digits * 10 ^ exponent`. -/
structure Decimal where
  digits : Nat
  exponent : Int
  deriving DecidableEq, Repr

namespace Decimal

/-- The number of decimal digits, none for zero. -/
def length (value : Nat) : Nat :=
  if value = 0 then 0 else (Nat.toDigits 10 value).length

/-- The place of the first digit of `numerator / denominator`: the least `k` with
the quotient below `10 ^ k`. -/
def leadingPlace (numerator denominator : Nat) : Int :=
  if denominator ≤ numerator then length (numerator / denominator)
  else 1 - (length ((denominator + numerator - 1) / numerator - 1) : Int)

/--
The interval of reals that round to one number, in units of a quarter of its
last binary digit: the number itself, the two ends, and whether the ends belong
to it.
-/
structure Interval where
  low : Nat
  value : Nat
  high : Nat
  closed : Bool
  scale : Int

/-- The interval of a finite positive number.  Below a power of two the spacing
is half as wide, except at the smallest scale. -/
def Interval.of (number : Binary64) : Interval :=
  let significand := number.significand
  let narrow := significand = Format.double.step ∧ Format.double.minScale < number.scale
  { low := 4 * significand - (if narrow then 1 else 2)
    value := 4 * significand
    high := 4 * significand + 2
    closed := significand % 2 = 0
    scale := number.scale - 2 }

/-- The neighbour of the number on the grid `10 ^ exponent` that lies in the
interval and is the nearer one, if there is any; a tie goes to the upper one. -/
def Interval.onGrid? (interval : Interval) (exponent : Int) : Option Decimal :=
  let up := 2 ^ interval.scale.toNat * 10 ^ (-exponent).toNat
  let down := 2 ^ (-interval.scale).toNat * 10 ^ exponent.toNat
  let value := interval.value * up
  let below := value / down
  let inside (digits : Nat) : Bool :=
    if interval.closed then
      interval.low * up ≤ digits * down && digits * down ≤ interval.high * up
    else interval.low * up < digits * down && digits * down < interval.high * up
  let lower := inside below
  let upper := inside (below + 1)
  if lower && (!upper || value - below * down < (below + 1) * down - value) then
    some ⟨below, exponent⟩
  else if upper then some ⟨below + 1, exponent⟩
  else none

/-- Drop one trailing zero. -/
def trimmed (decimal : Decimal) : Decimal :=
  if decimal.digits % 10 = 0 then ⟨decimal.digits / 10, decimal.exponent + 1⟩ else decimal

/-- The first hit on the grids of `count`, `count + 1`, … digits. -/
def Interval.search (interval : Interval) (place : Int) : (grids count : Nat) → Decimal
  | 0, count => ⟨0, place - count⟩
  | grids + 1, count =>
    match interval.onGrid? (place - count) with
    | some decimal => decimal.trimmed
    | none => interval.search place grids (count + 1)

/-- The shortest decimal that reads back as a finite number, its sign left out.
Seventeen digits always suffice. -/
def shortest (number : Binary64) : Decimal :=
  if number.magnitude = 0 then ⟨0, 0⟩
  else
    let interval := Interval.of number
    let place := leadingPlace (interval.value * 2 ^ interval.scale.toNat)
      (2 ^ (-interval.scale).toNat)
    interval.search place 17 1

/-- Positional notation, never an exponent: `0.001`, `2.5`, `1200`. -/
def positional (decimal : Decimal) : String :=
  let text := Nat.repr decimal.digits
  if 0 ≤ decimal.exponent then
    text ++ String.ofList (List.replicate decimal.exponent.toNat '0')
  else
    let places := (-decimal.exponent).toNat
    let padded := List.replicate (places + 1 - text.length) '0' ++ text.toList
    String.ofList (padded.take (padded.length - places)) ++ "." ++
      String.ofList (padded.drop (padded.length - places))

end Decimal

namespace Binary64

/-- How many whole numbers are written with `.0`: those below `10 ^ 16`. -/
def pointedBelow : Nat := 10 ^ (16 : Nat)

/--
The text of a number: the shortest digits that read back, in positional
notation, with `.0` after a whole number below `pointedBelow`.
-/
def text (number : Binary64) : String :=
  if number.isNaN then "NaN"
  else
    let sign := if number.negative then "-" else ""
    if number.isInfinite then sign ++ "inf"
    else
      match number.wholeMagnitude? with
      | some whole =>
        if whole < pointedBelow then sign ++ Nat.repr whole ++ ".0"
        else sign ++ (Decimal.shortest number).positional
      | none => sign ++ (Decimal.shortest number).positional

end Binary64

end HostBridge
