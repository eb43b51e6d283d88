import HostBridge.Object.Hash

/-!
# Equality of objects

Two objects are equal if they are one object, if they are numbers with one
value, or if they are text, byte strings or containers of one kind with equal
contents.  Two dicts are equal if each key of the one has an equal value in the
other and they have equally many.  Anything else is equal to itself only.
-/

namespace HostBridge

/-- The value of a real number object. -/
inductive Numeric where
  | int (value : Int)
  | float (value : Binary64)
  deriving DecidableEq

namespace Numeric

/-- Equality of numbers; an integer is rounded to compare it with a float. -/
def equal : Numeric → Numeric → Bool
  | .int left, .int right => left == right
  | .float left, .float right => left.equal right
  | .int left, .float right => (Binary64.ofInt left).equal right
  | .float left, .int right => (Binary64.ofInt right).equal left

end Numeric

namespace Body

/-- Truth values count as zero and one. -/
def number? : Body → Option Numeric
  | .bool value => some (.int value.toNat)
  | .int value => some (.int value)
  | .float value => some (.float value)
  | _ => Option.none

end Body

namespace Heap

/-- Equality of objects, looking at most `depth` containers deep. -/
def equalWithin (heap : Heap) : (depth : Nat) → Ref → Ref → Bool
  | 0, left, right => left == right
  | depth + 1, left, right =>
    left == right ||
      match (heap.body left).number?, (heap.body right).number? with
      | some left, some right => left.equal right
      | _, _ =>
        match heap.body left, heap.body right with
        | .complex real imaginary, .complex real' imaginary' =>
          real.equal real' && imaginary.equal imaginary'
        | .text left, .text right => left == right
        | .bytes left, .bytes right => left == right
        | .list left, .list right => equalItems depth left right
        | .tuple left, .tuple right => equalItems depth left right
        | .dict left, .dict right =>
          left.size == right.size &&
            left.entries.all fun entry =>
              match (heap.key entry.key).map right.get? with
              | .ok (some other) => equalWithin heap depth entry.value other
              | _ => false
        | _, _ => false
where
  /-- Equality of items one by one. -/
  equalItems (depth : Nat) (left right : List Ref) : Bool :=
    left.length == right.length &&
      (left.zip right).all fun (item, other) => equalWithin heap depth item other

/-- Equality of objects. -/
def equal (heap : Heap) (left right : Ref) : Bool :=
  heap.equalWithin (heap.size + 1) left right

end Heap

end HostBridge
