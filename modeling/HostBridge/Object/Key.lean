import HostBridge.Object.Ref
import HostBridge.Number.Binary

/-!
# Dict keys

A dict looks its keys up by a projection on which equality is decidable.  Equal
numbers have one projection, whatever their type; an object without a value of
its own is projected to its identity.
-/

namespace HostBridge

/-- The projection of a hashable object. -/
inductive Key where
  | nothing
  | int (value : Int)
  /-- A double precision number that is not projected to an integer. -/
  | float (bits : UInt64)
  | complex (real imaginary : UInt64)
  | text (value : String)
  | bytes (value : List UInt8)
  | tuple (elements : List Key)
  | identity (ref : Ref)
  deriving Inhabited

namespace Key

mutual

/-- Whether two keys are the same. -/
def same : Key → Key → Bool
  | .nothing, .nothing => true
  | .int left, .int right => left == right
  | .float left, .float right => left == right
  | .complex real imaginary, .complex real' imaginary' =>
    real == real' && imaginary == imaginary'
  | .text left, .text right => left == right
  | .bytes left, .bytes right => left == right
  | .tuple left, .tuple right => sameAll left right
  | .identity left, .identity right => left == right
  | _, _ => false

/-- Whether two lists of keys are the same. -/
def sameAll : List Key → List Key → Bool
  | [], [] => true
  | left :: lefts, right :: rights => left.same right && sameAll lefts rights
  | _, _ => false

end

mutual

theorem eq_of_same : ∀ {left right : Key}, left.same right = true → left = right
  | .nothing, right, h => by cases right <;> simp_all [same]
  | .int _, right, h | .float _, right, h | .complex _ _, right, h | .text _, right, h
  | .bytes _, right, h | .identity _, right, h => by cases right <;> simp_all [same]
  | .tuple _, right, h => by
    cases right <;> simp only [same, Bool.false_eq_true] at h
    rw [eq_of_sameAll h]

theorem eq_of_sameAll : ∀ {lefts rights : List Key},
    sameAll lefts rights = true → lefts = rights
  | [], rights, h => by cases rights <;> simp_all [sameAll]
  | _ :: _, rights, h => by
    cases rights <;> simp only [sameAll, Bool.false_eq_true, Bool.and_eq_true] at h
    rw [eq_of_same h.1, eq_of_sameAll h.2]

end

mutual

@[simp]
theorem same_refl : ∀ key : Key, key.same key = true
  | .nothing => by simp [same]
  | .int _ | .float _ | .complex _ _ | .text _ | .bytes _ | .identity _ => by simp [same]
  | .tuple elements => by simp [same, sameAll_refl elements]

theorem sameAll_refl : ∀ keys : List Key, sameAll keys keys = true
  | [] => by simp [sameAll]
  | key :: keys => by simp [sameAll, same_refl key, sameAll_refl keys]

end

instance : DecidableEq Key := fun left right =>
  if h : left.same right = true then .isTrue (eq_of_same h)
  else .isFalse fun equal => h (equal ▸ same_refl left)

/-- Whole numbers are projected to integers below this magnitude, the double
precision number nearest to `10 ^ 30`. -/
def integralBelow : Nat := 1000000000000000019884624838656

/-- The projection of a double precision number. -/
def ofFloat (number : Binary64) : Key :=
  match number.integer? with
  | some value => if value.natAbs < integralBelow then .int value else .float number.bits
  | none => .float number.bits

/-- The projection of a complex number; one on the real axis is a real number. -/
def ofComplex (real imaginary : Binary64) : Key :=
  if imaginary.equal .zero then ofFloat real else .complex real.bits imaginary.bits

end Key

end HostBridge
