/-!
# References

A reference names a place in the heap of runtime objects.  Places are never used
twice, so a reference also is the identity of its object.  Three objects exist
once and for all at the first places: nothing, false and true.
-/

namespace HostBridge

/-- The place of a runtime object. -/
structure Ref where
  place : Nat
  deriving DecidableEq, Repr, Inhabited

namespace Ref

/-- The object that stands for nothing. -/
def none : Ref := ⟨0⟩

/-- The truth value false. -/
def false : Ref := ⟨1⟩

/-- The truth value true. -/
def true : Ref := ⟨2⟩

/-- The object of a truth value. -/
def ofBool (value : Bool) : Ref := if value then Ref.true else Ref.false

/-- How a place is written: as a hexadecimal number. -/
def address (ref : Ref) : String := "0x" ++ String.ofList (Nat.toDigits 16 ref.place)

end Ref

end HostBridge
