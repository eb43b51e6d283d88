/-!
# Ranges of code points

Properties of characters are given by tables of ranges, in ascending order.
-/

namespace HostBridge

/-- The code points from `first` up to `last`. -/
structure CodeRange where
  first : Nat
  last : Nat
  deriving DecidableEq, Repr

namespace CodeRange

/-- Whether a code point belongs to a range. -/
def holds (range : CodeRange) (code : Nat) : Bool :=
  range.first ≤ code && code ≤ range.last

/-- Whether a character belongs to one of the ranges of a table. -/
def lists (table : List CodeRange) (char : Char) : Bool :=
  table.any fun range => range.holds char.toNat

/-- A character of which every range of a table keeps clear is not listed. -/
theorem lists_eq_false {table : List CodeRange} {char : Char}
    (clear : ∀ range ∈ table, char.toNat < range.first ∨ range.last < char.toNat) :
    lists table char = false := by
  simp only [lists, List.any_eq_false, holds, Bool.and_eq_true, decide_eq_true_eq]
  intro range member
  have := clear range member
  omega

end CodeRange

end HostBridge
