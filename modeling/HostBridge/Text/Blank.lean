/-!
# Blank characters

The characters with the Unicode property `White_Space`, and trimming by them.
Core's `Char.isWhitespace` knows four of them.
-/

namespace HostBridge

/-- The Unicode property `White_Space`. -/
def isBlank (char : Char) : Bool :=
  let code := char.toNat
  (9 ≤ code && code ≤ 13) || code == 0x20 || code == 0x85 || code == 0xA0 ||
    code == 0x1680 || (0x2000 ≤ code && code ≤ 0x200A) || code == 0x2028 ||
    code == 0x2029 || code == 0x202F || code == 0x205F || code == 0x3000

/-- The whitespace that core knows is blank. -/
theorem isBlank_of_isWhitespace {char : Char} (white : char.isWhitespace = true) :
    isBlank char = true := by
  simp only [Char.isWhitespace, Bool.or_eq_true, decide_eq_true_eq] at white
  rcases white with ((rfl | rfl) | rfl) | rfl <;> decide

/-- Text without the blanks at either end. -/
def trimBlank (text : List Char) : List Char :=
  ((text.dropWhile isBlank).reverse.dropWhile isBlank).reverse

@[simp]
theorem trimBlank_nil : trimBlank [] = [] := rfl

theorem trimBlank_cons_of_blank {char : Char} {text : List Char} (blank : isBlank char) :
    trimBlank (char :: text) = trimBlank text := by
  simp [trimBlank, blank]

end HostBridge
