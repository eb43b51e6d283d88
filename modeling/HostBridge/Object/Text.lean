import HostBridge.Number.Shortest
import HostBridge.Object.Inspect
import HostBridge.Text.Escape

/-!
# The text of objects

What an object looks like in messages.  Scalars are written so that their kind
can be told; a tuple of one item has a comma; an instance shows its type and its
address.
-/

namespace HostBridge

/-- The text of a complex number; the sign in the middle is that of the
imaginary part. -/
def complexText (real imaginary : Binary64) : String :=
  let sign := if imaginary.belowZero then "-" else "+"
  "(" ++ real.text ++ sign ++ imaginary.abs.text ++ "j)"

namespace Heap

/-- The text of an object, looking at most `depth` containers deep. -/
def textWithin (heap : Heap) : (depth : Nat) → Ref → String
  | 0, _ => "..."
  | depth + 1, ref =>
    match heap.body ref with
    | .none => "None"
    | .bool value => if value then "True" else "False"
    | .int value => value.repr
    | .float value => value.text
    | .complex real imaginary => complexText real imaginary
    | .text value => quoted value
    | .bytes value => quotedBytes value
    | .list items => "[" ++ joined depth items ++ "]"
    | .tuple [item] => "(" ++ textWithin heap depth item ++ ",)"
    | .tuple items => "(" ++ joined depth items ++ ")"
    | .dict table =>
      "\x7b" ++ ", ".intercalate (table.entries.map fun entry =>
        textWithin heap depth entry.key ++ ": " ++ textWithin heap depth entry.value) ++ "\x7d"
    | .module contents => s!"<module '{contents.name}'>"
    | .function definition _ => s!"<built-in function {definition.name}>"
    | .type shape => s!"<class '{shape.name}'>"
    | .capsule name _ => "<capsule object \"" ++ name ++ "\">"
    | .instance _ _ => s!"<{heap.typeName ref} object at {ref.address}>"
where
  /-- Items with commas between them. -/
  joined (depth : Nat) (items : List Ref) : String :=
    ", ".intercalate (items.map (textWithin heap depth))

/-- The text of an object. -/
def text (heap : Heap) (ref : Ref) : String := heap.textWithin (heap.size + 1) ref

/-- The text of an object as a user reads it: text stands for itself. -/
def display (heap : Heap) (ref : Ref) : String :=
  match heap.asText? ref with
  | some value => value
  | none => heap.text ref

end Heap

end HostBridge
