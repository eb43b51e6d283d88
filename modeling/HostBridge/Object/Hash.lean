import HostBridge.Object.Inspect

/-!
# Hashing

The projection under which a dict looks an object up.  Lists and dicts have
none; a tuple has one if all of its items do.  The depth of the walk is bounded
by the number of places in the heap, which no chain of distinct tuples exceeds.
-/

namespace HostBridge.Heap

/-- The projection of an object, looking at most `depth` tuples deep. -/
def keyWithin (heap : Heap) : (depth : Nat) → Ref → Except Exception Key
  | 0, ref => .ok (.identity ref)
  | depth + 1, ref =>
    match heap.body ref with
    | .none => .ok .nothing
    | .bool value => .ok (.int value.toNat)
    | .int value => .ok (.int value)
    | .float value => .ok (.ofFloat value)
    | .complex real imaginary => .ok (.ofComplex real imaginary)
    | .text value => .ok (.text value)
    | .bytes value => .ok (.bytes value)
    | .tuple items => do return .tuple (← items.mapM (keyWithin heap depth))
    | .list _ | .dict _ => .error (.unhashable (heap.typeName ref))
    | _ => .ok (.identity ref)

/-- The projection of an object. -/
def key (heap : Heap) (ref : Ref) : Except Exception Key :=
  heap.keyWithin (heap.size + 1) ref

end HostBridge.Heap
