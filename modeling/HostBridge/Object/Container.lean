import HostBridge.Object.Hash
import HostBridge.Object.Text
import HostBridge.World

/-!
# Lists and dicts

Operations on containers.  All of them borrow their arguments; an object that
is handed out carries a reference for the caller, and a container takes a
reference of its own on what is put into it.
-/

namespace HostBridge.Op

/-- The length of a container. -/
def length (ref : Ref) : Op Nat := do
  ofExcept ((← heap).length ref |>.mapError .raised)

/-- An item of a list or a tuple. -/
def item (ref : Ref) (index : Nat) : Op Ref := do
  let heap ← heap
  match heap.items? ref with
  | none => raise (.notSubscriptable (heap.typeName ref))
  | some items =>
    match items[index]? with
    | none => raise .indexOutOfRange
    | some item => retain item

/-- Replace an item of a list. -/
def setItem (ref : Ref) (index : Nat) (value : Ref) : Op Unit := do
  let heap ← heap
  match heap.body ref with
  | .list items =>
    if index < items.length then change (·.replace ref (.list (items.set index value)))
    else raise .assignmentOutOfRange
  | _ => raise (.notAssignable (heap.typeName ref))

/-- Add an item to the end of a list. -/
def append (ref : Ref) (value : Ref) : Op Unit := do
  let heap ← heap
  match heap.body ref with
  | .list items => change (·.replace ref (.list (items ++ [value])))
  | _ => raise (.noAttribute (heap.typeName ref) "append")

/-- The contents of a dict. -/
def dict (ref : Ref) : Op Dict := do
  let heap ← heap
  match heap.dict? ref with
  | some table => return table
  | none => raise (.expectedDict (heap.typeName ref))

/-- The projection of a key. -/
def key (ref : Ref) : Op Key := do
  ofExcept ((← heap).key ref |>.mapError .raised)

/-- Take a reference on an object that may be missing. -/
def retainOption (ref : Option Ref) : Op (Option Ref) := do
  match ref with
  | some ref => return some (← retain ref)
  | none => return none

/-- The value under a key. -/
def dictGet (ref : Ref) (name : Ref) : Op (Option Ref) := do
  let table ← dict ref
  retainOption (table.get? (← key name))

/-- The value under a string key; nothing if the object is no dict. -/
def dictGetText (ref : Ref) (name : String) : Op (Option Ref) := do
  retainOption ((← heap).dictText? ref name)

/-- Put a value under a key. -/
def dictSet (ref : Ref) (name value : Ref) : Op Unit := do
  let table ← dict ref
  let projection ← key name
  change (·.replace ref (.dict (table.set projection name value)))

/-- Remove an entry and hand out its value. -/
def dictErase (ref : Ref) (name : Ref) : Op Ref := do
  let table ← dict ref
  let projection ← key name
  match table.get? projection with
  | none => raise (.missingKey ((← heap).text name))
  | some value =>
    let value ← retain value
    change (·.replace ref (.dict (table.erase projection)))
    return value

/-- The dict of a list of keys and values, a later value replacing an earlier
one under an equal key. -/
def dictOf (heap : Heap) (pairs : List (Ref × Ref)) : Except Exception Dict :=
  pairs.foldlM (fun table (name, value) => do
    return table.set (← heap.key name) name value) .empty

/-- Make a dict of keys and values. -/
def createDict (pairs : List (Ref × Ref)) : Op Ref := do
  let table ← ofExcept (dictOf (← heap) pairs |>.mapError .raised)
  create (.dict table)

/-- The entries of a dict as a new list of pairs. -/
def dictItems (ref : Ref) : Op Ref := do
  let table ← dict ref
  let pairs ← table.entries.mapM fun entry => create (.tuple [entry.key, entry.value])
  place (.list pairs)

end HostBridge.Op
