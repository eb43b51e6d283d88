import HostBridge.Object.Module

/-!
# Wrappers

A wrapper is an instance of a bridged type.  Either it owns a host value, or it
is an alias of a place inside the value that another wrapper owns; then it holds
on to the wrapper that it was read from.  Every live wrapper is a member of the
roster of its registry until the registry is cleared.

Host values are adopted when something comes to own them: a reference is taken
on each runtime object in them, and the keyword dicts that are still missing are
made.  An owner that lets a value go discards it.
-/

namespace HostBridge

namespace Heap

/-- The bridged type behind a runtime type. -/
def bridgedType? (heap : Heap) (type : Ref) : Option BridgedType :=
  match heap.typeContext? type with
  | some (.bridged bridged) => some bridged
  | _ => none

/-- What a wrapper holds, with its bridged type. -/
def wrapper? (heap : Heap) (ref : Ref) : Option (Held × BridgedType) :=
  match heap.body ref with
  | .instance type (some (.wrapper _ held)) => (heap.bridgedType? type).map fun bridged =>
      (held, bridged)
  | _ => none

/-- The value that a wrapper owns. -/
def ownedValue? (heap : Heap) (ref : Ref) : Option HostValue :=
  match heap.instanceState? ref with
  | some (.wrapper _ (.owned value)) => some value
  | _ => none

/-- The owner of the value that a wrapper shows, and the place in it. -/
def location (ref : Ref) : Held → Ref × List Nat
  | .owned _ => (ref, [])
  | .alias _ root path => (root, path)

/-- The value behind a wrapper, with its bridged type. -/
def wrapped? (heap : Heap) (ref : Ref) : Option (HostValue × BridgedType) :=
  match heap.wrapper? ref with
  | none => none
  | some (held, bridged) =>
    let (root, path) := location ref held
    match (heap.ownedValue? root).bind (·.at? path) with
    | some value => some (value, bridged)
    | none => none

end Heap

namespace World

/-- Replace the value at a place inside the value that a wrapper owns, without
counting references. -/
def putValue (world : World) (root : Ref) (path : List Nat) (new : HostValue) : World :=
  match world.heap.body root with
  | .instance type (some (.wrapper registry (.owned value))) =>
    { world with
      heap := world.heap.setBody root
        (.instance type (some (.wrapper registry (.owned (value.put path new))))) }
  | _ => world

end World

namespace HostValue

mutual

/-- Make the keyword dicts that do not exist yet. -/
def completed : HostValue → World → HostValue × World
  | .keywords none, world =>
    let (dict, world) := world.place (.dict .empty)
    (.keywords (some dict), world)
  | .seq elements, world =>
    let (elements, world) := completedAll elements world
    (.seq elements, world)
  | .struct fields, world =>
    let (fields, world) := completedAll fields world
    (.struct fields, world)
  | .tuple elements, world =>
    let (elements, world) := completedAll elements world
    (.tuple elements, world)
  | .map entries, world =>
    let (entries, world) := completedEntries entries world
    (.map entries, world)
  | .boxed value, world =>
    let (value, world) := value.completed world
    (.boxed value, world)
  | .present value, world =>
    let (value, world) := value.completed world
    (.present value, world)
  | value, world => (value, world)

/-- Make the keyword dicts of a list of values. -/
def completedAll : List HostValue → World → List HostValue × World
  | [], world => ([], world)
  | value :: values, world =>
    let (value, world) := value.completed world
    let (values, world) := completedAll values world
    (value :: values, world)

/-- Make the keyword dicts of the entries of a map. -/
def completedEntries :
    List (HostValue × HostValue) → World → List (HostValue × HostValue) × World
  | [], world => ([], world)
  | (key, value) :: entries, world =>
    let (key, world) := key.completed world
    let (value, world) := value.completed world
    let (entries, world) := completedEntries entries world
    ((key, value) :: entries, world)

end

end HostValue

namespace Op

/-- Come to own a value. -/
def adopt (value : HostValue) : Op HostValue := do
  change (·.retainAll value.references)
  step value.completed

/-- Come to own the values of a list. -/
def adoptAll (values : List HostValue) : Op (List HostValue) := do
  change (·.retainAll (HostValue.referencesAll values))
  step (HostValue.completedAll values)

/-- Let an owned value go. -/
def discard (value : HostValue) : Op Unit := releaseAll value.references

/-- Put an owned value in the place of the one behind a wrapper, or of one
inside it, and let the old one go. -/
def exchange (ref : Ref) (inner : List Nat) (new : HostValue) : Op Unit := do
  let heap ← heap
  match heap.wrapper? ref with
  | none => discard new
  | some (held, _) =>
    let (root, path) := Heap.location ref held
    match (heap.ownedValue? root).bind (·.at? (path ++ inner)) with
    | none => discard new
    | some old =>
      change (·.putValue root (path ++ inner) new)
      discard old

/-- The registry of a bridged type, if it is alive. -/
def liveRegistry (id : RegistryId) : Op RegistryId := do
  if (← world).registryAlive id then return id else raise .registryReleased

/-- Make a wrapper around what it is to hold, and enter it on the roster. -/
def wrap (registry : RegistryId) (type : Ref) (held : Held) : Op Ref := do
  let _ ← retain type
  let ref ← place (.instance type (some (.wrapper registry held)))
  change (·.updateRegistry registry (.updateRoster (·.pushFront ref)))
  note .trace s!"allocated '{(← heap).typeName ref}' instance"
  return ref

/-- Make a wrapper that owns a copy of a value. -/
def wrapCopy (registry : RegistryId) (type : Ref) (value : HostValue) : Op Ref := do
  wrap registry type (.owned (← adopt value))

/-- Make an alias of a field of the struct behind a wrapper. -/
def wrapField (registry : RegistryId) (type anchor : Ref) (held : Held) (field : Nat) :
    Op Ref := do
  let (root, path) := Heap.location anchor held
  let _ ← retain anchor
  wrap registry type (.alias anchor root (path ++ [field]))

end Op

end HostBridge
