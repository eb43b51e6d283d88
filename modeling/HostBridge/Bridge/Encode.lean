import HostBridge.Bridge.Wrapper
import HostBridge.Host.Program
import HostBridge.Object.Container

/-!
# From host values to runtime objects

Every host type has one runtime form.  A struct that is registered becomes a
wrapper around a copy of it, any other struct a dict of its exported fields.
An operation that fails releases what it has made so far.
-/

namespace HostBridge

namespace Op

/-- The runtime type registered for a struct. -/
def handle? (registry : RegistryId) (id : StructId) : Op (Option Ref) :=
  return ((← world).registry registry).handle? id

/-- Make a list of objects that are handed over. -/
def placeList (items : List Ref) : Op Ref := place (.list items)

/-- Make a dict of keys and values that are handed over. -/
def placeDict (pairs : List (Ref × Ref)) : Op Ref :=
  (createDict pairs).always (·.releaseAll (pairs.flatMap fun (key, value) => [key, value]))

end Op

namespace Encode

variable (program : Program) (registry : RegistryId)

/-- Refuse a value that does not belong to its type. -/
def illTyped (type : HostType) : Op α :=
  Op.panic (.illTyped (program.typeName type))

mutual

/-- Make the object for a value of a type. -/
def value : HostType → HostValue → Op Ref
  | .unit, .unit => Op.retain .none
  | .bool, .bool value => Op.retain (.ofBool value)
  | .int _, .int value => Op.place (.int value)
  | .float .single, .single value => Op.place (.float value.toBinary64)
  | .float .double, .double value => Op.place (.float value)
  | .complex .single, .complexSingle real imaginary =>
    Op.place (.complex real.toBinary64 imaginary.toBinary64)
  | .complex .double, .complexDouble real imaginary => Op.place (.complex real imaginary)
  | .text, .text value => Op.place (.text value)
  | .bytes, .bytes value => Op.place (.bytes value)
  | .seq element, .seq values => do
    Op.place (.list (← elements element [] values))
  | .map _ key value, .map values => do
    Op.placeDict (← entries key value [] values)
  | .struct id, .struct values => do
    match ← Op.handle? registry id with
    | some type => Op.wrapCopy registry type (.struct values)
    | none => Op.placeDict (← fields (program.struct id).fields [] values)
  | .boxed element, .boxed inner => value element inner
  | .optional _, .absent => Op.retain .none
  | .optional element, .present inner => value element inner
  | .tuple types, .tuple values => do
    Op.place (.tuple (← components types [] values))
  | .object, .object ref => Op.retain ref
  | .keywords, .keywords (some ref) => Op.retain ref
  | .keywords, .keywords none => Op.place (.dict .empty)
  | .sealed id, _ =>
    Op.panic (.noRuntimeForm (program.typeName (.sealed id)))
  | type, _ => illTyped program type

/-- Make the items of a sequence; `done` holds those made so far, the last first. -/
def elements (element : HostType) (done : List Ref) : List HostValue → Op (List Ref)
  | [] => return done.reverse
  | head :: tail => do
    let ref ← (value element head).undoing (·.releaseAll done.reverse)
    elements element (ref :: done) tail

/-- Make the items of a tuple. -/
def components : List HostType → (done : List Ref) → List HostValue → Op (List Ref)
  | type :: types, done, head :: tail => do
    let ref ← (value type head).undoing (·.releaseAll done.reverse)
    components types (ref :: done) tail
  | _, done, _ => return done.reverse

/-- Make the keys and values of a map. -/
def entries (keyType valueType : HostType) (done : List (Ref × Ref)) :
    List (HostValue × HostValue) → Op (List (Ref × Ref))
  | [] => return done.reverse
  | (key, content) :: tail => do
    let undo := fun (world : World) =>
      world.releaseAll (done.reverse.flatMap fun (key, value) => [key, value])
    let key ← (value keyType key).undoing undo
    let content ← (value valueType content).undoing fun world => undo (world.release key)
    entries keyType valueType ((key, content) :: done) tail

/-- Make names and values of the exported fields of a struct. -/
def fields : List FieldDecl → (done : List (Ref × Ref)) → List HostValue →
    Op (List (Ref × Ref))
  | field :: rest, done, head :: tail => do
    if field.exported then
      let ref ← (value field.type head).undoing fun world =>
        world.releaseAll (done.reverse.flatMap fun (key, value) => [key, value])
      let name ← Op.place (.text (Name.snake field.name))
      fields rest ((name, ref) :: done) tail
    else fields rest done tail
  | _, done, _ => return done.reverse

end

end Encode

end HostBridge
