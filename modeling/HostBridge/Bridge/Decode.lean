import HostBridge.Bridge.Wrapper
import HostBridge.Host.Program
import HostBridge.Object.Text

/-!
# From runtime objects to host values

Decoding reads an object as a value of a host type.  It is a pure function of
the heap: whatever fails in the middle, nothing has been changed.  The value in
the destination is given to it, because a struct that is read from a dict keeps
the fields that the dict does not mention.

The result borrows its references; whoever keeps it adopts it.

A struct is read from a wrapper of the same struct and registry, or from a dict
with the exposed names of its fields.  Only the second step can lead deeper into
the heap without coming closer to the end of a type.  On a way that is too long
some struct is read from some dict inside of itself, so the number of such steps
is bounded.
-/

namespace HostBridge

/-- Why an object is no value of a type. -/
inductive ConversionError where
  /-- The object has the wrong kind. -/
  | mismatch (expected got : String)
  /-- The number does not fit. -/
  | outOfRange (value : Int) (kind : IntKind)
  /-- A wrapper of another struct or another registry. -/
  | wrongWrapper (expected got : String)
  /-- A failure at a place inside the object. -/
  | nested (place : String) (source : ConversionError)
  deriving DecidableEq, Repr

namespace ConversionError

def message : ConversionError → String
  | .mismatch expected got => s!"expected {expected}, got '{got}'"
  | .outOfRange value kind => s!"{value} is out of range for {kind.name}"
  | .wrongWrapper expected got => s!"'{got}' is not a bridged {expected}"
  | .nested place source => place ++ ": " ++ source.message

end ConversionError

/-- What keeps an object from being decoded. -/
inductive Refusal where
  | error (cause : ConversionError)
  | panic (misuse : Misuse)
  /-- Structs are to be read from dicts that lie in each other without an end. -/
  | tooDeep
  deriving DecidableEq, Repr

namespace Refusal

/-- Say where in an object a conversion failed. -/
def within (place : String) : Except Refusal α → Except Refusal α
  | .error (.error cause) => .error (.error (.nested place cause))
  | result => result

end Refusal

namespace Decode

/-- How structs are read: the object, and the value to merge it into. -/
abbrev Structs := StructId → Ref → HostValue → Except Refusal HostValue

variable (program : Program) (heap : Heap)

/-- Refuse an object of the wrong kind. -/
def mismatch (expected : String) (ref : Ref) : Except Refusal α :=
  .error (.error (.mismatch expected (heap.typeName ref)))

/-- Refuse a type without a runtime form. -/
def noForm (type : HostType) : Except Refusal α :=
  .error (.panic (.noRuntimeForm (program.typeName type)))

mutual

/-- Read an object as a value of a type, given how structs are read. -/
def valueWith (structs : Structs) : HostType → Ref → HostValue → Except Refusal HostValue
  | .unit, ref, _ => if heap.isNone ref then .ok .unit else mismatch heap "None" ref
  | .bool, ref, _ =>
    match heap.asBool? ref with
    | some value => .ok (.bool value)
    | none => mismatch heap "bool" ref
  | .int kind, ref, _ =>
    match heap.asInt? ref with
    | some value =>
      if kind.holds value then .ok (.int value)
      else .error (.error (.outOfRange value kind))
    | none => mismatch heap "int" ref
  | .float width, ref, _ =>
    match heap.asFloat? ref, width with
    | some value, .single => .ok (.single value.toBinary32)
    | some value, .double => .ok (.double value)
    | none, _ => mismatch heap "float" ref
  | .complex width, ref, _ =>
    match heap.asComplex? ref, width with
    | some (real, imaginary), .single =>
      .ok (.complexSingle real.toBinary32 imaginary.toBinary32)
    | some (real, imaginary), .double => .ok (.complexDouble real imaginary)
    | none, _ => mismatch heap "complex" ref
  | .text, ref, _ =>
    match heap.asText? ref with
    | some value => .ok (.text value)
    | none => mismatch heap "str" ref
  | .bytes, ref, _ =>
    match heap.asBytes? ref with
    | some value => .ok (.bytes value)
    | none => mismatch heap "bytes" ref
  | .seq element, ref, _ =>
    match heap.items? ref with
    | none => mismatch heap "list" ref
    | some items => do
      let values ← items.zipIdx.mapM fun (item, index) =>
        Refusal.within s!"[{index}]" (valueWith structs element item (program.zero element))
      return .seq values
  | .map _ key value, ref, _ =>
    match heap.dict? ref with
    | none => mismatch heap "dict" ref
    | some table => do
      let entries ← table.entries.foldlM (fun entries entry => do
        let name := heap.text entry.key
        let key ← Refusal.within s!"key {name}"
          (valueWith structs key entry.key (program.zero key))
        let value ← Refusal.within s!"[{name}]"
          (valueWith structs value entry.value (program.zero value))
        return HostValue.insertEntry key value entries) []
      return .map entries
  | .struct id, ref, old => structs id ref old
  | .boxed element, ref, old =>
    let inner := match old with
      | .boxed inner => inner
      | other => other
    return .boxed (← valueWith structs element ref inner)
  | .optional element, ref, _ =>
    if heap.isNone ref then .ok .absent
    else return .present (← valueWith structs element ref (program.zero element))
  | .tuple elements, ref, _ =>
    match heap.items? ref with
    | some items =>
      if items.length = elements.length then
        return .tuple (← elementsWith structs elements items 0)
      else mismatch heap s!"tuple of {elements.length}" ref
    | none => mismatch heap s!"tuple of {elements.length}" ref
  | .object, ref, _ => .ok (.object ref)
  | .keywords, ref, _ =>
    if heap.isDict ref then .ok (.keywords (some ref)) else mismatch heap "dict" ref
  | .sealed id, _, _ => noForm program (.sealed id)

/-- Read the items of a tuple, the first of which has a given position. -/
def elementsWith (structs : Structs) :
    List HostType → List Ref → Nat → Except Refusal (List HostValue)
  | type :: types, item :: items, index => do
    let value ← Refusal.within s!"[{index}]"
      (valueWith structs type item (program.zero type))
    return value :: (← elementsWith structs types items (index + 1))
  | _, _, _ => .ok []

end

/-- Read the fields of a struct from a dict, keeping those that it lacks. -/
def fields (structs : Structs) (owner : String) (table : Dict) :
    List FieldDecl → List HostValue → Except Refusal (List HostValue)
  | field :: rest, old :: olds => do
    let value ←
      match field.exported, table.get? (.text (Name.snake field.name)) with
      | true, some ref =>
        match valueWith program heap structs field.type ref old with
        | .error (.error cause) =>
          .error (.panic (.fieldRefused owner field.name cause.message))
        | result => result
      | _, _ => .ok old
    return value :: (← fields structs owner table rest olds)
  | _, olds => .ok olds

/-- Read a struct, leading at most `depth` times from a dict into another. -/
def struct (registry : RegistryId) : (depth : Nat) → Structs
  | depth, id, ref, old =>
    let decl := program.struct id
    match heap.wrapped? ref with
    | some (value, bridged) =>
      if bridged.registry = registry ∧ bridged.host = id then .ok value
      else .error (.error (.wrongWrapper decl.name (heap.typeName ref)))
    | none =>
      match heap.dict? ref, depth with
      | none, _ => mismatch heap decl.name ref
      | some _, 0 => .error .tooDeep
      | some table, depth + 1 =>
        match old with
        | .struct olds => do
          return .struct
            (← fields program heap (struct registry depth) decl.name table decl.fields olds)
        | other => .ok other

/-- How many dicts can be read as structs, each of them inside the one before. -/
def depth : Nat := (program.structs.length + 1) * (heap.size + 1)

/-- Read an object as a value of a type, merging it into an old value. -/
def value (registry : RegistryId) (type : HostType) (ref : Ref) (old : HostValue) :
    Except Refusal HostValue :=
  valueWith program heap (struct program heap registry (depth program heap)) type ref old

/-- Read an object as a fresh value of a type. -/
def fresh (registry : RegistryId) (type : HostType) (ref : Ref) : Except Refusal HostValue :=
  value program heap registry type ref (program.zero type)

section

variable {program heap} {registry : RegistryId} {id : StructId} {element : HostType} {ref : Ref}

/-- An optional is read as its payload is, unless the object stands for nothing. -/
theorem fresh_optional :
    fresh program heap registry (.optional element) ref =
      if heap.isNone ref then .ok .absent
      else HostValue.present <$> fresh program heap registry element ref := by
  unfold fresh value
  rw [valueWith]
  split
  · rfl
  · cases valueWith program heap (struct program heap registry (depth program heap)) element ref
      (program.zero element) <;> rfl

/-- A box is read as what it holds. -/
theorem fresh_boxed :
    fresh program heap registry (.boxed element) ref =
      HostValue.boxed <$> fresh program heap registry element ref := by
  have zero : program.zero (.boxed element) = .boxed (program.zero element) := rfl
  unfold fresh value
  rw [zero, valueWith]
  cases valueWith program heap (struct program heap registry (depth program heap)) element ref
    (program.zero element) <;> rfl

/-- A wrapper is read at any depth. -/
theorem struct_of_wrapped {part : HostValue} {bridged : BridgedType}
    (wrapped : heap.wrapped? ref = some (part, bridged)) (depth : Nat) (old : HostValue) :
    struct program heap registry depth id ref old =
      if bridged.registry = registry ∧ bridged.host = id then .ok part
      else .error (.error (.wrongWrapper (program.struct id).name (heap.typeName ref))) := by
  unfold struct
  rw [wrapped]

/-- A dict is read at any depth but the least. -/
theorem struct_of_dict {table : Dict} {olds : List HostValue}
    (plain : heap.wrapped? ref = none) (body : heap.dict? ref = some table) (depth : Nat) :
    struct program heap registry (depth + 1) id ref (.struct olds) = (do
      return .struct (← fields program heap (struct program heap registry depth)
        (program.struct id).name table (program.struct id).fields olds)) := by
  unfold struct
  rw [plain, body]

end

end Decode

end HostBridge
