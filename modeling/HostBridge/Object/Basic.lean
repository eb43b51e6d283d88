import HostBridge.Host.Value
import HostBridge.Object.Dict

/-!
# Runtime objects

The kinds of runtime objects and the native definitions that functions and heap
types are made of.  A native definition does not hold code: it names an entry
point, either one of the bridge or one that the host program supplies under a
name, and the operations that run entry points look the name up.

`Body.references` lists the references that an object owns, in the order in
which it gives them up when it goes away.
-/

namespace HostBridge

/-- A registry of the bridge, by its number. -/
structure RegistryId where
  number : Nat
  deriving DecidableEq, Repr, Inhabited

/-- An interpreter, by its number. -/
structure InterpreterId where
  number : Nat
  deriving DecidableEq, Repr, Inhabited

/-! ## Slots -/

/-- What a slot leads to; items of the host program are given by their place
among its declarations. -/
inductive SlotRole where
  | construct (maker : Nat)
  | get (owner : StructId) (field : Nat)
  | set (owner : StructId) (field : Nat)
  | method (owner : StructId) (index : Nat)
  /-- A host function with the state that it has captured. -/
  | function (code : Nat) (captured : HostValue)
  deriving Inhabited

/-- An exported item. -/
structure Slot where
  id : Nat
  /-- The declared name. -/
  name : String
  /-- The name that runtime code uses. -/
  exposed : String
  doc : String
  role : SlotRole
  deriving Inhabited

/-- The objects that the captured state of a slot holds. -/
def Slot.references (slot : Slot) : List Ref :=
  match slot.role with
  | .function _ captured => captured.references
  | _ => []

/-- What connects a runtime type to a host struct. -/
structure BridgedType where
  registry : RegistryId
  host : StructId
  name : String
  slots : List Slot
  /-- The slot of the constructor. -/
  maker : Option Nat
  /-- The state that the constructor has captured. -/
  captured : HostValue
  deriving Inhabited

/-- Where the host value of a wrapper lives. -/
inductive Held where
  | owned (value : HostValue)
  /-- Inside the value of the wrapper `root`, at a path.  The `anchor` is the
  wrapper that this one was read from; it is held so that it stays alive. -/
  | alias (anchor root : Ref) (path : List Nat)
  deriving Inhabited

/-- The references that a held value owns. -/
def Held.references : Held → List Ref
  | .owned value => value.references
  | .alias anchor _ _ => [anchor]

/-- Extension data attached to an object. -/
inductive Payload where
  /-- A cell with an integer in it. -/
  | counter (value : Int)
  | text (value : String)
  /-- The functions that the bridge has exported into a module. -/
  | slotTable (registry : RegistryId) (slots : List Slot)
  /-- The host struct behind a type. -/
  | bridged (type : BridgedType)
  /-- A function outside any slot table. -/
  | adHoc (registry : RegistryId) (slot : Slot)
  /-- The host value behind an instance. -/
  | wrapper (registry : RegistryId) (held : Held)
  deriving Inhabited

/-- The references that extension data owns. -/
def Payload.references : Payload → List Ref
  | .counter _ | .text _ => []
  | .slotTable _ slots => slots.flatMap Slot.references
  | .bridged type => type.slots.flatMap Slot.references ++ type.captured.references
  | .adHoc _ slot => slot.references
  | .wrapper _ held => held.references

/-! ## Native definitions -/

/-- Entry point of a function. -/
inductive Entry where
  /-- A slot of whatever the function is bound to. -/
  | slot (id : Nat)
  /-- The slot in the capsule that the function is bound to. -/
  | adHoc
  | native (name : String)
  deriving DecidableEq, Repr, Inhabited

/-- Entry point of an accessor, a constructor or an allocator. -/
inductive Handler where
  | bridge
  | native (name : String)
  deriving DecidableEq, Repr, Inhabited

/-- What happens when an instance goes away. -/
inductive Finalizer where
  /-- The bridge takes the wrapper off its roster. -/
  | bridge
  /-- The release is reported as an event. -/
  | report
  deriving DecidableEq, Repr, Inhabited

/-- A named native callable. -/
structure MethodDef where
  name : String
  entry : Entry
  doc : String
  signature : Option String
  deriving DecidableEq, Repr, Inhabited

/-- A computed attribute.  The closures are handed to the entry points. -/
structure AccessorDef where
  name : String
  getter : Handler
  setter : Option Handler
  doc : String
  getClosure : Nat
  setClosure : Nat
  deriving DecidableEq, Repr, Inhabited

/-- A heap type. -/
structure TypeBody where
  name : String
  doc : String
  methods : List MethodDef
  accessors : List AccessorDef
  maker : Option Handler
  allocator : Option Handler
  finalizer : Option Finalizer
  context : Option Payload
  deriving Inhabited

namespace TypeBody

def accessor? (type : TypeBody) (name : String) : Option AccessorDef :=
  type.accessors.find? (·.name = name)

def method? (type : TypeBody) (name : String) : Option MethodDef :=
  type.methods.find? (·.name = name)

end TypeBody

/-- A module. -/
structure ModuleBody where
  name : String
  doc : String
  /-- In the order in which they were defined. -/
  globals : List (String × Ref)
  state : Option Payload
  deriving Inhabited

/-- What a function hands to its entry point as itself. -/
inductive Owner where
  | bound (ref : Ref)
  /-- The module of a function; the function does not keep it alive. -/
  | module (ref : Ref)
  deriving DecidableEq, Repr, Inhabited

/-! ## Objects -/

/-- The contents of a runtime object. -/
inductive Body where
  | none
  | bool (value : Bool)
  | int (value : Int)
  | float (value : Binary64)
  | complex (real imaginary : Binary64)
  | text (value : String)
  | bytes (value : List UInt8)
  | list (items : List Ref)
  | tuple (items : List Ref)
  | dict (table : Dict)
  | module (contents : ModuleBody)
  | function (definition : MethodDef) (owner : Owner)
  | type (shape : TypeBody)
  | capsule (name : String) (payload : Payload)
  | instance (type : Ref) (state : Option Payload)
  deriving Inhabited

namespace Body

/-- The references that an object owns. -/
def references : Body → List Ref
  | .list items => items
  | .tuple items => items
  | .dict table => table.references
  | .module contents =>
    contents.globals.map (·.2) ++ (contents.state.map Payload.references).getD []
  | .function _ (.bound ref) => [ref]
  | .type shape => (shape.context.map Payload.references).getD []
  | .capsule _ payload => payload.references
  | .instance shape state => (state.map Payload.references).getD [] ++ [shape]
  | _ => []

end Body

end HostBridge
