import HostBridge.Exception
import HostBridge.Object.Heap

/-!
# Looking at objects

Checks and reads that leave everything as it is: the kind of an object, its
scalar value, the items of a sequence, the native parts of modules, functions,
capsules, types and instances.
-/

namespace HostBridge.Heap

/-- The name of an object's type. -/
def typeName (heap : Heap) (ref : Ref) : String :=
  match heap.body ref with
  | .none => "NoneType"
  | .bool _ => "bool"
  | .int _ => "int"
  | .float _ => "float"
  | .complex _ _ => "complex"
  | .text _ => "str"
  | .bytes _ => "bytes"
  | .list _ => "list"
  | .tuple _ => "tuple"
  | .dict _ => "dict"
  | .module _ => "module"
  | .function _ _ => "builtin_function_or_method"
  | .type _ => "type"
  | .capsule _ _ => "capsule"
  | .instance type _ =>
    match heap.body type with
    | .type shape => shape.name
    | _ => "object"

/-! ## Kinds -/

def isNone (heap : Heap) (ref : Ref) : Bool := heap.body ref matches .none

def isDict (heap : Heap) (ref : Ref) : Bool := heap.body ref matches .dict _

def isModule (heap : Heap) (ref : Ref) : Bool := heap.body ref matches .module _

def isType (heap : Heap) (ref : Ref) : Bool := heap.body ref matches .type _

def isCapsule (heap : Heap) (ref : Ref) : Bool := heap.body ref matches .capsule _ _

/-- Whether a call can succeed. -/
def isCallable (heap : Heap) (ref : Ref) : Bool :=
  match heap.body ref with
  | .function _ _ | .type _ => true
  | _ => false

/-! ## Scalars -/

def asBool? (heap : Heap) (ref : Ref) : Option Bool :=
  match heap.body ref with
  | .bool value => some value
  | _ => none

/-- The value of an integer; a truth value is none. -/
def asInt? (heap : Heap) (ref : Ref) : Option Int :=
  match heap.body ref with
  | .int value => some value
  | _ => none

/-- The value of a real number, an integer being widened. -/
def asFloat? (heap : Heap) (ref : Ref) : Option Binary64 :=
  match heap.body ref with
  | .float value => some value
  | .int value => some (.ofInt value)
  | _ => none

def asComplex? (heap : Heap) (ref : Ref) : Option (Binary64 × Binary64) :=
  match heap.body ref with
  | .complex real imaginary => some (real, imaginary)
  | _ => none

def asText? (heap : Heap) (ref : Ref) : Option String :=
  match heap.body ref with
  | .text value => some value
  | _ => none

def asBytes? (heap : Heap) (ref : Ref) : Option (List UInt8) :=
  match heap.body ref with
  | .bytes value => some value
  | _ => none

/-! ## Containers -/

/-- The items of a list or a tuple. -/
def items? (heap : Heap) (ref : Ref) : Option (List Ref) :=
  match heap.body ref with
  | .list items => some items
  | .tuple items => some items
  | _ => none

/-- The contents of a dict. -/
def dict? (heap : Heap) (ref : Ref) : Option Dict :=
  match heap.body ref with
  | .dict table => some table
  | _ => none

/-- The number of entries of a dict, zero for anything else. -/
def dictSize (heap : Heap) (ref : Ref) : Nat := ((heap.dict? ref).map Dict.size).getD 0

/-- The value under a string key; nothing if the object is no dict. -/
def dictText? (heap : Heap) (ref : Ref) (key : String) : Option Ref :=
  (heap.dict? ref).bind (·.get? (.text key))

/-- The length of a container, of text in characters. -/
def length (heap : Heap) (ref : Ref) : Except Exception Nat :=
  match heap.body ref with
  | .list items => .ok items.length
  | .tuple items => .ok items.length
  | .dict table => .ok table.size
  | .text value => .ok value.length
  | .bytes value => .ok value.length
  | _ => .error (.noLength (heap.typeName ref))

/-! ## Native parts -/

def module? (heap : Heap) (ref : Ref) : Option ModuleBody :=
  match heap.body ref with
  | .module contents => some contents
  | _ => none

def type? (heap : Heap) (ref : Ref) : Option TypeBody :=
  match heap.body ref with
  | .type shape => some shape
  | _ => none

/-- The type of an instance. -/
def instanceType? (heap : Heap) (ref : Ref) : Option Ref :=
  match heap.body ref with
  | .instance type _ => some type
  | _ => none

/-- The state of an instance. -/
def instanceState? (heap : Heap) (ref : Ref) : Option Payload :=
  match heap.body ref with
  | .instance _ state => state
  | _ => none

def moduleState? (heap : Heap) (ref : Ref) : Option Payload :=
  (heap.module? ref).bind (·.state)

def typeContext? (heap : Heap) (ref : Ref) : Option Payload :=
  (heap.type? ref).bind (·.context)

/-- The data in a capsule. -/
def capsule? (heap : Heap) (ref : Ref) : Option Payload :=
  match heap.body ref with
  | .capsule _ payload => some payload
  | _ => none

/-- The global of a module under a name. -/
def global? (heap : Heap) (ref : Ref) (name : String) : Option Ref :=
  (heap.module? ref).bind (·.globals.lookup name)

/-- The names that a module defines, in order. -/
def globalNames (heap : Heap) (ref : Ref) : List String :=
  ((heap.module? ref).map (·.globals.map (·.1))).getD []

end HostBridge.Heap
