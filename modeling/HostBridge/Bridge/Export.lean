import HostBridge.Interpreter.Lifecycle
import HostBridge.Object.Call

/-!
# Exporting host items

A bridge connects a host program with an interpreter.  All bridges of one
interpreter share one registry, which is emptied when the interpreter finalizes.

Structs become heap types: a slot for the constructor if there is one, two slots
for each exported field, and one slot for each method.  A struct that is reached
from a field, directly or behind boxes and optionals, is registered along with
it under its declared name.  A type enters the registry before the fields are
looked at, so structs that refer to each other come to an end.

Functions become slots of a module, or travel in a capsule of their own.  A
misuse of these operations is reported as a panic.
-/

namespace HostBridge

/-- A handle that exports into an interpreter. -/
structure Bridge where
  interpreter : InterpreterId
  registry : RegistryId
  deriving DecidableEq, Repr

/-- How many slots a type or a module has room for. -/
def slotCapacity : Nat := 256

/-- A host function that is to be exported, with the state that it captures. -/
structure Export where
  code : Nat
  captured : HostValue
  deriving Inhabited

/-- The slots of a struct: constructor, fields, methods. -/
structure SlotPlan where
  slots : List Slot
  accessors : List AccessorDef
  methods : List Slot

namespace Program

variable (program : Program)

/-! ## Bridges -/

/-- Connect with an interpreter; its registry is made when it is first needed. -/
def connect (id : InterpreterId) : Op Bridge := do
  let registry ←
    match (← Op.interpreter id).extensions.bridge with
    | some registry => do
      Op.change (·.updateRegistry registry fun entry => { entry with owners := entry.owners + 1 })
      pure registry
    | none => do
      let registry : RegistryId := ⟨(← Op.world).registries.size⟩
      Op.change fun world =>
        { world with registries := world.registries.push { Registry.empty with owners := 2 } }
      Op.setExtensions id fun extensions => { extensions with bridge := some registry }
      Op.addHook id (.clearRegistry registry)
      Op.note .debug "bridge context installed"
      pure registry
  Op.retainInterpreter id
  return ⟨id, registry⟩

/-- Let a bridge go. -/
def disconnect (bridge : Bridge) : Op Unit :=
  (Op.dropInterpreter bridge.interpreter).always (·.dropRegistry bridge.registry)

/-- The slot table of a module, which is made when it is first needed. -/
def slotTable (registry : RegistryId) (module : Ref) : Op (List Slot) := do
  match (← Op.heap).moduleState? module with
  | some (.slotTable _ slots) => return slots
  | some _ => Op.raise .foreignModuleState
  | none => do
    Op.setModuleState module (.slotTable registry [])
    return []

/-- Make a module and register it. -/
def createModule (bridge : Bridge) (name doc : String) : Op Ref := do
  let module ← Op.createModule name doc
  (do
    Op.addModule bridge.interpreter module
    let _ ← slotTable bridge.registry module
    Op.note .debug s!"created module '{name}'").undoing (·.release module)
  return module

/-! ## Types -/

/-- A slot for an item; the exposed name is the declared one in snake case. -/
def plainSlot (id : Nat) (name doc : String) (role : SlotRole) : Slot :=
  { id, name, exposed := Name.snake name, doc, role }

/-- The places of the exported fields of a struct, with their names. -/
def exportedFields (decl : StructDecl) : List (FieldDecl × Nat) :=
  decl.fields.zipIdx.filter (·.1.exported)

/-- Slots for the exported fields, the first slot having a given number. -/
def fieldSlots (id : StructId) (first : Nat) (fields : List (FieldDecl × Nat)) :
    List Slot × List AccessorDef :=
  let numbered := fields.zipIdx.map fun ((field, index), place) =>
    (field, index, first + 2 * place)
  (numbered.flatMap fun (field, index, slot) =>
      [plainSlot slot field.name "" (.get id index),
        plainSlot (slot + 1) field.name "" (.set id index)],
    numbered.map fun (field, _, slot) =>
      { name := Name.snake field.name, getter := .bridge, setter := some .bridge, doc := "",
        getClosure := slot, setClosure := slot + 1 })

/-- The slots of a struct. -/
def plan (id : StructId) (maker : Option Nat) : SlotPlan :=
  let decl := program.struct id
  let construct := maker.toList.map fun code => plainSlot 0 "__init__" "" (.construct code)
  let (fields, accessors) := fieldSlots id construct.length (exportedFields decl)
  let first := construct.length + fields.length
  let methods := decl.methods.zipIdx.map fun (method, index) =>
    plainSlot (first + index) method.name method.doc (.method id index)
  ⟨construct ++ fields ++ methods, accessors, methods⟩

/-- The definition of a function that runs a slot. -/
def definition (entry : Entry) (slot : Slot) : MethodDef :=
  ⟨slot.exposed, entry, slot.doc, some (program.signature slot)⟩

/-- What connects the heap type for a struct with given slots to the struct. -/
def bridgedType (registry : RegistryId) (id : StructId) (name : String) (maker : Option Nat)
    (plan : SlotPlan) : BridgedType :=
  { registry, host := id, name, slots := plan.slots, maker := maker.map fun _ => 0
    captured := .unit }

/-- The heap type for a struct with given slots. -/
def typeBody (registry : RegistryId) (id : StructId) (name doc : String)
    (maker : Option Nat) (plan : SlotPlan) : TypeBody :=
  { name, doc
    methods := plan.methods.map fun slot => program.definition (.slot slot.id) slot
    accessors := plan.accessors
    maker := maker.map fun _ => .bridge
    allocator := some .bridge
    finalizer := some .bridge
    context := some (.bridged (bridgedType registry id name maker plan)) }

end Program

/-- A type whose constructor holds on to a state. -/
def BridgedType.holding (captured : HostValue) (bridged : BridgedType) : BridgedType :=
  { bridged with captured }

/-- A type whose constructor holds on to a state. -/
def TypeBody.holding (captured : HostValue) (shape : TypeBody) : TypeBody :=
  { shape with context := shape.context.map fun
    | .bridged bridged => .bridged (bridged.holding captured)
    | other => other }

namespace Program

variable (program : Program)

/-- The name of a module in log records. -/
def moduleName (heap : Heap) (module : Ref) : String :=
  ((heap.module? module).map (·.name)).getD "?"

/-- Turn an exception into the panic that it causes. -/
def orPanic (action : Op α) (misuse : Exception → Misuse) : Op α :=
  Op.ofFunction fun world =>
    match action.run world with
    | (.error (.raised exception), world) =>
      (.error (.panicked (misuse exception)), world)
    | result => result

/-- Make the heap type for a struct, register it and publish it in a module.  The structs that
its fields lead to are registered then, each by `enter` with its declared name.  The handle
stays with the registry. -/
def registerStructBy (registry : RegistryId) (module : Ref) (enter : StructId → String → Op Ref)
    (id : StructId) (name doc : String) (maker : Option Nat) (captured : HostValue) : Op Ref := do
  let decl := program.struct id
  match maker with
  | some code =>
    Op.note .trace s!"{decl.name}: constructor {(program.maker code).name} at slot 0"
  | none => pure ()
  let plan := program.plan id maker
  if slotCapacity < plan.slots.length then
    Op.panic (.tooManySlots decl.name plan.slots.length slotCapacity)
  let type ← Op.createType ((program.typeBody registry id name doc maker plan).holding captured)
  Op.change (·.updateRegistry registry
    (.enroll type ((bridgedType registry id name maker plan).holding captured)))
  orPanic (Op.addObject module name type) (.typeNotPublished name)
  Op.note .debug s!"registered {decl.name} as {moduleName (← Op.heap) module}.{name}"
  (exportedFields decl).forM fun (field, _) => do
    match field.type.nested? with
    | none => pure ()
    | some nested =>
      match ← Op.handle? registry nested with
      | some _ => pure ()
      | none =>
        let nestedName := (program.struct nested).name
        Op.note .debug s!"registering {nestedName} for field {decl.name}.{field.name}"
        let _ ← enter nested nestedName
  return type

/-- Register a struct and those that its fields lead to, at most `depth` of them
one from the field of another. -/
def registerStruct (registry : RegistryId) (module : Ref) :
    (depth : Nat) → StructId → (name doc : String) → (maker : Option Nat) → Op Ref
  | 0, _, _, _, _ => throw .exhausted
  | depth + 1, id, name, doc, maker =>
    program.registerStructBy registry module
      (fun nested name => registerStruct registry module depth nested name "" none)
      id name doc maker .unit

/-- Register a type by `enter`, or find it registered. -/
def registerBy (registry : RegistryId) (type : HostType) (enter : StructId → Op Ref) : Op Ref := do
  match type.unboxed with
  | .struct id =>
    match ← Op.handle? registry id with
    | some handle => Op.retain handle
    | none => do
      Op.retain (← enter id)
  | other =>
    Op.panic (.notAStruct (program.typeName other))

/-- Register a type, or find it registered. -/
def register (registry : RegistryId) (type : HostType) (module : Ref) (name doc : String)
    (maker : Option Nat) : Op Ref :=
  program.registerBy registry type fun id =>
    program.registerStruct registry module program.structs.length id name doc maker

/-- Export a struct, with the zero value for new instances. -/
def registerType (bridge : Bridge) (type : HostType) (module : Ref) (name doc : String) :
    Op Ref :=
  program.register bridge.registry type module name doc none

/-- Accept a constructor: a factory has to return its type or a box of it. -/
def classify (code : Nat) : Op MakerDecl := do
  let maker := program.maker code
  if maker.style = .factory ∧ maker.result ≠ maker.subject ∧
      maker.result ≠ .boxed maker.subject then
    Op.panic (.wrongProduct maker.name (program.typePath maker.subject)
      (program.typePath maker.result))
  return maker

/-- The runtime type registered for a host type. -/
def typeHandle? (registry : RegistryId) (type : HostType) : Op (Option Ref) := do
  match type with
  | .struct id => Op.handle? registry id
  | _ => return none

/-- Export the type that a constructor makes, by `enter`, if it is not found registered. -/
def registerMade (registry : RegistryId) (code : Nat) (enter : StructId → Op Ref) : Op Ref := do
  let type := (program.maker code).subject
  match ← typeHandle? registry type with
  | some handle => Op.retain handle
  | none => do
    let _ ← program.classify code
    program.registerBy registry type enter

/-- Export the type that a constructor makes, with that constructor. -/
def registerTypeWith (bridge : Bridge) (code : Nat) (module : Ref) (name doc : String) : Op Ref :=
  program.registerMade bridge.registry code fun id =>
    program.registerStruct bridge.registry module program.structs.length id name doc (some code)

/-- Export the type that a constructor makes, with that constructor and the state that it has
captured. -/
def registerTypeHolding (bridge : Bridge) (item : Export) (module : Ref) (name doc : String) :
    Op Ref :=
  program.registerMade bridge.registry item.code fun id =>
    program.registerStructBy bridge.registry module
      (fun nested name => program.registerStruct bridge.registry module program.structs.length
        nested name "" none)
      id name doc (some item.code) item.captured

/-! ## Functions -/

/-- The slot of an exported function.  The exposed name must not be among the
names that the module defines. -/
def functionSlot (id : Nat) (item : Export) (name doc : String) (names : List String) : Slot :=
  let declared := (program.function item.code).name
  { id
    name := if name = "" then declared else name
    exposed := Name.derive name declared names
    doc
    role := .function item.code item.captured }

/-- Export a function as a global of a module. -/
def registerFunction (bridge : Bridge) (module : Ref) (item : Export) (name doc : String) :
    Op Ref := do
  let moduleText := (← Op.heap).text module
  let slots ← orPanic (slotTable bridge.registry module) (.noSlotTable moduleText)
  let slot := program.functionSlot slots.length item name doc ((← Op.heap).globalNames module)
  if slotCapacity ≤ slots.length then Op.panic (.noFreeSlot moduleText)
  let function ← orPanic (Op.addFunction module (program.definition (.slot slot.id) slot))
    (.functionNotPublished slot.exposed)
  Op.change fun world =>
    match world.heap.module? module with
    | some contents =>
      match contents.state with
      | some (.slotTable registry slots) =>
        world.replace module (.module
          { contents with state := some (.slotTable registry (slots ++ [slot])) })
      | _ => world
    | none => world
  let result := program.typeName (program.function item.code).result
  let moduleName := moduleName (← Op.heap) module
  Op.note .debug
    s!"registered function {moduleName}.{slot.exposed} -> {result} at slot {slot.id}"
  return function

/-- Export a function as a global of the main module, outside any slot table. -/
def createFunction (bridge : Bridge) (item : Export) (name doc : String) : Op Ref := do
  let main := (← Op.interpreter bridge.interpreter).main
  let slot := program.functionSlot 0 item name doc ((← Op.heap).globalNames main)
  let capsule ← Op.create (.capsule slot.exposed (.adHoc bridge.registry slot))
  let function ← (Op.createFunction (program.definition .adHoc slot) capsule).always
    (·.release capsule)
  (orPanic (Op.addObject main slot.exposed function)
    (.functionNotPublished slot.exposed)).undoing (·.release function)
  Op.note .debug s!"created function {slot.exposed}"
  return function

/-! ## Values -/

/-- The handle of the runtime type for a host type, with a reference for the caller. -/
def typeOf (bridge : Bridge) (type : HostType) : Op (Option Ref) := do
  Op.retainOption (← typeHandle? bridge.registry type)

/-- Whether an object is the handle of a type that is registered with a bridge. -/
def isBridged (bridge : Bridge) (ref : Ref) : Op Bool :=
  return ((← Op.world).registry bridge.registry).isHandle ref

/-- Make the runtime object for an owned value, and let the value go. -/
def toObject (bridge : Bridge) (type : HostType) (value : HostValue) : Op Ref :=
  (Encode.value program bridge.registry type value).always (·.releaseAll value.references)

/-- Read an object as a value, which the caller comes to own. -/
def fromObject (bridge : Bridge) (type : HostType) (ref : Ref) :
    Op (Except ConversionError HostValue) := do
  match Decode.fresh program (← Op.heap) bridge.registry type ref with
  | .ok value => return .ok (← Op.adopt value)
  | .error (.error cause) => return .error cause
  | .error (.panic misuse) => Op.panic misuse
  | .error .tooDeep => throw .exhausted

/-- The zero value of a type, which the caller comes to own. -/
def zeroValue (type : HostType) : Op HostValue := Op.adopt (program.zero type)

/-- Why a call from host code has no result. -/
inductive CallError where
  | conversion (cause : ConversionError)
  | runtime (exception : Exception)

/-- Read the result of a call as a value, and let the result go. -/
def readResult (bridge : Bridge) (type : HostType) (ref : Ref) :
    Op (Except CallError HostValue) := do
  match ← (program.fromObject bridge type ref).always (·.release ref) with
  | .ok value => return .ok value
  | .error cause => return .error (.conversion cause)

/-- Call an object and read its result as a value. -/
def callAs (bridge : Bridge) (type : HostType) (callee : Ref) (positional : List Ref) :
    Op (Except CallError HostValue) :=
  Op.ofFunction fun world =>
    match (program.call callee positional none).run world with
    | (.ok ref, world) => (program.readResult bridge type ref).run world
    | (.error (.raised exception), world) => (.ok (.error (.runtime exception)), world)
    | (.error fault, world) => (.error fault, world)

/-- The value behind a wrapper of a type, if it is one of this bridge. -/
def valueBehind (bridge : Bridge) (type : HostType) (ref : Ref) : Op (Option HostValue) := do
  match (← Op.heap).wrapped? ref with
  | some (value, bridged) =>
    if bridged.registry = bridge.registry ∧ type = .struct bridged.host then
      return some value
    else return none
  | none => return none

/-- Change the value behind a wrapper of a type in place. -/
def updateBehind (bridge : Bridge) (type : HostType) (ref : Ref)
    (update : HostValue → HostValue) : Op Bool := do
  match ← valueBehind bridge type ref with
  | some value => do
    Op.exchange ref [] (← Op.adopt (update value))
    return true
  | none => return false

/-- The number of live wrappers. -/
def liveInstances (bridge : Bridge) : Op Nat :=
  return ((← Op.world).registry bridge.registry).roster.size

end Program

end HostBridge
