import HostBridge.Bridge.Invoke

/-!
# Attributes

Reading and writing attributes.  An instance has the accessors and the methods
of its type, accessors first; a method is read as a new function bound to the
instance.  Modules have their globals.  Modules, types and functions also have a
few attributes of their own, and only instances and modules can be written to.
-/

namespace HostBridge.Program

variable (program : Program)

/-- Run the read entry point of an accessor. -/
def runGetter (accessor : AccessorDef) (self : Ref) : Op Ref :=
  match accessor.getter with
  | .bridge => program.readField self accessor.getClosure
  | .native name => program.natives.getter name self accessor.getClosure

/-- Run the write entry point of an accessor. -/
def runSetter (setter : Handler) (accessor : AccessorDef) (self value : Ref) : Op Unit :=
  match setter with
  | .bridge => program.writeField self value accessor.setClosure
  | .native name => program.natives.setter name self value accessor.setClosure

/-- Make a text object. -/
def makeText (text : String) : Op Ref := Op.place (.text text)

/-- Read an attribute. -/
def getAttribute (self : Ref) (name : String) : Op Ref := do
  let heap ← Op.heap
  let missing : Op Ref := Op.raise (.noAttribute (heap.typeName self) name)
  match heap.body self with
  | .instance type _ =>
    match heap.type? type with
    | none => missing
    | some shape =>
      match shape.accessor? name, shape.method? name with
      | some accessor, _ => program.runGetter accessor self
      | none, some method => Op.createFunction method self
      | none, none => if name = "__class__" then Op.retain type else missing
  | .module contents =>
    match contents.globals.lookup name with
    | some value => Op.retain value
    | none =>
      match name with
      | "__name__" => makeText contents.name
      | "__doc__" => makeText contents.doc
      | _ => Op.raise (.moduleHasNoAttribute contents.name name)
  | .type shape =>
    match name with
    | "__name__" => makeText shape.name
    | "__doc__" => makeText shape.doc
    | _ => missing
  | .function definition owner =>
    match name with
    | "__name__" => makeText definition.name
    | "__doc__" => makeText definition.doc
    | "__text_signature__" =>
      match definition.signature with
      | some signature => makeText signature
      | none => Op.retain .none
    | "__self__" => Op.functionOwner owner
    | _ => missing
  | _ => missing

/-- Whether an attribute can be read. -/
def hasAttribute (self : Ref) (name : String) : Op Bool :=
  Op.ofFunction fun world =>
    match (program.getAttribute self name).run world with
    | (.ok ref, world) => (.ok true, world.release ref)
    | (.error (.raised _), world) => (.ok false, world)
    | (.error fault, world) => (.error fault, world)

/-- Write an attribute. -/
def setAttribute (self : Ref) (name : String) (value : Ref) : Op Unit := do
  let heap ← Op.heap
  match heap.body self with
  | .instance type _ =>
    match (heap.type? type).bind (·.accessor? name) with
    | none => Op.raise (.noAttribute (heap.typeName self) name)
    | some accessor =>
      match accessor.setter with
      | none => Op.raise (.notWritable (heap.typeName self) name)
      | some setter => program.runSetter setter accessor self value
  | .module contents =>
    let globals :=
      if (contents.globals.lookup name).isSome then
        contents.globals.map fun (key, old) => (key, if key = name then value else old)
      else contents.globals ++ [(name, value)]
    Op.change (·.replace self (.module { contents with globals }))
  | _ => Op.raise (.readOnly (heap.typeName self) name)

end HostBridge.Program
