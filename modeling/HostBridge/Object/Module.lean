import HostBridge.World
import HostBridge.Object.Inspect

/-!
# Modules, capsules and heap types

Operations that make native objects and those on the globals and the state of a
module.  A global can be defined once; assigning an attribute later is a matter
of the attribute protocol.  State is attached once, too.
-/

namespace HostBridge.Op

/-- Make an empty module. -/
def createModule (name doc : String) : Op Ref := create (.module ⟨name, doc, [], none⟩)

/-- The contents of a module. -/
def module (ref : Ref) : Op ModuleBody := do
  let heap ← heap
  match heap.module? ref with
  | some contents => return contents
  | none => raise (.expectedModule (heap.typeName ref))

/-- Define a global of a module. -/
def addObject (ref : Ref) (name : String) (value : Ref) : Op Unit := do
  let contents ← module ref
  if (contents.globals.lookup name).isSome then raise (.nameTaken contents.name name)
  else
    let globals := contents.globals ++ [(name, value)]
    change (·.replace ref (.module { contents with globals }))

/-- Define a native function as a global of a module.  The function knows its
module but does not keep it alive. -/
def addFunction (ref : Ref) (definition : MethodDef) : Op Ref := do
  let _ ← module ref
  let function ← create (.function definition (.module ref))
  (addObject ref definition.name function).undoing (·.release function)
  return function

/-- Remove all globals of a module. -/
def clearModule (ref : Ref) : Op Unit :=
  change fun world =>
    match world.heap.module? ref with
    | some contents => world.replace ref (.module { contents with globals := [] })
    | none => world

/-- Attach state to a module. -/
def setModuleState (ref : Ref) (state : Payload) : Op Unit := do
  let contents ← module ref
  if contents.state.isSome then raise .moduleStateSet
  else change (·.replace ref (.module { contents with state := some state }))

/-- Make a function that is bound to an object. -/
def createFunction (definition : MethodDef) (self : Ref) : Op Ref :=
  create (.function definition (.bound self))

/-- What a function hands to its entry point as itself, with a reference for the
caller. -/
def functionOwner (owner : Owner) : Op Ref := do
  match owner with
  | .bound ref => retain ref
  | .module ref => if (← heap).holds ref then retain ref else raise .moduleReleased

/-- Make a heap type. -/
def createType (shape : TypeBody) : Op Ref := do
  note .debug s!"new type '{shape.name}'"
  create (.type shape)

/-- Make an instance of a heap type without state. -/
def createInstance (type : Ref) : Op Ref := do
  let heap ← heap
  if heap.isType type then create (.instance type none)
  else raise (.notAllocatable (heap.typeName type))

/-- Attach state to an instance. -/
def setInstanceState (ref : Ref) (state : Payload) : Op Unit := do
  let heap ← heap
  match heap.body ref with
  | .instance type none => change (·.replace ref (.instance type (some state)))
  | .instance _ (some _) => raise .instanceStateSet
  | _ => raise (.notAnInstance (heap.typeName ref))

end HostBridge.Op
