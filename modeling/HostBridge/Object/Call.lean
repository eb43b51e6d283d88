import HostBridge.Interpreter.Queue
import HostBridge.Object.Attribute

/-!
# Calls

Functions and types can be called.  Before a call the queue of deferred releases
is worked off if a batch is full.  Calling a type allocates an instance and runs
the constructor on it; if the constructor faults the instance is released.

Host code can call back, so the depth of calls within calls is given.
-/

namespace HostBridge.Program

variable (program : Program)

/-- The depth of calls within calls that is granted to a call from outside. -/
def callDepth : Nat := 1000

/-- Allocate an instance of a type. -/
def allocate (shape : TypeBody) (type : Ref) : Op Ref :=
  match shape.allocator with
  | none => Op.createInstance type
  | some .bridge => program.allocateWrapper type
  | some (.native name) => program.natives.allocator name type

/-- Run the constructor of a type on an instance. -/
def runMaker (callback : Callback) (shape : TypeBody) (self : Ref) (positional : List Ref)
    (keywords : Option Ref) : Op Unit := do
  match shape.maker with
  | some .bridge => program.construct callback self positional keywords
  | some (.native name) => program.natives.maker name self positional keywords
  | none =>
    let heap ← Op.heap
    let given := (keywords.map heap.dictSize).getD 0
    if !positional.isEmpty || 0 < given then Op.raise (.takesNoArguments shape.name)

/-- Make an instance of a type. -/
def instantiate (callback : Callback) (type : Ref) (shape : TypeBody) (positional : List Ref)
    (keywords : Option Ref) : Op Ref := do
  let self ← program.allocate shape type
  (program.runMaker callback shape self positional keywords).undoing (·.release self)
  return self

/-- Run the entry point of a function. -/
def runEntry (callback : Callback) (entry : Entry) (self : Ref) (positional : List Ref)
    (keywords : Option Ref) : Op Ref :=
  match entry with
  | .slot id => program.dispatch callback self id positional keywords
  | .adHoc => program.dispatchAdHoc callback self positional keywords
  | .native name => program.natives.function name self positional keywords

/-- Call an object with positional arguments and perhaps a dict of keyword
arguments, calls within it nesting at most `depth` deep. -/
def callWithin : (depth : Nat) → Ref → List Ref → Option Ref → Op Ref
  | 0, _, _, _ => throw .exhausted
  | depth + 1, callee, positional, keywords => do
    let heap ← Op.heap
    match keywords with
    | some dict =>
      if !heap.isDict dict then Op.raise (.keywordsNotDict (heap.typeName dict))
    | none => pure ()
    Op.drainIfDue
    let callback : Callback := fun callee arguments => callWithin depth callee arguments none
    match (← Op.heap).body callee with
    | .function definition owner =>
      let self ← Op.functionOwner owner
      (program.runEntry callback definition.entry self positional keywords).always
        (·.release self)
    | .type shape => program.instantiate callback callee shape positional keywords
    | _ => Op.raise (.notCallable (heap.typeName callee))

/-- Call an object. -/
def call (callee : Ref) (positional : List Ref) (keywords : Option Ref) : Op Ref :=
  program.callWithin callDepth callee positional keywords

/-- Call an attribute of an object. -/
def callMethod (self : Ref) (name : String) (positional : List Ref) : Op Ref := do
  let method ← program.getAttribute self name
  (program.call method positional none).always (·.release method)

end HostBridge.Program
