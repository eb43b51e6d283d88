import HostBridge.Object.Module
import HostBridge.Object.Text
import HostBridge.Sample.Value

/-!
# Native entry points of the sample program

Functions, accessors, constructors and allocators that are written against the
runtime alone.  Most of them work on a cell with a number, which a module or an
instance carries as its state.
-/

namespace HostBridge.Sample

/-! ## Cells -/

/-- The number in the cell of an instance. -/
def cell (self : Ref) : Op Int := do
  match (← Op.heap).instanceState? self with
  | some (.counter value) => return value
  | _ => Op.raise (.runtimeError "missing state")

/-- Put a number into the cell of an instance. -/
def setCell (self : Ref) (value : Int) : Op Unit := do
  let _ ← cell self
  match (← Op.heap).body self with
  | .instance type _ => Op.change (·.replace self (.instance type (some (.counter (wrap value)))))
  | _ => pure ()

/-- The number that an object has to be. -/
def wholeNumber (ref : Ref) (message : String) : Op Int := do
  match (← Op.heap).asInt? ref with
  | some value => return value
  | none => Op.raise (.typeError message)

/-! ## Functions -/

/-- The object itself, the arguments and the keyword arguments, as a tuple. -/
def echo (self : Ref) (positional : List Ref) (keywords : Option Ref) : Op Ref := do
  let arguments ← Op.create (.tuple positional)
  (Op.create (.tuple [self, arguments, keywords.getD .none])).always (·.release arguments)

/-- The text of an argument; empty if it is missing or no text. -/
def textArgument (heap : Heap) (positional : List Ref) (index : Nat) : String :=
  ((positional[index]?).bind heap.asText?).getD ""

/-- The kind of exception with a name. -/
def kindNamed (name : String) : ExceptionKind :=
  ([.typeError, .runtimeError, .attributeError, .keyError, .indexError, .valueError,
    .importError].find? fun kind : ExceptionKind => kind.name = name).getD .systemError

/-- Raise the exception that the arguments describe. -/
def fail (positional : List Ref) : Op Ref := do
  let heap ← Op.heap
  Op.raise ⟨kindNamed (textArgument heap positional 0), textArgument heap positional 1⟩

/-- Advance the cell of a module, by one or by the first argument. -/
def bump (self : Ref) (positional : List Ref) : Op Ref := do
  match (← Op.heap).module? self with
  | some ⟨name, doc, globals, some (.counter value)⟩ => do
    let step ←
      match positional with
      | [] => pure 1
      | given :: _ => wholeNumber given "step must be an int"
    let next := wrap (value + step)
    Op.change (·.replace self (.module ⟨name, doc, globals, some (.counter next)⟩))
    Op.create (.int next)
  | some ⟨_, _, _, some _⟩ => Op.raise (.runtimeError "wrong state")
  | _ => Op.raise (.runtimeError "no state")

/-- The text in a capsule. -/
def readCapsule (self : Ref) : Op Ref := do
  match (← Op.heap).capsule? self with
  | some (.text value) => Op.create (.text value)
  | _ => Op.raise (.runtimeError "not a capsule")

/-- Advance the cell of an instance by one. -/
def increment (self : Ref) : Op Ref := do
  setCell self ((← cell self) + 1)
  Op.retain .none

/-- The functions; any other name echoes. -/
def runFunction (name : String) (self : Ref) (positional : List Ref) (keywords : Option Ref) :
    Op Ref :=
  match name with
  | "fail" => fail positional
  | "bump" => bump self positional
  | "read_capsule" => readCapsule self
  | "incr" => increment self
  | _ => echo self positional keywords

/-! ## Accessors -/

/-- The getters: the cell times the closure, the object itself, or the closure. -/
def runGetter (name : String) (self : Ref) (closure : Nat) : Op Ref := do
  match name with
  | "cell" => Op.create (.int (wrap ((← cell self) * closure)))
  | "self" => Op.retain self
  | _ => Op.create (.int (wrap closure))

/-- The setters: one moves the closure onto the new number, one refuses. -/
def runSetter (name : String) (self value : Ref) (closure : Nat) : Op Unit := do
  match name with
  | "cell" => setCell self ((← wholeNumber value "value must be an int") + closure)
  | _ => do
    let text := (← Op.heap).text value
    Op.raise ⟨.valueError, s!"rejected {text} at {closure}"⟩

/-! ## Construction -/

/-- The constructors: one fills the cell, one refuses. -/
def runMaker (name : String) (self : Ref) (positional : List Ref) (keywords : Option Ref) :
    Op Unit := do
  match name with
  | "cell" => do
    let heap ← Op.heap
    let start :=
      match positional with
      | given :: _ => heap.asInt? given
      | [] => (keywords.bind (heap.dictText? · "start")).bind heap.asInt?
    match start with
    | some value => setCell self value
    | none => pure ()
  | _ => Op.raise ⟨.valueError, s!"init rejected {positional.length} arguments"⟩

/-- The allocators: an instance with a cell, a refusal, or no instance at all. -/
def runAllocator (name : String) (type : Ref) : Op Ref := do
  match name with
  | "cell" => do
    let self ← Op.createInstance type
    Op.setInstanceState self (.counter 0)
    return self
  | "fail" => Op.raise (.runtimeError "allocation refused")
  | _ => Op.create (.int 42)

/-- The native entry points. -/
def natives : Natives := ⟨runFunction, runGetter, runSetter, runMaker, runAllocator⟩

end HostBridge.Sample
