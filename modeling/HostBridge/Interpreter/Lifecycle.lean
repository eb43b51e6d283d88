import HostBridge.Interpreter.Queue
import HostBridge.Manifest
import HostBridge.Object.Module

/-!
# Interpreters

A thread has at most one live interpreter.  An interpreter owns the main module,
the registered modules, extension data and the queue of deferred releases.  It
finalizes once, when it is asked to or when its last handle goes: the queue is
finished, all modules lose their globals, the hooks run in the order in which
they were added, and the extensions go.
-/

namespace HostBridge

/-- How an interpreter is to be started. -/
structure Configuration where
  programName : String
  /-- Variables that the process environment must define. -/
  required : List String
  /-- How many queued releases make a call release them. -/
  batch : Nat
  deriving Repr

namespace Configuration

/-- The usual number of queued releases in a batch. -/
def standardBatch : Nat := 128

end Configuration

/-- Why an interpreter cannot start. -/
inductive StartError where
  | alreadyBound
  | missingVariable (name : String)
  deriving DecidableEq, Repr

namespace StartError

def message : StartError → String
  | .alreadyBound => "an interpreter is already bound to this thread"
  | .missingVariable name =>
    "required environment variable " ++ backquoted name ++ " is not set"

end StartError

namespace World

/-- Empty a registry: its types are released and its wrappers forgotten. -/
def clearRegistry (world : World) (id : RegistryId) : World :=
  let registry := world.registry id
  let world := world.updateRegistry id fun entry =>
    { entry with bridged := [], types := [], roster := entry.roster.detachAll }
  let world := world.note .debug s!"bridge context cleared ({registry.types.length} types)"
  world.releaseAll (registry.types.map (·.2))

/-- Let a registry lose one owner.  With the last one it goes away. -/
def dropRegistry (world : World) (id : RegistryId) : World :=
  let registry := world.registry id
  let world := world.updateRegistry id fun entry => { entry with owners := entry.owners - 1 }
  if registry.owners ≤ 1 then
    let world := world.updateRegistry id fun entry => { entry with bridged := [], types := [] }
    let world := world.releaseAll (registry.types.map (·.2))
    world.updateRegistry id fun entry => { entry with roster := entry.roster.detachAll }
  else world

/-- Let extension data go. -/
def dropExtensions (world : World) (extensions : Extensions) : World :=
  match extensions.bridge with
  | some registry => world.dropRegistry registry
  | none => world

/-- Run a finalization hook. -/
def runHook (world : World) : FinalizeHook → World
  | .clearRegistry id => if world.registryAlive id then world.clearRegistry id else world
  | .announce name => world.report (.finalizing name)

/-- Define a variable of the process environment. -/
def setVariable (world : World) (name value : String) : World :=
  { world with environment := world.environment.set name value }

end World

namespace Op

/-- Start an interpreter and bind it to the thread. -/
def start (configuration : Configuration) : Op (Except StartError InterpreterId) := do
  match ← current? with
  | some _ => return .error .alreadyBound
  | none =>
    let environment := (← world).environment
    match configuration.required.find? fun name => (environment.value? name).isNone with
    | some name => return .error (.missingVariable name)
    | none =>
      let main ← createModule "__main__" configuration.programName
      let _ ← retain main
      let id : InterpreterId := ⟨(← world).interpreters.size⟩
      let interpreter : Interpreter :=
        { owners := 1
          main
          modules := [("__main__", main)]
          extensions := .empty
          hooks := []
          queue := .create configuration.batch
          finalized := false }
      change fun world =>
        { world with interpreters := world.interpreters.push interpreter, current := some id }
      note .debug s!"interpreter '{configuration.programName}' initialized"
      return .ok id

/-- An interpreter. -/
def interpreter (id : InterpreterId) : Op Interpreter := return (← world).interpreter id

/-- The main module. -/
def mainModule (id : InterpreterId) : Op Ref := do
  retain (← interpreter id).main

/-- Register a module under its own name. -/
def addModule (id : InterpreterId) (ref : Ref) : Op Unit := do
  match (← heap).module? ref with
  | none => raise .notAModule
  | some contents =>
    if ((← interpreter id).modules.lookup contents.name).isSome then
      raise (.moduleRegistered contents.name)
    else
      let _ ← retain ref
      change (·.updateInterpreter id fun entry =>
        { entry with modules := entry.modules ++ [(contents.name, ref)] })

/-- A registered module. -/
def findModule (id : InterpreterId) (name : String) : Op Ref := do
  match (← interpreter id).modules.lookup name with
  | some ref => retain ref
  | none => raise (.noModule name)

/-- Add a hook that runs when the interpreter finalizes. -/
def addHook (id : InterpreterId) (hook : FinalizeHook) : Op Unit :=
  change (·.updateInterpreter id fun entry => { entry with hooks := entry.hooks ++ [hook] })

/-- Change the extension data of an interpreter. -/
def setExtensions (id : InterpreterId) (update : Extensions → Extensions) : Op Unit :=
  change (·.updateInterpreter id fun entry =>
    { entry with extensions := update entry.extensions })

/-- Tear an interpreter down, unless that has been done. -/
def finalize (id : InterpreterId) : Op Unit := do
  if (← interpreter id).finalized then return
  change (·.updateInterpreter id fun entry => { entry with
    finalized := true
    queue := entry.queue.finish })
  let _ ← flush id
  let before ← interpreter id
  let modules := before.modules.map (·.2)
  change (·.updateInterpreter id fun entry => { entry with modules := [] })
  modules.forM clearModule
  clearModule before.main
  releaseAll modules
  let hooks := (← interpreter id).hooks
  change (·.updateInterpreter id fun entry => { entry with hooks := [] })
  change fun world => hooks.foldl World.runHook world
  let extensions := (← interpreter id).extensions
  change (·.updateInterpreter id fun entry => { entry with extensions := .empty })
  change (·.dropExtensions extensions)
  change fun world => { world with current := none }
  note .debug "interpreter finalized"

/-- Take one more handle to an interpreter. -/
def retainInterpreter (id : InterpreterId) : Op Unit :=
  change (·.updateInterpreter id fun entry => { entry with owners := entry.owners + 1 })

/-- Let a handle to an interpreter go.  With the last one it is finalized, and
what it owned is released. -/
def dropInterpreter (id : InterpreterId) : Op Unit := do
  let owners := (← interpreter id).owners
  change (·.updateInterpreter id fun entry => { entry with owners := entry.owners - 1 })
  if owners ≤ 1 then
    (finalize id).always fun world =>
      let left := world.interpreter id
      let world := world.releaseAll (left.main :: left.modules.map (·.2))
      let world := world.dropExtensions left.extensions
      world.updateInterpreter id fun entry =>
        { entry with modules := [], extensions := .empty, hooks := [] }

/-- Define a variable of the process environment, unless it is refused. -/
def setVariable (name value : String) : Op Unit :=
  match Environment.refusal? name value with
  | some refusal => panic (.variableRefused name value refusal)
  | none => change (·.setVariable name value)

/-- Define every variable of a manifest in the process environment, in order. -/
def applyManifest (manifest : Manifest) : Op Unit :=
  manifest.entries.forM fun (name, value) => do
    note .debug s!"env {name}={value}"
    setVariable name value

end Op

end HostBridge
