import HostBridge.Bridge.Roster
import HostBridge.Environment
import HostBridge.Fault
import HostBridge.Object.Heap

/-!
# The world

Everything that operations read and change: the heap, the registries of the
bridge, the interpreters, the process environment, the log and the events that
finalizers and hooks leave behind.

A registry or an interpreter is owned by handles.  It stays in the world when
its last owner has gone, so that what still names it can find out that it is no
longer alive.
-/

namespace HostBridge

/-- Severity of a log record. -/
inductive Level where
  | trace
  | debug
  | warn
  deriving DecidableEq, Repr

def Level.name : Level → String
  | .trace => "TRACE"
  | .debug => "DEBUG"
  | .warn => "WARN"

/-- What finalizers and finalization hooks report. -/
inductive Event where
  | finalizing (name : String)
  /-- An instance of a type went away with a state. -/
  | released (type : String) (state : Option Payload)

/-- The registered types and live wrappers of a bridge. -/
structure Registry where
  /-- Handles and extensions that keep the registry alive. -/
  owners : Nat
  /-- Runtime types that are registered, and what connects them to host structs. -/
  bridged : List (Ref × BridgedType)
  /-- Host structs and the runtime types registered for them. -/
  types : List (StructId × Ref)
  /-- Wrappers that are alive, the latest first. -/
  roster : Roster
  deriving Inhabited

namespace Registry

/-- The registry without registrations. -/
def empty : Registry := ⟨0, [], [], .empty⟩

/-- The runtime type registered for a host struct. -/
def handle? (registry : Registry) (id : StructId) : Option Ref := registry.types.lookup id

/-- What connects a registered runtime type to its host struct. -/
def bridged? (registry : Registry) (ref : Ref) : Option BridgedType := registry.bridged.lookup ref

/-- Whether a reference is the handle of a registered type. -/
def isHandle (registry : Registry) (ref : Ref) : Bool := (registry.bridged? ref).isSome

/-- Register a runtime type for a host struct. -/
def enroll (handle : Ref) (bridged : BridgedType) (registry : Registry) : Registry :=
  { registry with
    bridged := registry.bridged ++ [(handle, bridged)]
    types := registry.types ++ [(bridged.host, handle)] }

/-- Change the roster of a registry that has an owner; any other one is out of reach. -/
def updateRoster (change : Roster → Roster) (registry : Registry) : Registry :=
  if 0 < registry.owners then { registry with roster := change registry.roster } else registry

variable {registry : Registry}

theorem updateRoster_of_owned (change : Roster → Roster) (owned : 0 < registry.owners) :
    registry.updateRoster change = { registry with roster := change registry.roster } :=
  if_pos owned

theorem updateRoster_of_gone (change : Roster → Roster) (gone : ¬0 < registry.owners) :
    registry.updateRoster change = registry :=
  if_neg gone

/-- Nothing but the roster is changed. -/
theorem read_updateRoster {α : Type} (read : Registry → α)
    (rosters : ∀ entry roster, read { entry with roster } = read entry)
    (change : Roster → Roster) (registry : Registry) :
    read (registry.updateRoster change) = read registry := by
  unfold updateRoster
  split
  · exact rosters registry _
  · rfl

@[simp]
theorem owners_updateRoster (change : Roster → Roster) (registry : Registry) :
    (registry.updateRoster change).owners = registry.owners :=
  read_updateRoster owners (fun _ _ => rfl) change registry

@[simp]
theorem bridged_updateRoster (change : Roster → Roster) (registry : Registry) :
    (registry.updateRoster change).bridged = registry.bridged :=
  read_updateRoster bridged (fun _ _ => rfl) change registry

@[simp]
theorem types_updateRoster (change : Roster → Roster) (registry : Registry) :
    (registry.updateRoster change).types = registry.types :=
  read_updateRoster types (fun _ _ => rfl) change registry

end Registry

/-- Releases that other threads have asked for. -/
structure ReleaseQueue where
  pending : List Ref
  /-- No request is accepted any more. -/
  finished : Bool
  /-- How many requests make the next call release them. -/
  batch : Nat
  deriving DecidableEq, Repr, Inhabited

/-- What runs when an interpreter finalizes. -/
inductive FinalizeHook where
  | clearRegistry (registry : RegistryId)
  | announce (name : String)
  deriving DecidableEq, Repr

/-- Data that extensions have attached to an interpreter, at most one of a type. -/
structure Extensions where
  text : Option String
  number : Option Int
  bridge : Option RegistryId
  deriving DecidableEq, Repr, Inhabited

namespace Extensions

/-- No extension data. -/
def empty : Extensions := ⟨none, none, none⟩

end Extensions

/-- An interpreter. -/
structure Interpreter where
  /-- Handles that keep the interpreter alive. -/
  owners : Nat
  main : Ref
  /-- Registered modules under their names. -/
  modules : List (String × Ref)
  extensions : Extensions
  hooks : List FinalizeHook
  queue : ReleaseQueue
  finalized : Bool
  deriving Inhabited

/-- The state that operations work on. -/
structure World where
  heap : Heap
  registries : Array Registry
  interpreters : Array Interpreter
  /-- The interpreter that is bound to the thread. -/
  current : Option InterpreterId
  /-- The process environment. -/
  environment : Environment
  log : Array (Level × String)
  events : Array Event

namespace World

/-- The world before anything has happened. -/
def initial : World :=
  { heap := .initial
    registries := #[]
    interpreters := #[]
    current := none
    environment := .empty
    log := #[]
    events := #[] }

/-- Write a log record. -/
def note (world : World) (level : Level) (text : String) : World :=
  { world with log := world.log.push (level, text) }

/-- Report an event. -/
def report (world : World) (event : Event) : World :=
  { world with events := world.events.push event }

/-- A registry; one that was never created is empty. -/
def registry (world : World) (id : RegistryId) : Registry :=
  (world.registries[id.number]?).getD .empty

/-- Whether a registry still has an owner. -/
def registryAlive (world : World) (id : RegistryId) : Bool := 0 < (world.registry id).owners

/-- Change a registry. -/
def updateRegistry (world : World) (id : RegistryId) (change : Registry → Registry) : World :=
  { world with registries := world.registries.modify id.number change }

/-- An interpreter. -/
def interpreter (world : World) (id : InterpreterId) : Interpreter :=
  (world.interpreters[id.number]?).getD default

/-- Change an interpreter. -/
def updateInterpreter (world : World) (id : InterpreterId)
    (change : Interpreter → Interpreter) : World :=
  { world with interpreters := world.interpreters.modify id.number change }

/-! ## References -/

/-- Count one more reference. -/
def retain (world : World) (ref : Ref) : World := { world with heap := world.heap.retain ref }

/-- Count one more reference for every entry of a list. -/
def retainAll (world : World) (refs : List Ref) : World := refs.foldl retain world

/-- The text of a type, as log records and events show it. -/
def typeText (world : World) (type : Ref) : String :=
  match world.heap.body type with
  | .type shape => s!"<class '{shape.name}'>"
  | _ => "<class 'object'>"

/-- Run the finalizer of an instance that goes away. -/
def finalizeInstance (world : World) (ref type : Ref) (state : Option Payload) : World :=
  match world.heap.body type with
  | .type shape =>
    match shape.finalizer, state with
    | none, _ => world
    | some .report, state => world.report (.released (world.typeText type) state)
    | some .bridge, none => world
    | some .bridge, some (.wrapper registry _) =>
      let unlinked := world.updateRegistry registry (.updateRoster (·.unlink ref))
      unlinked.note .trace s!"released instance of {world.typeText type}"
    | some .bridge, some _ =>
      world.note .warn s!"'{world.typeText type}' instance carries foreign state"
  | _ => world

/-- Take an object out of the heap, after its finalizer has run.  The references
that it owned are still counted. -/
def retire (world : World) (ref : Ref) (body : Body) : World :=
  let world :=
    match body with
    | .instance type state => world.finalizeInstance ref type state
    | _ => world
  { world with heap := world.heap.put ref none }

@[simp]
theorem heap_finalizeInstance (world : World) (ref type : Ref) (state : Option Payload) :
    (world.finalizeInstance ref type state).heap = world.heap := by
  unfold finalizeInstance
  split
  · split <;> rfl
  · rfl

@[simp]
theorem heap_retire (world : World) (ref : Ref) (body : Body) :
    (world.retire ref body).heap = world.heap.put ref none := by
  unfold retire
  split <;> simp

/--
Give up one reference for every entry of a list.  An object that loses its last
reference goes away, and gives up the references that it owned before the rest
of the list is looked at.
-/
def releaseAll (world : World) (refs : List Ref) : World :=
  match refs with
  | [] => world
  | ref :: rest =>
    match _found : world.heap.cell? ref with
    | none => releaseAll world rest
    | some cell =>
      if cell.count ≤ 1 then
        releaseAll (world.retire ref cell.body) (cell.body.references ++ rest)
      else
        releaseAll
          { world with heap := world.heap.put ref (some { cell with count := cell.count - 1 }) }
          rest
termination_by (world.heap.population, refs.length)
decreasing_by
  · exact Prod.Lex.right _ (by simp)
  · apply Prod.Lex.left
    have := Heap.population_put_none _found
    simp only [heap_retire]
    omega
  · simp only [Heap.population_put_some _ _found]
    exact Prod.Lex.right _ (by simp)

/-- Give up one reference. -/
def release (world : World) (ref : Ref) : World := world.releaseAll [ref]

@[simp]
theorem releaseAll_nil (world : World) : world.releaseAll [] = world := by
  rw [releaseAll]

/-! ## New objects -/

/-- Make an object that takes over the references it is made of. -/
def place (world : World) (body : Body) : Ref × World :=
  (world.heap.next, { world with heap := world.heap.push body })

/-- Make an object that takes references of its own. -/
def create (world : World) (body : Body) : Ref × World :=
  (world.retainAll body.references).place body

/-- Change the contents of an object.  The references of the new contents are
counted before those of the old ones are given up. -/
def replace (world : World) (ref : Ref) (body : Body) : World :=
  let old := (world.heap.body ref).references
  let world := world.retainAll body.references
  { world with heap := world.heap.setBody ref body }.releaseAll old

end World

/-! ## Operations -/

/-- An operation changes the world and ends with a result or a fault.  The
changes made before a fault stay. -/
abbrev Op (α : Type) := ExceptT Fault (StateM World) α

namespace Op

/-- An operation as a function on worlds. -/
def ofFunction (step : World → Except Fault α × World) : Op α := ExceptT.mk step

/-- Raise an exception. -/
def raise (exception : Exception) : Op α := throw (.raised exception)

/-- Report a misuse. -/
def panic (misuse : Misuse) : Op α := throw (.panicked misuse)

/-- The current world. -/
def world : Op World := get

/-- Change the world. -/
def change (step : World → World) : Op Unit := modify step

/-- Change the world and hand on a result. -/
def step (action : World → α × World) : Op α := modifyGet action

/-- Look at the heap. -/
def heap : Op Heap := return (← world).heap

/-- A pure result or the fault that stands in its place. -/
def ofExcept (result : Except Fault α) : Op α :=
  match result with
  | .ok value => pure value
  | .error fault => throw fault

/-- Run an operation, then a step that is due whether or not it faults. -/
def always (action : Op α) (step : World → World) : Op α :=
  ofFunction fun world =>
    match action.run world with
    | (result, world) => (result, step world)

/-- Run an operation, and after a fault a step that undoes what came before it. -/
def undoing (action : Op α) (step : World → World) : Op α :=
  ofFunction fun world =>
    match action.run world with
    | (.ok value, world) => (.ok value, world)
    | (.error fault, world) => (.error fault, step world)

/-- Write a log record. -/
def note (level : Level) (text : String) : Op Unit := change (·.note level text)

/-- Take a reference. -/
def retain (ref : Ref) : Op Ref := do
  change (·.retain ref)
  return ref

/-- Give up a reference. -/
def release (ref : Ref) : Op Unit := change (·.release ref)

/-- Give up references. -/
def releaseAll (refs : List Ref) : Op Unit := change (·.releaseAll refs)

/-- Make an object that takes references of its own. -/
def create (body : Body) : Op Ref := step (·.create body)

/-- Make an object that takes over the references it is made of. -/
def place (body : Body) : Op Ref := step (·.place body)

end Op

end HostBridge
