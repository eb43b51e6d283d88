import HostBridge.Object.Call
import HostBridge.Proofs.Operation

/-!
# How calls run

A call goes through several layers before host code runs: the queue is worked
off, the function hands its owner to its entry point, the entry point finds the
slot, the arguments are decoded and adopted.  Each equation below takes a run
through one layer, so together they say which host code a call comes to.
-/

namespace HostBridge

variable {program : Program} {world : World}

namespace Op

/-- An operation that is followed by a step in any case. -/
theorem run_always_of_run {α : Type} {action : Op α} {result : Except Fault α} {after : World}
    (ended : action.run world = (result, after)) (step : World → World) :
    (action.always step).run world = (result, step after) := by
  rw [run_always, ended]

theorem run_undoing_of_ok {α : Type} {action : Op α} {value : α} {after : World}
    (ended : action.run world = (.ok value, after)) (step : World → World) :
    (action.undoing step).run world = (.ok value, after) := by
  rw [undoing, run_ofFunction, ended]

theorem run_undoing_of_error {α : Type} {action : Op α} {fault : Fault} {after : World}
    (failed : action.run world = (.error fault, after)) (step : World → World) :
    (action.undoing step).run world = (.error fault, step after) := by
  rw [undoing, run_ofFunction, failed]

/-! ## Host code -/

/-- What comes after host code that has ended with a result. -/
theorem run_perform_of_ok {callback : Callback} {run : Behaviour} {subject : HostValue}
    {arguments : List HostValue} {store : HostValue → Op Unit} {outcome : Outcome}
    {held : List Ref} {middle : World} {result : HostValue}
    (ended : (runRoutine callback [] (run world.heap subject arguments)).run world =
      (.ok (outcome, held), middle))
    (succeeded : outcome.result = .ok result) :
    (perform callback run subject arguments store).run world =
      (do
        let result ← adopt result
        store (← adopt outcome.subject)
        releaseAll held
        releaseAll (HostValue.referencesAll arguments)
        return result : Op HostValue).run middle := by
  rw [perform, Operation.run_bind_of_ok (run_heap world),
    Operation.run_bind_of_ok (run_undoing_of_ok ended _)]
  dsimp only
  rw [succeeded]
  dsimp only
  rw [Operation.run_bind, Operation.run_bind]
  rcases (adopt result).run middle with ⟨adopted, after⟩
  cases adopted <;> rfl

/-- Host code that panics makes the call panic. -/
theorem run_perform_of_panic {callback : Callback} {run : Behaviour} {subject : HostValue}
    {arguments : List HostValue} {store : HostValue → Op Unit} {outcome : Outcome}
    {held : List Ref} {middle : World} {message : String}
    (ended : (runRoutine callback [] (run world.heap subject arguments)).run world =
      (.ok (outcome, held), middle))
    (panicked : outcome.result = .error message) :
    (perform callback run subject arguments store).run world =
      (do
        store (← adopt outcome.subject)
        releaseAll held
        releaseAll (HostValue.referencesAll arguments)
        panic (.hostCode message) : Op HostValue).run middle := by
  rw [perform, Operation.run_bind_of_ok (run_heap world),
    Operation.run_bind_of_ok (run_undoing_of_ok ended _)]
  dsimp only
  rw [panicked]
  rfl

end Op

/-- A module is no wrapper. -/
theorem Heap.wrapper?_of_moduleState? {heap : Heap} {module : Ref} {payload : Payload}
    (state : heap.moduleState? module = some payload) : heap.wrapper? module = none := by
  unfold moduleState? module? at state
  unfold wrapper?
  cases body : heap.body module with
  | «instance» type held => simp [body] at state
  | _ => rfl

namespace Program

open Op

/-! ## Slots -/

/-- A slot whose arguments are refused is not run. -/
theorem run_invoke_of_refused {callback : Callback} {registry : RegistryId} {slot : Slot}
    {site : CallSite} {positional : List Ref} {keywords : Option Ref} {fault : Fault}
    (refused : program.arguments world.heap registry slot positional keywords = .error fault) :
    (program.invoke callback registry slot site positional keywords).run world =
      (.error fault, world) := by
  rw [invoke, Operation.run_bind_of_ok (run_heap world)]
  refine Operation.run_bind_of_error ?_ _
  rw [run_ofExcept, refused]

/-- How a method is kept from leaving something behind: its wrapper takes what an
exclusive receiver has become. -/
def storeReceiver (method : MethodDecl) (ref : Ref) (value : HostValue) : Op Unit :=
  if method.receiver = .exclusive then Op.exchange ref [] value else Op.discard value

theorem run_invoke_method {callback : Callback} {registry : RegistryId} {slot : Slot} {ref : Ref}
    {positional : List Ref} {keywords : Option Ref} {values : List HostValue} {owner : StructId}
    {index : Nat} {receiver : HostValue} {bridged : BridgedType}
    (read : program.arguments world.heap registry slot positional keywords = .ok values)
    (role : slot.role = .method owner index)
    (wrapped : world.heap.wrapped? ref = some (receiver, bridged)) :
    (program.invoke callback registry slot (.wrapper ref) positional keywords).run world =
      (do
        let result ← perform callback (program.method owner index).run receiver
          (← adoptAll values) (storeReceiver (program.method owner index) ref)
        (Encode.value program registry (program.method owner index).result result).always
          (·.releaseAll result.references)).run world := by
  have accepted : (ofExcept (program.arguments world.heap registry slot positional keywords)).run
      world = (.ok values, world) := by rw [run_ofExcept, read]
  rw [invoke, Operation.run_bind_of_ok (run_heap world), Operation.run_bind_of_ok accepted, role]
  dsimp only
  rw [wrapped]
  rfl

/-! ## Entry points -/

theorem run_liveRegistry {registry : RegistryId} (alive : world.registryAlive registry = true) :
    (liveRegistry registry).run world = (.ok registry, world) := by
  rw [liveRegistry, Operation.run_bind_of_ok (run_world world), if_pos alive]
  rfl

theorem run_wrapperParts {ref : Ref} {content : Held} {bridged : BridgedType}
    (wrapper : world.heap.wrapper? ref = some (content, bridged))
    (alive : world.registryAlive bridged.registry = true) :
    (wrapperParts ref).run world = (.ok (content, bridged, bridged.registry), world) := by
  rw [wrapperParts, Operation.run_bind_of_ok (run_heap world), wrapper]
  dsimp only
  rw [Operation.run_bind_of_ok (run_liveRegistry alive)]
  rfl

theorem run_wrapperParts_of_dead {ref : Ref} {content : Held} {bridged : BridgedType}
    (wrapper : world.heap.wrapper? ref = some (content, bridged))
    (dead : ¬world.registryAlive bridged.registry = true) :
    (wrapperParts ref).run world = (.error (.raised .registryReleased), world) := by
  rw [wrapperParts, Operation.run_bind_of_ok (run_heap world), wrapper]
  dsimp only
  rw [liveRegistry, bind_assoc, Operation.run_bind_of_ok (run_world world), if_neg dead]
  rfl

theorem run_typeSlot {bridged : BridgedType} {id : Nat} {slot : Slot}
    (found : bridged.slots[id]? = some slot) :
    (typeSlot bridged id).run world = (.ok slot, world) := by
  rw [typeSlot, found]
  rfl

/-- A function that is bound to a wrapper runs the slot of its number. -/
theorem run_dispatch_wrapper {callback : Callback} {self : Ref} {content : Held}
    {bridged : BridgedType} {id : Nat} {slot : Slot}
    (wrapper : world.heap.wrapper? self = some (content, bridged))
    (alive : world.registryAlive bridged.registry = true) (found : bridged.slots[id]? = some slot)
    (positional : List Ref) (keywords : Option Ref) :
    (program.dispatch callback self id positional keywords).run world =
      (program.invoke callback bridged.registry slot (.wrapper self) positional keywords).run
        (world.note .trace s!"dispatch slot {id} ({slot.exposed})") := by
  rw [dispatch, Operation.run_bind_of_ok (run_heap world), wrapper]
  dsimp only
  rw [Operation.run_bind_of_ok (run_liveRegistry alive), typeSlot, found]
  rfl

theorem run_dispatch_wrapper_of_dead {callback : Callback} {self : Ref} {content : Held}
    {bridged : BridgedType} {id : Nat}
    (wrapper : world.heap.wrapper? self = some (content, bridged))
    (dead : ¬world.registryAlive bridged.registry = true)
    (positional : List Ref) (keywords : Option Ref) :
    (program.dispatch callback self id positional keywords).run world =
      (.error (.raised .registryReleased), world) := by
  have live : (liveRegistry bridged.registry).run world =
      (.error (.raised .registryReleased), world) := by
    rw [liveRegistry, Operation.run_bind_of_ok (run_world world), if_neg dead]
    rfl
  rw [dispatch, Operation.run_bind_of_ok (run_heap world), wrapper]
  exact Operation.run_bind_of_error live _

/-- A function of a module runs the slot of its number. -/
theorem run_dispatch_module {callback : Callback} {self : Ref} {registry : RegistryId}
    {slots : List Slot} {id : Nat} {slot : Slot}
    (state : world.heap.moduleState? self = some (.slotTable registry slots))
    (alive : world.registryAlive registry = true) (found : slots[id]? = some slot)
    (positional : List Ref) (keywords : Option Ref) :
    (program.dispatch callback self id positional keywords).run world =
      (program.invoke callback registry slot (.holder self) positional keywords).run
        (world.note .trace s!"dispatch slot {id} ({slot.exposed})") := by
  rw [dispatch, Operation.run_bind_of_ok (run_heap world), Heap.wrapper?_of_moduleState? state, state]
  dsimp only
  rw [Operation.run_bind_of_ok (run_liveRegistry alive), found]
  rfl

/-- A function that a capsule holds runs the slot of the capsule. -/
theorem run_dispatchAdHoc {callback : Callback} {self : Ref} {registry : RegistryId} {slot : Slot}
    (context : world.heap.capsule? self = some (.adHoc registry slot))
    (alive : world.registryAlive registry = true) (positional : List Ref) (keywords : Option Ref) :
    (program.dispatchAdHoc callback self positional keywords).run world =
      (program.invoke callback registry slot (.holder self) positional keywords).run world := by
  rw [dispatchAdHoc, Operation.run_bind_of_ok (run_heap world), context]
  dsimp only
  rw [Operation.run_bind_of_ok (run_liveRegistry alive)]

/-! ## Calls -/

/-- How a call within a call is made. -/
def callbackAt (program : Program) (depth : Nat) : Callback := fun callee arguments =>
  program.callWithin depth callee arguments none

section

variable {depth : Nat} {callee : Ref} {positional : List Ref} {keywords : Option Ref}
  {drained : World}

/-- A call works off the queue first. -/
theorem run_callWithin (dict : ∀ ref ∈ keywords, world.heap.isDict ref = true)
    (ended : drainIfDue.run world = (.ok (), drained)) :
    (program.callWithin (depth + 1) callee positional keywords).run world =
      match drained.heap.body callee with
      | .function definition owner =>
        (do
          let self ← functionOwner owner
          (program.runEntry (callbackAt program depth) definition.entry self positional
            keywords).always (·.release self)).run drained
      | .type shape =>
        (program.instantiate (callbackAt program depth) callee shape positional keywords).run
          drained
      | _ => (.error (.raised (.notCallable (world.heap.typeName callee))), drained) := by
  have rest : (do
      drainIfDue
      match (← heap).body callee with
      | .function definition owner =>
        let self ← functionOwner owner
        (program.runEntry (callbackAt program depth) definition.entry self positional
          keywords).always (·.release self)
      | .type shape =>
        program.instantiate (callbackAt program depth) callee shape positional keywords
      | _ => raise (.notCallable (world.heap.typeName callee)) : Op Ref).run world =
        match drained.heap.body callee with
        | .function definition owner =>
          (do
            let self ← functionOwner owner
            (program.runEntry (callbackAt program depth) definition.entry self positional
              keywords).always (·.release self)).run drained
        | .type shape =>
          (program.instantiate (callbackAt program depth) callee shape positional keywords).run
            drained
        | _ => (.error (.raised (.notCallable (world.heap.typeName callee))), drained) := by
    rw [Operation.run_bind_of_ok ended, Operation.run_bind_of_ok (run_heap drained)]
    cases drained.heap.body callee <;> rfl
  rw [← rest, callWithin, Operation.run_bind_of_ok (run_heap world)]
  cases keywords with
  | none => rfl
  | some ref =>
    dsimp only
    rw [dict ref rfl]
    rfl

/-- A function that is bound to an object runs its entry point on the object. -/
theorem run_call_bound (dict : ∀ ref ∈ keywords, world.heap.isDict ref = true)
    (ended : drainIfDue.run world = (.ok (), drained)) {definition : MethodDef} {self : Ref}
    (body : drained.heap.body callee = .function definition (.bound self)) :
    (program.call callee positional keywords).run world =
      ((program.runEntry (callbackAt program 999) definition.entry self positional
        keywords).always (·.release self)).run (drained.retain self) := by
  rw [call, callDepth, run_callWithin dict ended, body]
  rfl

/-- A call fails if the queue cannot be worked off. -/
theorem run_call_of_undrained (dict : ∀ ref ∈ keywords, world.heap.isDict ref = true)
    {fault : Fault} (failed : drainIfDue.run world = (.error fault, drained)) :
    (program.call callee positional keywords).run world = (.error fault, drained) := by
  rw [call, callDepth, callWithin, Operation.run_bind_of_ok (run_heap world)]
  cases keywords with
  | none => exact Operation.run_bind_of_error failed _
  | some ref =>
    dsimp only
    rw [dict ref rfl]
    exact Operation.run_bind_of_error failed _

end

end Program

end HostBridge
