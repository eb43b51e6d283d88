import HostBridge.Proofs.Calling.Rejection

/-!
# Calls of exported functions

An exported function runs the host function in its slot, whether the slot is in the table of a
module or in a capsule.  The slot keeps what the host function leaves of its captured state.
-/

namespace HostBridge.Program

open Op

variable {program : Program} {world : World} {callback : Callback} {positional : List Ref}
  {keywords : Option Ref}

/-- What is done with the captured state that a host function leaves behind: it goes back to the
slot, unless nothing was captured. -/
def storeState (site : CallSite) (number : Nat) (captured value : HostValue) : Op Unit :=
  match captured, site with
  | .unit, _ | _, .wrapper _ => discard value
  | _, .holder ref => do
    storeCaptured ref number value
    discard value

/-- How a host function is run: it works on its captured state, and what it returns is encoded. -/
def applyFunction (program : Program) (callback : Callback) (registry : RegistryId)
    (site : CallSite) (number code : Nat) (captured : HostValue) (values : List HostValue) :
    Op Ref := do
  let result ← perform callback (program.function code).run captured (← adoptAll values)
    (storeState site number captured)
  (Encode.value program registry (program.function code).result result).always
    (·.releaseAll result.references)

/-- A slot of a function whose arguments are accepted runs this function. -/
theorem run_invoke_function {registry : RegistryId} {slot : Slot} {site : CallSite} {code : Nat}
    {captured : HostValue} {values : List HostValue}
    (read : program.arguments world.heap registry slot positional keywords = .ok values)
    (role : slot.role = .function code captured) :
    (program.invoke callback registry slot site positional keywords).run world =
      (program.applyFunction callback registry site slot.id code captured values).run world := by
  have accepted : (ofExcept (program.arguments world.heap registry slot positional keywords)).run
      world = (.ok values, world) := by rw [run_ofExcept, read]
  rw [invoke, Operation.run_bind_of_ok (run_heap world), Operation.run_bind_of_ok accepted, role]
  rfl

section

variable {registry : RegistryId} {number : Nat} {slot : Slot} {code : Nat} {captured : HostValue}
  {values : List HostValue}

/-- A function of a module runs the host function in its slot. -/
theorem run_runEntry_module {module : Ref} {slots : List Slot}
    (state : world.heap.moduleState? module = some (.slotTable registry slots))
    (alive : world.registryAlive registry = true) (found : slots[number]? = some slot)
    (role : slot.role = .function code captured)
    (read : program.arguments world.heap registry slot positional keywords = .ok values) :
    (program.runEntry callback (.slot number) module positional keywords).run world =
      (program.applyFunction callback registry (.holder module) slot.id code captured values).run
        (world.note .trace s!"dispatch slot {number} ({slot.exposed})") := by
  rw [runEntry, run_dispatch_module state alive found]
  exact run_invoke_function read role

/-- A function that a capsule holds runs the host function in the slot of the capsule. -/
theorem run_runEntry_adHoc {capsule : Ref}
    (context : world.heap.capsule? capsule = some (.adHoc registry slot))
    (alive : world.registryAlive registry = true) (role : slot.role = .function code captured)
    (read : program.arguments world.heap registry slot positional keywords = .ok values) :
    (program.runEntry callback .adHoc capsule positional keywords).run world =
      (program.applyFunction callback registry (.holder capsule) slot.id code captured values).run
        world := by
  rw [runEntry, run_dispatchAdHoc context alive]
  exact run_invoke_function read role

end

end HostBridge.Program
