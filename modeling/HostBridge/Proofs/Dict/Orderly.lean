import HostBridge.Proofs.Codec.AllOrNothing
import HostBridge.Proofs.Dict.Upkeep
import HostBridge.Proofs.Ownership.Export

/-!
# Interpreters and bridges keep heaps canonical

Interpreters come and go, types and functions are exported and wrappers are made and changed.  None
of this enters a key into a dict, so all of it can be run in any canonical world.
-/

namespace HostBridge

variable {α : Type} {world : World}

namespace Op

/-! ## Interpreters -/

theorem looks_current? : Looks current? :=
  looks_world.bind fun _ => looks_pure _

theorem looks_interpreter (id : InterpreterId) : Looks (interpreter id) :=
  looks_world.bind fun _ => looks_pure _

/-- A change that concerns no object. -/
theorem orderly_change {step : World → World} (same : (step world).heap = world.heap) :
    Orderly (change step) world :=
  .change fun canonical => canonical.of_heap same

theorem orderly_flush (id : InterpreterId) : Orderly (flush id) world := by
  refine .world_bind ?_
  dsimp only
  split
  · exact .panic _
  · refine .bind (orderly_change rfl) fun _ _ _ => ?_
    refine .bind (orderly_releaseAll _) fun _ _ _ => ?_
    split
    · exact .bind (orderly_note _ _) fun _ _ _ => .pure _
    · exact .pure _

theorem orderly_drainIfDue : Orderly drainIfDue world := by
  refine .bind (.of_looks looks_current?) fun current _ _ => ?_
  split
  · refine .world_bind ?_
    split
    · exact .bind (orderly_flush _) fun _ _ _ => .pure _
    · exact .pure _
  · exact .pure _

theorem orderly_start (configuration : Configuration) : Orderly (start configuration) world := by
  refine .bind (.of_looks looks_current?) fun current _ _ => ?_
  split
  · exact .pure _
  · refine .world_bind ?_
    dsimp only
    split
    · exact .pure _
    · exact .bind (orderly_createModule _ _) fun _ _ _ => .bind (orderly_retain _) fun _ _ _ =>
        .world_bind (.bind (orderly_change rfl) fun _ _ _ =>
          .bind (orderly_note _ _) fun _ _ _ => .pure _)

theorem orderly_mainModule (id : InterpreterId) : Orderly (mainModule id) world :=
  .bind (.of_looks (looks_interpreter id)) fun _ _ _ => orderly_retain _

theorem orderly_addModule (id : InterpreterId) (ref : Ref) : Orderly (addModule id ref) world := by
  refine .heap_bind ?_
  split
  · exact .raise _
  · refine .bind (.of_looks (looks_interpreter id)) fun _ _ _ => ?_
    split
    · exact .raise _
    · exact .bind (orderly_retain _) fun _ _ _ => orderly_change rfl

theorem orderly_findModule (id : InterpreterId) (name : String) :
    Orderly (findModule id name) world := by
  refine .bind (.of_looks (looks_interpreter id)) fun _ _ _ => ?_
  split
  · exact orderly_retain _
  · exact .raise _

theorem orderly_finalize (id : InterpreterId) : Orderly (finalize id) world := by
  refine .bind (.of_looks (looks_interpreter id)) fun _ _ _ => ?_
  split
  · exact .pure _
  · refine .bind (orderly_change rfl) fun _ _ _ => .bind (orderly_flush id) fun _ _ _ => ?_
    refine .bind (.of_looks (looks_interpreter id)) fun _ _ _ => ?_
    refine .bind (orderly_change rfl) fun _ _ _ => ?_
    refine .bind (.forM fun _ _ _ => orderly_clearModule _) fun _ _ _ => ?_
    refine .bind (orderly_clearModule _) fun _ _ _ => .bind (orderly_releaseAll _) fun _ _ _ => ?_
    refine .bind (.of_looks (looks_interpreter id)) fun _ _ _ => ?_
    refine .bind (orderly_change rfl) fun _ _ _ => ?_
    refine .bind (.change fun canonical => canonical.runHooks _) fun _ _ _ => ?_
    refine .bind (.of_looks (looks_interpreter id)) fun _ _ _ => ?_
    refine .bind (orderly_change rfl) fun _ _ _ => ?_
    refine .bind (.change fun canonical => canonical.dropExtensions _) fun _ _ _ => ?_
    exact .bind (orderly_change rfl) fun _ _ _ => orderly_note _ _

theorem orderly_dropInterpreter (id : InterpreterId) : Orderly (dropInterpreter id) world := by
  refine .bind (.of_looks (looks_interpreter id)) fun _ _ _ => ?_
  refine .bind (orderly_change rfl) fun _ _ _ => ?_
  split
  · refine .always (orderly_finalize id) fun after canonical => ?_
    exact ((canonical.releaseAll _).dropExtensions _).of_heap rfl
  · exact .pure _

theorem orderly_applyManifest (manifest : Manifest) : Orderly (applyManifest manifest) world := by
  refine .forM fun (name, value) _ middle => .bind (orderly_note _ _) fun _ _ _ => ?_
  unfold setVariable
  split
  · exact .panic _
  · exact orderly_change rfl

/-! ## Wrappers -/

theorem orderly_adopt (value : HostValue) : Orderly (adopt value) world :=
  .bind (.change fun canonical => canonical.retainAll _) fun _ _ _ canonical =>
    value.canonical_completed canonical

theorem orderly_adoptAll (values : List HostValue) : Orderly (adoptAll values) world :=
  .bind (.change fun canonical => canonical.retainAll _) fun _ _ _ canonical =>
    HostValue.canonical_completedAll values canonical

theorem orderly_discard (value : HostValue) : Orderly (discard value) world :=
  orderly_releaseAll _

theorem orderly_exchange (ref : Ref) (inner : List Nat) (new : HostValue) :
    Orderly (exchange ref inner new) world := by
  refine .heap_bind ?_
  split
  · exact orderly_discard _
  · dsimp only
    split
    · exact orderly_discard _
    · exact .bind (.change fun canonical => canonical.putValue _ _ _) fun _ _ _ =>
        orderly_discard _

theorem orderly_wrap (registry : RegistryId) (type : Ref) (held : Held) :
    Orderly (wrap registry type held) world :=
  .bind (orderly_retain _) fun _ _ _ => .bind (orderly_place (by trivial)) fun _ _ _ =>
    .bind (orderly_change rfl) fun _ _ _ => .heap_bind (.bind (orderly_note _ _) fun _ _ _ => .pure _)

theorem orderly_wrapCopy (registry : RegistryId) (type : Ref) (value : HostValue) :
    Orderly (wrapCopy registry type value) world :=
  .bind (orderly_adopt _) fun _ _ _ => orderly_wrap _ _ _

theorem orderly_wrapField (registry : RegistryId) (type anchor : Ref) (held : Held) (field : Nat) :
    Orderly (wrapField registry type anchor held field) world :=
  .bind (orderly_retain _) fun _ _ _ => orderly_wrap _ _ _

theorem looks_liveRegistry (id : RegistryId) : Looks (liveRegistry id) := by
  refine looks_world.bind fun world => ?_
  split
  · exact looks_pure _
  · exact looks_raise _

/-- What a function has captured is kept in a module or a capsule, which it stays. -/
theorem orderly_storeCaptured (owner : Ref) (slot : Nat) (captured : HostValue) :
    Orderly (storeCaptured owner slot captured) world := by
  refine .heap_bind ?_
  split
  · rename_i contents reading
    split
    · exact .change fun canonical => canonical.replace_module reading _
    · exact .pure _
  · rename_i reading
    exact .change fun canonical =>
      canonical.replace (by rw [reading]; exact ⟨_, _, rfl⟩) (.of_keyless _ (by trivial))
  · exact .pure _

end Op

namespace Program

open Op

variable {program : Program}

theorem orderly_writeField (self value : Ref) (id : Nat) :
    Orderly (program.writeField self value id) world := by
  refine .bind (.of_looks (looks_wrapperParts self)) fun _ _ _ => ?_
  refine .bind (.of_looks (looks_typeSlot _ id)) fun _ _ _ => ?_
  split
  · refine .heap_bind ?_
    split
    · exact .raise _
    · split
      · exact .bind (orderly_adopt _) fun _ _ _ => orderly_exchange _ _ _
      · exact .raise _
      · exact .panic _
      · exact .throw _
  · exact .raise _

theorem orderly_allocateWrapper (type : Ref) : Orderly (program.allocateWrapper type) world := by
  refine .heap_bind ?_
  split
  · exact .raise _
  · exact .bind (.of_looks (looks_liveRegistry _)) fun _ _ _ => orderly_wrapCopy _ _ _

/-! ## Exporting -/

theorem orderly_orPanic {action : Op α} (orderly : Orderly action world)
    (misuse : Exception → Misuse) : Orderly (orPanic action misuse) world := by
  intro canonical
  have kept := orderly canonical
  rw [orPanic, run_ofFunction]
  rcases ran : action.run world with ⟨result, after⟩
  rw [ran] at kept
  cases result with
  | ok value => exact kept
  | error fault => cases fault <;> exact kept

theorem orderly_connect (id : InterpreterId) : Orderly (connect id) world := by
  refine .bind (.of_looks (looks_interpreter id)) fun found _ _ => ?_
  split
  · exact .bind (orderly_change rfl) fun _ _ _ => .bind (.pure _) fun _ _ _ =>
      .bind (orderly_change rfl) fun _ _ _ => .pure _
  · refine .world_bind (.bind (orderly_change rfl) fun _ _ _ => ?_)
    exact .bind (orderly_change rfl) fun _ _ _ => .bind (orderly_change rfl) fun _ _ _ =>
      .bind (orderly_note _ _) fun _ _ _ => .bind (.pure _) fun _ _ _ =>
        .bind (orderly_change rfl) fun _ _ _ => .pure _

theorem orderly_disconnect (bridge : Bridge) : Orderly (disconnect bridge) world :=
  .always (orderly_dropInterpreter _) fun _ canonical => canonical.dropRegistry _

theorem orderly_slotTable (registry : RegistryId) (module : Ref) :
    Orderly (slotTable registry module) world := by
  refine .heap_bind ?_
  split
  · exact .pure _
  · exact .raise _
  · exact .bind (orderly_setModuleState _ _) fun _ _ _ => .pure _

theorem orderly_createBridgeModule (bridge : Bridge) (name doc : String) :
    Orderly (Program.createModule bridge name doc) world := by
  refine .bind (Op.orderly_createModule _ _) fun module _ _ => ?_
  refine .bind (.undoing ?_ fun _ canonical => canonical.release _) fun _ _ _ => .pure _
  exact .bind (orderly_addModule _ _) fun _ _ _ => .bind (orderly_slotTable _ _) fun _ _ _ =>
    orderly_note _ _

theorem looks_handle? (registry : RegistryId) (id : StructId) : Looks (handle? registry id) :=
  looks_world.bind fun _ => looks_pure _

theorem orderly_registerStructBy (registry : RegistryId) (module : Ref)
    {enter : StructId → String → Op Ref} (id : StructId) (name doc : String) (maker : Option Nat)
    (captured : HostValue) (enters : ∀ nested name world, Orderly (enter nested name) world) :
    Orderly (program.registerStructBy registry module enter id name doc maker captured) world := by
  rcases maker with _ | code <;> rw [registerStructBy]
  case' some => refine .bind (orderly_note _ _) fun _ _ _ => ?_
  all_goals
    dsimp only
    split
    · exact .panic _
    · refine .bind (orderly_createType _) fun type _ _ => ?_
      refine .bind (orderly_change rfl) fun _ _ _ => ?_
      refine .bind (orderly_orPanic (orderly_addObject _ _ _) _) fun _ _ _ => ?_
      refine .heap_bind (.bind (orderly_note _ _) fun _ _ _ => ?_)
      refine .bind (.forM fun field _ middle => ?_) fun _ _ _ => .pure _
      split
      · exact .pure _
      · refine .bind (.of_looks (looks_handle? _ _)) fun _ _ _ => ?_
        split
        · exact .pure _
        · exact .bind (orderly_note _ _) fun _ _ _ => .bind (enters _ _ _) fun _ _ _ => .pure _

theorem orderly_registerStruct (registry : RegistryId) (module : Ref) (depth : Nat) :
    ∀ (id : StructId) (name doc : String) (maker : Option Nat) (world : World),
      Orderly (program.registerStruct registry module depth id name doc maker) world := by
  induction depth with
  | zero => exact fun _ _ _ _ _ => .throw _
  | succ depth ih =>
    exact fun id name doc maker world => orderly_registerStructBy registry module id name doc maker
      .unit fun nested name world => ih nested name "" none world

theorem orderly_registerBy (registry : RegistryId) (type : HostType) {enter : StructId → Op Ref}
    (enters : ∀ id world, Orderly (enter id) world) :
    Orderly (program.registerBy registry type enter) world := by
  rw [registerBy]
  split
  · refine .bind (.of_looks (looks_handle? _ _)) fun _ _ _ => ?_
    split
    · exact orderly_retain _
    · exact .bind (enters _ _) fun _ _ _ => orderly_retain _
  · exact .panic _

theorem orderly_register (registry : RegistryId) (type : HostType) (module : Ref)
    (name doc : String) (maker : Option Nat) :
    Orderly (program.register registry type module name doc maker) world :=
  orderly_registerBy registry type fun _ _ => orderly_registerStruct _ _ _ _ _ _ _ _

theorem looks_typeHandle? (registry : RegistryId) (type : HostType) :
    Looks (typeHandle? registry type) :=
  fun world => by rw [run_typeHandle?]

theorem orderly_registerMade (registry : RegistryId) (code : Nat) {enter : StructId → Op Ref}
    (enters : ∀ id world, Orderly (enter id) world) :
    Orderly (program.registerMade registry code enter) world := by
  refine .bind (.of_looks (looks_typeHandle? _ _)) fun _ _ _ => ?_
  split
  · exact orderly_retain _
  · refine .bind ?_ fun _ _ _ => orderly_registerBy _ _ enters
    rw [classify]
    dsimp only
    split
    · exact .panic _
    · exact .pure _

theorem orderly_registerTypeWith (bridge : Bridge) (code : Nat) (module : Ref)
    (name doc : String) :
    Orderly (program.registerTypeWith bridge code module name doc) world :=
  orderly_registerMade _ _ fun _ _ => orderly_registerStruct _ _ _ _ _ _ _ _

theorem orderly_registerTypeHolding (bridge : Bridge) (item : Export) (module : Ref)
    (name doc : String) :
    Orderly (program.registerTypeHolding bridge item module name doc) world :=
  orderly_registerMade _ _ fun _ _ => orderly_registerStructBy _ _ _ _ _ _ _ fun _ _ _ =>
    orderly_registerStruct _ _ _ _ _ _ _ _

theorem canonical_withSlot (canonical : world.Canonical) (module : Ref) (slot : Slot) :
    (withSlot world module slot).Canonical := by
  unfold withSlot
  split
  · rename_i contents reading
    split
    · exact canonical.replace_module (Heap.module?_eq_some reading) _
    · exact canonical
  · exact canonical

theorem orderly_registerFunction (bridge : Bridge) (module : Ref) (item : Export)
    (name doc : String) :
    Orderly (program.registerFunction bridge module item name doc) world := by
  refine .heap_bind (.bind (orderly_orPanic (orderly_slotTable _ _) _) fun slots _ _ => ?_)
  refine .heap_bind ?_
  dsimp only
  split
  · exact .panic _
  · refine .bind (orderly_orPanic (orderly_addFunction _ _) _) fun _ _ _ => ?_
    refine .bind (.change fun canonical => canonical_withSlot canonical module _) fun _ _ _ => ?_
    exact .heap_bind (.bind (orderly_note _ _) fun _ _ _ => .pure _)

theorem orderly_exportFunction (bridge : Bridge) (item : Export) (name doc : String) :
    Orderly (program.createFunction bridge item name doc) world := by
  refine .bind (.of_looks (looks_interpreter _)) fun _ _ _ => .heap_bind ?_
  refine .bind (orderly_create (by trivial)) fun capsule _ _ => ?_
  refine .bind (.always (orderly_create (by trivial)) fun _ canonical =>
    canonical.release capsule) fun function _ _ => ?_
  refine .bind (.undoing (orderly_orPanic (orderly_addObject _ _ _) _) fun _ canonical =>
    canonical.release function) fun _ _ _ => ?_
  exact .bind (orderly_note _ _) fun _ _ _ => .pure _

theorem orderly_typeOf (bridge : Bridge) (type : HostType) : Orderly (typeOf bridge type) world :=
  .bind (.of_looks (looks_typeHandle? _ _)) fun _ _ _ => orderly_retainOption _

/-! ## Values -/

theorem orderly_fromObject (bridge : Bridge) (type : HostType) (ref : Ref) :
    Orderly (program.fromObject bridge type ref) world := by
  refine .heap_bind ?_
  split
  · exact .bind (orderly_adopt _) fun _ _ _ => .pure _
  · exact .pure _
  · exact .panic _
  · exact .throw _

theorem orderly_readResult (bridge : Bridge) (type : HostType) (ref : Ref) :
    Orderly (program.readResult bridge type ref) world := by
  refine .bind (.always (orderly_fromObject _ _ _) fun _ canonical => canonical.release ref)
    fun result _ _ => ?_
  split <;> exact .pure _

theorem looks_valueBehind (bridge : Bridge) (type : HostType) (ref : Ref) :
    Looks (valueBehind bridge type ref) := by
  refine looks_heap.bind fun heap => ?_
  split
  · split <;> exact looks_pure _
  · exact looks_pure _

theorem orderly_updateBehind (bridge : Bridge) (type : HostType) (ref : Ref)
    (update : HostValue → HostValue) : Orderly (updateBehind bridge type ref update) world := by
  refine .bind (.of_looks (looks_valueBehind _ _ _)) fun _ _ _ => ?_
  split
  · exact .bind (orderly_adopt _) fun _ _ _ => .bind (orderly_exchange _ _ _) fun _ _ _ => .pure _
  · exact .pure _

end Program

end HostBridge
