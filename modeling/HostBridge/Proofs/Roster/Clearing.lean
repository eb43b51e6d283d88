import HostBridge.Proofs.Roster.Chain
import HostBridge.Proofs.Session.Reachable

/-!
# Clearing a registry

An interpreter that finalizes runs its hooks, and the hook of a registry that is
alive empties its roster.  Nothing that follows in the same request enters anybody
again: what is released only leaves rosters.
-/

namespace HostBridge

/-! ## What leaving keeps -/

/-- A property of rosters that is kept when members leave and when they are forgotten. -/
structure Roster.Lasting (holds : Roster → Prop) : Prop where
  unlink : ∀ roster ref, holds roster → holds (roster.unlink ref)
  detachAll : ∀ roster, holds roster → holds roster.detachAll

namespace Roster.Lasting

theorem empty : Lasting (· = .empty) where
  unlink _ ref none := by rw [none, Roster.unlink_empty]
  detachAll _ none := by rw [none, Roster.detachAll_empty]

theorem listed : Lasting Listed where
  unlink := by
    rintro _ ref ⟨members, distinct, rfl⟩
    exact ⟨members.erase ref, distinct.erase ref, unlink_ofList ref distinct⟩
  detachAll _ listed := ⟨[], .nil, listed.detachAll⟩

variable {holds : Roster → Prop} {world : World} {id : RegistryId}

/-- A registry is changed, but its roster only in ways that keep the property. -/
theorem updateRegistry (there : holds (world.registry id).roster) (other : RegistryId)
    {change : Registry → Registry}
    (kept : ∀ entry, holds entry.roster → holds (change entry).roster) :
    holds ((world.updateRegistry other change).registry id).roster := by
  rcases world.registry_updateRegistry other id change with same | ⟨_, same⟩
  · rwa [same]
  · rw [same]
    exact kept _ there

theorem retire (lasting : Lasting holds) (there : holds (world.registry id).roster) (ref : Ref)
    (body : Body) : holds ((world.retire ref body).registry id).roster := by
  rcases world.roster_retire_cases ref body id with same | ⟨_, same⟩
  · rwa [same]
  · rw [same]
    exact lasting.unlink _ ref there

theorem releaseAll (lasting : Lasting holds) (there : holds (world.registry id).roster)
    (refs : List Ref) : holds ((world.releaseAll refs).registry id).roster := by
  induction world, refs using World.releaseAll.induct with
  | case1 world => rwa [World.releaseAll_nil]
  | case2 world ref rest gone ih =>
    rw [World.releaseAll_of_gone rest gone]
    exact ih there
  | case3 world ref rest cell present last ih =>
    rw [World.releaseAll_of_last rest present last]
    exact ih (lasting.retire there ref cell.body)
  | case4 world ref rest cell present shared ih =>
    rw [World.releaseAll_of_shared rest present (Nat.lt_of_not_le shared)]
    exact ih there

theorem clearRegistry (lasting : Lasting holds) (there : holds (world.registry id).roster)
    (other : RegistryId) : holds ((world.clearRegistry other).registry id).roster := by
  refine lasting.releaseAll ?_ _
  exact updateRegistry there other fun entry => lasting.detachAll entry.roster

theorem runHook (lasting : Lasting holds) (there : holds (world.registry id).roster)
    (hook : FinalizeHook) : holds ((world.runHook hook).registry id).roster := by
  unfold World.runHook
  split
  · split
    · exact lasting.clearRegistry there _
    · exact there
  · exact there

theorem dropRegistry (lasting : Lasting holds) (there : holds (world.registry id).roster)
    (other : RegistryId) : holds ((world.dropRegistry other).registry id).roster := by
  have lowered : holds ((world.updateRegistry other fun entry =>
      { entry with owners := entry.owners - 1 }).registry id).roster :=
    updateRegistry there other fun _ kept => kept
  unfold World.dropRegistry
  dsimp only
  split
  · refine updateRegistry (lasting.releaseAll ?_ _) other fun entry =>
      lasting.detachAll entry.roster
    exact updateRegistry lowered other fun _ kept => kept
  · exact lowered

theorem dropExtensions (lasting : Lasting holds) (there : holds (world.registry id).roster)
    (extensions : Extensions) :
    holds ((world.dropExtensions extensions).registry id).roster := by
  unfold World.dropExtensions
  split
  · exact lasting.dropRegistry there _
  · exact there

theorem withoutGlobals (lasting : Lasting holds) (there : holds (world.registry id).roster)
    (ref : Ref) : holds ((world.withoutGlobals ref).registry id).roster := by
  unfold World.withoutGlobals
  split
  · refine lasting.releaseAll ?_ _
    show holds ((world.retainAll _).registry id).roster
    rwa [World.registry_retainAll]
  · exact there

/-- A property that every change keeps is kept by all of them. -/
theorem foldl {α : Type} {step : World → α → World}
    (each : ∀ world item, holds (world.registry id).roster →
      holds ((step world item).registry id).roster)
    (there : holds (world.registry id).roster) (items : List α) :
    holds ((items.foldl step world).registry id).roster :=
  List.foldlRecOn items step (motive := fun later => holds (later.registry id).roster) there
    fun later kept item _ => each later item kept

theorem runHooks (lasting : Lasting holds) (there : holds (world.registry id).roster)
    (hooks : List FinalizeHook) : holds ((hooks.foldl World.runHook world).registry id).roster :=
  foldl (fun _ hook kept => lasting.runHook kept hook) there hooks

/-- Modules that lose their globals and are given up take members along. -/
theorem emptyModules (lasting : Lasting holds) (there : holds (world.registry id).roster)
    (modules : List Ref) (main : Ref) :
    holds ((((modules.foldl World.withoutGlobals world).withoutGlobals main).releaseAll
      modules).registry id).roster := by
  have bare : holds ((modules.foldl World.withoutGlobals world).registry id).roster :=
    foldl (fun _ ref kept => lasting.withoutGlobals kept ref) there modules
  exact lasting.releaseAll (lasting.withoutGlobals bare main) modules

/-- Working a queue off only lets members leave. -/
theorem flush (lasting : Lasting holds) (there : holds (world.registry id).roster)
    (interpreter : InterpreterId) :
    holds (((Op.flush interpreter).run world).2.registry id).roster := by
  rw [Op.flush, Operation.run_bind_of_ok (Op.run_world world)]
  dsimp only
  split
  · exact there
  · rw [Operation.run_bind_of_ok (Op.run_change _ _),
      Operation.run_bind_of_ok (Op.run_releaseAll _ _)]
    have drained : holds ((world.setQueue interpreter (world.queue interpreter).drained).registry
      id).roster := there
    split <;> exact lasting.releaseAll drained _

end Roster.Lasting

namespace World

variable {world : World} {id : RegistryId}

/-- Nobody is on the roster of a registry. -/
def Hollow (world : World) (id : RegistryId) : Prop := (world.registry id).roster = .empty

theorem Hollow.of_registries {other : World} (hollow : world.Hollow id)
    (same : other.registries = world.registries) : other.Hollow id := by
  rw [Hollow, registry, same]
  exact hollow

/-- A registry that is cleared has an empty roster. -/
theorem hollow_clearRegistry (created : id.number < world.registries.size)
    (listed : (world.registry id).roster.Listed) : (world.clearRegistry id).Hollow id := by
  refine Roster.Lasting.empty.releaseAll ?_ _
  show ((world.updateRegistry id _).registry id).roster = .empty
  rw [registry_updateRegistry_same _ created]
  exact listed.detachAll

/-! ## Owners -/

theorem owners_runHook (world : World) (hook : FinalizeHook) (id : RegistryId) :
    ((world.runHook hook).registry id).owners = (world.registry id).owners := by
  unfold runHook
  split
  · rename_i other
    split
    · rw [clearRegistry, owners_releaseAll]
      exact read_updateRegistry Registry.owners world other id fun _ => rfl
    · rfl
  · rfl

/-- A registry with an owner has been created. -/
theorem created_of_registryAlive (alive : world.registryAlive id = true) :
    id.number < world.registries.size := by
  refine Nat.lt_of_not_le fun absent => ?_
  rw [registryAlive, registry, Array.getElem?_eq_none absent] at alive
  cases alive

/-! ## Hooks -/

/-- The hook of a registry that is alive empties its roster, and it stays empty. -/
theorem hollow_hooks {hooks : List FinalizeHook} (hooked : .clearRegistry id ∈ hooks)
    (alive : 0 < (world.registry id).owners) (listed : (world.registry id).roster.Listed) :
    (hooks.foldl World.runHook world).Hollow id := by
  induction hooks generalizing world with
  | nil => cases hooked
  | cons hook rest ih =>
    rw [List.foldl_cons]
    rcases List.mem_cons.mp hooked with rfl | later
    · refine Roster.Lasting.empty.runHooks ?_ rest
      have living : world.registryAlive id = true := decide_eq_true alive
      rw [World.runHook, if_pos living]
      exact hollow_clearRegistry (created_of_registryAlive living) listed
    · exact ih later (by rwa [owners_runHook]) (Roster.Lasting.listed.runHook listed hook)

/-- The end of an interpreter empties the roster of a registry that it clears. -/
theorem hollow_tornDown {interpreter : InterpreterId}
    (created : interpreter.number < world.interpreters.size)
    (hooked : .clearRegistry id ∈ (world.interpreter interpreter).hooks)
    (alive : (world.tornDown interpreter).registryAlive id = true)
    (listed : (world.registry id).roster.Listed) :
    (world.tornDown interpreter).Hollow id := by
  have left := of_decide_eq_true alive
  unfold tornDown at left ⊢
  dsimp only at left ⊢
  generalize (world.interpreter interpreter).modules.map (·.2) = taken at left ⊢
  generalize (world.interpreter interpreter).main = main at left ⊢
  generalize emptied : (world.updateInterpreter interpreter fun entry =>
    { entry with modules := [] }) = first at left ⊢
  generalize given : ((taken.foldl withoutGlobals first).withoutGlobals main).releaseAll taken =
    second at left ⊢
  have same : second.interpreters = first.interpreters := by
    rw [← given, interpreters_releaseAll, interpreters_withoutGlobals,
      observe_foldl interpreters interpreters_withoutGlobals]
  have hooks : (second.interpreter interpreter).hooks = (world.interpreter interpreter).hooks := by
    rw [interpreter_congr same, ← emptied, interpreter_updateInterpreter _ created]
  rw [hooks] at left ⊢
  generalize (world.interpreter interpreter).hooks = hooks at hooked left ⊢
  generalize unhooked : second.updateInterpreter interpreter (fun entry =>
    { entry with hooks := [] }) = bare at left ⊢
  generalize hooked' : hooks.foldl World.runHook bare = third at left ⊢
  generalize (third.interpreter interpreter).extensions = extensions at left ⊢
  have fewer := owners_dropExtensions_le (third.updateInterpreter interpreter fun entry =>
    { entry with extensions := .empty }) extensions id
  have living : 0 < (bare.registry id).owners := by
    have kept : (third.registry id).owners = (bare.registry id).owners := by
      rw [← hooked']
      exact observe_foldl (fun world => (world.registry id).owners)
        (fun world hook => owners_runHook world hook id) hooks bare
    rw [← kept]
    exact Nat.lt_of_lt_of_le left fewer
  have listedBare : (bare.registry id).roster.Listed := by
    have listedFirst : (first.registry id).roster.Listed := by
      rw [← emptied]
      exact listed
    rw [← unhooked, ← given]
    exact Roster.Lasting.listed.emptyModules listedFirst taken main
  have hollow : third.Hollow id := by
    rw [← hooked']
    exact hollow_hooks hooked living listedBare
  have bared : (third.updateInterpreter interpreter fun entry =>
      { entry with extensions := .empty }).Hollow id := hollow.of_registries rfl
  exact Hollow.of_registries (Roster.Lasting.empty.dropExtensions bared extensions) rfl

end World

namespace Op

open World

variable {world : World} {id : RegistryId} {interpreter : InterpreterId}

/-- Finalizing an interpreter empties the roster of a registry that it clears. -/
theorem hollow_finalize (created : interpreter.number < world.interpreters.size)
    (clears : world.Clears interpreter id)
    (alive : ((finalize interpreter).run world).2.registryAlive id = true)
    (listed : (world.registry id).roster.Listed) :
    ((finalize interpreter).run world).2.Hollow id := by
  obtain ⟨working, reserved, hooked⟩ := clears
  have entry : (closing world interpreter).interpreter interpreter =
      { world.interpreter interpreter with
        finalized := true
        queue := (world.interpreter interpreter).queue.finish } :=
    interpreter_updateInterpreter _ created
  have createdClosing : interpreter.number < (closing world interpreter).interpreters.size := by
    simpa [closing, updateInterpreter] using created
  have keeping := keeping_flush createdClosing
  have hooks := hooks_flush createdClosing
  rw [entry] at hooks
  rw [run_finalize, if_neg (by simp [working])] at alive ⊢
  rcases flushed : (flush interpreter).run (closing world interpreter) with ⟨result, after⟩
  have listedClosing : ((closing world interpreter).registry id).roster.Listed := listed
  have listedAfter := Roster.Lasting.listed.flush listedClosing interpreter
  rw [flushed] at alive keeping hooks listedAfter
  cases result with
  | ok count =>
    refine hollow_tornDown (by rw [keeping.size]; exact createdClosing) ?_ alive listedAfter
    rw [hooks]
    exact hooked
  | error fault =>
    have room : ((closing world interpreter).queue interpreter).canReserve = true := by
      rw [queue, entry]
      exact reserved
    rw [flush, Operation.run_bind_of_ok (run_world _)] at flushed
    dsimp only at flushed
    rw [room, if_neg (by simp), Operation.run_bind_of_ok (run_change _ _),
      Operation.run_bind_of_ok (run_releaseAll _ _)] at flushed
    split at flushed <;> cases flushed

/-- So does the drop of its last handle. -/
theorem hollow_dropInterpreter (created : interpreter.number < world.interpreters.size)
    (last : (world.interpreter interpreter).owners ≤ 1) (clears : world.Clears interpreter id)
    (alive : ((dropInterpreter interpreter).run world).2.registryAlive id = true)
    (listed : (world.registry id).roster.Listed) :
    ((dropInterpreter interpreter).run world).2.Hollow id := by
  generalize lowered : (world.updateInterpreter interpreter fun entry =>
    { entry with owners := entry.owners - 1 }) = first
  have entry : first.interpreter interpreter = { world.interpreter interpreter with
      owners := (world.interpreter interpreter).owners - 1 } := by
    rw [← lowered]
    exact interpreter_updateInterpreter _ created
  have createdFirst : interpreter.number < first.interpreters.size := by
    rw [← lowered]
    simpa [updateInterpreter] using created
  have changed : (change (·.updateInterpreter interpreter fun entry =>
      { entry with owners := entry.owners - 1 })).run world = (.ok (), first) := by
    rw [← lowered]
    rfl
  have clearsFirst : first.Clears interpreter id := by
    obtain ⟨working, reserved, hooked⟩ := clears
    refine ⟨?_, ?_, ?_⟩
    · rwa [entry]
    · rwa [queue, entry]
    · rwa [entry]
  have ran : ((dropInterpreter interpreter).run world).2 =
      abandoned ((finalize interpreter).run first).2 interpreter := by
    rw [dropInterpreter, Operation.run_bind_of_ok (run_interpreter world interpreter)]
    dsimp only
    rw [Operation.run_bind_of_ok changed, if_pos last]
    rfl
  rw [ran] at alive ⊢
  have listedFirst : (first.registry id).roster.Listed := by
    rw [← lowered]
    exact listed
  have hollow := hollow_finalize createdFirst clearsFirst (registryAlive_of_abandoned alive)
    listedFirst
  have released := Roster.Lasting.empty.releaseAll hollow
    ((((finalize interpreter).run first).2.interpreter interpreter).main ::
      (((finalize interpreter).run first).2.interpreter interpreter).modules.map (·.2))
  exact Hollow.of_registries (Roster.Lasting.empty.dropExtensions released _) rfl

end Op

/-- The last that a bridge takes along may be an interpreter that clears a registry. -/
theorem Program.hollow_disconnect {world : World} {id : RegistryId} {bridge : Bridge}
    (created : bridge.interpreter.number < world.interpreters.size)
    (last : (world.interpreter bridge.interpreter).owners ≤ 1)
    (clears : world.Clears bridge.interpreter id)
    (alive : ((disconnect bridge).run world).2.registryAlive id = true)
    (listed : (world.registry id).roster.Listed) :
    ((disconnect bridge).run world).2.Hollow id := by
  rw [disconnect, Op.run_always] at alive ⊢
  refine Roster.Lasting.empty.dropRegistry
    (Op.hollow_dropInterpreter created last clears ?_ listed) bridge.registry
  have fewer := World.owners_dropRegistry_le
    ((Op.dropInterpreter bridge.interpreter).run world).2 bridge.registry id
  exact decide_eq_true (Nat.lt_of_lt_of_le (of_decide_eq_true alive) fewer)

/-- A request that clears a registry leaves nobody on its roster. -/
theorem Request.hollow {program : Program} {world : World} {id : RegistryId} {request : Request}
    (allowed : request.Allowed program world) (clears : request.Clears world id)
    (alive : ((request.run program).run world).2.registryAlive id = true)
    (listed : (world.registry id).roster.Listed) :
    ((request.run program).run world).2.Hollow id := by
  cases request with
  | finalize interpreter =>
    rw [Request.run, run_after] at alive ⊢
    exact Op.hollow_finalize (World.created_of_owners allowed.2) clears alive listed
  | dropInterpreter interpreter =>
    rw [Request.run, run_after] at alive ⊢
    exact Op.hollow_dropInterpreter (World.created_of_owners allowed.2) clears.1 clears.2 alive
      listed
  | disconnect bridge =>
    rw [Request.run, run_after] at alive ⊢
    exact Program.hollow_disconnect (World.created_of_owners allowed.2) clears.1 clears.2 alive
      listed
  | _ => exact clears.elim

end HostBridge
