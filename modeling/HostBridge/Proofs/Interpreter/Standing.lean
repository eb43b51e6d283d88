import HostBridge.Proofs.Interpreter.Conservation

/-!
# What handles to interpreters can tell

Which interpreter is bound to the thread, which ones are finalized, how many handles each has, and
how large a batch its queue takes: releasing, clearing modules and registries and running hooks
leave all of that alone.  Each operation on handles changes it in one place.
-/

namespace HostBridge

open Op

namespace World

/-- Interpreters stand as they did. -/
structure Stands (before after : World) : Prop where
  current : after.current = before.current
  owners : ∀ id, (after.interpreter id).owners = (before.interpreter id).owners
  finalized : ∀ id, (after.interpreter id).finalized = (before.interpreter id).finalized
  batch : ∀ id, (after.queue id).batch = (before.queue id).batch

/-- An interpreter is changed, and no other one. -/
theorem interpreter_updateInterpreter_other (world : World) {id other : InterpreterId}
    (change : Interpreter → Interpreter) (apart : id ≠ other) :
    (world.updateInterpreter id change).interpreter other = world.interpreter other := by
  have numbers : id.number ≠ other.number := by
    intro equal
    exact apart (by cases id; cases other; simp_all)
  simp [updateInterpreter, interpreter, Array.getElem?_modify, numbers]

/-- What is read of interpreters does not change when something else of one is changed. -/
theorem read_updateInterpreter {α : Type} (read : Interpreter → α) (world : World)
    (id other : InterpreterId) {change : Interpreter → Interpreter}
    (same : ∀ entry, read (change entry) = read entry) :
    read ((world.updateInterpreter id change).interpreter other) = read (world.interpreter other) := by
  by_cases equal : id = other
  · subst equal
    by_cases created : id.number < world.interpreters.size
    · rw [interpreter_updateInterpreter change created, same]
    · rw [updateInterpreter_of_size_le change (Nat.le_of_not_lt created)]
  · rw [interpreter_updateInterpreter_other world change equal]

namespace Stands

variable {first second third : World}

theorem refl (world : World) : world.Stands world := ⟨rfl, fun _ => rfl, fun _ => rfl, fun _ => rfl⟩

theorem trans (front : first.Stands second) (back : second.Stands third) : first.Stands third where
  current := back.current.trans front.current
  owners id := (back.owners id).trans (front.owners id)
  finalized id := (back.finalized id).trans (front.finalized id)
  batch id := (back.batch id).trans (front.batch id)

theorem of_same (interpreters : second.interpreters = first.interpreters)
    (current : second.current = first.current) : first.Stands second where
  current := current
  owners id := by rw [interpreter_congr interpreters]
  finalized id := by rw [interpreter_congr interpreters]
  batch id := by rw [queue, queue, interpreter_congr interpreters]

theorem foldl {α : Type} {step : World → α → World}
    (each : ∀ world item, World.Stands world (step world item)) (items : List α) (world : World) :
    world.Stands (items.foldl step world) :=
  List.foldlRecOn items step (refl world) fun later stands item _ => stands.trans (each later item)

theorem canReserve (stands : first.Stands second) (id : InterpreterId) :
    (second.queue id).canReserve = (first.queue id).canReserve := by
  rw [ReleaseQueue.canReserve, ReleaseQueue.canReserve, stands.batch]

end Stands

/-! ## What leaves interpreters standing -/

theorem stands_note (world : World) (level : Level) (text : String) :
    world.Stands (world.note level text) := .of_same rfl rfl

/-- A change of something else about an interpreter. -/
theorem stands_updateInterpreter (world : World) (id : InterpreterId)
    (change : Interpreter → Interpreter) (owners : ∀ entry, (change entry).owners = entry.owners)
    (finalized : ∀ entry, (change entry).finalized = entry.finalized)
    (batch : ∀ entry, (change entry).queue.batch = entry.queue.batch) :
    world.Stands (world.updateInterpreter id change) where
  current := rfl
  owners other := read_updateInterpreter Interpreter.owners world id other owners
  finalized other := read_updateInterpreter Interpreter.finalized world id other finalized
  batch other := read_updateInterpreter (·.queue.batch) world id other batch

theorem stands_updateRegistry (world : World) (id : RegistryId) (change : Registry → Registry) :
    world.Stands (world.updateRegistry id change) := .of_same rfl rfl

theorem stands_retainAll (world : World) (refs : List Ref) : world.Stands (world.retainAll refs) :=
  .of_same (interpreters_retainAll world refs)
    (observe_retainAll current (fun _ _ => rfl) world refs)

theorem current_retire (world : World) (ref : Ref) (body : Body) :
    (world.retire ref body).current = world.current := by
  unfold retire finalizeInstance
  split
  · split
    · split <;> rfl
    · rfl
  · rfl

theorem stands_releaseAll (world : World) (refs : List Ref) :
    world.Stands (world.releaseAll refs) :=
  .of_same (interpreters_releaseAll world refs)
    (observe_releaseAll current (fun _ _ _ => rfl) current_retire world refs)

theorem stands_replace (world : World) (ref : Ref) (body : Body) :
    world.Stands (world.replace ref body) := by
  rw [replace]
  refine (stands_retainAll world body.references).trans ?_
  generalize world.retainAll body.references = retained
  have changed : retained.Stands { retained with heap := retained.heap.setBody ref body } :=
    .of_same rfl rfl
  exact changed.trans (stands_releaseAll _ _)

theorem stands_withoutGlobals (world : World) (ref : Ref) :
    world.Stands (world.withoutGlobals ref) := by
  unfold withoutGlobals
  split
  · exact stands_replace world ref _
  · exact .refl world

theorem stands_clearRegistry (world : World) (id : RegistryId) :
    world.Stands (world.clearRegistry id) :=
  ((stands_updateRegistry world id _).trans (stands_note _ _ _)).trans (stands_releaseAll _ _)

theorem stands_dropRegistry (world : World) (id : RegistryId) :
    world.Stands (world.dropRegistry id) := by
  unfold dropRegistry
  dsimp only
  have lowered := world.stands_updateRegistry id fun entry =>
    { entry with owners := entry.owners - 1 }
  split
  · exact ((lowered.trans (stands_updateRegistry _ id _)).trans (stands_releaseAll _ _)).trans
      (stands_updateRegistry _ id _)
  · exact lowered

theorem stands_dropExtensions (world : World) (extensions : Extensions) :
    world.Stands (world.dropExtensions extensions) := by
  unfold dropExtensions
  split
  · exact stands_dropRegistry world _
  · exact .refl world

theorem stands_runHook (world : World) (hook : FinalizeHook) : world.Stands
    (world.runHook hook) := by
  unfold runHook
  split
  · split
    · exact stands_clearRegistry world _
    · exact .refl world
  · exact .of_same rfl rfl

theorem stands_flushed (world : World) (id : InterpreterId) :
    world.Stands (Custody.flushed world id) := by
  have drained : world.Stands (world.setQueue id (world.queue id).drained) := by
    refine ⟨rfl, fun other => ?_, fun other => ?_, fun other => ?_⟩
    · exact read_updateInterpreter Interpreter.owners world id other fun _ => rfl
    · exact read_updateInterpreter Interpreter.finalized world id other fun _ => rfl
    · by_cases same : id = other
      · subst same
        by_cases created : id.number < world.interpreters.size
        · rw [queue_setQueue created]
          rfl
        · rw [setQueue, updateInterpreter_of_size_le _ (Nat.le_of_not_lt created)]
      · exact congrArg (·.queue.batch) (interpreter_updateInterpreter_other world _ same)
  have released := drained.trans (stands_releaseAll _ (world.queue id).pending)
  unfold Custody.flushed
  dsimp only
  split
  · exact released
  · exact released.trans (stands_note _ _ _)

/-- Tearing an interpreter down unbinds whatever is bound, and leaves the rest as it is. -/
theorem stands_tornDown (world : World) (id : InterpreterId) :
    World.Stands { world with current := none } (world.tornDown id) := by
  unfold tornDown
  dsimp only
  generalize emptied : (world.updateInterpreter id fun entry => { entry with modules := [] }) = first
  have standsFirst : world.Stands first := by
    rw [← emptied]
    exact stands_updateInterpreter world id _ (fun _ => rfl) (fun _ => rfl) fun _ => rfl
  generalize (world.interpreter id).modules.map (·.2) = modules
  generalize given : ((modules.foldl withoutGlobals first).withoutGlobals
    (world.interpreter id).main).releaseAll modules = second
  have standsSecond : first.Stands second := by
    rw [← given]
    exact ((Stands.foldl stands_withoutGlobals modules first).trans (stands_withoutGlobals _ _)).trans
      (stands_releaseAll _ _)
  generalize hooked : (second.interpreter id).hooks.foldl runHook
    (second.updateInterpreter id fun entry => { entry with hooks := [] }) = third
  have standsThird : second.Stands third := by
    rw [← hooked]
    refine Stands.trans ?_ (.foldl stands_runHook _ _)
    exact stands_updateInterpreter second id _ (fun _ => rfl) (fun _ => rfl) fun _ => rfl
  generalize bared : (third.updateInterpreter id fun entry =>
    { entry with extensions := .empty }).dropExtensions (third.interpreter id).extensions = fourth
  have standsFourth : third.Stands fourth := by
    rw [← bared]
    refine Stands.trans ?_ (stands_dropExtensions _ _)
    exact stands_updateInterpreter third id _ (fun _ => rfl) (fun _ => rfl) fun _ => rfl
  have whole := ((standsFirst.trans standsSecond).trans standsThird).trans standsFourth
  exact ⟨rfl, whole.owners, whole.finalized, whole.batch⟩

theorem stands_abandoned (world : World) (id : InterpreterId) :
    world.Stands (Op.abandoned world id) := by
  unfold Op.abandoned
  dsimp only
  have released := stands_releaseAll world ((world.interpreter id).main ::
    (world.interpreter id).modules.map (·.2))
  have dropped := released.trans (stands_dropExtensions _ (world.interpreter id).extensions)
  exact dropped.trans (stands_updateInterpreter _ id _ (fun _ => rfl) (fun _ => rfl) fun _ => rfl)

/-- An interpreter loses a handle. -/
def lowered (world : World) (id : InterpreterId) : World :=
  world.updateInterpreter id fun entry => { entry with owners := entry.owners - 1 }

end World

/-! ## Operations on handles -/

section

variable (world : World) (id other : InterpreterId)

theorem owners_closing : ((closing world id).interpreter other).owners =
    (world.interpreter other).owners :=
  World.read_updateInterpreter Interpreter.owners world id other fun _ => rfl

theorem canReserve_closing : ((closing world id).queue other).canReserve =
    (world.queue other).canReserve := by
  have same : ((closing world id).queue other).batch = (world.queue other).batch :=
    World.read_updateInterpreter (·.queue.batch) world id other fun _ => rfl
  rw [ReleaseQueue.canReserve, ReleaseQueue.canReserve, same]

/-- Only an interpreter that is not finalized yet, and whose queue can be worked off, is torn
down.  If its queue cannot be worked off it is marked, and that is all. -/
theorem run_finalize_eq : (finalize id).run world =
    if (world.interpreter id).finalized = true then (.ok (), world)
    else if (world.queue id).canReserve = true then
      (.ok (), (Custody.flushed (closing world id) id).tornDown id)
    else (.error (.panicked .batchTooLarge), closing world id) := by
  rw [run_finalize]
  split
  · rfl
  · rw [Custody.run_flush, canReserve_closing]
    cases (world.queue id).canReserve <;> rfl

end

/-- The last handle to an interpreter finalizes it, and what it owned is given up. -/
theorem Op.run_dropInterpreter (world : World) (id : InterpreterId) :
    (dropInterpreter id).run world =
      if (world.interpreter id).owners ≤ 1 then
        (((finalize id).run (world.lowered id)).1,
          Op.abandoned ((finalize id).run (world.lowered id)).2 id)
      else (.ok (), world.lowered id) := by
  rw [dropInterpreter, Operation.run_bind_of_ok (run_interpreter world id),
    Operation.run_bind_of_ok (run_change world _)]
  split
  · rw [run_always]
    rfl
  · rfl

/-- A bridge takes a handle to its interpreter. -/
theorem Program.run_connect (world : World) (id : InterpreterId) :
    ∃ registry middle, world.Stands middle ∧ (Program.connect id).run world =
      (.ok ⟨id, registry⟩,
        middle.updateInterpreter id fun entry => { entry with owners := entry.owners + 1 }) := by
  rw [Program.connect, Operation.run_bind_of_ok (run_interpreter world id)]
  cases (world.interpreter id).extensions.bridge with
  | some registry => exact ⟨registry, _, World.stands_updateRegistry world registry _, rfl⟩
  | none =>
    have made : world.Stands { world with
      registries := world.registries.push { Registry.empty with owners := 2 } } := .of_same rfl rfl
    have extended := made.trans (World.stands_updateInterpreter _ id
      (fun entry => { entry with
        extensions := { entry.extensions with bridge := some ⟨world.registries.size⟩ } })
      (fun _ => rfl) (fun _ => rfl) fun _ => rfl)
    have hooked := extended.trans (World.stands_updateInterpreter _ id
      (fun entry => { entry with
        hooks := entry.hooks ++ [.clearRegistry ⟨world.registries.size⟩] })
      (fun _ => rfl) (fun _ => rfl) fun _ => rfl)
    exact ⟨⟨world.registries.size⟩, _,
      hooked.trans (World.stands_note _ .debug "bridge context installed"), rfl⟩

/-- A bridge gives its handle up. -/
theorem Program.run_disconnect (world : World) (bridge : Bridge) :
    (Program.disconnect bridge).run world =
      (((dropInterpreter bridge.interpreter).run world).1,
        ((dropInterpreter bridge.interpreter).run world).2.dropRegistry bridge.registry) :=
  run_always _ _ _

end HostBridge
