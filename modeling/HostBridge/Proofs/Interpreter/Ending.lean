import HostBridge.Proofs.Codec.RoundTrip
import HostBridge.Proofs.Interpreter.Shedding

/-!
# How an interpreter ends

An interpreter ends in four stages.  Its queue is worked off, its modules lose their globals, its
hooks run, and its extensions go.  Each stage finds what the ones before it have left, because
nothing comes back on the way.  It ends once; from then on its handles, but for the last one, count
themselves only.
-/

namespace HostBridge

open Op

namespace World

/-! ## The stages -/

/-- The interpreter is marked, and all that its queue holds is released. -/
structure Flushes (world : World) (id : InterpreterId) (after : World) : Prop where
  heap : after.heap = (world.releaseAll (world.queue id).pending).heap
  entry : after.interpreter id = { world.interpreter id with
    finalized := true
    queue := (world.queue id).finish.drained }
  announcements : after.announcements = world.announcements

/-- Its modules lose their globals, and all but the main one are given up. -/
structure Empties (world : World) (id : InterpreterId) (after : World) : Prop where
  bare : ∀ ref ∈ (world.interpreter id).kept, after.Bare ref
  entry : after.interpreter id = { world.interpreter id with modules := [] }
  sheds : world.Sheds after
  announcements : after.announcements = world.announcements

/-- The hooks are taken from the interpreter before the first one runs. -/
def unhooked (world : World) (id : InterpreterId) : World :=
  world.updateInterpreter id fun entry => { entry with hooks := [] }

/-- Its hooks run one after the other, each of them once. -/
structure RunsHooks (world : World) (id : InterpreterId) (after : World) : Prop where
  run : after = (world.interpreter id).hooks.foldl runHook (world.unhooked id)
  /-- Each hook finds what the earlier stages have left, and the extensions. -/
  each : ∀ front back, (world.interpreter id).hooks = front ++ back →
    (front.foldl runHook (world.unhooked id)).interpreter id =
        { world.interpreter id with hooks := [] } ∧
      world.Sheds (front.foldl runHook (world.unhooked id))
  announcements : after.announcements =
    world.announcements ++ (world.interpreter id).hooks.filterMap FinalizeHook.name?
  registries : ∀ registry, .clearRegistry registry ∈ (world.interpreter id).hooks →
    after.registryAlive registry = true → after.Blank registry

/-- Its extensions go, and nothing is bound to the thread. -/
structure Closes (world : World) (id : InterpreterId) (after : World) : Prop where
  run : after = ({ (world.updateInterpreter id fun entry =>
    { entry with extensions := .empty }).dropExtensions (world.interpreter id).extensions with
      current := none } : World).note .debug "interpreter finalized"
  entry : after.interpreter id = { world.interpreter id with extensions := .empty }
  sheds : world.Sheds after
  announcements : after.announcements = world.announcements

/-- The stages follow each other. -/
def Ends (world : World) (id : InterpreterId) (after : World) : Prop :=
  ∃ released emptied hooked, world.Flushes id released ∧ released.Empties id emptied ∧
    emptied.RunsHooks id hooked ∧ hooked.Closes id after

/-! ## Working the queue off -/

section

variable (world : World) (id : InterpreterId)

theorem retire_updateInterpreter (change : Interpreter → Interpreter) (ref : Ref) (body : Body) :
    (world.updateInterpreter id change).retire ref body =
      (world.retire ref body).updateInterpreter id change := by
  unfold retire finalizeInstance
  split
  · have same : (world.updateInterpreter id change).heap = world.heap := rfl
    rw [same]
    split
    · split <;> rfl
    · rfl
  · rfl

/-- Giving up references concerns no interpreter. -/
theorem releaseAll_updateInterpreter (change : Interpreter → Interpreter) (refs : List Ref) :
    (world.updateInterpreter id change).releaseAll refs =
      (world.releaseAll refs).updateInterpreter id change := by
  induction world, refs using releaseAll.induct with
  | case1 world => rw [releaseAll_nil, releaseAll_nil]
  | case2 world ref rest gone ih =>
    have gone' : (world.updateInterpreter id change).heap.cell? ref = none := gone
    rw [releaseAll_of_gone rest gone, releaseAll_of_gone rest gone', ih]
  | case3 world ref rest cell present last ih =>
    have present' : (world.updateInterpreter id change).heap.cell? ref = some cell := present
    rw [releaseAll_of_last rest present last, releaseAll_of_last rest present' last,
      retire_updateInterpreter, ih]
  | case4 world ref rest cell present shared ih =>
    have present' : (world.updateInterpreter id change).heap.cell? ref = some cell := present
    have many := Nat.lt_of_not_le shared
    rw [releaseAll_of_shared rest present many, releaseAll_of_shared rest present' many]
    exact ih

end

variable {world : World} {id : InterpreterId}

theorem flushes_flushed (created : id.number < world.interpreters.size) :
    world.Flushes id (Custody.flushed (closing world id) id) := by
  have entry : (closing world id).interpreter id = { world.interpreter id with
      finalized := true
      queue := (world.queue id).finish } := interpreter_updateInterpreter _ created
  have queue : (closing world id).queue id = (world.queue id).finish := by rw [World.queue, entry]
  have createdClosing : id.number < (closing world id).interpreters.size := by
    simpa [closing, updateInterpreter] using created
  generalize given : ((closing world id).setQueue id (world.queue id).finish.drained).releaseAll
    (world.queue id).pending = released
  have first : world.Flushes id released := by
    refine ⟨?_, ?_, ?_⟩
    · rw [← given, closing, setQueue, releaseAll_updateInterpreter, releaseAll_updateInterpreter]
      rfl
    · rw [← given, interpreter_congr (interpreters_releaseAll _ _), setQueue,
        interpreter_updateInterpreter _ createdClosing, entry]
    · rw [← given, announcements_releaseAll]
      rfl
  unfold Custody.flushed
  dsimp only
  rw [queue, ReleaseQueue.pending_finish, given]
  split
  · exact first
  · exact ⟨first.heap, first.entry, first.announcements⟩

/-! ## Tearing the interpreter down -/

/-- The modules of an interpreter are taken from it, emptied and given up. -/
def emptied (world : World) (id : InterpreterId) : World :=
  let modules := (world.interpreter id).modules.map (·.2)
  let taken := world.updateInterpreter id fun entry => { entry with modules := [] }
  ((modules.foldl withoutGlobals taken).withoutGlobals (world.interpreter id).main).releaseAll modules

/-- The hooks of an interpreter are taken from it and run. -/
def hooked (world : World) (id : InterpreterId) : World :=
  (world.interpreter id).hooks.foldl runHook (world.unhooked id)

/-- The extensions of an interpreter are taken from it and go. -/
def closed (world : World) (id : InterpreterId) : World :=
  ({ (world.updateInterpreter id fun entry =>
    { entry with extensions := .empty }).dropExtensions (world.interpreter id).extensions with
      current := none } : World).note .debug "interpreter finalized"

theorem empties_emptied (created : id.number < world.interpreters.size) :
    world.Empties id (world.emptied id) := by
  unfold emptied
  dsimp only
  generalize among : (world.interpreter id).modules.map (·.2) = modules
  generalize took : (world.updateInterpreter id fun entry => { entry with modules := [] }) = taken
  have start : world.Sheds taken := took ▸ world.sheds_updateInterpreter id _
  have folded := Sheds.foldl (fun world ref => (sheds_withoutGlobals world ref).1) modules taken
  obtain ⟨main, bareMain⟩ := sheds_withoutGlobals (modules.foldl withoutGlobals taken)
    (world.interpreter id).main
  have given := sheds_releaseAll ((modules.foldl withoutGlobals taken).withoutGlobals
    (world.interpreter id).main) modules
  refine ⟨fun ref member => ?_, ?_, ((start.trans folded).trans main).trans given, ?_⟩
  · rw [Interpreter.kept, among] at member
    rcases List.mem_cons.mp member with rfl | registered
    · exact given.bare bareMain
    · exact (main.trans given).bare (bare_foldl modules taken ref registered)
  · rw [interpreter_congr (interpreters_releaseAll _ _),
      interpreter_congr (interpreters_withoutGlobals _ _),
      interpreter_congr (observe_foldl interpreters interpreters_withoutGlobals modules taken), ← took,
      interpreter_updateInterpreter _ created]
  · rw [announcements_releaseAll, announcements_withoutGlobals,
      observe_foldl announcements announcements_withoutGlobals, ← took]
    rfl

theorem runsHooks_hooked (created : id.number < world.interpreters.size)
    (listed : ∀ registry, (world.registry registry).roster.Listed) :
    world.RunsHooks id (world.hooked id) := by
  have start : world.Sheds (world.unhooked id) := world.sheds_updateInterpreter id _
  refine ⟨rfl, fun front back _ => ⟨?_, start.trans (.foldl sheds_runHook front _)⟩, ?_, ?_⟩
  · rw [interpreter_congr (observe_foldl interpreters interpreters_runHook front _), unhooked,
      interpreter_updateInterpreter _ created]
  · rw [hooked, announcements_hooks]
    rfl
  · exact fun registry member alive =>
      blank_hooks member (world.unhooked id) alive (listed registry)

theorem closes_closed (created : id.number < world.interpreters.size) :
    world.Closes id (world.closed id) := by
  refine ⟨rfl, ?_, ?_, ?_⟩
  · show ((world.updateInterpreter id _).dropExtensions _).interpreter id = _
    rw [interpreter_congr (interpreters_dropExtensions _ _), interpreter_updateInterpreter _ created]
  · have bared := world.sheds_updateInterpreter id fun entry => { entry with extensions := .empty }
    refine (bared.trans (sheds_dropExtensions _ (world.interpreter id).extensions)).trans ?_
    exact .of_same rfl rfl
  · show ((world.updateInterpreter id _).dropExtensions _).announcements = _
    rw [announcements_dropExtensions]
    rfl

/-- An interpreter that works, and whose queue can be worked off, ends when it is finalized. -/
theorem exists_ends (created : id.number < world.interpreters.size)
    (working : (world.interpreter id).finalized = false)
    (room : (world.queue id).canReserve = true) (tidy : world.Tidy) :
    ∃ after, (finalize id).run world = (.ok (), after) ∧ world.Ends id after := by
  have flushes := flushes_flushed created
  generalize flushed : Custody.flushed (closing world id) id = released at flushes
  have size : released.interpreters.size = world.interpreters.size := by
    have keeping : Keeping id (closing world id) ((flush id).run (closing world id)).2 :=
      keeping_flush (by simpa [closing, updateInterpreter] using created)
    rw [Custody.run_flush, canReserve_closing, room, if_pos rfl, flushed] at keeping
    rw [keeping.size]
    simp [closing, updateInterpreter]
  have listed : ∀ registry, ((released.emptied id).registry registry).roster.Listed := by
    intro registry
    have closing : ((closing world id).registry registry).roster.Listed :=
      (tidy.lists registry).listed
    have flushing := Roster.Lasting.listed.flush closing id
    rw [Custody.run_flush, canReserve_closing, room, if_pos rfl, flushed] at flushing
    have taken : ((released.updateInterpreter id fun entry =>
      { entry with modules := [] }).registry registry).roster.Listed := flushing
    exact Roster.Lasting.listed.emptyModules taken _ _
  have createdReleased : id.number < released.interpreters.size := by rwa [size]
  have createdEmptied : id.number < (released.emptied id).interpreters.size := by
    simpa [emptied, interpreters_releaseAll, interpreters_withoutGlobals,
      observe_foldl interpreters interpreters_withoutGlobals, updateInterpreter] using createdReleased
  have createdHooked : id.number < ((released.emptied id).hooked id).interpreters.size := by
    simpa [hooked, observe_foldl interpreters interpreters_runHook, unhooked, updateInterpreter] using
      createdEmptied
  refine ⟨released.tornDown id, ?_, released, _, _, flushes, empties_emptied createdReleased,
    runsHooks_hooked createdEmptied listed, closes_closed createdHooked⟩
  rw [run_finalize_eq, working, room, flushed]
  rfl

/-! ## What is left -/

variable {program : Program} {held : Multiset Ref}

/-- An interpreter that has ended has nothing but its main module. -/
theorem Ends.entry {after : World} (ends : world.Ends id after) :
    after.interpreter id = { world.interpreter id with
      finalized := true
      modules := []
      extensions := .empty
      hooks := []
      queue := (world.queue id).finish.drained } := by
  obtain ⟨released, emptied, hooked, flushes, empties, runs, closes⟩ := ends
  obtain ⟨entry, _⟩ := runs.each _ [] (List.append_nil _).symm
  rw [← runs.run] at entry
  rw [closes.entry, entry, empties.entry, flushes.entry]

/-- Giving up what an interpreter without handles owns sheds more, and ends nothing. -/
theorem sheds_abandoned (world : World) (id : InterpreterId) :
    world.Sheds (Op.abandoned world id) ∧
      (Op.abandoned world id).announcements = world.announcements := by
  unfold Op.abandoned
  dsimp only
  have released := sheds_releaseAll world ((world.interpreter id).main ::
    (world.interpreter id).modules.map (·.2))
  have dropped := released.trans (sheds_dropExtensions _ (world.interpreter id).extensions)
  refine ⟨dropped.trans (sheds_updateInterpreter _ id _), ?_⟩
  show ((world.releaseAll _).dropExtensions _).announcements = _
  rw [announcements_dropExtensions, announcements_releaseAll]

end World

/-! ## The end of an interpreter -/

/-- What can still be done with a finalized interpreter. -/
structure World.Finished (world : World) (id : InterpreterId) : Prop where
  again : (finalize id).run world = (.ok (), world)
  shared : 1 < (world.interpreter id).owners →
    (dropInterpreter id).run world = (.ok (), world.lowered id)
  /-- The last handle gives up the main module, and what has been attached since. -/
  last : (world.interpreter id).owners ≤ 1 →
    (dropInterpreter id).run world = (.ok (), Op.abandoned (world.lowered id) id)
  silent : (Op.abandoned (world.lowered id) id).announcements = world.announcements

theorem World.finished {world : World} {id : InterpreterId}
    (finalized : (world.interpreter id).finalized = true) : world.Finished id := by
  have lowered : ((world.lowered id).interpreter id).finalized = true := by
    rw [← finalized]
    exact read_updateInterpreter Interpreter.finalized world id id fun _ => rfl
  refine ⟨?_, fun shared => ?_, fun last => ?_, ?_⟩
  · rw [run_finalize_eq, if_pos finalized]
  · rw [Op.run_dropInterpreter, if_neg (Nat.not_le_of_lt shared)]
  · rw [Op.run_dropInterpreter, if_pos last, run_finalize_eq, if_pos lowered]
  · exact (sheds_abandoned (world.lowered id) id).2

variable {program : Program}

namespace Figures

end Figures

namespace Figures

/-- An interpreter is finalized while its main module is held. -/
def parting : List Request := [.finalize ⟨0⟩, .mainModule ⟨0⟩, .start ⟨"", [], 128⟩]

end Figures

end HostBridge
