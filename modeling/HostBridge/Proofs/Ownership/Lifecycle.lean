import HostBridge.Interpreter.Lifecycle
import HostBridge.Proofs.Ownership.Container
import HostBridge.Proofs.Ownership.Queue

/-!
# Contracts of interpreters and registries

A registry that is emptied gives up its types.  An interpreter owns its modules
for as long as it has an owner.  When the last one goes they are orphans, which
the operation that tears the interpreter down holds and gives up.
-/

namespace HostBridge

variable {program : Program} {touch : Permission} {world : World}

namespace World

/-! ## Registries -/

/-- Counting the owners of a registry concerns nothing else. -/
theorem path_registryOwners (id : RegistryId) {change : Registry → Registry} {held : Multiset Ref}
    (bridged : ∀ entry, (change entry).bridged = entry.bridged)
    (types : ∀ entry, (change entry).types = entry.types)
    (roster : ∀ entry, (change entry).roster = entry.roster)
    (lives : 0 < (world.registry id).owners → 0 < (change (world.registry id)).owners) :
    Path program touch world held (world.updateRegistry id change) held := by
  refine .single (.settle ⟨rfl, fun other => ?_, fun other => ?_, fun other => ?_,
    fun other alive => ?_, ?_, le_refl _⟩ ?_)
  · exact world.read_updateRegistry Registry.bridged id other bridged
  · exact world.types_updateRegistry id other types
  · exact world.read_updateRegistry Registry.roster id other roster
  · rcases world.registry_updateRegistry id other change with same | ⟨rfl, changed⟩
    · rwa [same]
    · rw [changed]
      exact lives alive
  · rw [size_registries_updateRegistry]
  · rw [claims_updateRegistry_same id types]

/-- The types of a registry are taken out and given up. -/
theorem path_withdraw (world : World) (id : RegistryId) :
    Path program touch world 0
      ((world.updateRegistry id fun entry => { entry with bridged := [], types := [] }).releaseAll
        (world.registry id).handles) 0 := by
  have taken : Path program touch world 0
      (world.updateRegistry id fun entry => { entry with bridged := [], types := [] })
      (0 + (world.registry id).handles) := .single (.withdraw id rfl)
  exact taken.trans (.releaseAll _ _ 0)

theorem path_scatter (world : World) {id : RegistryId} (permitted : touch.rosters id)
    (held : Multiset Ref) :
    Path program touch world held
      (world.updateRegistry id fun entry => { entry with roster := entry.roster.detachAll }) held :=
  .single (.scatter id (fun owners => owners) permitted)

theorem path_clearRegistry (world : World) {id : RegistryId} (permitted : touch.rosters id) :
    Path program touch world 0 (world.clearRegistry id) 0 := by
  have taken : Path program touch world 0
      (world.updateRegistry id fun entry => { entry with bridged := [], types := [] })
      (0 + (world.registry id).handles) := .single (.withdraw id rfl)
  have scattered : Path program touch _ (0 + (world.registry id).handles) _ _ :=
    path_scatter (world.updateRegistry id fun entry => { entry with bridged := [], types := [] })
      permitted _
  rw [updateRegistry_updateRegistry] at scattered
  exact (taken.trans scattered).trans ((Op.path_note _ _).trans (.releaseAll _ _ 0))

/-- Giving up references leaves what a registry has alone, but for its roster. -/
theorem read_releaseAll {α : Type} (read : Registry → α)
    (blind : ∀ entry roster, read { entry with roster } = read entry) (world : World)
    (refs : List Ref) (id : RegistryId) :
    read ((world.releaseAll refs).registry id) = read (world.registry id) :=
  observe_releaseAll (fun world => read (world.registry id)) (fun _ _ _ => rfl)
    (fun world ref body => read_retire read blind world ref body id) world refs

theorem owners_releaseAll (world : World) (refs : List Ref) (id : RegistryId) :
    ((world.releaseAll refs).registry id).owners = (world.registry id).owners :=
  read_releaseAll Registry.owners (fun _ _ => rfl) world refs id

theorem types_releaseAll (world : World) (refs : List Ref) (id : RegistryId) :
    ((world.releaseAll refs).registry id).types = (world.registry id).types :=
  read_releaseAll Registry.types (fun _ _ => rfl) world refs id

theorem owners_withoutRoster (world : World) (id other : RegistryId) :
    ((world.updateRegistry id fun entry =>
      { entry with roster := entry.roster.detachAll }).registry other).owners =
        (world.registry other).owners :=
  read_updateRegistry Registry.owners world id other fun _ => rfl

/-- A registry loses an owner at most. -/
theorem owners_dropRegistry_le (world : World) (id other : RegistryId) :
    ((world.dropRegistry id).registry other).owners ≤ (world.registry other).owners := by
  have lowered : ((world.updateRegistry id fun entry =>
      { entry with owners := entry.owners - 1 }).registry other).owners ≤
        (world.registry other).owners := by
    rcases world.registry_updateRegistry id other fun entry =>
      { entry with owners := entry.owners - 1 } with same | ⟨_, same⟩
    · rw [same]
    · rw [same]
      exact Nat.sub_le _ _
  unfold dropRegistry
  dsimp only
  split
  · rwa [owners_withoutRoster, owners_releaseAll, owners_withoutTypes]
  · exact lowered

theorem owners_dropExtensions_le (world : World) (extensions : Extensions) (other : RegistryId) :
    ((world.dropExtensions extensions).registry other).owners ≤ (world.registry other).owners := by
  unfold dropExtensions
  split
  · exact owners_dropRegistry_le world _ other
  · exact Nat.le_refl _

theorem owners_lowered {id : RegistryId} (last : (world.registry id).owners ≤ 1) :
    ((world.updateRegistry id fun entry =>
      { entry with owners := entry.owners - 1 }).registry id).owners = 0 := by
  by_cases created : id.number < world.registries.size
  · rw [registry_updateRegistry_same _ created]
    exact Nat.sub_eq_zero_of_le last
  · rw [updateRegistry_of_size_le _ (Nat.le_of_not_lt created), registry,
      Array.getElem?_eq_none (Nat.le_of_not_lt created)]
    rfl

/-- A registry that loses its last owner is not alive any more. -/
theorem registryAlive_dropRegistry {id : RegistryId} (last : (world.registry id).owners ≤ 1) :
    (world.dropRegistry id).registryAlive id = false := by
  have none : ((world.dropRegistry id).registry id).owners = 0 := by
    unfold dropRegistry
    dsimp only
    rw [if_pos last, owners_withoutRoster, owners_releaseAll, owners_withoutTypes,
      owners_lowered last]
  rw [registryAlive, none]
  rfl

/-! A registry without owners is out of reach of what goes away. -/

theorem updateRegistry_updateRoster_of_gone {id : RegistryId}
    (gone : (world.registry id).owners = 0) (change : Roster → Roster) :
    world.updateRegistry id (.updateRoster change) = world := by
  have same : world.registries.modify id.number (.updateRoster change) = world.registries := by
    apply Array.ext_getElem?
    intro place
    rw [Array.getElem?_modify]
    split
    · rename_i here
      subst here
      cases found : world.registries[id.number]? with
      | none => rfl
      | some entry =>
        rw [registry, found, Option.getD_some] at gone
        rw [Option.map_some, Registry.updateRoster_of_gone _ (by omega)]
    · rfl
  rw [updateRegistry, same]

theorem updateRegistry_comm (world : World) {id other : RegistryId} (distinct : id ≠ other)
    (first second : Registry → Registry) :
    (world.updateRegistry id first).updateRegistry other second =
      (world.updateRegistry other second).updateRegistry id first := by
  have apart : id.number ≠ other.number := by
    intro equal
    exact distinct (by cases id; cases other; simp_all)
  have same : (world.registries.modify id.number first).modify other.number second =
      (world.registries.modify other.number second).modify id.number first := by
    apply Array.ext_getElem?
    intro place
    simp only [Array.getElem?_modify]
    split <;> split <;> simp_all
  rw [updateRegistry, updateRegistry, updateRegistry, updateRegistry, same]

section

variable {id : RegistryId} (change : Registry → Registry)
  (owners : ∀ entry, (change entry).owners = entry.owners)

include owners

theorem finalizeInstance_updateRegistry_of_gone (gone : (world.registry id).owners = 0)
    (ref type : Ref) (state : Option Payload) :
    (world.updateRegistry id change).finalizeInstance ref type state =
      (world.finalizeInstance ref type state).updateRegistry id change := by
  have still : ((world.updateRegistry id change).registry id).owners = 0 := by
    rw [read_updateRegistry Registry.owners world id id owners, gone]
  have text : (world.updateRegistry id change).typeText type = world.typeText type := rfl
  unfold finalizeInstance
  rw [heap_updateRegistry]
  split
  · split
    · rfl
    · rfl
    · rfl
    · rename_i registry _ _
      rw [text]
      by_cases same : id = registry
      · subst same
        rw [updateRegistry_updateRoster_of_gone gone, updateRegistry_updateRoster_of_gone still]
        rfl
      · rw [updateRegistry_comm world same]
        rfl
    · rfl
  · rfl

theorem retire_updateRegistry_of_gone (gone : (world.registry id).owners = 0) (ref : Ref)
    (body : Body) :
    (world.updateRegistry id change).retire ref body =
      (world.retire ref body).updateRegistry id change := by
  unfold retire
  split
  · rw [finalizeInstance_updateRegistry_of_gone change owners gone]
    rfl
  · rfl

/-- What is changed of a registry without owners can be changed before as well as after
references are given up. -/
theorem releaseAll_updateRegistry_of_gone (gone : (world.registry id).owners = 0)
    (refs : List Ref) :
    (world.updateRegistry id change).releaseAll refs =
      (world.releaseAll refs).updateRegistry id change := by
  induction world, refs using releaseAll.induct with
  | case1 world => rw [releaseAll_nil, releaseAll_nil]
  | case2 world ref rest absent ih =>
    rw [releaseAll_of_gone rest absent, releaseAll_of_gone rest (by exact absent), ih gone]
  | case3 world ref rest cell present last ih =>
    rw [releaseAll_of_last rest present last, releaseAll_of_last rest (by exact present) last,
      retire_updateRegistry_of_gone change owners gone, ih]
    rw [read_retire Registry.owners (fun _ _ => rfl), gone]
  | case4 world ref rest cell present shared ih =>
    rw [releaseAll_of_shared rest present (Nat.lt_of_not_le shared),
      releaseAll_of_shared rest (by exact present) (Nat.lt_of_not_le shared)]
    exact ih gone

end

theorem path_dropRegistry (world : World) {id : RegistryId}
    (permitted : (world.dropRegistry id).registryAlive id = false → touch.rosters id) :
    Path program touch world 0 (world.dropRegistry id) 0 := by
  have last : (world.registry id).owners ≤ 1 → touch.rosters id :=
    fun single => permitted (registryAlive_dropRegistry single)
  unfold dropRegistry
  dsimp only
  split
  · rename_i final
    -- No release reaches the roster, so it may be forgotten before the types are given up.
    let scattered := world.updateRegistry id (.scattered (· - 1))
    have forgotten : Path program touch world 0 scattered 0 :=
      .single (.scatter id _ (last final))
    have withdrawn : Path program touch scattered 0 _ 0 := path_withdraw scattered id
    have same : (scattered.registry id).types = (world.registry id).types :=
      types_updateRegistry world id id fun _ => rfl
    have gone : (((world.updateRegistry id fun entry =>
        { entry with owners := entry.owners - 1 }).updateRegistry id fun entry =>
          { entry with bridged := [], types := [] }).registry id).owners = 0 := by
      rw [owners_withoutTypes, owners_lowered final]
    rw [Registry.handles, same] at withdrawn
    rw [← releaseAll_updateRegistry_of_gone
      (fun entry => { entry with roster := entry.roster.detachAll }) (fun _ => rfl) gone]
    simp only [updateRegistry_updateRegistry, scattered] at withdrawn forgotten ⊢
    exact forgotten.trans withdrawn
  · rename_i several
    exact path_registryOwners id (fun _ => rfl) (fun _ => rfl) (fun _ => rfl) fun _ => by
      show 0 < (world.registry id).owners - 1
      omega

theorem path_dropExtensions (world : World) {extensions : Extensions}
    (permitted : ∀ id, (world.dropExtensions extensions).registryAlive id = false →
      touch.rosters id) : Path program touch world 0 (world.dropExtensions extensions) 0 := by
  unfold dropExtensions at permitted ⊢
  split
  · rename_i registry bridged
    rw [bridged] at permitted
    exact path_dropRegistry world (permitted registry)
  · exact .refl _ _

theorem path_report (world : World) (event : Event) (held : Multiset Ref) :
    Path program touch world held (world.report event) held :=
  .single (.settle (.of_registries rfl rfl (le_refl _)) rfl)

theorem path_runHook (world : World) {hook : FinalizeHook}
    (permitted : ∀ id, hook = .clearRegistry id → touch.rosters id) :
    Path program touch world 0 (world.runHook hook) 0 := by
  cases hook with
  | clearRegistry id =>
    unfold runHook
    dsimp only
    split
    · exact path_clearRegistry world (permitted id rfl)
    · exact .refl _ _
  | announce name => exact path_report world _ 0

/-! ## What leaves interpreters alone -/

theorem interpreters_retainAll (world : World) (refs : List Ref) :
    (world.retainAll refs).interpreters = world.interpreters :=
  observe_retainAll interpreters (fun _ _ => rfl) world refs

theorem interpreters_releaseAll (world : World) (refs : List Ref) :
    (world.releaseAll refs).interpreters = world.interpreters :=
  observe_releaseAll interpreters (fun _ _ _ => rfl)
    (fun world ref body => (world.retire_spec ref body).2.2.2) world refs

theorem interpreters_replace (world : World) (ref : Ref) (body : Body) :
    (world.replace ref body).interpreters = world.interpreters := by
  rw [replace, interpreters_releaseAll]
  exact interpreters_retainAll world body.references

theorem interpreters_clearRegistry (world : World) (id : RegistryId) :
    (world.clearRegistry id).interpreters = world.interpreters := by
  rw [clearRegistry, interpreters_releaseAll]
  rfl

theorem interpreters_dropExtensions (world : World) (extensions : Extensions) :
    (world.dropExtensions extensions).interpreters = world.interpreters := by
  unfold dropExtensions dropRegistry
  split
  · dsimp only
    split
    · show (World.releaseAll _ _).interpreters = _
      rw [interpreters_releaseAll]
      rfl
    · rfl
  · rfl

theorem interpreters_runHook (world : World) (hook : FinalizeHook) :
    (world.runHook hook).interpreters = world.interpreters := by
  unfold runHook
  split
  · split
    · exact interpreters_clearRegistry world _
    · rfl
  · rfl

theorem interpreter_congr {first second : World} (same : second.interpreters = first.interpreters)
    (id : InterpreterId) : second.interpreter id = first.interpreter id := by
  rw [interpreter, interpreter, same]

/-- An interpreter with an owner has been created. -/
theorem created_of_owners {id : InterpreterId} (alive : 0 < (world.interpreter id).owners) :
    id.number < world.interpreters.size := by
  refine Nat.lt_of_not_le fun absent => ?_
  rw [interpreter, Array.getElem?_eq_none absent] at alive
  cases alive

/-- A change of an interpreter that exists. -/
theorem interpreter_updateInterpreter {id : InterpreterId} (change : Interpreter → Interpreter)
    (created : id.number < world.interpreters.size) :
    (world.updateInterpreter id change).interpreter id = change (world.interpreter id) := by
  rw [interpreter, interpreter, updateInterpreter, Array.getElem?_modify]
  simp [created]

/-! ## The end of an interpreter -/

/-- The modules of an interpreter that has lost its last owner. -/
def orphans (world : World) (id : InterpreterId) : Multiset Ref :=
  if 0 < (world.interpreter id).owners then 0 else (world.interpreter id).kept

/-- A module without globals. -/
def withoutGlobals (world : World) (ref : Ref) : World :=
  match world.heap.module? ref with
  | some contents => world.replace ref (.module { contents with globals := [] })
  | none => world

/-- What becomes of a finalized interpreter whose queue has been worked off. -/
def tornDown (world : World) (id : InterpreterId) : World :=
  let modules := (world.interpreter id).modules.map (·.2)
  let main := (world.interpreter id).main
  let world := world.updateInterpreter id fun entry => { entry with modules := [] }
  let world := (modules.foldl withoutGlobals world).withoutGlobals main
  let world := world.releaseAll modules
  let hooks := (world.interpreter id).hooks
  let world := world.updateInterpreter id fun entry => { entry with hooks := [] }
  let world := hooks.foldl runHook world
  let extensions := (world.interpreter id).extensions
  let world := world.updateInterpreter id fun entry => { entry with extensions := .empty }
  let world := world.dropExtensions extensions
  { world with current := none }.note .debug "interpreter finalized"

theorem interpreters_withoutGlobals (world : World) (ref : Ref) :
    (world.withoutGlobals ref).interpreters = world.interpreters := by
  unfold withoutGlobals
  split
  · exact interpreters_replace world ref _
  · rfl

/-- Several changes, each of which gives up and takes nothing. -/
theorem path_foldl {α : Type} {step : World → α → World} {held : Multiset Ref}
    {items : List α} (each : ∀ item ∈ items, ∀ world, world.Sound program held →
      Path program touch world 0 (step world item) 0) (world : World)
    (sound : world.Sound program held) : Path program touch world 0 (items.foldl step world) 0 := by
  induction items generalizing world with
  | nil => exact .refl _ _
  | cons item rest ih =>
    have first := each item (by simp) world sound
    have sound' : (step world item).Sound program held := by
      have framed := (first.frame held).sound (by rwa [zero_add])
      rwa [zero_add] at framed
    exact first.trans (ih (fun other member => each other (by simp [member])) (step world item)
      sound')

theorem path_withoutGlobals (modules : ∀ contents, touch (.module contents)) {held : Multiset Ref}
    (sound : world.Sound program held) (ref : Ref) :
    Path program touch world 0 (world.withoutGlobals ref) 0 := by
  have runs : Op.Runs program touch (Op.clearModule ref) world 0 (fun _ => 0) fun _ _ => True :=
    Op.runs_clearModule modules ref
  have sound' : world.Sound program (0 + held) := by rwa [zero_add]
  exact (runs.ok sound' rfl).1

/-- Two worlds in which an interpreter has the same owners and keeps the same
modules. -/
structure Keeping (id : InterpreterId) (before after : World) : Prop where
  owners : (after.interpreter id).owners = (before.interpreter id).owners
  kept : (after.interpreter id).kept = (before.interpreter id).kept
  size : after.interpreters.size = before.interpreters.size

namespace Keeping

variable {id : InterpreterId} {first second third : World}

theorem trans (front : Keeping id first second) (back : Keeping id second third) :
    Keeping id first third :=
  ⟨back.owners.trans front.owners, back.kept.trans front.kept, back.size.trans front.size⟩

theorem of_same (same : second.interpreters = first.interpreters) : Keeping id first second := by
  have entry := interpreter_congr same id
  exact ⟨by rw [entry], by rw [entry], by rw [same]⟩

theorem of_change {change : Interpreter → Interpreter}
    (owners : ∀ entry, (change entry).owners = entry.owners)
    (kept : ∀ entry, (change entry).kept = entry.kept)
    (created : id.number < first.interpreters.size) :
    Keeping id first (first.updateInterpreter id change) := by
  have entry := interpreter_updateInterpreter change created
  exact ⟨by rw [entry, owners], by rw [entry, kept], by simp [updateInterpreter]⟩

theorem orphans (keeping : Keeping id first second) : second.orphans id = first.orphans id := by
  rw [World.orphans, World.orphans, keeping.owners, keeping.kept]

end Keeping

/-- The modules of an interpreter are taken from it, all but the main one. -/
theorem path_takeModules {id : InterpreterId} (created : id.number < world.interpreters.size) :
    let after := world.updateInterpreter id fun entry => { entry with modules := [] }
    Path program touch world (world.orphans id) after
      (after.orphans id + (world.interpreter id).modules.map (·.2)) := by
  intro after
  have entry : after.interpreter id = { world.interpreter id with modules := [] } :=
    interpreter_updateInterpreter _ created
  refine .updateInterpreter created ?_
  rw [orphans, orphans, entry]
  simp only [Interpreter.claims, Interpreter.kept, List.map_nil]
  split
  · simp only [← Multiset.coe_add, ← Multiset.cons_coe, ← Multiset.singleton_add,
      Multiset.coe_nil]
    abel
  · simp only [← Multiset.coe_add, ← Multiset.cons_coe, ← Multiset.singleton_add,
      Multiset.coe_nil]
    abel

/-- Modules are emptied, and some of them given up. -/
theorem path_emptyModules (modules : ∀ contents, touch (.module contents)) {held : Multiset Ref}
    {rest : Multiset Ref} (refs : List Ref) (main : Ref)
    (sound : world.Sound program (rest + refs + held)) :
    Path program touch world (rest + refs)
      (((refs.foldl withoutGlobals world).withoutGlobals main).releaseAll refs) rest := by
  have emptied : Path program touch world 0 (refs.foldl withoutGlobals world) 0 :=
    path_foldl (fun ref _ _ sound => path_withoutGlobals modules sound ref) world sound
  have sound' : (refs.foldl withoutGlobals world).Sound program (rest + refs + held) := by
    have framed := (emptied.frame (rest + refs + held)).sound (by rwa [zero_add])
    rwa [zero_add] at framed
  have last := (emptied.trans (path_withoutGlobals modules sound' main)).frame (rest + refs)
  rw [zero_add] at last
  exact last.trans (.releaseAll _ refs rest)

/-- Hooks run, and extension data goes. -/
theorem path_hooks {id : InterpreterId} {hooks : List FinalizeHook} {held : Multiset Ref}
    (permitted : ∀ registry, .clearRegistry registry ∈ hooks → touch.rosters registry)
    (sound : world.Sound program held) :
    Path program touch world 0
      (hooks.foldl runHook (world.updateInterpreter id fun entry => { entry with hooks := [] }))
      0 := by
  have first : Path program touch world 0
      (world.updateInterpreter id fun entry => { entry with hooks := [] }) 0 :=
    .updateInterpreter_same fun _ => rfl
  have sound' := (first.frame held).sound (by rwa [zero_add])
  refine first.trans (path_foldl (fun hook member world _ => ?_) _ sound')
  exact path_runHook world fun registry same => permitted registry (same ▸ member)

theorem path_extensions {id : InterpreterId} {extensions : Extensions}
    (permitted : ∀ registry, ((world.updateInterpreter id fun entry =>
      { entry with extensions := .empty }).dropExtensions extensions).registryAlive registry =
        false → touch.rosters registry) :
    Path program touch world 0
      ((world.updateInterpreter id fun entry =>
        { entry with extensions := .empty }).dropExtensions extensions) 0 := by
  have first : Path program touch world 0
      (world.updateInterpreter id fun entry => { entry with extensions := .empty }) 0 :=
    .updateInterpreter_same fun _ => rfl
  exact first.trans (path_dropExtensions _ permitted)

/-- An interpreter is torn down: its modules are emptied and given up, all but the
main one.  It keeps its owners. -/
theorem path_tornDown (modules : ∀ contents, touch (.module contents)) {held : Multiset Ref}
    {id : InterpreterId} (created : id.number < world.interpreters.size)
    (cleared : ∀ registry, .clearRegistry registry ∈ (world.interpreter id).hooks →
      touch.rosters registry)
    (dropped : ∀ registry, (world.tornDown id).registryAlive registry = false →
      touch.rosters registry)
    (sound : world.Sound program (world.orphans id + held)) :
    Path program touch world (world.orphans id) (world.tornDown id)
        ((world.tornDown id).orphans id) ∧
      ((world.tornDown id).interpreter id).owners = (world.interpreter id).owners := by
  unfold tornDown at dropped ⊢
  dsimp only at dropped ⊢
  generalize refs : (world.interpreter id).modules.map (·.2) = taken at dropped ⊢
  generalize (world.interpreter id).main = main at dropped ⊢
  generalize emptied : (world.updateInterpreter id fun entry =>
    { entry with modules := [] }) = first at dropped ⊢
  have owners : (first.interpreter id).owners = (world.interpreter id).owners := by
    rw [← emptied, interpreter_updateInterpreter _ created]
  have size : id.number < first.interpreters.size := by
    rw [← emptied]
    simpa [updateInterpreter] using created
  -- the modules leave the interpreter, and are emptied before they are given up
  have step : Path program touch world (world.orphans id) first (first.orphans id + taken) := by
    rw [← emptied, ← refs]
    exact path_takeModules created
  have soundFirst := (step.frame held).sound sound
  generalize given : ((taken.foldl withoutGlobals first).withoutGlobals main).releaseAll taken =
    second at dropped ⊢
  have stepSecond : Path program touch first (first.orphans id + taken) second
      (first.orphans id) := by
    rw [← given]
    exact path_emptyModules modules taken main soundFirst
  have sameSecond : second.interpreters = first.interpreters := by
    rw [← given, interpreters_releaseAll, interpreters_withoutGlobals,
      observe_foldl interpreters interpreters_withoutGlobals]
  have keepSecond : Keeping id first second := .of_same sameSecond
  have hooksSecond : (second.interpreter id).hooks = (world.interpreter id).hooks := by
    rw [interpreter_congr sameSecond, ← emptied, interpreter_updateInterpreter _ created]
  have soundSecond := (stepSecond.frame held).sound soundFirst
  -- the hooks run after that, and the extensions are dropped last
  rw [hooksSecond] at dropped ⊢
  generalize (world.interpreter id).hooks = hooks at cleared dropped ⊢
  generalize hooked : hooks.foldl runHook (second.updateInterpreter id fun entry =>
    { entry with hooks := [] }) = third at dropped ⊢
  have stepThird : Path program touch second 0 third 0 := by
    rw [← hooked]
    exact path_hooks cleared soundSecond
  have keepThird : Keeping id second third := by
    rw [← hooked]
    have unhooked : Keeping id second (second.updateInterpreter id fun entry =>
        { entry with hooks := [] }) :=
      .of_change (fun _ => rfl) (fun _ => rfl) (by rwa [keepSecond.size])
    exact unhooked.trans (.of_same (observe_foldl interpreters interpreters_runHook hooks _))
  generalize (third.interpreter id).extensions = extensions at dropped ⊢
  generalize bared : (third.updateInterpreter id fun entry =>
    { entry with extensions := .empty }).dropExtensions extensions = fourth at dropped ⊢
  have stepFourth : Path program touch third 0 fourth 0 := by
    rw [← bared] at dropped ⊢
    exact path_extensions dropped
  have keepFourth : Keeping id third fourth := by
    rw [← bared]
    have bare : Keeping id third (third.updateInterpreter id fun entry =>
        { entry with extensions := .empty }) :=
      .of_change (fun _ => rfl) (fun _ => rfl) (by rwa [keepThird.size, keepSecond.size])
    exact bare.trans (.of_same (interpreters_dropExtensions _ extensions))
  have last : fourth.Settles ({ fourth with current := none }.note .debug "interpreter finalized") :=
    .of_registries rfl rfl (le_refl _)
  have keepLast : Keeping id fourth
      ({ fourth with current := none }.note .debug "interpreter finalized") := .of_same rfl
  have keeping := ((keepSecond.trans keepThird).trans keepFourth).trans keepLast
  refine ⟨?_, keeping.owners.trans owners⟩
  rw [keeping.orphans]
  have tail := ((stepThird.trans stepFourth).trans (.single (.settle last rfl))).frame
    (first.orphans id)
  rw [zero_add] at tail
  exact (step.trans stepSecond).trans tail

/-- Finalizing an interpreter clears a registry. -/
structure Clears (world : World) (id : InterpreterId) (registry : RegistryId) : Prop where
  working : (world.interpreter id).finalized = false
  reserved : (world.queue id).canReserve = true
  hooked : .clearRegistry registry ∈ (world.interpreter id).hooks

end World

/-- What may be changed by the end of an interpreter, which leads to the world `after`:
modules, the rosters of registries that are cleared, and those of registries that are
not alive any more. -/
structure Permission.Ends (touch : Permission) (world : World) (id : InterpreterId)
    (after : World) : Prop where
  modules : ∀ contents, touch (.module contents)
  cleared : ∀ registry, world.Clears id registry → touch.rosters registry
  dropped : ∀ registry, after.registryAlive registry = false → touch.rosters registry

namespace Op

open World

/-- The interpreter is marked, and its queue takes no more requests. -/
def closing (world : World) (id : InterpreterId) : World :=
  world.updateInterpreter id fun entry => { entry with
    finalized := true
    queue := entry.queue.finish }

theorem run_interpreter (world : World) (id : InterpreterId) :
    (interpreter id).run world = (.ok (world.interpreter id), world) := rfl

/-- Changes that are made one after the other. -/
theorem run_forM {α : Type} {action : α → Op PUnit} {step : World → α → World}
    (each : ∀ item world, (action item).run world = (.ok ⟨⟩, step world item)) (items : List α)
    (world : World) : (items.forM action).run world = (.ok ⟨⟩, items.foldl step world) := by
  induction items generalizing world with
  | nil => rfl
  | cons item rest ih =>
    show (action item >>= fun _ => List.forM rest action).run world = _
    rw [Operation.run_bind_of_ok (each item world), ih]
    rfl

/-- A finalized interpreter stays as it is; any other one has its queue worked off
and is torn down, unless the queue cannot be worked off. -/
theorem run_finalize (world : World) (id : InterpreterId) :
    (finalize id).run world =
      if (world.interpreter id).finalized = true then (.ok (), world)
      else
        match (flush id).run (closing world id) with
        | (.ok _, after) => (.ok (), after.tornDown id)
        | (.error fault, after) => (.error fault, after) := by
  rw [finalize, Operation.run_bind_of_ok (run_interpreter world id)]
  split
  · rfl
  · rw [Operation.run_bind_of_ok (run_change world _)]
    rcases flushed : (flush id).run (closing world id) with ⟨result, after⟩
    cases result with
    | error fault =>
      exact Operation.run_bind_of_error flushed _
    | ok count =>
      have cleared : ∀ refs middle, (List.forM refs clearModule).run middle =
          (.ok (), refs.foldl withoutGlobals middle) := run_forM fun _ _ => rfl
      refine (Operation.run_bind_of_ok flushed _).trans ?_
      rw [Operation.run_bind_of_ok (run_interpreter after id)]
      dsimp only
      rw [Operation.run_bind_of_ok (run_change after _), Operation.run_bind_of_ok (cleared _ _)]
      rfl

/-- Working off a queue keeps the interpreter's owners and modules. -/
theorem keeping_flush {id : InterpreterId} (created : id.number < world.interpreters.size) :
    Keeping id world ((flush id).run world).2 := by
  rw [flush, Operation.run_bind_of_ok (run_world world)]
  dsimp only
  split
  · exact .of_same rfl
  · have drained : Keeping id world (world.setQueue id (world.queue id).drained) :=
      .of_change (fun _ => rfl) (fun _ => rfl) created
    rw [Operation.run_bind_of_ok (run_change world _), Operation.run_bind_of_ok (run_releaseAll _ _)]
    have released := drained.trans (.of_same (interpreters_releaseAll _ (world.queue id).pending))
    split
    · exact released.trans (.of_same rfl)
    · exact released

/-- Working off a queue keeps the hooks of the interpreter. -/
theorem hooks_flush {id : InterpreterId} (created : id.number < world.interpreters.size) :
    (((flush id).run world).2.interpreter id).hooks = (world.interpreter id).hooks := by
  rw [flush, Operation.run_bind_of_ok (run_world world)]
  dsimp only
  split
  · rfl
  · have drained : ((world.setQueue id (world.queue id).drained).interpreter id).hooks =
        (world.interpreter id).hooks := by
      rw [setQueue, interpreter_updateInterpreter _ created]
    have released := (congrArg Interpreter.hooks (interpreter_congr
      (interpreters_releaseAll _ (world.queue id).pending) id)).trans drained
    rw [Operation.run_bind_of_ok (run_change world _), Operation.run_bind_of_ok (run_releaseAll _ _)]
    split <;> exact released

/-- A queue is worked off unless it cannot be. -/
theorem canReserve_of_flush {id : InterpreterId} {count : Nat} {after : World}
    (flushed : (flush id).run world = (.ok count, after)) :
    (world.queue id).canReserve = true := by
  rw [flush, Operation.run_bind_of_ok (run_world world)] at flushed
  dsimp only at flushed
  split at flushed
  · cases flushed
  · simp_all

/-- An interpreter that exists ends, or it does not because its queue cannot be
worked off.  Its modules are orphans before and after if it has no owner. -/
theorem path_finalize {held : Multiset Ref} {id : InterpreterId}
    (created : id.number < world.interpreters.size)
    (ends : touch.Ends world id ((finalize id).run world).2)
    (sound : world.Sound program (world.orphans id + held)) :
    Path program touch world (world.orphans id) ((finalize id).run world).2
        (((finalize id).run world).2.orphans id) ∧
      (((finalize id).run world).2.interpreter id).owners = (world.interpreter id).owners := by
  have cleared := ends.cleared
  have dropped := ends.dropped
  rw [run_finalize] at dropped ⊢
  split
  · exact ⟨.refl _ _, rfl⟩
  · rename_i working
    rw [if_neg working] at dropped
    have keepClosing : Keeping id world (closing world id) :=
      .of_change (fun _ => rfl) (fun _ => rfl) created
    have stepClosing : Path program touch world (world.orphans id) (closing world id)
        (world.orphans id) := .updateInterpreter_same fun _ => rfl
    have createdClosing : id.number < (closing world id).interpreters.size := by
      rwa [keepClosing.size]
    have keepFlush := keeping_flush createdClosing
    have entryClosing : (closing world id).interpreter id = { world.interpreter id with
        finalized := true
        queue := (world.interpreter id).queue.finish } := interpreter_updateInterpreter _ created
    have hooks := hooks_flush createdClosing
    rw [entryClosing] at hooks
    have soundClosing := (stepClosing.frame held).sound sound
    have flushing : Runs program touch (flush id) (closing world id) 0 (fun _ => 0)
        fun _ _ => True := runs_flush id
    have run := flushing (world.orphans id + held) (by rwa [zero_add])
    rcases flushed : (flush id).run (closing world id) with ⟨result, after⟩
    rw [flushed] at run keepFlush dropped hooks
    have keeping := keepClosing.trans keepFlush
    cases result with
    | error fault =>
      have stepFlush := run.frame (world.orphans id)
      rw [zero_add] at stepFlush
      refine ⟨?_, keeping.owners⟩
      show Path program touch world (world.orphans id) after (after.orphans id)
      rw [keeping.orphans]
      exact stepClosing.trans stepFlush
    | ok count =>
      have stepFlush := run.1.frame (world.orphans id)
      rw [zero_add] at stepFlush
      have stepBoth : Path program touch world (world.orphans id) after (after.orphans id) := by
        rw [keeping.orphans]
        exact stepClosing.trans stepFlush
      have soundAfter := (stepBoth.frame held).sound sound
      have createdAfter : id.number < after.interpreters.size := by rwa [keeping.size]
      have reserved := canReserve_of_flush flushed
      rw [queue, entryClosing] at reserved
      have permitted : ∀ registry, .clearRegistry registry ∈ (after.interpreter id).hooks →
          touch.rosters registry := by
        intro registry member
        rw [hooks] at member
        exact cleared registry ⟨Bool.eq_false_of_not_eq_true working, reserved, member⟩
      obtain ⟨torn, owners⟩ := path_tornDown ends.modules createdAfter permitted dropped soundAfter
      exact ⟨stepBoth.trans torn, owners.trans keeping.owners⟩

/-- Finalizing an interpreter that has an owner. -/
theorem runs_finalize {id : InterpreterId} (alive : 0 < (world.interpreter id).owners)
    (ends : touch.Ends world id ((finalize id).run world).2) :
    Runs program touch (finalize id) world 0 (fun _ => 0) fun _ _ => True := by
  intro frame sound
  have none : world.orphans id = 0 := if_pos alive
  obtain ⟨path, owners⟩ := path_finalize (created_of_owners alive) ends (by rwa [none])
  have noneAfter : ((finalize id).run world).2.orphans id = 0 := if_pos (by rwa [owners])
  rw [none, noneAfter] at path
  rcases ended : (finalize id).run world with ⟨result, after⟩
  rw [ended] at path
  cases result with
  | ok value => exact ⟨path, trivial⟩
  | error fault => exact path

/-- What is left of an interpreter without owners is given up. -/
def abandoned (world : World) (id : InterpreterId) : World :=
  let left := world.interpreter id
  let world := world.releaseAll (left.main :: left.modules.map (·.2))
  let world := world.dropExtensions left.extensions
  world.updateInterpreter id fun entry =>
    { entry with modules := [], extensions := .empty, hooks := [] }

theorem path_abandoned {id : InterpreterId} (gone : (world.interpreter id).owners = 0)
    (created : id.number < world.interpreters.size)
    (dropped : ∀ registry, (abandoned world id).registryAlive registry = false →
      touch.rosters registry) :
    Path program touch world (world.orphans id) (abandoned world id) 0 := by
  have all : world.orphans id = (world.interpreter id).kept :=
    if_neg (by rw [gone]; exact Nat.lt_irrefl 0)
  rw [all, abandoned]
  rw [abandoned] at dropped
  generalize given : world.releaseAll ((world.interpreter id).main ::
    (world.interpreter id).modules.map (·.2)) = first at dropped ⊢
  have stepFirst : Path program touch world (world.interpreter id).kept first 0 := by
    rw [← given]
    exact path_releaseAll world _
  generalize left : first.dropExtensions (world.interpreter id).extensions = second at dropped ⊢
  have stepSecond : Path program touch first 0 second 0 := by
    rw [← left] at dropped ⊢
    exact path_dropExtensions first dropped
  have keeping : Keeping id world second := by
    rw [← left, ← given]
    refine .of_same ?_
    rw [interpreters_dropExtensions, interpreters_releaseAll]
  refine (stepFirst.trans stepSecond).trans (.updateInterpreter (by rwa [keeping.size]) ?_)
  have gone' : ¬0 < (second.interpreter id).owners := by
    rw [keeping.owners, gone]
    exact Nat.lt_irrefl 0
  simp only [Interpreter.claims, if_neg gone']

/-- No registry comes to life by what an interpreter leaves. -/
theorem registryAlive_of_abandoned {id : InterpreterId} {registry : RegistryId}
    (alive : (abandoned world id).registryAlive registry = true) :
    world.registryAlive registry = true := by
  have fewer := owners_dropExtensions_le
    (world.releaseAll ((world.interpreter id).main :: (world.interpreter id).modules.map (·.2)))
    (world.interpreter id).extensions registry
  rw [owners_releaseAll] at fewer
  have left : 0 < ((abandoned world id).registry registry).owners := of_decide_eq_true alive
  exact decide_eq_true (Nat.lt_of_lt_of_le left fewer)

/-- The modules of an interpreter go when its last handle goes. -/
theorem runs_dropInterpreter {id : InterpreterId} (alive : 0 < (world.interpreter id).owners)
    (ends : (world.interpreter id).owners ≤ 1 →
      touch.Ends world id ((dropInterpreter id).run world).2) :
    Runs program touch (dropInterpreter id) world 0 (fun _ => 0) fun _ _ => True := by
  have created := created_of_owners alive
  rw [dropInterpreter, Operation.run_bind_of_ok (run_interpreter world id)] at ends
  dsimp only at ends
  refine .look_bind (run_interpreter world id) ?_
  generalize lowered : (world.updateInterpreter id fun entry =>
    { entry with owners := entry.owners - 1 }) = first
  have entry : first.interpreter id =
      { world.interpreter id with owners := (world.interpreter id).owners - 1 } := by
    rw [← lowered]
    exact interpreter_updateInterpreter _ created
  have createdFirst : id.number < first.interpreters.size := by
    rw [← lowered]
    simpa [updateInterpreter] using created
  have step : Path program touch world 0 first (first.orphans id) := by
    rw [orphans, entry, ← lowered]
    refine .updateInterpreter created ?_
    simp only [Interpreter.claims, Interpreter.kept]
    rw [if_pos alive]
    split
    · rfl
    · rw [List.nil_append, Multiset.coe_add, add_zero]
      exact Multiset.coe_eq_coe.mpr List.perm_append_comm
  have changed : (change (·.updateInterpreter id fun entry =>
      { entry with owners := entry.owners - 1 })).run world = (.ok (), first) := by
    rw [← lowered]
    rfl
  rw [Operation.run_bind_of_ok changed] at ends
  refine .path_bind changed step fun _ => ?_
  split
  · rename_i last
    have ends := ends last
    rw [if_pos last] at ends
    have gone : (first.interpreter id).owners = 0 := by
      rw [entry]
      exact Nat.sub_eq_zero_of_le last
    -- what the interpreter keeps has no owner from here on: it is ours to give up
    show Runs program touch ((finalize id).always fun world => abandoned world id) first
      (first.orphans id) (fun _ => 0) fun _ _ => True
    intro frame sound
    have ended : touch.Ends first id ((finalize id).run first).2 := by
      refine ⟨ends.modules, fun registry clears => ends.cleared registry ?_, ?_⟩
      · obtain ⟨working, reserved, hooked⟩ := clears
        rw [queue, entry] at reserved
        rw [entry] at working hooked
        exact ⟨working, reserved, hooked⟩
      · intro registry dead
        exact ends.dropped registry (Bool.eq_false_of_not_eq_true fun alive =>
          Bool.false_ne_true (dead.symm.trans (registryAlive_of_abandoned alive)))
    obtain ⟨path, owners⟩ := path_finalize createdFirst ended sound
    have createdLast : id.number < ((finalize id).run first).2.interpreters.size :=
      Nat.lt_of_lt_of_le createdFirst path.grows.interpreters
    have whole := path.trans (path_abandoned (by rw [owners, gone]) createdLast ends.dropped)
    rw [run_always]
    cases ((finalize id).run first).1 with
    | ok value => exact ⟨whole, trivial⟩
    | error fault => exact whole
  · rename_i more
    have none : first.orphans id = 0 := by
      rw [orphans, entry, if_pos]
      dsimp only
      omega
    rw [none]
    exact .pure rfl trivial

/-! ## The other operations on interpreters -/

theorem runs_retainInterpreter {id : InterpreterId} (alive : 0 < (world.interpreter id).owners) :
    Runs program touch (retainInterpreter id) world 0 (fun _ => 0) fun _ _ => True := by
  refine runs_change (.updateInterpreter (created_of_owners alive) ?_)
  simp only [Interpreter.claims, Interpreter.kept]
  rw [if_pos alive, if_pos (Nat.succ_pos _)]

theorem runs_addHook (id : InterpreterId) (hook : FinalizeHook) :
    Runs program touch (addHook id hook) world 0 (fun _ => 0) fun _ _ => True :=
  runs_change (.updateInterpreter_same fun _ => rfl)

theorem runs_setExtensions (id : InterpreterId) (update : Extensions → Extensions) :
    Runs program touch (setExtensions id update) world 0 (fun _ => 0) fun _ _ => True :=
  runs_change (.updateInterpreter_same fun _ => rfl)

/-- The modules of an interpreter with an owner have places. -/
theorem used_of_kept {held : Multiset Ref} (sound : world.Sound program held)
    {id : InterpreterId} (alive : 0 < (world.interpreter id).owners) {ref : Ref}
    (member : ref ∈ (world.interpreter id).kept) : ref.place < world.heap.size := by
  have created := created_of_owners alive
  have among : world.interpreter id ∈ world.interpreters.toList := by
    rw [World.interpreter, Array.getElem?_eq_getElem created, Option.getD_some]
    simp
  have claimed : ref ∈ world.claims := by
    refine Multiset.mem_add.mpr (.inr (Tally.mem_sum_map.mpr ⟨_, among, ?_⟩))
    rw [Interpreter.claims, if_pos alive]
    exact List.mem_append_left _ member
  exact sound.within ref (by simp [owed, claimed])

theorem runs_mainModule {id : InterpreterId} (alive : 0 < (world.interpreter id).owners) :
    Runs program touch (mainModule id) world 0 (fun ref => {ref}) fun _ _ => True := by
  refine .assuming fun frame sound => .look_bind (run_interpreter world id) ?_
  have used : (world.interpreter id).main.place < world.heap.size :=
    used_of_kept sound alive (List.mem_cons_self ..)
  exact (runs_retain used).weaken fun _ _ _ _ => trivial

theorem runs_addModule {id : InterpreterId} {ref : Ref}
    (alive : 0 < (world.interpreter id).owners) (used : ref.place < world.heap.size) :
    Runs program touch (addModule id ref) world 0 (fun _ => 0) fun _ _ => True := by
  refine .heap_bind ?_
  split
  · exact .raise _
  · rename_i contents reading
    refine .look_bind (run_interpreter world id) ?_
    split
    · exact .raise _
    · have taken : Path program touch world 0 (world.retain ref) (0 + {ref}) := .retain used
      refine .path_bind (run_retain world ref) taken fun _ => runs_change ?_
      refine .updateInterpreter (created_of_owners alive) ?_
      have kept : (world.retain ref).interpreter id = world.interpreter id := rfl
      simp only [Interpreter.claims, Interpreter.kept, kept]
      rw [if_pos alive, if_pos alive, List.map_append, List.map_cons, List.map_nil, add_zero, zero_add,
        ← Multiset.coe_singleton, Multiset.coe_add]
      refine Multiset.coe_eq_coe.mpr ?_
      rw [← List.cons_append, List.append_assoc, List.append_assoc]
      exact List.Perm.append_left _ List.perm_append_comm

theorem runs_findModule {id : InterpreterId} {name : String}
    (alive : 0 < (world.interpreter id).owners) :
    Runs program touch (findModule id name) world 0 (fun ref => {ref}) fun _ _ => True := by
  refine .assuming fun frame sound => .look_bind (run_interpreter world id) ?_
  split
  · rename_i ref found
    obtain ⟨front, back, split, _⟩ := List.lookup_eq_some_iff.mp found
    have used : ref.place < world.heap.size := by
      refine used_of_kept sound alive (List.mem_cons_of_mem _ ?_)
      rw [split]
      simp
    exact (runs_retain used).weaken fun _ _ _ _ => trivial
  · exact .raise _

theorem runs_applyManifest (manifest : Manifest) :
    Runs program touch (applyManifest manifest) world 0 (fun _ => 0) fun _ _ => True := by
  refine .forM fun (name, value) _ middle _ => .note_bind ?_
  unfold setVariable
  split
  · exact .of_error rfl
  · exact runs_change (.single (.settle (.of_registries rfl rfl (le_refl _)) rfl))

theorem claims_push (world : World) (entry : Interpreter) (current : Option InterpreterId) :
    ({ world with interpreters := world.interpreters.push entry, current } : World).claims =
      world.claims + entry.claims := by
  simp [World.claims, add_assoc]

theorem runs_start (configuration : Configuration) :
    Runs program touch (start configuration) world 0 (fun _ => 0) fun _ _ => True := by
  refine .look_bind (run_current? world) ?_
  split
  · exact .pure rfl trivial
  · refine .world_bind ?_
    dsimp only
    split
    · exact .pure rfl trivial
    · refine (runs_createModule _ _).bind fun main after _ _ => .assuming fun _ sound => ?_
      have used : main.place < after.heap.size := sound.used_of_held (by simp)
      refine .path_bind (run_retain after main) (.retain used) fun _ => .world_bind ?_
      refine .path_bind (run_change _ _) (.single (.settle (.of_registries rfl rfl ?_) ?_))
        fun _ => .note_bind (.pure rfl trivial)
      · simp
      · rw [claims_push, add_zero]
        rfl

end Op

end HostBridge
