import HostBridge.Proofs.Interpreter.Standing
import HostBridge.Proofs.Roster.Clearing

/-!
# Worlds that only lose

While an interpreter ends, things only go: modules lose their globals, registries their types and
their members, and nothing is defined, registered or entered.  So what has been emptied stays empty
until the end, whatever is released on the way.
-/

namespace HostBridge

/-- Take the names of hooks that have announced themselves. -/
def Event.announcement? : Event → Option String
  | .finalizing name => some name
  | .released _ _ => none

/-- Take the name under which a hook announces itself. -/
def FinalizeHook.name? : FinalizeHook → Option String
  | .announce name => some name
  | .clearRegistry _ => none

namespace World

variable {world first second third : World}

/-- The hooks that have announced themselves, in the order in which they ran. -/
def announcements (world : World) : List String := world.events.toList.filterMap Event.announcement?

/-- A module has no globals, if it is there. -/
def Bare (world : World) (ref : Ref) : Prop :=
  ∀ contents, world.heap.module? ref = some contents → contents.globals = []

/-- A registry has neither types nor members. -/
structure Blank (world : World) (id : RegistryId) : Prop where
  types : (world.registry id).types = []
  hollow : world.Hollow id

/-- Modules, registries and their owners are at most what they were. -/
structure Sheds (before after : World) : Prop where
  modules : ∀ ref contents, after.heap.module? ref = some contents →
    ∃ earlier, before.heap.module? ref = some earlier ∧
      (contents = earlier ∨ contents = { earlier with globals := [] })
  types : ∀ id, (before.registry id).types = [] → (after.registry id).types = []
  hollow : ∀ id, before.Hollow id → after.Hollow id
  owners : ∀ id, (after.registry id).owners ≤ (before.registry id).owners

namespace Sheds

theorem refl (world : World) : world.Sheds world :=
  ⟨fun _ contents found => ⟨contents, found, .inl rfl⟩, fun _ => id, fun _ => id, fun _ => le_refl _⟩

theorem trans (front : first.Sheds second) (back : second.Sheds third) : first.Sheds third where
  modules ref contents found := by
    obtain ⟨middle, found', same | emptied⟩ := back.modules ref contents found
    · rw [same]
      exact front.modules ref middle found'
    · obtain ⟨earlier, found'', same' | emptied'⟩ := front.modules ref middle found'
      · exact ⟨earlier, found'', .inr (by rw [emptied, same'])⟩
      · exact ⟨earlier, found'', .inr (by rw [emptied, emptied'])⟩
  types id none := back.types id (front.types id none)
  hollow id none := back.hollow id (front.hollow id none)
  owners id := (back.owners id).trans (front.owners id)

theorem foldl {α : Type} {step : World → α → World}
    (each : ∀ world item, World.Sheds world (step world item)) (items : List α) (world : World) :
    world.Sheds (items.foldl step world) :=
  List.foldlRecOn items step (refl world) fun later sheds item _ => sheds.trans (each later item)

/-- What concerns neither objects nor registries sheds nothing. -/
theorem of_same (heap : second.heap = first.heap)
    (registries : second.registries = first.registries) :
    first.Sheds second where
  modules ref contents found := ⟨contents, by rwa [← heap], .inl rfl⟩
  types id none := by rwa [registry, registries]
  hollow id none := none.of_registries registries
  owners id := by rw [registry, registries]; exact le_refl _

theorem bare (sheds : first.Sheds second) {ref : Ref} (bare : first.Bare ref) :
    second.Bare ref := by
  intro contents found
  obtain ⟨earlier, found', same | emptied⟩ := sheds.modules ref contents found
  · rw [same]
    exact bare earlier found'
  · rw [emptied]

theorem blank (sheds : first.Sheds second) {id : RegistryId} (blank : first.Blank id) :
    second.Blank id := ⟨sheds.types id blank.types, sheds.hollow id blank.hollow⟩

theorem registryAlive (sheds : first.Sheds second) {id : RegistryId}
    (alive : second.registryAlive id = true) : first.registryAlive id = true :=
  decide_eq_true (Nat.lt_of_lt_of_le (of_decide_eq_true alive) (sheds.owners id))

end Sheds

/-! ## What only loses -/

theorem sheds_updateInterpreter (world : World) (id : InterpreterId)
    (change : Interpreter → Interpreter) : world.Sheds (world.updateInterpreter id change) :=
  .of_same rfl rfl

/-- A registry is changed, but gets no types, members or owners. -/
theorem sheds_updateRegistry (world : World) (id : RegistryId) {change : Registry → Registry}
    (types : ∀ entry, entry.types = [] → (change entry).types = [])
    (roster : ∀ entry, entry.roster = .empty → (change entry).roster = .empty)
    (owners : ∀ entry, (change entry).owners ≤ entry.owners) :
    world.Sheds (world.updateRegistry id change) where
  modules _ contents found := ⟨contents, found, .inl rfl⟩
  types other none := by
    rcases world.registry_updateRegistry id other change with same | ⟨_, same⟩
    · rwa [same]
    · rw [same]
      exact types _ none
  hollow other none := by
    rcases world.registry_updateRegistry id other change with same | ⟨_, same⟩
    · rwa [Hollow, same]
    · rw [Hollow, same]
      exact roster _ none
  owners other := by
    rcases world.registry_updateRegistry id other change with same | ⟨_, same⟩
    · rw [same]
    · rw [same]
      exact owners _

/-- Modules that are there later have been there, as they are. -/
theorem module?_put (heap : Heap) {ref : Ref} {cell : Cell} {new : Option Cell}
    (present : heap.cell? ref = some cell) (same : ∀ later ∈ new, later.body = cell.body)
    {other : Ref} {contents : ModuleBody}
    (found : (heap.put ref new).module? other = some contents) :
    heap.module? other = some contents := by
  unfold Heap.module? at found ⊢
  by_cases equal : other = ref
  · subst equal
    rw [Heap.body_eq present]
    cases new with
    | none =>
      rw [Heap.body, Heap.cell?_put _ present, if_pos rfl] at found
      cases found
    | some later =>
      rw [Heap.body, Heap.cell?_put _ present, if_pos rfl] at found
      dsimp only at found
      rwa [same later rfl] at found
  · rwa [Heap.body, Heap.cell?_put _ present, if_neg equal] at found

theorem sheds_releaseAll (world : World) (refs : List Ref) : world.Sheds
    (world.releaseAll refs) where
  modules other contents found := by
    refine ⟨contents, ?_, .inl rfl⟩
    induction world, refs using releaseAll.induct with
    | case1 world => rwa [releaseAll_nil] at found
    | case2 world ref rest gone ih =>
      rw [releaseAll_of_gone rest gone] at found
      exact ih found
    | case3 world ref rest cell present last ih =>
      rw [releaseAll_of_last rest present last] at found
      have earlier := ih found
      rw [heap_retire] at earlier
      exact module?_put world.heap present (fun _ none => by cases none) earlier
    | case4 world ref rest cell present shared ih =>
      rw [releaseAll_of_shared rest present (Nat.lt_of_not_le shared)] at found
      refine module?_put world.heap present (fun later member => ?_) (ih found)
      rw [← Option.some.inj member]
  types id none := by rwa [types_releaseAll]
  hollow id none := Roster.Lasting.empty.releaseAll none refs
  owners id := by rw [owners_releaseAll]

/-- Retaining objects changes no contents. -/
theorem sheds_retainAll (world : World) (refs : List Ref) : world.Sheds (world.retainAll refs) := by
  have same : ∀ ref, (world.retainAll refs).heap.module? ref = world.heap.module? ref := by
    intro ref
    rw [Heap.module?, Heap.module?, Heap.body_congr (world.body_cell?_retainAll refs ref)]
  refine ⟨fun ref contents found => ⟨contents, by rwa [← same], .inl rfl⟩, ?_, ?_, ?_⟩
  all_goals
    intro id
    simp only [Hollow, registry_retainAll, imp_self, le_refl]

/-- The contents of a module are replaced by the same without globals. -/
theorem sheds_setBody {ref : Ref} {contents : ModuleBody}
    (reading : world.heap.module? ref = some contents) {emptied : World}
    (changed : emptied = { world with
      heap := world.heap.setBody ref (.module { contents with globals := [] }) }) :
    world.Sheds emptied ∧ emptied.Bare ref := by
  obtain ⟨cell, present, _⟩ := Heap.exists_cell_of_body (Heap.module?_eq_some reading) (by simp)
  have cells : ∀ other, emptied.heap.cell? other =
      if other = ref then some { cell with body := .module { contents with globals := [] } }
      else world.heap.cell? other := by
    intro other
    rw [changed]
    show (world.heap.setBody ref _).cell? other = _
    rw [Heap.setBody_of_cell _ present, Heap.cell?_put _ present]
  have emptiedBody : emptied.heap.module? ref = some { contents with globals := [] } := by
    rw [Heap.module?, Heap.body, cells, if_pos rfl]
  refine ⟨⟨fun other found reading' => ?_, ?_, ?_, ?_⟩, fun found reading' => ?_⟩
  · by_cases same : other = ref
    · subst same
      rw [emptiedBody] at reading'
      exact ⟨contents, reading, .inr (Option.some.inj reading').symm⟩
    · rw [Heap.module?, Heap.body, cells, if_neg same] at reading'
      exact ⟨found, reading', .inl rfl⟩
  · subst changed
    exact fun _ none => none
  · subst changed
    exact fun _ none => none
  · subst changed
    exact fun _ => le_refl _
  · rw [emptiedBody] at reading'
    rw [← Option.some.inj reading']

/-- A module loses its globals, and what only they held goes. -/
theorem sheds_withoutGlobals (world : World) (ref : Ref) :
    world.Sheds (world.withoutGlobals ref) ∧ (world.withoutGlobals ref).Bare ref := by
  unfold withoutGlobals
  split
  · rename_i contents reading
    rw [replace]
    generalize taken : world.retainAll (Body.module { contents with globals := [] }).references =
      retained
    have sheds : world.Sheds retained := taken ▸ world.sheds_retainAll _
    have reading' : retained.heap.module? ref = some contents := by
      rw [← taken, Heap.module?, Heap.body_congr (world.body_cell?_retainAll _ ref)]
      exact reading
    obtain ⟨emptied, bare⟩ := sheds_setBody reading' rfl
    have given := sheds_releaseAll { retained with
      heap := retained.heap.setBody ref (.module { contents with globals := [] }) }
      (world.heap.body ref).references
    exact ⟨(sheds.trans emptied).trans given, given.bare bare⟩
  · rename_i absent
    exact ⟨.refl world, fun contents found => by rw [absent] at found; cases found⟩

/-- Several modules lose their globals. -/
theorem bare_foldl (refs : List Ref) (world : World) :
    ∀ ref ∈ refs, (refs.foldl withoutGlobals world).Bare ref := by
  induction refs generalizing world with
  | nil => exact fun _ member => by cases member
  | cons first rest ih =>
    intro ref member
    rcases List.mem_cons.mp member with rfl | later
    · have stays := Sheds.foldl (fun world ref => (sheds_withoutGlobals world ref).1) rest
        (world.withoutGlobals ref)
      exact stays.bare (sheds_withoutGlobals world ref).2
    · exact ih (world.withoutGlobals first) ref later

theorem sheds_clearRegistry (world : World) (id : RegistryId) :
    world.Sheds (world.clearRegistry id) := by
  have emptied : world.Sheds (world.updateRegistry id fun entry =>
      { entry with bridged := [], types := [], roster := entry.roster.detachAll }) :=
    sheds_updateRegistry world id (fun _ _ => rfl)
      (fun entry => Roster.Lasting.empty.detachAll entry.roster) fun _ => le_refl _
  refine emptied.trans (Sheds.trans ?_ (sheds_releaseAll _ _))
  exact .of_same rfl rfl

/-- A registry that is cleared is blank. -/
theorem blank_clearRegistry (world : World) {id : RegistryId}
    (created : id.number < world.registries.size) (listed : (world.registry id).roster.Listed) :
    (world.clearRegistry id).Blank id := by
  refine ⟨?_, hollow_clearRegistry created listed⟩
  rw [clearRegistry, types_releaseAll]
  show ((world.updateRegistry id _).registry id).types = []
  rw [registry_updateRegistry_same _ created]

theorem sheds_dropRegistry (world : World) (id : RegistryId) :
    world.Sheds (world.dropRegistry id) := by
  have lowered : world.Sheds (world.updateRegistry id fun entry =>
      { entry with owners := entry.owners - 1 }) :=
    sheds_updateRegistry world id (fun _ none => none) (fun _ none => none) fun _ => Nat.sub_le _ _
  have withdrawn : ∀ world : World, world.Sheds (world.updateRegistry id fun entry =>
      { entry with bridged := [], types := [] }) := fun world =>
    sheds_updateRegistry world id (fun _ _ => rfl) (fun _ none => none) fun _ => le_refl _
  have scattered : ∀ world : World, world.Sheds (world.updateRegistry id fun entry =>
      { entry with roster := entry.roster.detachAll }) := fun world =>
    sheds_updateRegistry world id (fun _ none => none)
      (fun entry => Roster.Lasting.empty.detachAll entry.roster) fun _ => le_refl _
  unfold dropRegistry
  dsimp only
  split
  · exact ((lowered.trans (withdrawn _)).trans (sheds_releaseAll _ _)).trans (scattered _)
  · exact lowered

theorem sheds_dropExtensions (world : World) (extensions : Extensions) :
    world.Sheds (world.dropExtensions extensions) := by
  unfold dropExtensions
  split
  · exact sheds_dropRegistry world _
  · exact .refl world

theorem sheds_runHook (world : World) (hook : FinalizeHook) : world.Sheds (world.runHook hook) := by
  unfold runHook
  split
  · split
    · exact sheds_clearRegistry world _
    · exact .refl world
  · exact .of_same rfl rfl

/-! ## What announces nothing -/

theorem announcements_retire (world : World) (ref : Ref) (body : Body) :
    (world.retire ref body).announcements = world.announcements := by
  unfold retire finalizeInstance
  split
  · split
    · split <;> simp [announcements, report, note, updateRegistry, Event.announcement?]
    · rfl
  · rfl

theorem announcements_releaseAll (world : World) (refs : List Ref) :
    (world.releaseAll refs).announcements = world.announcements :=
  observe_releaseAll announcements (fun _ _ _ => rfl) announcements_retire world refs

theorem announcements_retainAll (world : World) (refs : List Ref) :
    (world.retainAll refs).announcements = world.announcements :=
  observe_retainAll announcements (fun _ _ => rfl) world refs

theorem announcements_withoutGlobals (world : World) (ref : Ref) :
    (world.withoutGlobals ref).announcements = world.announcements := by
  unfold withoutGlobals
  split
  · rw [replace, announcements_releaseAll]
    exact announcements_retainAll world _
  · rfl

theorem announcements_dropExtensions (world : World) (extensions : Extensions) :
    (world.dropExtensions extensions).announcements = world.announcements := by
  unfold dropExtensions
  split
  · unfold dropRegistry
    dsimp only
    split
    · exact announcements_releaseAll _ _
    · rfl
  · rfl

/-- A hook announces itself, or clears a registry. -/
theorem announcements_runHook (world : World) (hook : FinalizeHook) :
    (world.runHook hook).announcements = world.announcements ++ hook.name?.toList := by
  cases hook with
  | clearRegistry id =>
    rw [runHook, FinalizeHook.name?, Option.toList_none, List.append_nil]
    split
    · rw [clearRegistry, announcements_releaseAll]
      rfl
    · rfl
  | announce name => simp [runHook, announcements, report, Event.announcement?, FinalizeHook.name?]

/-- Each hook announces itself once, in its turn. -/
theorem announcements_hooks (hooks : List FinalizeHook) (world : World) :
    (hooks.foldl runHook world).announcements =
      world.announcements ++ hooks.filterMap FinalizeHook.name? := by
  induction hooks generalizing world with
  | nil => simp
  | cons hook rest ih =>
    rw [List.foldl_cons, ih, announcements_runHook, List.append_assoc]
    cases named : hook.name? <;> simp [named]

/-- The hook of a registry that is alive clears it, and it stays clear. -/
theorem blank_hooks {hooks : List FinalizeHook} {id : RegistryId}
    (hooked : .clearRegistry id ∈ hooks) (world : World)
    (alive : (hooks.foldl runHook world).registryAlive id = true)
    (listed : (world.registry id).roster.Listed) : (hooks.foldl runHook world).Blank id := by
  obtain ⟨front, back, rfl⟩ := List.append_of_mem hooked
  have listed := Roster.Lasting.listed.runHooks listed front
  rw [List.foldl_append, List.foldl_cons] at alive ⊢
  generalize front.foldl runHook world = middle at alive listed ⊢
  have stays := Sheds.foldl sheds_runHook back (middle.runHook (.clearRegistry id))
  have living := (sheds_runHook middle (.clearRegistry id)).registryAlive (stays.registryAlive alive)
  refine stays.blank ?_
  rw [runHook, if_pos living]
  exact blank_clearRegistry middle (created_of_registryAlive living) listed

end World

end HostBridge
