import HostBridge.Bridge.Export
import HostBridge.Proofs.Dict.Canonical
import HostBridge.Proofs.Operation

/-!
# Operations that keep heaps canonical

Most operations make no dicts, or empty ones, and change no dict that is there; they keep the heap
canonical wherever they are run.  What they are put together from has one rule for each way of
putting together.  The others, which enter keys into dicts, need to know that the keys are objects.
-/

namespace HostBridge

variable {α β : Type} {world : World}

/-! ## Bodies without keys -/

/-- What is neither nothing nor a dict. -/
def Body.Keyless : Body → Prop
  | .none | .dict _ => False
  | _ => True

namespace Heap

/-- What has no keys may be placed anywhere. -/
theorem Admits.of_keyless (heap : Heap) {body : Body} (keyless : body.Keyless) :
    heap.Admits body := by
  constructor
  · rintro rfl
    exact keyless
  · rintro table rfl
    exact keyless.elim

theorem Admits.empty (heap : Heap) : heap.Admits (.dict .empty) :=
  ⟨nofun, fun _ same => by cases same; exact .empty heap⟩

end Heap

namespace World.Canonical

/-- A change that leaves the heap alone. -/
theorem of_heap {other : World} (canonical : world.Canonical) (same : other.heap = world.heap) :
    other.Canonical := by
  rw [World.Canonical, same]
  exact canonical

/-- Taking references changes counts only. -/
theorem follows_retainAll (world : World) (refs : List Ref) :
    world.heap.Follows (world.retainAll refs).heap := by
  refine Heap.follows_of_bodies (congrArg Ref.place (Path.heap_retainAll world refs)) ?_
  intro ref cell there
  have same := body_cell?_retainAll world refs ref
  rw [there, Option.map_some] at same
  exact Option.map_eq_some_iff.mp same.symm

theorem create (canonical : world.Canonical) {body : Body} (admits : world.heap.Admits body) :
    (world.create body).2.Canonical :=
  (canonical.retainAll _).place ⟨admits.something, fun table dict =>
    (admits.indexes table dict).follows (follows_retainAll world _)⟩

/-- The contents of an object are changed in their kind. -/
theorem replace (canonical : world.Canonical) {ref : Ref} {body : Body}
    (kindred : (world.heap.body ref).Kindred body) (admits : world.heap.Admits body) :
    (world.replace ref body).Canonical := by
  have taken : (world.retainAll body.references).Canonical := canonical.retainAll _
  have changed : World.Canonical { world.retainAll body.references with
      heap := (world.retainAll body.references).heap.setBody ref body } := by
    refine Heap.Canonical.setBody taken ?_ ⟨admits.something, fun table dict =>
      (admits.indexes table dict).follows (follows_retainAll world _)⟩
    rwa [Heap.body_congr (world.body_cell?_retainAll _ ref)]
  exact changed.releaseAll _

theorem release (canonical : world.Canonical) (ref : Ref) : (world.release ref).Canonical :=
  canonical.releaseAll [ref]

theorem clearRegistry (canonical : world.Canonical) (id : RegistryId) :
    (world.clearRegistry id).Canonical := by
  refine Canonical.releaseAll ?_ _
  exact canonical.of_heap rfl

theorem dropRegistry (canonical : world.Canonical) (id : RegistryId) :
    (world.dropRegistry id).Canonical := by
  unfold World.dropRegistry
  dsimp only
  split
  · refine of_heap (Canonical.releaseAll ?_ _) (World.heap_updateRegistry _ _ _)
    exact canonical.of_heap rfl
  · exact canonical.of_heap rfl

theorem dropExtensions (canonical : world.Canonical) (extensions : Extensions) :
    (world.dropExtensions extensions).Canonical := by
  unfold World.dropExtensions
  split
  · exact canonical.dropRegistry _
  · exact canonical

theorem runHook (canonical : world.Canonical) (hook : FinalizeHook) :
    (world.runHook hook).Canonical := by
  unfold World.runHook
  split
  · split
    · exact canonical.clearRegistry _
    · exact canonical
  · exact canonical.of_heap rfl

theorem runHooks (canonical : world.Canonical) (hooks : List FinalizeHook) :
    (hooks.foldl World.runHook world).Canonical := by
  induction hooks generalizing world with
  | nil => exact canonical
  | cons hook hooks ih => exact ih (canonical.runHook hook)

theorem dropDetached (canonical : world.Canonical) (thread : Thread) (detached : Detached) :
    (world.dropDetached thread detached).Canonical := by
  unfold World.dropDetached
  dsimp only
  split
  · exact canonical.release _
  · split <;> exact canonical.of_heap rfl

/-- A module stays a module. -/
theorem replace_module (canonical : world.Canonical) {ref : Ref} {old : ModuleBody}
    (reading : world.heap.body ref = .module old) (new : ModuleBody) :
    (world.replace ref (.module new)).Canonical :=
  canonical.replace (by rw [reading]; exact ⟨new, rfl⟩) (.of_keyless _ (by trivial))

theorem putValue (canonical : world.Canonical) (root : Ref) (path : List Nat) (new : HostValue) :
    (world.putValue root path new).Canonical := by
  unfold World.putValue
  split
  · rename_i reading
    exact Heap.Canonical.setBody canonical (by rw [reading]; exact ⟨_, rfl⟩)
      (.of_keyless _ (by trivial))
  · exact canonical

end World.Canonical

mutual

theorem HostValue.canonical_completed : ∀ (value : HostValue) {world : World},
    world.Canonical → (value.completed world).2.Canonical
  | .keywords none, _, canonical => canonical.place (.empty _)
  | .seq elements, _, canonical | .struct elements, _, canonical | .tuple elements, _, canonical =>
    HostValue.canonical_completedAll elements canonical
  | .map entries, _, canonical => HostValue.canonical_completedEntries entries canonical
  | .boxed value, _, canonical | .present value, _, canonical => value.canonical_completed canonical
  | .unit, _, canonical | .bool _, _, canonical | .int _, _, canonical | .single _, _, canonical
  | .double _, _, canonical | .complexSingle _ _, _, canonical | .complexDouble _ _, _, canonical
  | .text _, _, canonical | .bytes _, _, canonical | .absent, _, canonical
  | .object _, _, canonical | .keywords (some _), _, canonical | .sealed _, _, canonical => canonical

theorem HostValue.canonical_completedAll : ∀ (values : List HostValue) {world : World},
    world.Canonical → (completedAll values world).2.Canonical
  | [], _, canonical => canonical
  | value :: values, _, canonical =>
    HostValue.canonical_completedAll values (value.canonical_completed canonical)

theorem HostValue.canonical_completedEntries : ∀ (entries : List (HostValue × HostValue))
    {world : World}, world.Canonical → (completedEntries entries world).2.Canonical
  | [], _, canonical => canonical
  | (key, value) :: entries, _, canonical =>
    HostValue.canonical_completedEntries entries
      (value.canonical_completed (key.canonical_completed canonical))

end

/-! ## Operations -/

namespace Op

/-- An operation that leaves a canonical heap canonical. -/
def Orderly (action : Op α) (world : World) : Prop :=
  world.Canonical → (action.run world).2.Canonical

namespace Orderly

theorem pure (value : α) : Orderly (pure value) world := id

theorem throw (fault : Fault) : Orderly (MonadExcept.throw fault : Op α) world := id

theorem raise (exception : Exception) : Orderly (raise exception : Op α) world := id

theorem panic (misuse : Misuse) : Orderly (panic misuse : Op α) world := id

theorem of_looks {action : Op α} (looks : Looks action) : Orderly action world := by
  intro canonical
  rwa [looks world]

theorem change {step : World → World} (kept : world.Canonical → (step world).Canonical) :
    Orderly (change step) world := kept

/-- The second of two operations runs where the first one has ended. -/
theorem bind {action : Op α} {next : α → Op β} (first : Orderly action world)
    (later : ∀ value after, action.run world = (.ok value, after) → Orderly (next value) after) :
    Orderly (action >>= next) world := by
  intro canonical
  have canonical' := first canonical
  rcases ran : action.run world with ⟨result, after⟩
  rw [ran] at canonical'
  cases result with
  | ok value =>
    rw [Operation.run_bind_of_ok ran]
    exact later value after ran canonical'
  | error fault =>
    rw [Operation.run_bind_of_error ran]
    exact canonical'

theorem heap_bind {next : Heap → Op β} (later : Orderly (next world.heap) world) :
    Orderly (heap >>= next) world := later

theorem world_bind {next : World → Op β} (later : Orderly (next world) world) :
    Orderly (Op.world >>= next) world := later

theorem ofExcept_bind {result : Except Fault α} {next : α → Op β}
    (later : ∀ value, result = .ok value → Orderly (next value) world) :
    Orderly (ofExcept result >>= next) world := by
  cases result with
  | ok value => exact later value rfl
  | error fault => exact id

theorem always {action : Op α} {step : World → World} (first : Orderly action world)
    (due : ∀ after : World, after.Canonical → (step after).Canonical) :
    Orderly (action.always step) world :=
  fun canonical => due _ (first canonical)

theorem undoing {action : Op α} {step : World → World} (first : Orderly action world)
    (undo : ∀ after : World, after.Canonical → (step after).Canonical) :
    Orderly (action.undoing step) world := by
  intro canonical
  have canonical' := first canonical
  rcases ran : action.run world with ⟨result, after⟩
  rw [ran] at canonical'
  rw [Op.undoing, run_ofFunction, ran]
  cases result with
  | ok value => exact canonical'
  | error fault => exact undo after canonical'

theorem forM {item : Type} {action : item → Op PUnit} {items : List item}
    (each : ∀ one ∈ items, ∀ middle, Orderly (action one) middle) :
    Orderly (items.forM action) world := by
  induction items generalizing world with
  | nil => exact id
  | cons one rest ih =>
    exact (each one (by simp) world).bind fun _ _ _ =>
      ih fun other member => each other (by simp [member])

theorem mapM {item : Type} {action : item → Op α} {items : List item}
    (each : ∀ one ∈ items, ∀ middle, Orderly (action one) middle) :
    Orderly (items.mapM action) world := by
  induction items generalizing world with
  | nil => exact id
  | cons one rest ih =>
    rw [List.mapM_cons]
    exact (each one (by simp) world).bind fun _ _ _ =>
      (ih fun other member => each other (by simp [member])).bind fun _ _ _ => .pure _

end Orderly

/-! ### Objects -/

theorem orderly_note (level : Level) (text : String) : Orderly (note level text) world :=
  .change fun canonical => canonical.of_heap rfl

theorem orderly_retain (ref : Ref) : Orderly (retain ref) world :=
  fun canonical => Heap.Canonical.retain canonical ref

theorem orderly_retainOption (ref : Option Ref) : Orderly (retainOption ref) world := by
  cases ref with
  | none => exact id
  | some ref => exact (orderly_retain ref).bind fun _ _ _ => .pure _

theorem orderly_release (ref : Ref) : Orderly (release ref) world :=
  .change fun canonical => canonical.release ref

theorem orderly_releaseAll (refs : List Ref) : Orderly (releaseAll refs) world :=
  .change fun canonical => canonical.releaseAll refs

theorem orderly_place {body : Body} (keyless : body.Keyless) : Orderly (place body) world :=
  fun canonical => canonical.place (.of_keyless _ keyless)

theorem orderly_create {body : Body} (keyless : body.Keyless) : Orderly (create body) world :=
  fun canonical => canonical.create (.of_keyless _ keyless)

/-! ### Containers -/

theorem orderly_item (ref : Ref) (index : Nat) : Orderly (item ref index) world := by
  refine .heap_bind ?_
  split
  · exact .raise _
  · split
    · exact .raise _
    · exact orderly_retain _

/-- A list stays a list. -/
theorem orderly_setItem (ref : Ref) (index : Nat) (value : Ref) :
    Orderly (setItem ref index value) world := by
  refine .heap_bind ?_
  split
  · rename_i items reading
    split
    · exact .change fun canonical =>
        canonical.replace (by rw [reading]; exact ⟨_, rfl⟩) (.of_keyless _ (by trivial))
    · exact .raise _
  · exact .raise _

theorem orderly_append (ref value : Ref) : Orderly (append ref value) world := by
  refine .heap_bind ?_
  split
  · rename_i items reading
    exact .change fun canonical =>
      canonical.replace (by rw [reading]; exact ⟨_, rfl⟩) (.of_keyless _ (by trivial))
  · exact .raise _

theorem looks_dict (ref : Ref) : Looks (dict ref) := by
  refine looks_heap.bind fun heap => ?_
  split
  · exact looks_pure _
  · exact looks_raise _

theorem looks_key (ref : Ref) : Looks (key ref) :=
  looks_heap.bind fun _ world => by rw [run_ofExcept]

theorem orderly_dictGet (ref name : Ref) : Orderly (dictGet ref name) world :=
  (Orderly.of_looks (looks_dict ref)).bind fun _ _ _ =>
    (Orderly.of_looks (looks_key name)).bind fun _ _ _ => orderly_retainOption _

theorem orderly_dictGetText (ref : Ref) (name : String) : Orderly (dictGetText ref name) world :=
  .heap_bind (orderly_retainOption _)

/-- A dict that is there, as it is read. -/
theorem run_dict_eq_ok {ref : Ref} {table : Dict} {after : World}
    (ran : (dict ref).run world = (.ok table, after)) :
    after = world ∧ world.heap.body ref = .dict table := by
  rw [dict, Operation.run_bind_of_ok (run_heap world)] at ran
  unfold Heap.dict? at ran
  cases reading : world.heap.body ref with
  | dict table' =>
    rw [reading] at ran
    cases ran
    exact ⟨rfl, rfl⟩
  | _ =>
    rw [reading] at ran
    cases ran

theorem run_key_eq_ok {ref : Ref} {projection : Key} {after : World}
    (ran : (key ref).run world = (.ok projection, after)) :
    after = world ∧ world.heap.key ref = .ok projection := by
  rw [key, Operation.run_bind_of_ok (run_heap world), run_ofExcept] at ran
  cases hashed : world.heap.key ref with
  | ok found =>
    rw [hashed] at ran
    cases ran
    exact ⟨rfl, rfl⟩
  | error exception =>
    rw [hashed] at ran
    cases ran

/-- A key that is an object is entered under its projection. -/
theorem orderly_dictSet (ref : Ref) {name : Ref} (used : name.place < world.heap.size)
    (value : Ref) : Orderly (dictSet ref name value) world := by
  refine (Orderly.of_looks (looks_dict ref)).bind fun table after ran => ?_
  obtain ⟨rfl, reading⟩ := run_dict_eq_ok ran
  refine (Orderly.of_looks (looks_key name)).bind fun projection last ran' => ?_
  obtain ⟨rfl, hashed⟩ := run_key_eq_ok ran'
  refine .change fun canonical => canonical.replace (by rw [reading]; exact ⟨_, rfl⟩) ?_
  obtain ⟨cell, there, body⟩ := Heap.exists_cell_of_body reading nofun
  refine ⟨nofun, fun new same => ?_⟩
  cases same
  exact (canonical.indexes ref cell table there body).set used hashed value

theorem orderly_dictErase (ref name : Ref) : Orderly (dictErase ref name) world := by
  refine (Orderly.of_looks (looks_dict ref)).bind fun table after ran => ?_
  obtain ⟨rfl, reading⟩ := run_dict_eq_ok ran
  refine (Orderly.of_looks (looks_key name)).bind fun projection last ran' => ?_
  obtain ⟨rfl, hashed⟩ := run_key_eq_ok ran'
  split
  · exact .heap_bind (.raise _)
  · rename_i value found
    intro canonical
    have taken : (last.retain value).Canonical := Heap.Canonical.retain canonical value
    have same := Heap.body_congr (last.heap.body_cell?_retain value ref)
    obtain ⟨cell, there, body⟩ := Heap.exists_cell_of_body (same.trans reading) nofun
    refine taken.replace (by rw [World.retain, same, reading]; exact ⟨_, rfl⟩) ⟨nofun, fun new same => ?_⟩
    cases same
    exact (taken.indexes ref cell table there body).erase projection

/-- A dict is made of keys that are objects. -/
theorem orderly_createDict {pairs : List (Ref × Ref)}
    (used : ∀ pair ∈ pairs, pair.1.place < world.heap.size) : Orderly (createDict pairs) world := by
  refine .heap_bind (.ofExcept_bind fun table made => fun canonical => ?_)
  cases built : dictOf world.heap pairs with
  | error exception =>
    rw [built] at made
    cases made
  | ok table' =>
    rw [built] at made
    cases made
    refine canonical.create ⟨nofun, fun _ same => ?_⟩
    cases same
    exact indexes_dictOf used built

theorem orderly_dictItems (ref : Ref) : Orderly (dictItems ref) world :=
  (Orderly.of_looks (looks_dict ref)).bind fun _ _ _ =>
    (Orderly.mapM fun _ _ _ => orderly_create (by trivial)).bind fun _ _ _ =>
      orderly_place (by trivial)

/-! ### Modules and types -/

theorem orderly_createModule (name doc : String) : Orderly (createModule name doc) world :=
  orderly_create (by trivial)

theorem looks_module (ref : Ref) : Looks (module ref) := by
  refine looks_heap.bind fun heap => ?_
  split
  · exact looks_pure _
  · exact looks_raise _

/-- A module is changed where it has been looked at. -/
theorem orderly_module_bind {ref : Ref} {next : ModuleBody → Op α}
    (later : ∀ contents, world.heap.body ref = .module contents → Orderly (next contents) world) :
    Orderly (module ref >>= next) world := by
  refine (Orderly.of_looks (looks_module ref)).bind fun contents after ran => ?_
  rw [module, Operation.run_bind_of_ok (run_heap world)] at ran
  unfold Heap.module? at ran
  cases reading : world.heap.body ref with
  | module contents' =>
    rw [reading] at ran
    cases ran
    exact later _ reading
  | _ =>
    rw [reading] at ran
    cases ran

theorem orderly_addObject (ref : Ref) (name : String) (value : Ref) :
    Orderly (addObject ref name value) world := by
  refine orderly_module_bind fun contents reading => ?_
  split
  · exact .raise _
  · exact .change fun canonical => canonical.replace_module reading _

theorem orderly_addFunction (ref : Ref) (definition : MethodDef) :
    Orderly (addFunction ref definition) world :=
  (Orderly.of_looks (looks_module ref)).bind fun _ _ _ =>
    (orderly_create (by trivial)).bind fun _ _ _ =>
      ((orderly_addObject _ _ _).undoing fun _ canonical => canonical.release _).bind
        fun _ _ _ => .pure _

theorem orderly_clearModule (ref : Ref) : Orderly (clearModule ref) world := by
  refine .change fun canonical => ?_
  split
  · rename_i contents reading
    exact canonical.replace_module (Heap.module?_eq_some reading) _
  · exact canonical

theorem orderly_setModuleState (ref : Ref) (state : Payload) :
    Orderly (setModuleState ref state) world := by
  refine orderly_module_bind fun contents reading => ?_
  split
  · exact .raise _
  · exact .change fun canonical => canonical.replace_module reading _

theorem orderly_createFunction (definition : MethodDef) (self : Ref) :
    Orderly (createFunction definition self) world :=
  orderly_create (by trivial)

theorem orderly_functionOwner (owner : Owner) : Orderly (functionOwner owner) world := by
  unfold functionOwner
  split
  · exact orderly_retain _
  · refine .heap_bind ?_
    split
    · exact orderly_retain _
    · exact .raise _

theorem orderly_createType (shape : TypeBody) : Orderly (createType shape) world :=
  (orderly_note _ _).bind fun _ _ _ => orderly_create (by trivial)

theorem orderly_createInstance (type : Ref) : Orderly (createInstance type) world := by
  refine .heap_bind ?_
  split
  · exact orderly_create (by trivial)
  · exact .raise _

theorem orderly_setInstanceState (ref : Ref) (state : Payload) :
    Orderly (setInstanceState ref state) world := by
  refine .heap_bind ?_
  split
  · rename_i type reading
    exact .change fun canonical =>
      canonical.replace (by rw [reading]; exact ⟨_, rfl⟩) (.of_keyless _ (by trivial))
  · exact .raise _
  · exact .raise _

end Op

end HostBridge
