import HostBridge.Proofs.Exporting.Table
import HostBridge.Proofs.Ownership.Lifecycle

/-!
# Exports under a free name

An export into a slot table and an export on its own publish a function in the same way: under a
name that the module does not define, at the end of its globals.  If the name is free and a slot is
free, or none is needed, the export is accepted, and the name and the slot are all that changes.
-/

namespace HostBridge

open Op

/-! ## Free names and free slots -/

/-- How many functions the table of a module has room for. -/
def ModuleBody.vacancies (contents : ModuleBody) : Nat :=
  match contents.state with
  | none => slotCapacity
  | some (.slotTable _ slots) => slotCapacity - slots.length
  | some _ => 0

/-- The names that a module defines. -/
def ModuleBody.names (contents : ModuleBody) : List String := contents.globals.map Prod.fst

namespace ModuleBody

variable {contents : ModuleBody} {registry : RegistryId}

theorem isSome_lookup_iff {name : String} :
    (contents.globals.lookup name).isSome = true ↔ name ∈ contents.names := by
  rw [List.lookup_isSome_iff, names, List.mem_map]
  constructor
  · rintro ⟨entry, member, same⟩
    exact ⟨entry, member, (beq_iff_eq.mp same).symm⟩
  · rintro ⟨entry, member, rfl⟩
    exact ⟨entry, member, beq_self_eq_true _⟩

theorem globals_tabled : (contents.tabled registry).globals = contents.globals := by
  unfold tabled
  split <;> rfl

theorem vacancies_tabled (contents : ModuleBody) (registry : RegistryId) :
    (contents.tabled registry).vacancies = contents.vacancies := by
  unfold tabled
  cases state : contents.state with
  | none => simp [vacancies, state]
  | some payload => rfl

/-- A function is published and then its slot is entered. -/
theorem entered {owner : RegistryId} {slots : List Slot} (vacant : 0 < contents.vacancies)
    (state : (contents.tabled registry).state = some (.slotTable owner slots))
    (added : List (String × Ref)) (slot : Slot) :
    (((contents.tabled registry).defining added).slotted slot).globals =
        contents.globals ++ added ∧
      (((contents.tabled registry).defining added).slotted slot).vacancies + 1 =
        contents.vacancies := by
  have table : ((contents.tabled registry).defining added).state =
      some (.slotTable owner slots) := state
  have room : contents.vacancies = slotCapacity - slots.length := by
    rw [← contents.vacancies_tabled registry, vacancies, state]
  rw [slotted, table]
  constructor
  · exact congrArg (· ++ added) globals_tabled
  · rw [room] at vacant ⊢
    dsimp only [vacancies]
    rw [List.length_append, List.length_singleton]
    omega

end ModuleBody

theorem Heap.globalNames_eq {heap : Heap} {module : Ref} {contents : ModuleBody}
    (reading : heap.module? module = some contents) : heap.globalNames module = contents.names := by
  rw [globalNames, reading]
  rfl

namespace Op

variable {world : World} {module : Ref} {contents : ModuleBody}

/-- A free name is defined. -/
theorem run_addObject_of_free (reading : world.heap.module? module = some contents) {name : String}
    (free : name ∉ contents.names) (value : Ref) :
    (addObject module name value).run world =
      (.ok (), world.replace module (.module (contents.defining [(name, value)]))) := by
  rw [run_addObject, reading]
  exact if_neg (mt ModuleBody.isSome_lookup_iff.mp free)

/-- A function is published under a free name. -/
theorem exists_run_addFunction (reading : world.heap.module? module = some contents)
    {definition : MethodDef} (free : definition.name ∉ contents.names) :
    ∃ after, (addFunction module definition).run world = (.ok world.heap.next, after) ∧
      after.interpreters = world.interpreters := by
  have making : world.heap.Edits (world.heap.push (.function definition (.module module))) module id :=
    .push world.heap module nofun
  have there := making.module? reading
  generalize made : world.heap.push (.function definition (.module module)) = heap at there
  refine ⟨_, ?_, World.interpreters_replace { world with heap } module
    (.module (contents.defining [(definition.name, world.heap.next)]))⟩
  have adding : (addObject module definition.name world.heap.next).run { world with heap } = _ :=
    run_addObject_of_free there free world.heap.next
  rw [Program.run_addFunction, reading, made]
  dsimp only
  rw [Operation.run_bind_of_ok (run_undoing_of_ok adding _)]
  rfl

end Op

/-! ## Functions that keep an object -/

/-- A function that an object has been made for: it keeps the object, and nobody else does. -/
def World.bind (world : World) (definition : MethodDef) (body : Body) : Ref × World :=
  let kept := world.create body
  let function := kept.2.create (.function definition (.bound kept.1))
  (function.1, function.2.release kept.1)

theorem World.interpreters_bind (world : World) (definition : MethodDef) (body : Body) :
    (world.bind definition body).2.interpreters = world.interpreters := by
  rw [World.bind, World.release, World.interpreters_releaseAll]
  exact (World.interpreters_retainAll _ _).trans (World.interpreters_retainAll _ _)

theorem Op.run_binding {α : Type} (world : World) (definition : MethodDef) (body : Body)
    (next : Ref → Op α) :
    (do
      let kept ← create body
      let function ← (createFunction definition kept).always (·.release kept)
      next function : Op α).run world =
        (next (world.bind definition body).1).run (world.bind definition body).2 := rfl

namespace Heap.Edits

/-- A reference of which others are left is given up. -/
theorem release {world : World} {ref : Ref} (module : Ref)
    (shared : ∀ cell, world.heap.cell? ref = some cell → 1 < cell.count) :
    world.heap.Edits (world.release ref).heap module id := by
  obtain ⟨cells, size, -⟩ := world.releaseAll_of_surplus [ref] fun other member cell present => by
    cases List.mem_singleton.mp member
    rw [List.count_singleton_self]
    exact shared cell present
  refine ⟨Nat.le_of_eq size.symm, ?_, ?_, ?_⟩
  · intro other _
    rw [World.release, cells, Option.map_map]
    simp only [Body.edited_id, ite_self]
    rfl
  · intro counted other cell there
    rw [World.release, cells] at there
    obtain ⟨before, present, rfl⟩ := Option.map_eq_some_iff.mp there
    dsimp only
    by_cases same : other = ref
    · subst same
      rw [List.count_singleton_self]
      exact Nat.sub_pos_of_lt (shared before present)
    · rw [List.count_eq_zero_of_not_mem (mt List.mem_singleton.mp same), Nat.sub_zero]
      exact counted other before present
  · intro other there
    rw [Heap.module?, Heap.body, World.release, cells] at there
    rw [Heap.module?, Heap.body]
    cases present : world.heap.cell? other with
    | none =>
      rw [present] at there
      cases there
    | some cell =>
      rw [present] at there
      exact there

/-- A function is made that keeps a new object. -/
theorem bind (world : World) (module : Ref) (definition : MethodDef) {body : Body}
    (plain : ∀ contents, body ≠ .module contents) :
    world.heap.Edits (world.bind definition body).2.heap module id := by
  have first := Heap.Edits.create world module plain
  have second : (world.create body).2.heap.Edits ((world.create body).2.create
      (.function definition (.bound (world.create body).1))).2.heap module id :=
    .create _ module nofun
  refine (first.trans second).trans (.release module ?_)
  -- The object is counted once for its maker and once for the function.
  have made : (world.create body).2.heap.cell? (world.create body).1 = some ⟨1, body⟩ :=
    Heap.cell?_push_next _ _
  have kept := (world.create body).2.cell?_retainAll [(world.create body).1] (world.create body).1
  rw [made, List.count_singleton_self] at kept
  have old : (world.create body).1 ≠
      ((world.create body).2.retainAll [(world.create body).1]).heap.next := by
    intro same
    exact absurd (congrArg Ref.place same) (Heap.place_lt_size kept).ne
  intro cell present
  have same := (Heap.cell?_push _ _ _).trans (if_neg old) |>.symm.trans present
  rw [kept] at same
  cases same
  exact Nat.one_lt_two

end Heap.Edits

/-! ## What an export comes to -/

/-- A module has one more name, at the end, and some slots of its table have been taken.  Other
objects are as they were, and so are the interpreters. -/
structure World.Gains (before after : World) (module : Ref) (name : String) (function : Ref)
    (taken : Nat) : Prop where
  heap : ∃ edit, before.heap.Edits after.heap module edit ∧ ∀ contents,
    before.heap.module? module = some contents →
      (edit contents).globals = contents.globals ++ [(name, function)] ∧
        (edit contents).vacancies + taken = contents.vacancies
  interpreters : after.interpreters = before.interpreters

namespace World.Gains

variable {before after : World} {module function : Ref} {name : String} {taken : Nat}
  {contents : ModuleBody}

theorem exists_module (gains : before.Gains after module name function taken)
    (reading : before.heap.module? module = some contents) :
    ∃ later, after.heap.module? module = some later ∧
      later.globals = contents.globals ++ [(name, function)] ∧
        later.vacancies + taken = contents.vacancies := by
  obtain ⟨edit, edits, changed⟩ := gains.heap
  exact ⟨edit contents, edits.module? reading, changed contents reading⟩

theorem counted (gains : before.Gains after module name function taken)
    (counted : before.heap.Counted) : after.heap.Counted := by
  obtain ⟨edit, edits, -⟩ := gains.heap
  exact edits.counted counted

end World.Gains

namespace Program

variable {program : Program} {world : World} {module : Ref} {contents : ModuleBody}
  {bridge : Bridge} {item : Export} {name doc : String}

theorem exists_run_slotTable (reading : world.heap.module? module = some contents)
    (vacant : 0 < contents.vacancies) (registry : RegistryId) :
    ∃ after, (slotTable registry module).run world = (.ok contents.slots, after) ∧
      after.interpreters = world.interpreters := by
  rw [run_slotTable reading, ModuleBody.slots]
  rw [ModuleBody.vacancies] at vacant
  cases state : contents.state with
  | none => exact ⟨_, rfl, World.interpreters_replace _ _ _⟩
  | some payload =>
    rw [state] at vacant
    cases payload with
    | slotTable owner slots => exact ⟨world, rfl, rfl⟩
    | _ => cases vacant

theorem interpreters_withSlot (world : World) (module : Ref) (slot : Slot) :
    (withSlot world module slot).interpreters = world.interpreters := by
  unfold withSlot
  split
  · split
    · exact World.interpreters_replace _ _ _
    · rfl
  · rfl

/-- An export under a free name into a table with a free slot is accepted. -/
theorem exists_run_registerFunction (counted : world.heap.Counted)
    (reading : world.heap.module? module = some contents) (vacant : 0 < contents.vacancies)
    (free : Name.derive name (program.function item.code).name contents.names ∉ contents.names) :
    ∃ function after, (program.registerFunction bridge module item name doc).run world =
        (.ok function, after) ∧
      world.Gains after module (Name.derive name (program.function item.code).name contents.names)
        function 1 := by
  obtain ⟨first, tabling, same⟩ := exists_run_slotTable reading vacant bridge.registry
  obtain ⟨_, owner, reading', state, _, tabled⟩ := edits_slotTable counted tabling
  cases reading.symm.trans reading'
  have there := tabled.module? reading
  have names : (contents.tabled bridge.registry).names = contents.names :=
    congrArg (List.map Prod.fst) ModuleBody.globals_tabled
  have room : ¬slotCapacity ≤ contents.slots.length := by
    rw [← contents.vacancies_tabled bridge.registry, ModuleBody.vacancies, state] at vacant
    exact Nat.not_le_of_lt (Nat.lt_of_sub_pos vacant)
  generalize planned : program.functionSlot contents.slots.length item name doc
    (first.heap.globalNames module) = slot
  have exposed : slot.exposed =
      Name.derive name (program.function item.code).name contents.names := by
    rw [← planned, functionSlot, Heap.globalNames_eq there, names]
  rw [← exposed] at free ⊢
  have untaken : (program.definition (.slot slot.id) slot).name ∉
      (contents.tabled bridge.registry).names := by
    rwa [names]
  obtain ⟨second, adding, same'⟩ := exists_run_addFunction there untaken
  have countedFirst := tabled.counted counted
  obtain ⟨-, -, defined⟩ := edits_addFunction countedFirst adding
  have slotted := edits_withSlot (defined.counted countedFirst) module slot
  obtain ⟨text, ran⟩ := run_registerFunction_of_ok tabling planned room adding
  refine ⟨_, _, ran, ⟨_, (tabled.trans defined).trans slotted, ?_⟩, ?_⟩
  · intro before there
    cases reading.symm.trans there
    dsimp only [Function.comp]
    exact ModuleBody.entered vacant state _ slot
  · exact (interpreters_withSlot second module slot).trans (same'.trans same)

/-- An export on its own under a free name is accepted. -/
theorem exists_run_createFunction (counted : world.heap.Counted)
    (main : (world.interpreter bridge.interpreter).main = module)
    (reading : world.heap.module? module = some contents)
    (free : Name.derive name (program.function item.code).name contents.names ∉ contents.names) :
    ∃ function after, (program.createFunction bridge item name doc).run world =
        (.ok function, after) ∧
      world.Gains after module (Name.derive name (program.function item.code).name contents.names)
        function 0 := by
  rw [createFunction, Operation.run_bind_of_ok (run_interpreter world _),
    Operation.run_bind_of_ok (run_heap world), main]
  dsimp only
  generalize planned : program.functionSlot 0 item name doc (world.heap.globalNames module) = slot
  have exposed : slot.exposed =
      Name.derive name (program.function item.code).name contents.names := by
    rw [← planned, functionSlot, Heap.globalNames_eq reading]
  rw [← exposed] at free ⊢
  generalize held : Body.capsule slot.exposed (.adHoc bridge.registry slot) = capsule
  have edits : world.heap.Edits (world.bind (program.definition .adHoc slot) capsule).2.heap module
      id := .bind _ _ _ (held ▸ nofun)
  have same := world.interpreters_bind (program.definition .adHoc slot) capsule
  rw [run_binding]
  generalize world.bind (program.definition .adHoc slot) capsule = bound at edits same ⊢
  obtain ⟨function, middle⟩ := bound
  have adding := run_addObject_of_free (edits.module? reading) free function
  obtain ⟨-, defined, rest⟩ := edits_addObject (edits.counted counted) adding
  rw [Operation.run_bind_of_ok (run_undoing_of_ok (run_orPanic_of_ok adding _) _)]
  refine ⟨function, _, rfl, ⟨_, edits.trans defined, ?_⟩, ?_⟩
  · intro before there
    cases reading.symm.trans there
    exact ⟨rfl, rfl⟩
  · exact (congrArg (·.2.1) rest).trans same

end Program

end HostBridge
