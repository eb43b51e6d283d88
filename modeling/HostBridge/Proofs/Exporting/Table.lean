import HostBridge.Proofs.Calling.Run
import HostBridge.Proofs.Ownership.Export
import HostBridge.Proofs.Publishing.Edit

/-!
# Slot tables of modules

The number of a slot is read off the table before the function is published, and the slot is
entered afterwards.  So an export either publishes a function and enters one slot at the end of
the table, where the function looks for it, or it does neither.
-/

namespace HostBridge

open Op

/-! ## Tables -/

namespace ModuleBody

/-- The slots in the table of a module; a module without a table of its own has none. -/
def slots (contents : ModuleBody) : List Slot :=
  match contents.state with
  | some (.slotTable _ slots) => slots
  | _ => []

/-- The module with a slot table, if it had no state. -/
def tabled (registry : RegistryId) (contents : ModuleBody) : ModuleBody :=
  match contents.state with
  | some _ => contents
  | none => { contents with state := some (.slotTable registry []) }

/-- The module with one more slot in its table. -/
def slotted (slot : Slot) (contents : ModuleBody) : ModuleBody :=
  match contents.state with
  | some (.slotTable registry slots) =>
    { contents with state := some (.slotTable registry (slots ++ [slot])) }
  | _ => contents

variable {contents : ModuleBody} {registry : RegistryId} {slot : Slot}

@[simp]
theorem slots_tabled : (contents.tabled registry).slots = contents.slots := by
  cases state : contents.state <;> simp [tabled, slots, state]

@[simp]
theorem slots_defining (names : List (String × Ref)) :
    (contents.defining names).slots = contents.slots := rfl

theorem references_tabled (ref : Ref) : (Body.module contents).references.count ref ≤
    (Body.module (contents.tabled registry)).references.count ref := by
  cases state : contents.state with
  | some payload => rw [tabled, state]
  | none => simp [tabled, Body.references, state]

theorem references_slotted (ref : Ref) : (Body.module contents).references.count ref ≤
    (Body.module (contents.slotted slot)).references.count ref := by
  unfold slotted
  split
  · rename_i owner before state
    simp [Body.references, state, Payload.references, List.count_append]
  · exact le_refl _

end ModuleBody

/-! ## Steps of an export -/

namespace Program

variable {program : Program} {world after : World} {registry : RegistryId} {module : Ref}
  {contents : ModuleBody}

theorem run_slotTable_of_gone (gone : world.heap.module? module = none) :
    (slotTable registry module).run world =
      (.error (.raised (.expectedModule (world.heap.typeName module))), world) := by
  have stateless : world.heap.moduleState? module = none := by
    rw [Heap.moduleState?, gone]
    rfl
  rw [slotTable, Operation.run_bind_of_ok (run_heap world), stateless]
  dsimp only
  refine Operation.run_bind_of_error (Operation.run_bind_of_error ?_ _) _
  rw [run_module, gone]

theorem run_slotTable (reading : world.heap.module? module = some contents) :
    (slotTable registry module).run world =
      match contents.state with
      | some (.slotTable _ slots) => (.ok slots, world)
      | some _ => (.error (.raised .foreignModuleState), world)
      | none => (.ok [], world.replace module (.module (contents.tabled registry))) := by
  have found : (Op.module module).run world = (.ok contents, world) := by
    rw [run_module, reading]
  have same : world.heap.moduleState? module = contents.state := by
    rw [Heap.moduleState?, reading]
    rfl
  rw [slotTable, Operation.run_bind_of_ok (run_heap world), same]
  cases state : contents.state with
  | some payload => cases payload <;> rfl
  | none =>
    dsimp only
    rw [setModuleState, bind_assoc, Operation.run_bind_of_ok found, state, ModuleBody.tabled, state]
    rfl

/-- A table that is found or made has the slots of the module, and nothing else has happened. -/
theorem edits_slotTable (counted : world.heap.Counted) {slots : List Slot}
    (ran : (slotTable registry module).run world = (.ok slots, after)) :
    ∃ contents owner, world.heap.module? module = some contents ∧
      (contents.tabled registry).state = some (.slotTable owner slots) ∧ contents.slots = slots ∧
      world.heap.Edits after.heap module (ModuleBody.tabled registry) := by
  cases reading : world.heap.module? module with
  | none =>
    rw [run_slotTable_of_gone reading] at ran
    cases ran
  | some contents =>
    rw [run_slotTable reading] at ran
    cases state : contents.state with
    | some payload =>
      have kept : contents.tabled registry = contents := by rw [ModuleBody.tabled, state]
      rw [state] at ran
      cases payload with
      | slotTable owner slots =>
        cases ran
        refine ⟨contents, owner, rfl, by rw [kept, state], by rw [ModuleBody.slots, state],
          (Heap.Edits.refl _ module).congr ?_⟩
        rintro _ there
        rw [reading] at there
        cases there
        exact kept.symm
      | _ => cases ran
    | none =>
      rw [state] at ran
      cases ran
      refine ⟨contents, registry, rfl, by rw [ModuleBody.tabled, state],
        by rw [ModuleBody.slots, state], ?_⟩
      exact (Heap.Edits.replace counted reading fun ref => ModuleBody.references_tabled ref).1

/-- Without a table nothing has happened, and the module has no slots. -/
theorem slotTable_of_error {fault : Fault}
    (ran : (slotTable registry module).run world = (.error fault, after)) :
    after = world ∧ (∃ exception, fault = .raised exception) ∧
      ∀ contents, world.heap.module? module = some contents → contents.slots = [] := by
  cases reading : world.heap.module? module with
  | none =>
    rw [run_slotTable_of_gone reading] at ran
    cases ran
    exact ⟨rfl, ⟨_, rfl⟩, nofun⟩
  | some contents =>
    rw [run_slotTable reading] at ran
    cases state : contents.state with
    | none =>
      rw [state] at ran
      cases ran
    | some payload =>
      rw [state] at ran
      cases payload with
      | slotTable owner slots => cases ran
      | _ =>
        cases ran
        refine ⟨rfl, ⟨_, rfl⟩, ?_⟩
        rintro _ ⟨⟩
        simp [ModuleBody.slots, state]

/-! ## Publishing a function -/

theorem run_addFunction (world : World) (module : Ref) (definition : MethodDef) :
    (addFunction module definition).run world =
      match world.heap.module? module with
      | none => (.error (.raised (.expectedModule (world.heap.typeName module))), world)
      | some _ =>
        (do
          (addObject module definition.name world.heap.next).undoing (·.release world.heap.next)
          return world.heap.next : Op Ref).run
            { world with heap := world.heap.push (.function definition (.module module)) } := by
  cases reading : world.heap.module? module with
  | none =>
    refine Operation.run_bind_of_error ?_ _
    rw [run_module, reading]
  | some contents =>
    have found : (Op.module module).run world = (.ok contents, world) := by
      rw [run_module, reading]
    rw [addFunction, Operation.run_bind_of_ok found]
    rfl

/-- A function that is let go again leaves nothing behind. -/
theorem edits_discarded (world : World) (module : Ref) (definition : MethodDef) :
    world.heap.Edits (World.release
      { world with heap := world.heap.push (.function definition (.module module)) }
        world.heap.next).heap module id := by
  have present := Heap.cell?_push_next world.heap (.function definition (.module module))
  have released : World.release
      { world with heap := world.heap.push (.function definition (.module module)) }
        world.heap.next = { world with heap :=
          (world.heap.push (.function definition (.module module))).put world.heap.next none } := by
    rw [World.release, World.releaseAll_of_last [] present (le_refl 1)]
    exact World.releaseAll_nil _
  have cells : ∀ ref : Ref, ((world.heap.push (.function definition (.module module))).put
      world.heap.next none).cell? ref = if ref = world.heap.next then none else
        world.heap.cell? ref := by
    intro ref
    rw [Heap.cell?_put none present]
    by_cases new : ref = world.heap.next
    · rw [if_pos new, if_pos new]
    · rw [if_neg new, if_neg new, Heap.cell?_push, if_neg new]
  rw [released]
  refine ⟨?_, fun ref used => ?_, fun counted ref cell there => ?_, fun ref there => ?_⟩
  · simp only [Heap.size_put, Heap.size_push]
    exact Nat.le_succ _
  · have old : ref ≠ world.heap.next := by
      rintro rfl
      exact absurd used (Nat.lt_irrefl _)
    simp only [cells, if_neg old, Body.edited_id, ite_self]
  · dsimp only at there
    rw [cells] at there
    split at there
    · cases there
    · exact counted ref cell there
  · dsimp only at there
    by_cases new : ref = world.heap.next
    · rw [Heap.module?, Heap.body, cells, if_pos new] at there
      cases there
    · rwa [Heap.module?, Heap.body, cells, if_neg new] at there

/-- A function that is published is new, and its name is the only other change. -/
theorem edits_addFunction (counted : world.heap.Counted) {definition : MethodDef} {function : Ref}
    (ran : (addFunction module definition).run world = (.ok function, after)) :
    world.heap.size ≤ function.place ∧
      after.heap.body function = .function definition (.module module) ∧
      world.heap.Edits after.heap module (ModuleBody.defining [(definition.name, function)]) := by
  have making : world.heap.Edits (world.heap.push (.function definition (.module module))) module id :=
    .push world.heap module nofun
  rw [run_addFunction] at ran
  cases reading : world.heap.module? module with
  | none =>
    rw [reading] at ran
    cases ran
  | some contents =>
    rw [reading] at ran
    dsimp only at ran
    rcases adding : (addObject module definition.name world.heap.next).run
      { world with heap := world.heap.push (.function definition (.module module)) } with
      ⟨result, final⟩
    cases result with
    | error fault =>
      have undone := run_undoing_of_error adding (·.release world.heap.next)
      rw [Operation.run_bind_of_error undone] at ran
      cases ran
    | ok _ =>
      rw [Operation.run_bind_of_ok (run_undoing_of_ok adding (·.release world.heap.next))] at ran
      cases ran
      obtain ⟨_, edits, _⟩ := edits_addObject (making.counted counted) adding
      refine ⟨le_refl _, ?_, making.trans edits⟩
      have new : (world.heap.push (.function definition (.module module))).body world.heap.next =
          .function definition (.module module) := Heap.body_eq (Heap.cell?_push_next _ _)
      exact edits.body_of_constant new nofun rfl

/-- A function that is not published leaves nothing behind. -/
theorem edits_addFunction_of_error {definition : MethodDef} {fault : Fault}
    (ran : (addFunction module definition).run world = (.error fault, after)) :
    (∃ exception, fault = .raised exception) ∧ world.heap.Edits after.heap module id := by
  rw [run_addFunction] at ran
  cases reading : world.heap.module? module with
  | none =>
    rw [reading] at ran
    cases ran
    exact ⟨⟨_, rfl⟩, .refl _ _⟩
  | some contents =>
    rw [reading] at ran
    dsimp only at ran
    rcases adding : (addObject module definition.name world.heap.next).run
      { world with heap := world.heap.push (.function definition (.module module)) } with
      ⟨result, final⟩
    cases result with
    | ok _ =>
      rw [Operation.run_bind_of_ok (run_undoing_of_ok adding (·.release world.heap.next))] at ran
      cases ran
    | error fault' =>
      rw [Operation.run_bind_of_error (run_undoing_of_error adding (·.release world.heap.next))] at ran
      cases ran
      obtain ⟨rfl, raised⟩ := addObject_of_raised adding
      exact ⟨raised, edits_discarded world module definition⟩

/-! ## Exports -/

/-- An export is rejected if there is no table or it is full; else the function is published, and
then its slot is entered. -/
theorem run_registerFunction {bridge : Bridge} {item : Export} {name doc : String}
    {slots : List Slot} {first : World} {slot : Slot}
    (tabling : (slotTable bridge.registry module).run world = (.ok slots, first))
    (planned : program.functionSlot slots.length item name doc (first.heap.globalNames module) =
      slot) :
    ∃ text, (program.registerFunction bridge module item name doc).run world =
      if slotCapacity ≤ slots.length then
        (.error (.panicked (.noFreeSlot (world.heap.text module))), first)
      else
        match (addFunction module (program.definition (.slot slot.id) slot)).run first with
        | (.ok function, second) => (.ok function, (withSlot second module slot).note .debug text)
        | (.error (.raised exception), second) =>
          (.error (.panicked (.functionNotPublished slot.exposed exception)), second)
        | (.error fault, second) => (.error fault, second) := by
  subst planned
  rw [registerFunction, Operation.run_bind_of_ok (run_heap world),
    Operation.run_bind_of_ok (run_orPanic_of_ok tabling _),
    Operation.run_bind_of_ok (run_heap first)]
  dsimp only
  split
  · exact ⟨"", rfl⟩
  · generalize program.functionSlot slots.length item name doc (first.heap.globalNames module) = slot
    rcases adding : (addFunction module (program.definition (.slot slot.id) slot)).run first with
      ⟨fault | function, second⟩
    · obtain ⟨⟨exception, rfl⟩, _⟩ := edits_addFunction_of_error adding
      rw [Operation.run_bind_of_error (run_orPanic_of_raised adding _)]
      exact ⟨"", rfl⟩
    · rw [Operation.run_bind_of_ok (run_orPanic_of_ok adding _)]
      exact ⟨_, rfl⟩

/-- An export succeeds if there is room in the table and the function can be published. -/
theorem run_registerFunction_of_ok {bridge : Bridge} {item : Export} {name doc : String}
    {slots : List Slot} {first second : World} {slot : Slot} {function : Ref}
    (tabling : (slotTable bridge.registry module).run world = (.ok slots, first))
    (planned : program.functionSlot slots.length item name doc (first.heap.globalNames module) =
      slot) (room : ¬slotCapacity ≤ slots.length)
    (adding : (addFunction module (program.definition (.slot slot.id) slot)).run first =
      (.ok function, second)) :
    ∃ text, (program.registerFunction bridge module item name doc).run world =
      (.ok function, (withSlot second module slot).note .debug text) := by
  obtain ⟨text, registering⟩ := run_registerFunction tabling planned
  refine ⟨text, ?_⟩
  rw [registering, if_neg room, adding]

/-- A slot that is entered at the end of the table is the only change. -/
theorem edits_withSlot (counted : world.heap.Counted) (module : Ref) (slot : Slot) :
    world.heap.Edits (withSlot world module slot).heap module (ModuleBody.slotted slot) := by
  have idle : (∀ contents, world.heap.module? module = some contents →
      contents.slotted slot = contents) →
        world.heap.Edits world.heap module (ModuleBody.slotted slot) :=
    fun kept => (Heap.Edits.refl _ module).congr fun contents reading => (kept contents reading).symm
  cases reading : world.heap.module? module with
  | none =>
    rw [withSlot, reading]
    refine idle fun contents there => ?_
    rw [reading] at there
    cases there
  | some contents =>
    by_cases table : ∃ registry slots, contents.state = some (.slotTable registry slots)
    · obtain ⟨registry, slots, state⟩ := table
      have entered : withSlot world module slot =
          world.replace module (.module (contents.slotted slot)) := by
        rw [withSlot, reading, ModuleBody.slotted]
        dsimp only
        rw [state]
      rw [entered]
      exact (Heap.Edits.replace counted reading fun ref => ModuleBody.references_slotted ref).1
    · have kept : contents.slotted slot = contents := by
        unfold ModuleBody.slotted
        split
        · rename_i registry slots state
          exact (table ⟨registry, slots, state⟩).elim
        · rfl
      have same : withSlot world module slot = world := by
        rw [withSlot, reading]
        dsimp only
        split
        · rename_i registry slots state
          exact (table ⟨registry, slots, state⟩).elim
        · rfl
      rw [same]
      refine idle fun _ there => ?_
      rw [reading] at there
      cases there
      exact kept

/-- An export that is accepted enters one slot, at the end of the table, and the function that it
returns looks for it there.  A module that had no table has got one of the bridge's registry; any
other one keeps the registry of its table. -/
theorem tabled_registerFunction (counted : world.heap.Counted) {bridge : Bridge} {item : Export}
    {name doc : String} {function : Ref}
    (ran : (program.registerFunction bridge module item name doc).run world = (.ok function, after)) :
    ∃ contents owner edit slot, world.heap.module? module = some contents ∧
      (contents.tabled bridge.registry).state = some (.slotTable owner contents.slots) ∧
      world.heap.Edits after.heap module edit ∧
      (edit contents).state = some (.slotTable owner (contents.slots ++ [slot])) ∧
      contents.slots.length < slotCapacity ∧ slot.id = contents.slots.length ∧
      slot.role = .function item.code item.captured ∧ world.heap.size ≤ function.place ∧
      after.heap.body function = .function (program.definition (.slot slot.id) slot)
        (.module module) := by
  rcases tabling : (slotTable bridge.registry module).run world with ⟨fault | slots, first⟩
  · obtain ⟨_, ⟨exception, rfl⟩, _⟩ := slotTable_of_error tabling
    rw [registerFunction, Operation.run_bind_of_ok (run_heap world),
      Operation.run_bind_of_error (run_orPanic_of_raised tabling _)] at ran
    cases ran
  · obtain ⟨contents, owner, reading, state, same, tabled⟩ := edits_slotTable counted tabling
    subst same
    generalize planned : program.functionSlot contents.slots.length item name doc
      (first.heap.globalNames module) = slot
    obtain ⟨text, registering⟩ := run_registerFunction tabling planned
    rw [registering] at ran
    split at ran
    · cases ran
    · rename_i room
      rcases adding : (addFunction module (program.definition (.slot slot.id) slot)).run first with
        ⟨fault | function', second⟩
      · rw [adding] at ran
        cases fault <;> cases ran
      · rw [adding] at ran
        cases ran
        have countedFirst := tabled.counted counted
        obtain ⟨new, body, defined⟩ := edits_addFunction countedFirst adding
        have slotted := edits_withSlot (defined.counted countedFirst) module slot
        have number : slot.id = contents.slots.length := by
          rw [← planned]
          rfl
        have role : slot.role = .function item.code item.captured := by
          rw [← planned]
          rfl
        refine ⟨contents, owner, _, slot, reading, state, (tabled.trans defined).trans slotted, ?_,
          Nat.lt_of_not_le room, number, role, tabled.size.trans new,
          slotted.body_of_constant body nofun rfl⟩
        have state' : ((contents.tabled bridge.registry).defining
            [((program.definition (.slot slot.id) slot).name, function)]).state =
              some (.slotTable owner contents.slots) := state
        show (ModuleBody.slotted slot (ModuleBody.defining _
          (contents.tabled bridge.registry))).state = _
        simp only [ModuleBody.slotted, state']

/-- An export that is accepted enters one slot, whatever the registry of the table is. -/
theorem edits_registerFunction (counted : world.heap.Counted) {bridge : Bridge} {item : Export}
    {name doc : String} {function : Ref}
    (ran : (program.registerFunction bridge module item name doc).run world = (.ok function, after)) :
    ∃ contents edit slot, world.heap.module? module = some contents ∧
      world.heap.Edits after.heap module edit ∧
      (edit contents).slots = contents.slots ++ [slot] ∧ contents.slots.length < slotCapacity ∧
      slot.id = contents.slots.length ∧ slot.role = .function item.code item.captured ∧
      world.heap.size ≤ function.place ∧
      after.heap.body function = .function (program.definition (.slot slot.id) slot)
        (.module module) := by
  obtain ⟨contents, owner, edit, slot, reading, _, edits, state, entered⟩ :=
    tabled_registerFunction counted ran
  exact ⟨contents, edit, slot, reading, edits, by rw [ModuleBody.slots, state], entered⟩

/-- An export that is rejected enters no slot and leaves no function behind; at most the module
has got a table, without slots.  It is rejected for lack of slots if the table is full. -/
theorem registerFunction_of_error (counted : world.heap.Counted) {bridge : Bridge} {item : Export}
    {name doc : String} {fault : Fault}
    (ran : (program.registerFunction bridge module item name doc).run world =
      (.error fault, after)) :
    (world.heap.Edits after.heap module id ∨
      world.heap.Edits after.heap module (ModuleBody.tabled bridge.registry)) ∧
    ((∃ text, fault = .panicked (.noFreeSlot text)) ↔ ∃ contents,
      world.heap.module? module = some contents ∧ slotCapacity ≤ contents.slots.length) := by
  rcases tabling : (slotTable bridge.registry module).run world with ⟨reason | slots, first⟩
  · obtain ⟨rfl, ⟨exception, rfl⟩, none⟩ := slotTable_of_error tabling
    rw [registerFunction, Operation.run_bind_of_ok (run_heap _),
      Operation.run_bind_of_error (run_orPanic_of_raised tabling _)] at ran
    cases ran
    refine ⟨.inl (.refl _ _), ?_, ?_⟩
    · rintro ⟨_, ⟨⟩⟩
    · rintro ⟨contents, reading, full⟩
      rw [none contents reading] at full
      cases full
  · obtain ⟨contents, owner, reading, state, same, tabled⟩ := edits_slotTable counted tabling
    have fullness : (∃ contents, world.heap.module? module = some contents ∧
        slotCapacity ≤ contents.slots.length) ↔ slotCapacity ≤ slots.length := by
      rw [← same]
      constructor
      · rintro ⟨_, there, full⟩
        rw [reading] at there
        cases there
        exact full
      · exact fun full => ⟨contents, reading, full⟩
    obtain ⟨text, registering⟩ := run_registerFunction tabling rfl
    rw [registering] at ran
    rw [fullness]
    split at ran
    · rename_i full
      cases ran
      exact ⟨.inr tabled, fun _ => full, fun _ => ⟨_, rfl⟩⟩
    · rename_i room
      generalize program.functionSlot slots.length item name doc (first.heap.globalNames module) = slot
        at ran
      rcases adding : (addFunction module (program.definition (.slot slot.id) slot)).run first with
        ⟨reason | function, second⟩
      · obtain ⟨⟨exception, rfl⟩, kept⟩ := edits_addFunction_of_error adding
        rw [adding] at ran
        cases ran
        refine ⟨.inr (tabled.trans kept), ?_, fun full => (room full).elim⟩
        rintro ⟨_, ⟨⟩⟩
      · rw [adding] at ran
        cases ran

end Program

end HostBridge
