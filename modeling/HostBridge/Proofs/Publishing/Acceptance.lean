import HostBridge.Proofs.Publishing.Registration

/-!
# When a registration is accepted

A struct that has not too many slots is published if its name is free in the module.  If all
structs that its fields lead to are registered, then that is all there is to do, and the
registration succeeds.  The names of its fields and methods are not looked at.
-/

namespace HostBridge

namespace Program

variable {program : Program} {registry : RegistryId} {module : Ref} {world : World}

/-- A struct is published under a name that is free. -/
theorem exists_run_publishStruct {id : StructId} (name doc : String) (maker : Option Nat)
    (created : registry.number < world.registries.size) (counted : world.heap.Counted)
    (unknown : (world.registry registry).handle? id = none) {contents : ModuleBody}
    (defined : world.heap.module? module = some contents)
    (free : contents.globals.lookup name = none) :
    ∃ handle after, (program.publishStruct registry module id name doc maker).run world =
        (.ok handle, after) ∧
      program.Publishes registry module world after [⟨id, name, doc, maker, handle⟩]
        [⟨id, name, doc, maker, handle⟩] := by
  obtain ⟨handle, second, entered, continues⟩ :=
    program.exists_entered module name doc maker unknown
  have still := entered.heap.module? defined
  rw [List.map_nil, ModuleBody.defining_nil] at still
  have added : (Op.addObject module name handle).run second =
      (.ok (), second.replace module (.module (contents.defining [(name, handle)]))) := by
    rw [Op.run_addObject, show second.heap.module? module = some contents from still]
    dsimp only
    rw [free]
    rfl
  refine ⟨handle, _, ?_, entered.trans created (publishes_show (entered.heap.counted counted) added)⟩
  rw [continues, Operation.run_bind_of_ok (run_orPanic_of_ok added _)]
  rfl

/-- A field that leads to a registered struct, or to none, gives rise to nothing. -/
theorem run_registerNested_of_known {depth : Nat} {owner : String} {field : FieldDecl × Nat}
    (known : ∀ inner, field.1.type.nested? = some inner → Knows registry world inner) :
    (program.registerNested registry module depth owner field).run world = (.ok (), world) := by
  rw [registerNested]
  cases held : field.1.type.nested? with
  | none => rfl
  | some nested =>
    obtain ⟨handle, found⟩ := Option.ne_none_iff_exists'.mp (known nested held)
    have looked : (Op.handle? registry nested).run world = (.ok (some handle), world) := by
      rw [← found]
      rfl
    dsimp only
    rw [Operation.run_bind_of_ok looked]
    rfl

theorem run_registerNested_all {depth : Nat} {owner : String} {fields : List (FieldDecl × Nat)}
    (known : ∀ field ∈ fields, ∀ inner, field.1.type.nested? = some inner →
      Knows registry world inner) :
    (fields.forM (program.registerNested registry module depth owner)).run world =
      (.ok (), world) := by
  induction fields with
  | nil => rfl
  | cons field fields ih =>
    show (program.registerNested registry module depth owner field >>= fun _ =>
      fields.forM (program.registerNested registry module depth owner)).run world = _
    rw [Operation.run_bind_of_ok (run_registerNested_of_known (known field List.mem_cons_self)),
      ih fun other member => known other (List.mem_cons_of_mem _ member)]

/-- A new struct is registered under a name that is free if what its fields lead to is known. -/
theorem exists_run_registerStruct {depth : Nat} {id : StructId} {name doc : String}
    {maker : Option Nat} (created : registry.number < world.registries.size)
    (counted : world.heap.Counted) (unknown : (world.registry registry).handle? id = none)
    (roomy : (program.plan id maker).slots.length ≤ slotCapacity) {contents : ModuleBody}
    (defined : world.heap.module? module = some contents)
    (free : contents.globals.lookup name = none)
    (closed : ∀ inner, program.Nests id inner → inner = id ∨ Knows registry world inner) :
    ∃ handle after, (program.registerStruct registry module (depth + 1) id name doc maker).run
      world = (.ok handle, after) := by
  -- A constructor is announced before anything else, which is noted and no more than that.
  have announced : ∀ first : World, first.heap = world.heap → first.registries = world.registries →
      ∃ handle after, (do
        let type ← program.publishStruct registry module id name doc maker
        Op.note .debug
          s!"registered {(program.struct id).name} as {moduleName (← Op.heap) module}.{name}"
        (exportedFields (program.struct id)).forM
          (program.registerNested registry module depth (program.struct id).name)
        return type : Op Ref).run first = (.ok handle, after) := by
    intro first heap registries
    have same : first.registry registry = world.registry registry := by
      rw [World.registry, World.registry, registries]
    rw [← heap] at counted defined
    rw [← registries] at created
    rw [← same] at unknown
    obtain ⟨handle, second, ran, publishes⟩ :=
      exists_run_publishStruct name doc maker created counted unknown defined free
    have known : ∀ field ∈ exportedFields (program.struct id), ∀ inner,
        field.1.type.nested? = some inner → Knows registry second inner := by
      intro field member inner nested
      rcases closed inner ⟨field, member, nested⟩ with rfl | known
      · exact publishes.knows_entered created List.mem_cons_self
      · refine publishes.knows created ?_
        rwa [Knows, same]
    rw [Operation.run_bind_of_ok ran, Operation.run_bind_of_ok (Op.run_heap second),
      Operation.run_bind_of_ok (Op.run_note _ _ _)]
    generalize noted : second.note _ _ = third
    have known' : ∀ field ∈ exportedFields (program.struct id), ∀ inner,
        field.1.type.nested? = some inner → Knows registry third inner := by
      rw [← noted]
      exact known
    rw [Operation.run_bind_of_ok (run_registerNested_all known')]
    exact ⟨handle, _, rfl⟩
  rw [registerStruct_succ]
  rcases maker with _ | code
  · dsimp only
    rw [if_neg (Nat.not_lt.mpr roomy)]
    exact announced world rfl rfl
  · dsimp only
    rw [if_neg (Nat.not_lt.mpr roomy), Operation.run_bind_of_ok (Op.run_note _ _ _)]
    exact announced _ rfl rfl

end Program

/--
A registration succeeds if the struct is new and has not too many slots, its name is free in the
module, and the structs that its fields lead to are registered, apart from itself.
-/
theorem Registration.exists_run_of_free {program : Program} {registration : Registration}
    {world : World} {id : StructId} (struct : registration.Concerns program id)
    (proper : registration.item.Proper program) (declared : program.Declared id)
    (created : registration.bridge.registry.number < world.registries.size)
    (counted : world.heap.Counted)
    (unknown : (world.registry registration.bridge.registry).handle? id = none)
    (roomy : (program.plan id registration.item.maker).slots.length ≤ slotCapacity)
    {contents : ModuleBody} (defined : world.heap.module? registration.module = some contents)
    (free : contents.globals.lookup registration.name = none)
    (closed : ∀ inner, program.Nests id inner →
      inner = id ∨ Program.Knows registration.bridge.registry world inner) :
    ∃ handle after, (registration.run program).run world = (.ok handle, after) := by
  obtain ⟨depth, enough⟩ : ∃ depth, program.structs.length = depth + 1 :=
    Nat.exists_eq_succ_of_ne_zero (Nat.ne_of_gt (Nat.zero_lt_of_lt declared))
  obtain ⟨handle, after, ran⟩ : ∃ handle after, (program.registerStruct
      registration.bridge.registry registration.module (depth + 1) id registration.name
        registration.doc registration.item.maker).run world = (.ok handle, after) :=
    Program.exists_run_registerStruct created counted unknown roomy defined free closed
  rw [run_of_unknown struct proper unknown, enough, Operation.run_bind_of_ok ran]
  exact ⟨handle, _, rfl⟩

end HostBridge
