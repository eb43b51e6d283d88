import HostBridge.Proofs.Publishing.Edit
import HostBridge.Proofs.Publishing.Graph

/-!
# Publications

A struct is published in three steps: its heap type is made, the registry comes to
know it, and the module comes to define its name.  A registration publishes one struct
after another, and nothing else happens, except that it may be given up in between.

`Program.Publishes` says what has happened so far by two lists: the publications that
the registry knows and those that the module shows.
-/

namespace HostBridge

/-- A struct as it has been published. -/
structure Publication where
  id : StructId
  name : String
  doc : String
  maker : Option Nat
  handle : Ref

namespace Publication

/-- Where the registry comes to find the heap type. -/
def entry (made : Publication) : StructId × Ref := (made.id, made.handle)

/-- What the registry comes to know of the heap type. -/
def bridge (program : Program) (registry : RegistryId) (made : Publication) : Ref × BridgedType :=
  (made.handle, Program.bridgedType registry made.id made.name made.maker
    (program.plan made.id made.maker))

/-- What the module comes to define. -/
def global (made : Publication) : String × Ref := (made.name, made.handle)

/-- A struct that is published along with another one goes by its declared name. -/
structure Plain (program : Program) (made : Publication) : Prop where
  name : made.name = (program.struct made.id).name
  doc : made.doc = ""
  maker : made.maker = none

/-- Structs that differ are found under what they are. -/
theorem lookup_entry {made : List Publication} (distinct : (made.map id).Nodup)
    {one : Publication} (member : one ∈ made) :
    (made.map entry).lookup one.id = some one.handle := by
  have keys : ((made.map entry).map Prod.fst).Nodup := by rwa [List.map_map]
  exact lookup_of_mem keys (List.mem_map_of_mem member)

/-- The heap type of a published struct. -/
def body (program : Program) (registry : RegistryId) (made : Publication) : Body :=
  .type (program.typeBody registry made.id made.name made.doc made.maker
    (program.plan made.id made.maker))

end Publication

namespace Program

/--
From one world to another, structs have been entered into a registry and names of some of
them into a module.  The structs were not registered before and their types are new objects;
nothing else has been changed.
-/
structure Publishes (program : Program) (registry : RegistryId) (module : Ref)
    (before after : World) (made shown : List Publication) : Prop where
  heap : before.heap.Edits after.heap module
    (ModuleBody.defining (shown.map Publication.global))
  shows : shown ≠ [] → (before.heap.module? module).isSome
  surroundings : after.surroundings = (before.updateRegistry registry
    (Registry.enrolling (made.map (Publication.bridge program registry)))).surroundings
  bodies : ∀ one ∈ made, after.heap.body one.handle = one.body program registry
  fresh : ∀ one ∈ made, before.heap.size ≤ one.handle.place
  unknown : ∀ one ∈ made, (before.registry registry).handle? one.id = none
  distinct : (made.map Publication.id).Nodup
  handles : (made.map Publication.handle).Nodup

/-- How a registration can be given up, having entered some structs and shown some. -/
inductive Stopped : List Publication → List Publication → Fault → Prop
  /-- The depth that was granted is used up. -/
  | exhausted (made : List Publication) : Stopped made made .exhausted
  /-- The next struct has too many slots. -/
  | crowded (made : List Publication) (name : String) (needed : Nat) :
    Stopped made made (.panicked (.tooManySlots name needed slotCapacity))
  /-- The name of the last struct cannot be defined. -/
  | hidden (shown : List Publication) (last : Publication) (cause : Exception) :
    Stopped (shown ++ [last]) shown (.panicked (.typeNotPublished last.name cause))

theorem Stopped.append {made shown : List Publication} {fault : Fault}
    (stopped : Stopped made shown fault) (front : List Publication) :
    Stopped (front ++ made) (front ++ shown) fault := by
  cases stopped with
  | exhausted => exact .exhausted _
  | crowded => exact .crowded _ _ _
  | hidden shown last cause =>
    rw [← List.append_assoc]
    exact .hidden _ _ _

namespace Publishes

variable {program : Program} {registry : RegistryId} {module : Ref} {first second third : World}
  {made shown made' shown' : List Publication}

/-- What surrounds the objects decides what a registry knows. -/
theorem registry_of_surroundings {before after : World}
    (same : after.surroundings = before.surroundings) (id : RegistryId) :
    after.registry id = before.registry id := by
  have registries : after.registries = before.registries := congrArg Prod.fst same
  rw [World.registry, World.registry, registries]

theorem surroundings_updateRegistry {before after : World}
    (same : after.surroundings = before.surroundings) {id : RegistryId}
    {change : Registry → Registry} :
    (after.updateRegistry id change).surroundings =
      (before.updateRegistry id change).surroundings := by
  simp only [World.surroundings, Prod.mk.injEq, World.updateRegistry] at same ⊢
  obtain ⟨registries, rest⟩ := same
  exact ⟨by rw [registries], rest⟩

/-- The registry knows what has been entered. -/
theorem registry_after (publishes : program.Publishes registry module first second made shown)
    (created : registry.number < first.registries.size) :
    second.registry registry =
      (first.registry registry).enrolling (made.map (Publication.bridge program registry)) := by
  rw [registry_of_surroundings publishes.surroundings, World.registry_updateRegistry_same _ created]

/-- A handle is found that was found before or has been entered. -/
theorem handle?_after (publishes : program.Publishes registry module first second made shown)
    (created : registry.number < first.registries.size) (id : StructId) :
    (second.registry registry).handle? id =
      ((first.registry registry).handle? id).or ((made.map Publication.entry).lookup id) := by
  rw [publishes.registry_after created, Registry.handle?_enrolling, List.map_map]
  rfl

/-- What was not known is not known unless it has been entered. -/
theorem handle?_eq_none (publishes : program.Publishes registry module first second made shown)
    (created : registry.number < first.registries.size) {id : StructId} :
    (second.registry registry).handle? id = none ↔
      (first.registry registry).handle? id = none ∧ id ∉ made.map Publication.id := by
  rw [publishes.registry_after created, Registry.handle?_enrolling_eq_none, List.map_map]
  rfl

/-- What has been entered is found. -/
theorem handle?_of_mem (publishes : program.Publishes registry module first second made shown)
    (created : registry.number < first.registries.size) {one : Publication}
    (member : one ∈ made) : (second.registry registry).handle? one.id = some one.handle := by
  rw [publishes.handle?_after created, publishes.unknown one member, Option.none_or]
  exact Publication.lookup_entry publishes.distinct member

theorem size_registries (publishes : program.Publishes registry module first second made shown) :
    second.registries.size = first.registries.size := by
  have registries : second.registries = _ := congrArg Prod.fst publishes.surroundings
  rw [registries]
  exact World.size_registries_updateRegistry _ _ _

/-- The types that have been made have places in the end. -/
theorem used (publishes : program.Publishes registry module first second made shown)
    {one : Publication} (member : one ∈ made) : one.handle.place < second.heap.size := by
  obtain ⟨cell, there, _⟩ :=
    Heap.exists_cell_of_body (publishes.bodies one member) (by simp [Publication.body])
  exact Heap.place_lt_size there

/-- What edits no module and leaves the surroundings as they are publishes nothing. -/
theorem of_edits (heap : first.heap.Edits second.heap module id)
    (surroundings : second.surroundings = first.surroundings) :
    program.Publishes registry module first second [] [] where
  heap := by rwa [List.map_nil, ModuleBody.defining_nil]
  shows none := absurd rfl none
  surroundings := by rw [List.map_nil, World.updateRegistry_same (Registry.enrolling_nil _), surroundings]
  bodies _ member := by cases member
  fresh _ member := by cases member
  unknown _ member := by cases member
  distinct := .nil
  handles := .nil

theorem refl (world : World) : program.Publishes registry module world world [] [] :=
  of_edits (.refl _ _) rfl

theorem retain (world : World) (ref : Ref) :
    program.Publishes registry module world (world.retain ref) [] [] :=
  of_edits (Heap.Edits.retainAll world module [ref]) rfl

/-- Publications are made one after the other. -/
theorem trans (created : registry.number < first.registries.size)
    (front : program.Publishes registry module first second made shown)
    (back : program.Publishes registry module second third made' shown') :
    program.Publishes registry module first third (made ++ made') (shown ++ shown') where
  heap := by
    rw [List.map_append, ← ModuleBody.defining_comp]
    exact front.heap.trans back.heap
  shows some := by
    by_cases last : shown' = []
    · rw [last, List.append_nil] at some
      exact front.shows some
    · exact front.heap.modules module (back.shows last)
  surroundings := by
    rw [back.surroundings, surroundings_updateRegistry front.surroundings,
      World.updateRegistry_updateRegistry, List.map_append]
    simp only [Registry.enrolling_enrolling]
  bodies one member := by
    rcases List.mem_append.mp member with old | new
    · exact back.heap.body_of_constant (front.bodies one old) (by simp [Publication.body]) rfl
    · exact back.bodies one new
  fresh one member := by
    rcases List.mem_append.mp member with old | new
    · exact front.fresh one old
    · exact front.heap.size.trans (back.fresh one new)
  unknown one member := by
    rcases List.mem_append.mp member with old | new
    · exact front.unknown one old
    · have unknown := back.unknown one new
      exact ((front.handle?_eq_none created).mp unknown).1
  distinct := by
    rw [List.map_append, List.nodup_append']
    refine ⟨front.distinct, back.distinct, fun id old new => ?_⟩
    obtain ⟨one, member, rfl⟩ := List.mem_map.mp new
    exact ((front.handle?_eq_none created).mp (back.unknown one member)).2 old
  handles := by
    rw [List.map_append, List.nodup_append']
    refine ⟨front.handles, back.handles, fun handle old new => ?_⟩
    obtain ⟨one, member, rfl⟩ := List.mem_map.mp old
    obtain ⟨other, member', same⟩ := List.mem_map.mp new
    have used := front.used member
    have fresh := back.fresh other member'
    rw [same] at fresh
    exact absurd used (Nat.not_lt.mpr fresh)

end Publishes

end Program

end HostBridge
