import HostBridge.Proofs.Codec.Destination
import HostBridge.Proofs.Ownership.Adoption
import HostBridge.Sample.Program

/-!
# Conversions into host values fail as a whole

A conversion that is refused, by an error or by a panic, leaves the memory that
it writes to as it was.  For the places that host code hands out this is a
statement about `Decode.fill`; for fields behind wrappers it is one about the
world, with everything in it: the value that is written to and so all aliases
of places in it, the other values, the objects and their counts, the rosters.
-/

namespace HostBridge

open Operation

/-- A field of the struct behind a wrapper; what is written is adopted, what was
there is discarded. -/
def Cursor.behind (self : Ref) (index : Nat) : Cursor World where
  heap world := world.heap
  read world := ((world.heap.wrapped? self).bind (·.1.field? index)).getD .unit
  write value world := ((do Op.exchange self [index] (← Op.adopt value)).run world).2

namespace Op

/-- Exchanging a value always succeeds. -/
theorem run_exchange (ref : Ref) (inner : List Nat) (new : HostValue) (world : World) :
    (exchange ref inner new).run world =
      (.ok (), ((exchange ref inner new).run world).2) := by
  rw [exchange, run_bind_of_ok (run_heap world)]
  cases world.heap.wrapper? ref with
  | none => rfl
  | some parts =>
    obtain ⟨held, bridged⟩ := parts
    dsimp only
    cases (world.heap.ownedValue? (Heap.location ref held).1).bind
        (·.at? ((Heap.location ref held).2 ++ inner)) <;> rfl

end Op

namespace Program

variable {program : Program} {world after : World} {fault : Fault}

/-- What a failed assignment to a field raises. -/
def assignmentFault (program : Program) (bridged : BridgedType) (slot : Slot) (type : HostType) :
    Refusal → Fault
  | .error cause =>
    .raised (.fieldRefused (program.typeName type) bridged.name slot.exposed cause.message)
  | .panic misuse => .panicked misuse
  | .tooDeep => .exhausted

/-- Writing a field is filling it in place. -/
theorem writeField_run {self value : Ref} {id index : Nat} {held : Held} {bridged : BridgedType}
    {slot : Slot} {owner : StructId} {old : HostValue}
    (wrapper : world.heap.wrapper? self = some (held, bridged))
    (alive : world.registryAlive bridged.registry = true)
    (there : bridged.slots[id]? = some slot) (role : slot.role = .set owner index)
    (present : (world.heap.wrapped? self).bind (·.1.field? index) = some old) :
    (program.writeField self value id).run world =
      match (Decode.fill program bridged.registry (program.field owner index).type value
        (.behind self index)).run world with
      | (.ok (), after) => (.ok (), after)
      | (.error refusal, after) =>
        (.error (program.assignmentFault bridged slot (program.field owner index).type refusal),
          after) := by
  have parts : (wrapperParts self).run world =
      (.ok (held, bridged, bridged.registry), world) := by
    rw [wrapperParts, run_bind_of_ok (Op.run_heap world), wrapper]
    simp [run_bind, Op.liveRegistry, alive]
  have slots : (typeSlot bridged id).run world = (.ok slot, world) := by
    rw [typeSlot, there]
    rfl
  rw [Decode.fill_run, writeField, run_bind_of_ok parts, run_bind_of_ok slots, role]
  dsimp only
  rw [run_bind_of_ok (Op.run_heap world), present]
  have read : (Cursor.behind self index).read world = old := by
    simp only [Cursor.behind, present, Option.getD_some]
  rw [read]
  show _ = match (Cursor.behind self index).outcome world
    (Decode.value program world.heap bridged.registry (program.field owner index).type value old)
    with | (.ok (), after) => _ | (.error refusal, after) => _
  dsimp only
  cases Decode.value program world.heap bridged.registry (program.field owner index).type value
      old with
  | error refusal => cases refusal <;> rfl
  | ok new =>
    dsimp only
    rw [run_bind_of_ok (Op.run_adopt new world), Op.run_exchange]
    rfl

theorem looks_wrapperParts (self : Ref) : Op.Looks (wrapperParts self) := by
  refine Op.looks_heap.bind fun heap => ?_
  cases heap.wrapper? self with
  | none => exact Op.looks_raise _
  | some parts =>
    refine Op.Looks.bind ?_ fun _ => Op.looks_pure _
    refine Op.looks_world.bind fun world => ?_
    split
    · exact Op.looks_pure _
    · exact Op.looks_raise _

theorem looks_typeSlot (bridged : BridgedType) (id : Nat) : Op.Looks (typeSlot bridged id) := by
  unfold typeSlot
  cases bridged.slots[id]? with
  | none => exact Op.looks_raise _
  | some slot => exact Op.looks_pure slot

/-- A field that cannot be written is left as it was, with everything else. -/
theorem writeField_allOrNothing (self value : Ref) (id : Nat) :
    Op.AllOrNothing (program.writeField self value id) := by
  refine (looks_wrapperParts self).bind_allOrNothing fun ⟨held, bridged, registry⟩ => ?_
  refine (looks_typeSlot bridged id).bind_allOrNothing fun slot => ?_
  cases slot.role with
  | set owner index =>
    refine Op.looks_heap.bind_allOrNothing fun heap => ?_
    cases (heap.wrapped? self).bind (·.1.field? index) with
    | none => exact (Op.looks_raise _).allOrNothing
    | some old =>
      dsimp only
      rcases Decode.value program heap registry (program.field owner index).type value old with
        (cause | misuse | _) | new
      · exact (Op.looks_raise _).allOrNothing
      · exact (Op.looks_panic _).allOrNothing
      · exact (Op.looks_throw _).allOrNothing
      · intro world fault after failed
        rw [run_bind_of_ok (Op.run_adopt new world), Op.run_exchange] at failed
        cases failed
  | _ => exact (Op.looks_raise _).allOrNothing

/-- The accessors of a registered type are written through the bridge. -/
theorem setter_of_accessor? {registry : RegistryId} {id : StructId} {shown doc name : String}
    {maker : Option Nat} {accessor : AccessorDef}
    (found : TypeBody.accessor?
      (program.typeBody registry id shown doc maker (program.plan id maker)) name =
        some accessor) : accessor.setter = some .bridge := by
  have member : accessor ∈ (program.plan id maker).accessors := List.mem_of_find?_eq_some found
  obtain ⟨⟨field, index, slot⟩, _, rfl⟩ := List.mem_map.mp member
  rfl

/-- An assignment to an attribute of a wrapper that fails changes nothing. -/
theorem setAttribute_failed {self type value : Ref} {name : String} {state : Option Payload}
    {registry : RegistryId} {id : StructId} {shown doc : String} {maker : Option Nat}
    (wrapper : world.heap.body self = .instance type state)
    (registered : world.heap.body type =
      .type (program.typeBody registry id shown doc maker (program.plan id maker)))
    (failed : (program.setAttribute self name value).run world = (.error fault, after)) :
    after = world := by
  rw [setAttribute, run_bind_of_ok (Op.run_heap world), wrapper] at failed
  simp only [Heap.type?, registered, Option.bind_some] at failed
  cases found : TypeBody.accessor?
      (program.typeBody registry id shown doc maker (program.plan id maker)) name with
  | none =>
    rw [found] at failed
    exact (Op.looks_raise _).allOrNothing world fault after failed
  | some accessor =>
    have setter : accessor.setter = some .bridge := setter_of_accessor? found
    simp only [found, setter] at failed
    exact writeField_allOrNothing self value accessor.setClosure world fault after failed

/-- An object that is refused as a value of its own changes nothing. -/
theorem fromObject_failed {bridge : Bridge} {type : HostType} {ref : Ref}
    {result : Except Fault (Except ConversionError HostValue)}
    (ended : (program.fromObject bridge type ref).run world = (result, after))
    (failed : ∀ value, result ≠ .ok (.ok value)) : after = world := by
  rw [fromObject, run_bind_of_ok (Op.run_heap world)] at ended
  cases reading : Decode.fresh program world.heap bridge.registry type ref with
  | error refusal =>
    rw [reading] at ended
    cases refusal <;> exact (Prod.mk.inj ended).2.symm
  | ok value =>
    rw [reading] at ended
    exact absurd (Prod.mk.inj ended).1.symm (failed _)

end Program

namespace Decode

/-- A place is as it was after a refusal, and so is all of the memory around it. -/
theorem fill_refused {program : Program} {registry : RegistryId} {type : HostType} {σ : Type}
    {ref : Ref} {place : Cursor σ} {state after : σ} {refusal : Refusal}
    (refused : (fill program registry type ref place).run state = (.error refusal, after)) :
    after = state := by
  rw [fill_run] at refused
  cases reading : Decode.value program (place.heap state) registry type ref (place.read state) with
  | error stop =>
    rw [reading] at refused
    exact (Prod.mk.inj refused).2.symm
  | ok value =>
    rw [reading] at refused
    cases refused

end Decode

namespace Program

/--
Conversion into the host is all or nothing.  Filling any place in any memory
writes the value that the decoder reads, as its only effect; after a refusal,
by an error or by a panic, the memory is as it was.  A conversion to a value of
its own that does not succeed, and an assignment to an attribute of a wrapper
that fails or panics, leave the whole world as it was.
-/
theorem conversion_allOrNothing (program : Program) (bridge : Bridge) (type : HostType)
    (ref : Ref) :
    (∀ (σ : Type) (place : Cursor σ) (state : σ),
      (Decode.fill program bridge.registry type ref place).run state =
          place.outcome state
            (Decode.value program (place.heap state) bridge.registry type ref
              (place.read state)) ∧
        ∀ refusal after,
          (Decode.fill program bridge.registry type ref place).run state =
            (.error refusal, after) → after = state) ∧
    (∀ world after result,
      (program.fromObject bridge type ref).run world = (result, after) →
        (∀ value, result ≠ .ok (.ok value)) → after = world) ∧
    (∀ world after self handle state name fault id shown doc maker,
      world.heap.body self = .instance handle state →
        world.heap.body handle =
          .type (program.typeBody bridge.registry id shown doc maker (program.plan id maker)) →
        (program.setAttribute self name ref).run world = (.error fault, after) →
          after = world) := by
  refine ⟨fun σ place state => ⟨?_, ?_⟩, ?_, ?_⟩
  · exact Decode.fill_run bridge.registry type ref place state
  · intro refusal after refused
    exact Decode.fill_refused refused
  · intro world after result ended failed
    exact fromObject_failed ended failed
  · intro world after self handle state name fault id shown doc maker wrapper registered failed
    exact setAttribute_failed wrapper registered failed

/-- A point with a list beside it whose second item is too large for a byte. -/
def pointBesideList : World :=
  let program := Sample.program fun _ => ""
  let plan := program.plan ⟨0⟩ none
  let point := program.typeBody ⟨0⟩ ⟨0⟩ "Point" "" none plan
  let bridged := Program.bridgedType ⟨0⟩ ⟨0⟩ "Point" none plan
  { World.initial with
    heap := ⟨Heap.initial.cells ++ #[some ⟨2, .type point⟩,
      some ⟨1, .instance ⟨3⟩ (some (.wrapper ⟨0⟩ (.owned (Sample.point 3 4))))⟩,
      some ⟨1, .int 5⟩, some ⟨1, .int 300⟩, some ⟨1, .list [⟨5⟩, ⟨6⟩]⟩]⟩
    registries := #[Registry.enroll ⟨3⟩ bridged
      { Registry.empty with owners := 1, roster := Roster.empty.pushFront ⟨4⟩ }] }

/-- A byte list is refused at its second item, in the field of a point and on its
own, and a list is refused as a field of a point. -/
theorem conversion_allOrNothing_pointBesideList :
    let program := Sample.program fun _ => ""
    let type := HostType.seq (.int .u8)
    let world := pointBesideList
    (∃ refusal after,
      (Decode.fill program ⟨0⟩ type ⟨7⟩ (Cursor.behind ⟨4⟩ 0)).run world =
        (.error refusal, after) ∧ after = world) ∧
    (∃ result after, (program.fromObject ⟨⟨0⟩, ⟨0⟩⟩ type ⟨7⟩).run world = (result, after) ∧
      (∀ value, result ≠ .ok (.ok value)) ∧ after = world) ∧
    ∃ fault after, (program.setAttribute ⟨4⟩ "x" ⟨7⟩).run world = (.error fault, after) ∧
      after = world := by
  intro program type world
  obtain ⟨filling, fresh, assignment⟩ := conversion_allOrNothing program ⟨⟨0⟩, ⟨0⟩⟩ type ⟨7⟩
  refine ⟨?_, ?_, ?_⟩
  · exact ⟨_, _, rfl, (filling World (.behind ⟨4⟩ 0) world).2 _ _ rfl⟩
  · refine ⟨_, _, rfl, ?_, fresh world _ _ rfl ?_⟩ <;> exact fun _ same => nomatch same
  · exact ⟨_, _, rfl, assignment world _ ⟨4⟩ ⟨3⟩ _ "x" _ ⟨0⟩ "Point" "" none rfl rfl rfl⟩

end Program

end HostBridge
