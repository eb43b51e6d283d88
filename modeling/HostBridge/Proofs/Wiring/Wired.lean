import HostBridge.Proofs.Publishing.Remnant
import HostBridge.Proofs.Sharing.Sublocation
import HostBridge.Proofs.Wiring.Calls

/-!
# Types that are wired to their structs

A type that has been registered stays wired to its struct for as long as it is there: whatever
happens in between, each name leads to the item of that name, on whichever wrapper of the type,
and the type itself leads to the constructor that it was registered with.
-/

namespace HostBridge

open Op

section

variable (program : Program) (world : World) (held : Multiset Ref) (bridged : BridgedType)

/-- A name leads from a wrapper to a method: the function that is read runs the method on the
wrapper, also at any later time at which it is still there. -/
def Program.Binds (self : Ref) (name : String) (index : Nat) : Prop :=
  ∃ slot : Slot, bridged.slots[slot.id]? = some slot ∧ slot.role = .method bridged.host index ∧
    ∃ function made, (program.getAttribute self name).run world = (.ok function, made) ∧
      made.heap.body function = .function (program.definition (.slot slot.id) slot) (.bound self) ∧
      ∀ later left, Path program Permission.anything made (held + {function}) later left →
        later.heap.holds function = true → later.registryAlive bridged.registry = true →
        ∀ positional keywords values,
          program.arguments later.heap bridged.registry slot positional keywords = .ok values →
          ∃ receiver noted, later.heap.wrapped? self = some (receiver, bridged) ∧
            noted = later.note .trace s!"dispatch slot {slot.id} ({slot.exposed})" ∧
            ∀ callback,
              (program.runEntry callback (.slot slot.id) self positional keywords).run later =
                (program.applyMethod callback bridged.registry (program.method bridged.host index)
                  self receiver values).run noted

/--
The names of the fields and methods of a struct lead from a wrapper to the slots of these very
items.  A function that is read runs its method on the wrapper, also at any later time at which
it is still there.
-/
structure Program.Connects (self : Ref) : Prop where
  reads : ∀ field index, (field, index) ∈ exportedFields (program.struct bridged.host) →
    ∃ slot : Slot, bridged.slots[slot.id]? = some slot ∧ slot.role = .get bridged.host index ∧
      (program.getAttribute self (Name.snake field.name)).run world =
        (program.readField self slot.id).run world
  writes : ∀ field index, (field, index) ∈ exportedFields (program.struct bridged.host) →
    ∃ slot : Slot, bridged.slots[slot.id]? = some slot ∧ slot.role = .set bridged.host index ∧
      ∀ value, (program.setAttribute self (Name.snake field.name) value).run world =
        (program.writeField self value slot.id).run world
  methods : ∀ method index, (program.struct bridged.host).methods[index]? = some method →
    ∃ slot : Slot, bridged.slots[slot.id]? = some slot ∧ slot.role = .method bridged.host index ∧
      ∃ function made, (program.getAttribute self (Name.snake method.name)).run world =
          (.ok function, made) ∧
        made.heap.body function = .function (program.definition (.slot slot.id) slot) (.bound self) ∧
        ∀ later left, Path program Permission.anything made (held + {function}) later left →
          later.heap.holds function = true → later.registryAlive bridged.registry = true →
          ∀ positional keywords values,
            program.arguments later.heap bridged.registry slot positional keywords = .ok values →
            ∃ receiver noted, later.heap.wrapped? self = some (receiver, bridged) ∧
              noted = later.note .trace s!"dispatch slot {slot.id} ({slot.exposed})" ∧
              ∀ callback,
                (program.runEntry callback (.slot slot.id) self positional keywords).run later =
                  (program.applyMethod callback bridged.registry method self receiver values).run
                    noted

/-- A call of a type comes to a constructor: it is run on a new instance with the zero value. -/
def Program.Enters (type : Ref) (code : Nat) : Prop :=
  ∃ slot : Slot, bridged.maker = some slot.id ∧ bridged.slots[slot.id]? = some slot ∧
    slot.role = .construct code ∧
      (world.registryAlive bridged.registry = true → ∃ shape self made,
        world.heap.body type = .type shape ∧
        (program.allocateWrapper type).run world = (.ok self, made) ∧
        made.heap.wrapped? self =
          some (copied (program.zero (.struct bridged.host)) world, bridged) ∧
        ∀ positional keywords values,
          program.arguments made.heap bridged.registry slot positional keywords = .ok values →
          ∀ callback, (program.instantiate callback type shape positional keywords).run world =
            (do
              (Program.fill callback (program.maker code) self
                (copied (program.zero (.struct bridged.host)) world) values).undoing
                  (·.release self)
              return self).run made)

/-- What accesses to the wrappers of a type, calls of their methods and calls of the type raise:
nothing that is about the slots, and so no runtime error. -/
structure Program.Guarded (type : Ref) : Prop where
  reads : ∀ self content name exception after,
    world.heap.wrapper? self = some (content, bridged) →
    (program.getAttribute self name).run world = (.error (.raised exception), after) →
      (exception = .noAttribute (world.heap.typeName self) name ∨ exception.Unhashable) ∧
        exception.kind ≠ .runtimeError
  writes : ∀ self content name value exception after,
    world.heap.wrapper? self = some (content, bridged) →
    (program.setAttribute self name value).run world = (.error (.raised exception), after) →
      (exception = .noAttribute (world.heap.typeName self) name ∨
        ∃ typeName field reason, exception = .fieldRefused typeName bridged.name field reason) ∧
        exception.kind ≠ .runtimeError
  methods : ∀ self content (slot : Slot) index function,
    world.heap.wrapper? self = some (content, bridged) → bridged.slots[slot.id]? = some slot →
    slot.role = .method bridged.host index → function ∈ held →
    world.heap.body function = .function (program.definition (.slot slot.id) slot) (.bound self) →
    ∀ depth positional keywords exception after,
      (program.callWithin (depth + 1) function positional keywords).run world =
        (.error (.raised exception), after) →
          exception.OfCall ∧ exception.kind ≠ .runtimeError
  constructions : type ∈ held → ∀ depth positional keywords exception after,
    (program.callWithin (depth + 1) type positional keywords).run world =
      (.error (.raised exception), after) → exception.OfCall ∧ exception.kind ≠ .runtimeError

end

variable {program : Program} {world : World} {held : Multiset Ref}

namespace Program

/-- The name of a method that no field has leads to the first method of that name. -/
theorem binds (sound : world.Sound program held) {self : Ref} {content : Held}
    {bridged : BridgedType} (wrapper : world.heap.wrapper? self = some (content, bridged))
    {name : String} {index : Nat} (unnamed : program.fieldNamed? bridged.host name = none)
    (named : program.methodNamed? bridged.host name = some index) :
    program.Binds world held bridged self name index := by
  obtain ⟨slot, role, found, reading⟩ := run_getAttribute_method sound.wired wrapper unnamed named
  have used : self.place < world.heap.size := by
    obtain ⟨cell, _, _, present, _⟩ := Heap.wrapper?_eq_some.mp wrapper
    exact Heap.place_lt_size present
  have making : Runs program Permission.anything
      (create (.function (program.definition (.slot slot.id) slot) (.bound self))) world 0
      (fun ref => {ref}) fun ref made => made.heap.body ref = _ :=
    runs_create_body trivial fun inner inside => by
      rw [List.mem_singleton.mp inside]
      exact used
  rcases made : world.create (.function (program.definition (.slot slot.id) slot) (.bound self))
    with ⟨function, first⟩
  have ended : (Op.createFunction (program.definition (.slot slot.id) slot) self).run world =
      (.ok function, first) := by
    rw [Op.createFunction, run_create, made]
  have framed : world.Sound program (0 + held) := by rwa [zero_add]
  obtain ⟨path, body⟩ := making.ok framed ended
  have soundFirst : first.Sound program (held + {function}) := by
    rw [add_comm]
    exact (path.frame held).sound framed
  have more : world.Extends first := by
    have extended : world.Extends (world.create (.function
        (program.definition (.slot slot.id) slot) (.bound self))).2 :=
      (World.Extends.retainAll world _).trans (.place _ _)
    rwa [made] at extended
  refine ⟨slot, found, role, function, first, reading.trans ended, body, ?_⟩
  -- The function owns the wrapper, so the wrapper is there as long as the function is.
  intro later left after there alive positional keywords values read
  obtain ⟨cell, present⟩ := Option.isSome_iff_exists.mp there
  have soundLater := after.sound soundFirst
  have framedFirst : first.Sound program (held + {function} + 0) := by rwa [add_zero]
  obtain ⟨_, content', wrapper', _⟩ :=
    after.keeps_receiver framedFirst body (more.wrapper? wrapper) present
  obtain ⟨receiver, wrapped, _⟩ := soundLater.wired.exists_wrapped? wrapper'
  exact ⟨receiver, _, wrapped, rfl, fun _ => run_runEntry_method wrapped alive found role read⟩

theorem connects (sound : world.Sound program held) {self : Ref} {content : Held}
    {bridged : BridgedType} (wrapper : world.heap.wrapper? self = some (content, bridged))
    (distinct : (program.exposedNames bridged.host).Nodup) :
    program.Connects world held bridged self where
  reads field index member :=
    run_getAttribute_field sound.wired wrapper (fieldNamed?_of_nodup distinct member)
  writes field index member :=
    run_setAttribute_field sound.wired wrapper (fieldNamed?_of_nodup distinct member)
  methods method index declared := by
    obtain ⟨unnamed, named⟩ := methodNamed?_of_nodup distinct declared
    have item : program.method bridged.host index = method := by
      rw [Program.method, declared]
      rfl
    have bound := binds sound wrapper unnamed named
    rw [Program.Binds, item] at bound
    exact bound

theorem enters (founded : program.Founded) (sound : world.Sound program held) {type : Ref}
    {bridged : BridgedType} (bridges : world.heap.bridgedType? type = some bridged) {code : Nat}
    (slot : Slot) (maker : bridged.maker = some slot.id)
    (found : bridged.slots[slot.id]? = some slot) (role : slot.role = .construct code) :
    program.Enters world bridged type code := by
  refine ⟨slot, maker, found, role, fun alive => ?_⟩
  obtain ⟨shape, reading, context, synthesized⟩ := sound.wired.synthesized bridges
  obtain ⟨allocator, handler⟩ := synthesized.handlers context
  obtain ⟨self, made, allocated, makes, wrapper, aliveMade⟩ :=
    makes_allocateWrapper founded sound bridges alive
  have wrapped : made.heap.wrapped? self =
      some (copied (program.zero (.struct bridged.host)) world, bridged) :=
    Heap.wrapped?_eq_some.mpr ⟨_, _, wrapper, Heap.ownedValue?_of_wrapper? wrapper, rfl⟩
  refine ⟨shape, self, made, reading, allocated, wrapped, fun positional keywords values read
    callback => ?_⟩
  rw [run_instantiate allocator (by rw [handler, maker]; rfl) allocated]
  have constructing : (program.construct callback self positional keywords).run made =
      (fill callback (program.maker code) self
        (copied (program.zero (.struct bridged.host)) world) values).run made :=
    run_construct wrapper wrapped aliveMade maker found role read
  rw [Operation.run_bind, Operation.run_bind, undoing, undoing, run_ofFunction, run_ofFunction,
    constructing]

theorem guarded (founded : program.Founded) (sound : world.Sound program held) {type : Ref}
    {bridged : BridgedType} (bridges : world.heap.bridgedType? type = some bridged)
    (alive : world.registryAlive bridged.registry = true) :
    program.Guarded world held bridged type where
  reads _ _ _ _ _ wrapper ran := by
    have reason := raises_getAttribute sound wrapper alive ran
    refine ⟨reason, ?_⟩
    rcases reason with rfl | unhashable
    · rintro ⟨⟩
    · exact unhashable.ofCall.kind_ne
  writes _ _ _ _ _ _ wrapper ran := by
    have reason := raises_setAttribute sound wrapper alive ran
    refine ⟨reason, ?_⟩
    rcases reason with rfl | ⟨_, _, _, rfl⟩
    · rintro ⟨⟩
    · rintro ⟨⟩
  methods _ _ _ _ _ wrapper found role member body _ _ _ _ _ ran :=
    have ofCall := raises_call_method sound member body wrapper alive rfl found role ran
    ⟨ofCall, ofCall.kind_ne⟩
  constructions member _ _ _ _ _ ran :=
    have ofCall := raises_call_type founded sound member bridges alive ran
    ⟨ofCall, ofCall.kind_ne⟩

end Program

/-- A successful registration is a path. -/
theorem Registration.path_of_ok {registration : Registration} {before after : World} {handle : Ref}
    (created : registration.bridge.registry.number < before.registries.size)
    (sound : before.Sound program held)
    (ran : (registration.run program).run before = (.ok handle, after)) :
    Path program Permission.anything before 0 after {handle} := by
  have framed : before.Sound program (0 + held) := by rwa [zero_add]
  have runs : Runs program Permission.anything (registration.run program) before 0
      (fun ref => {ref}) fun _ _ => True := by
    obtain ⟨bridge, item, module, name, doc⟩ := registration
    cases item with
    | zeroed type => exact program.runs_registerType (fun _ => trivial) created
    | constructed code => exact program.runs_registerTypeWith (fun _ => trivial) created
  exact (runs.ok framed ran).1

/-- The constructor that a registration gives to a struct: its own struct gets the one that was
given, the structs that it leads to get none. -/
def Registration.makerOf (registration : Registration) (id other : StructId) : Option Nat :=
  if other = id then registration.item.maker else none

/--
The slots of a registered type are wired to its struct.  Take a registration that has succeeded,
a struct that it has made known, and any later world in which the type of the struct is still
there.  Each slot is at the place of its number; each name of a field or a method leads from a
wrapper to the item of that name, and a call of the type to the constructor that was given; and
while the registry is alive, accesses and calls fail for the names and the objects that they
were given, not for the slots.  A struct with too many slots is rejected, with nothing changed,
wherever in the course of a registration it is come upon.
-/
theorem Session.slots_wired (honest : program.Honest) {start before after : World}
    {kept left : Multiset Ref} (session : Session program start kept)
    (path : Path program Permission.anything start kept before left)
    {registration : Registration} {id other : StructId} {handle type : Ref}
    (struct : registration.Concerns program id)
    (created : registration.bridge.registry.number < before.registries.size)
    (ran : (registration.run program).run before = (.ok handle, after))
    (new : (before.registry registration.bridge.registry).handle? other = none)
    (registered : (after.registry registration.bridge.registry).handle? other = some type)
    (distinct : (program.exposedNames other).Nodup)
    (roomy : (program.plan other (registration.makerOf id other)).slots.length ≤ slotCapacity)
    (later : Path program Permission.anything after (left + {handle}) world held)
    (there : world.heap.holds type = true) :
    (∃ bridged, world.heap.bridgedType? type = some bridged ∧ bridged.host = other ∧
      (∀ place (slot : Slot), bridged.slots[place]? = some slot → slot.id = place ∧ slot.id < slotCapacity) ∧
      (∀ self content, world.heap.wrapper? self = some (content, bridged) →
        program.Connects world held bridged self) ∧
      (∀ code ∈ registration.makerOf id other, program.Enters world bridged type code) ∧
      (world.registryAlive bridged.registry = true → program.Guarded world held bridged type)) ∧
    ∀ registry module depth large name doc maker,
      slotCapacity < (program.plan large maker).slots.length →
        ∃ unchanged, (program.registerStruct registry module (depth + 1) large name doc maker).run
            world = (.error (.panicked (.tooManySlots (program.struct large).name
              (program.plan large maker).slots.length slotCapacity)), unchanged) ∧
          world.Untouched unchanged := by
  have soundBefore : before.Sound program left := path.sound (session.sound honest)
  have tidyBefore : before.Tidy := path.tidy (session.tidy honest)
  have registering := Registration.path_of_ok created soundBefore ran
  have soundAfter : after.Sound program (left + {handle}) := by
    have framed : before.Sound program (0 + left) := by rwa [zero_add]
    rw [add_comm]
    exact (registering.frame left).sound framed
  have sound : world.Sound program held := later.sound soundAfter
  refine ⟨?_, fun registry module depth large name doc maker crowded =>
    Registration.run_registerStruct_of_crowded crowded⟩
  obtain ⟨made, publishes, _, reached, _⟩ :=
    Registration.publishes_of_ok struct created tidyBefore.counted ran
  have known := registered
  rw [publishes.handle?_after created, new, Option.none_or] at known
  obtain ⟨front, back, split, _⟩ := List.lookup_eq_some_iff.mp known
  have entered : (other, type) ∈ made.map Publication.entry := by
    rw [split]
    exact List.mem_append_right _ List.mem_cons_self
  obtain ⟨one, member, same⟩ := List.mem_map.mp entered
  obtain ⟨rfl, rfl⟩ := Prod.mk.inj same
  -- The type that has been made is still there, so it is what it was.
  have bodyAfter := publishes.bodies one member
  obtain ⟨cell, present, made⟩ := Heap.exists_cell_of_body bodyAfter (by simp [Publication.body])
  obtain ⟨cell', present'⟩ := Option.isSome_iff_exists.mp there
  have persists := later.persists present present'
  rw [made] at persists
  have bridges := Heap.bridgedType?_eq_some.mpr ⟨cell', _, present', persists.type, rfl⟩
  have maker : one.maker = registration.makerOf id one.id := (reached one member).2.2
  rw [← maker] at roomy
  refine ⟨_, bridges, rfl, fun place slot found => ?_, fun self content wrapper =>
    program.connects sound wrapper distinct, fun code given => ?_, program.guarded honest.founded sound
      bridges⟩
  · have number := program.numbered_plan one.id one.maker place slot found
    have inside := (List.getElem?_eq_some_iff.mp found).1
    rw [Nat.zero_add] at number
    rw [number]
    exact ⟨rfl, Nat.lt_of_lt_of_le inside roomy⟩
  · rw [← maker] at given
    obtain ⟨_, _, name, doc, _⟩ := one
    cases given
    exact program.enters honest.founded sound bridges
      (Program.plainSlot 0 "__init__" "" (.construct code)) rfl rfl rfl

namespace Figures

/-- Points are to be exported with their constructor. -/
def points : Registration := ⟨bridge, .constructed 0, ⟨4⟩, "Point", ""⟩

/-- A segment is made, and its first point is read. -/
def reading : List Request := .getAttribute ⟨7⟩ "start" :: drawing

set_option maxRecDepth 10000 in
theorem playable_reading : Request.Playable Figures.program reading := by
  have size : (Request.played Figures.program drawing).heap.size = 9 := by cbv
  refine ⟨playable_drawing, rfl, fun ref member => ?_, trivial⟩
  rw [List.mem_singleton.mp member, size]
  decide

end Figures

open Figures in
set_option maxRecDepth 10000 in
/-- Points are registered, and later a point is read from a segment. -/
theorem Session.slots_wired_point :
    ∃ bridged held, ((Request.played Figures.program reading).heap.wrapper? ⟨9⟩).map Prod.snd =
        some bridged ∧
      Figures.program.Connects (Request.played Figures.program reading) held bridged ⟨9⟩ ∧
      Figures.program.Enters (Request.played Figures.program reading) bridged ⟨5⟩ 0 ∧
      Figures.program.Guarded (Request.played Figures.program reading) held bridged ⟨5⟩ := by
  have facts : (((points.run Figures.program).run
        (Request.played Figures.program (opening.drop 2))).1,
      (Request.played Figures.program (opening.drop 2)).registries.size,
      ((Request.played Figures.program (opening.drop 2)).registry ⟨0⟩).handle? ⟨0⟩,
      ((Request.played Figures.program (opening.drop 1)).registry ⟨0⟩).handle? ⟨0⟩,
      (Request.played Figures.program reading).heap.holds ⟨5⟩,
      ((Request.played Figures.program reading).heap.wrapper? ⟨9⟩).map Prod.snd,
      ((Request.played Figures.program reading).heap.bridgedType? ⟨5⟩).map
        fun bridged => (Request.played Figures.program reading).registryAlive bridged.registry) =
      (.ok ⟨5⟩, 1, none, some ⟨5⟩, true,
        (Request.played Figures.program reading).heap.bridgedType? ⟨5⟩, some true) := by
    cbv
  simp only [Prod.mk.injEq] at facts
  obtain ⟨ended, registries, new, known, there, wrapper, alive⟩ := facts
  have playable : Request.Playable Figures.program (opening.drop 2) := playable_opening.1.1
  rcases ran : (points.run Figures.program).run
    (Request.played Figures.program (opening.drop 2)) with ⟨result, after⟩
  rw [ran] at ended
  cases ended
  have registering : ((Request.registerTypeWith bridge 0 ⟨4⟩ "Point" "").run Figures.program).run
      (Request.played Figures.program (opening.drop 2)) = (.ok [⟨5⟩], after) := by
    have registered : (Figures.program.registerTypeWith bridge 0 ⟨4⟩ "Point" "").run
      (Request.played Figures.program (opening.drop 2)) = (.ok ⟨5⟩, after) := ran
    rw [Request.run, Operation.run_bind_of_ok registered]
    rfl
  have made : Request.played Figures.program (opening.drop 1) = after :=
    congrArg Prod.snd registering
  have kept : Request.kept Figures.program (opening.drop 1) =
      Request.kept Figures.program (opening.drop 2) + {⟨5⟩} := by
    show gained (((Request.registerTypeWith bridge 0 ⟨4⟩ "Point" "").run Figures.program).run
      (Request.played Figures.program (opening.drop 2))).1 + _ = _
    rw [registering, add_comm]
    rfl
  have later : Path Figures.program Permission.anything
      (Request.played Figures.program (opening.drop 1))
      (Request.kept Figures.program (opening.drop 1)) (Request.played Figures.program reading)
      (Request.kept Figures.program reading) :=
    Request.Playable.path Figures.honest (reading.take 4) playable_reading
  rw [kept, made] at later
  rw [made] at known
  have created : points.bridge.registry.number <
      (Request.played Figures.program (opening.drop 2)).registries.size := by
    rw [registries]
    exact Nat.zero_lt_one
  have struct : points.Concerns Figures.program ⟨0⟩ := rfl
  obtain ⟨⟨bridged, bridges, _, _, connects, enters, guarded⟩, _⟩ :=
    Session.slots_wired Figures.honest playable.session (.refl _ _) struct created ran new known
      (by decide) (by decide) later there
  rw [bridges] at wrapper alive
  obtain ⟨⟨content, _⟩, found, rfl⟩ := Option.map_eq_some_iff.mp wrapper
  exact ⟨_, _, wrapper, connects ⟨9⟩ content found, enters 0 rfl, guarded (Option.some.inj alive)⟩

end HostBridge
