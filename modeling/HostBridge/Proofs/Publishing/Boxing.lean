import HostBridge.Proofs.Publishing.Closure
import HostBridge.Proofs.Wiring.Calls

/-!
# Boxes of structs

A struct and a box of it are registered as one type: the box is taken off, and the registry knows
the struct.  Only registrations take it off.  Where a type is looked up as it is given, a box is
never found, so the constructor that comes with a box is looked at once more, even if the struct is
registered.  And a constructor for a box is kept with the type of the struct: it runs on a value of
the struct, which is no value of the box that it was accepted for.
-/

namespace HostBridge

open Op

variable {program : Program} {world : World} {registry : RegistryId} {id : StructId} {handle : Ref}

/-- What is found for a struct that is registered, and what registering it or a box of it comes to. -/
structure Program.Settled (program : Program) (world : World) (registry : RegistryId) (id : StructId)
    (handle : Ref) : Prop where
  /-- The handle is found for the struct. -/
  plain : ∀ bridge : Bridge, bridge.registry = registry →
    (Program.typeOf bridge (.struct id)).run world = (.ok (some handle), world.retain handle)
  /-- For a box of it nothing is found. -/
  boxed : ∀ bridge : Bridge, bridge.registry = registry →
    (Program.typeOf bridge (.boxed (.struct id))).run world = (.ok none, world)
  /-- The handle is what any registration gives; a constructor for a box must be acceptable. -/
  again : ∀ registration : Registration, registration.bridge.registry = registry →
    registration.Concerns program id →
    (registration.item.type program = .struct id ∨ registration.item.Proper program) →
      (registration.run program).run world = (.ok handle, world.retain handle)
  /-- One that is not is refused, though it would not be used. -/
  judged : ∀ registration : Registration, registration.bridge.registry = registry →
    registration.item.type program = .boxed (.struct id) → ¬registration.item.Proper program →
      ∃ name subject product, (registration.run program).run world =
        (.error (.panicked (.wrongProduct name subject product)), world)

/-- The type behind a handle keeps a constructor, or none, in its first slot. -/
def World.KeepsMaker (world : World) (registry : RegistryId) (id : StructId)
    (handle : Ref) (maker : Option Nat) : Prop :=
  ∃ bridged, world.heap.bridgedType? handle = some bridged ∧ bridged.registry = registry ∧
    bridged.host = id ∧ bridged.maker = maker.map (fun _ => 0) ∧
    ∀ code ∈ maker, (bridged.slots[0]?).map (·.role) = some (.construct code)

/-- How the constructor that a type keeps works on a new instance. -/
structure Program.Fills (program : Program) (world : World) (self : Ref) (bridged : BridgedType)
    (place : Nat) (code : Nat) : Prop where
  /-- It was accepted for the struct or for a box of it. -/
  subject : (program.maker code).subject = .struct bridged.host ∨
    (program.maker code).subject = .boxed (.struct bridged.host)
  /-- It works on the value behind the instance. -/
  runs : ∀ callback positional keywords fresh values slot,
    bridged.slots[place]? = some slot → world.registryAlive bridged.registry = true →
    world.heap.wrapped? self = some (fresh, bridged) →
    program.arguments world.heap bridged.registry slot positional keywords = .ok values →
      (program.construct callback self positional keywords).run world =
        (Program.fill callback (program.maker code) self fresh values).run world
  /-- This is a value of the struct, and of what the constructor was accepted for exactly if that
  is no box. -/
  value : ∀ fresh, world.heap.wrapped? self = some (fresh, bridged) →
    fresh.fits program (.struct bridged.host) = true ∧
      (fresh.fits program (program.maker code).subject = true ↔
        (program.maker code).subject = .struct bridged.host)
  /-- What a factory makes is a value of what it was accepted for. -/
  product : (program.maker code).style = .factory → ∀ result,
    result.fits program (program.maker code).result = true →
      (Program.produced (program.maker code) result).fits program (program.maker code).subject = true

/-! ## Registered structs -/

theorem Program.settled (known : (world.registry registry).handle? id = some handle) :
    program.Settled world registry id handle := by
  refine ⟨?_, ?_, ?_, ?_⟩
  · rintro bridge rfl
    have looked : (Program.typeHandle? bridge.registry (.struct id)).run world =
        (.ok (some handle), world) := by
      rw [← known]
      rfl
    rw [Program.typeOf, Operation.run_bind_of_ok looked]
    rfl
  · rintro bridge rfl
    rfl
  · rintro registration rfl struct accepted
    exact Registration.run_of_known struct accepted known
  · rintro registration rfl boxed improper
    have struct : registration.Concerns program id := by
      rw [Registration.Concerns, boxed]
      rfl
    refine Registration.run_of_improper world struct improper fun plain => ?_
    rw [boxed] at plain
    cases plain

/-- The type of a struct keeps the constructor that the struct was first registered with. -/
theorem Registration.keeps {registration : Registration} {after : World}
    (struct : registration.Concerns program id)
    (created : registration.bridge.registry.number < world.registries.size)
    (counted : world.heap.Counted)
    (unknown : (world.registry registration.bridge.registry).handle? id = none)
    (ran : (registration.run program).run world = (.ok handle, after)) :
    after.KeepsMaker registration.bridge.registry id handle registration.item.maker := by
  obtain ⟨made, publishes, found, each, _⟩ := publishes_of_ok struct created counted ran
  rw [publishes.handle?_after created, unknown, Option.none_or] at found
  obtain ⟨front, back, split, _⟩ := List.lookup_eq_some_iff.mp found
  have member : (id, handle) ∈ made.map Publication.entry := by simp [split]
  obtain ⟨one, among, entry⟩ := List.mem_map.mp member
  obtain ⟨rfl, rfl⟩ := Prod.mk.inj entry
  obtain ⟨_, _, maker⟩ := each one among
  rw [if_pos rfl] at maker
  have body := publishes.bodies one among
  refine ⟨_, by rw [Heap.bridgedType?, Heap.typeContext?, Heap.type?, body]; rfl, rfl, rfl, ?_, ?_⟩
  · rw [maker]
    rfl
  · intro code given
    rw [maker, Option.mem_def.mp given]
    rfl

/-! ## Constructors -/

/-- A value of a struct is no value of a box. -/
theorem HostValue.fits_boxed_struct_eq_false {value : HostValue}
    (fit : value.fits program (.struct id) = true) :
    value.fits program (.boxed (.struct id)) = false := by
  obtain ⟨fields, rfl, _⟩ := HostValue.fits_struct_iff.mp fit
  rfl

/-- What a factory makes, with a box taken off that it may put around it, is a value of its type. -/
theorem Program.fits_subject_produced {maker : MakerDecl} {result : HostValue}
    (proper : maker.Proper)
    (style : maker.style = .factory)
    (subject : maker.subject = .struct id ∨ maker.subject = .boxed (.struct id))
    (fit : result.fits program maker.result = true) :
    (Program.produced maker result).fits program maker.subject = true := by
  rcases proper style with plain | boxed
  · -- The product is a value of the type, so no box is taken off.
    have apart : maker.result ≠ .boxed maker.subject := by
      rw [plain]
      rcases subject with subject | subject <;> simp [subject]
    rw [plain] at fit
    cases result with
    | boxed inner =>
      rw [Program.produced, if_neg apart]
      exact fit
    | _ => exact fit
  · rw [boxed] at fit
    cases result with
    | boxed inner =>
      rw [Program.produced, if_pos boxed]
      exact fit
    | _ => cases fit

theorem World.Sound.fills {held : Multiset Ref} (sound : world.Sound program held) {self : Ref}
    {content : Held} {bridged : BridgedType} {place code : Nat}
    (wrapper : world.heap.wrapper? self = some (content, bridged))
    (maker : bridged.maker = some place)
    (found : (bridged.slots[place]?).map (·.role) = some (.construct code)) :
    program.Fills world self bridged place code := by
  obtain ⟨slot, there, role⟩ := Option.map_eq_some_iff.mp found
  have concerns := Program.concerns_of_slot sound wrapper there
  rw [role] at concerns
  obtain ⟨struct, proper⟩ := concerns
  have subject := Registration.unboxed_cases struct
  refine ⟨subject, ?_, ?_, fun style result => Program.fits_subject_produced proper style subject⟩
  · intro callback positional keywords fresh values slot' there' alive wrapped read
    rw [there, Option.some.injEq] at there'
    subst there'
    exact Program.run_construct wrapper wrapped alive maker there role read
  · intro fresh wrapped
    have fit := sound.wired.fits_wrapped? wrapped
    refine ⟨fit, ?_⟩
    rcases subject with plain | boxed
    · rw [plain]
      exact iff_of_true fit rfl
    · rw [boxed, HostValue.fits_boxed_struct_eq_false fit]
      simp

/-- A struct and a box of it are registered as one type, but a box is never found as one, and a
constructor for a box runs on values that are none. -/
theorem World.Reached.boxes_registered (honest : program.Honest) {held : Multiset Ref}
    (reached : world.Reached program held) (created : registry.number < world.registries.size) :
    (∀ (registration : Registration) (id : StructId) (handle : Ref) (after : World),
      registration.bridge.registry = registry → registration.Concerns program id →
      (registration.run program).run world = (.ok handle, after) →
        program.Settled after registry id handle ∧
        ((world.registry registry).handle? id = none →
          after.KeepsMaker registry id handle registration.item.maker)) ∧
    (∀ (id : StructId) (handle : Ref), (world.registry registry).handle? id = some handle →
      program.Settled world registry id handle) ∧
    ∀ (self : Ref) (content : Held) (bridged : BridgedType) (place code : Nat),
      world.heap.wrapper? self = some (content, bridged) → bridged.maker = some place →
      (bridged.slots[place]?).map (·.role) = some (.construct code) →
        program.Fills world self bridged place code := by
  have sound := reached.sound honest
  obtain ⟨_, _, session, path⟩ := reached
  have counted := (path.tidy (session.tidy honest)).counted
  refine ⟨?_, fun id handle known => Program.settled known,
    fun self content bridged place code => sound.fills⟩
  rintro registration id handle after rfl struct ran
  obtain ⟨_, _, found, _⟩ := Registration.publishes_of_ok struct created counted ran
  exact ⟨Program.settled found, fun unknown => Registration.keeps struct created counted unknown ran⟩

set_option maxRecDepth 10000 in
/-- Points have been registered with a constructor of their own. -/
theorem World.Reached.boxes_registered_point : ∃ (world : World) (held : Multiset Ref) (handle : Ref),
    world.Reached Figures.program held ∧ (world.registry ⟨0⟩).handle? ⟨0⟩ = some handle ∧
      Figures.program.Settled world ⟨0⟩ ⟨0⟩ handle := by
  generalize played : Request.played Figures.program Figures.opening = world
  have facts : (world.registries.size, (world.registry ⟨0⟩).handle? ⟨0⟩) = (1, some ⟨5⟩) := by
    subst played
    cbv
  obtain ⟨created, known⟩ := Prod.mk.inj facts
  have reached : world.Reached Figures.program (Request.kept Figures.program Figures.opening) := by
    rw [← played]
    exact ⟨_, _, Figures.playable_opening.session, .refl _ _⟩
  have small : (⟨0⟩ : RegistryId).number < world.registries.size := by
    rw [created]
    exact Nat.zero_lt_one
  exact ⟨world, _, ⟨5⟩, reached, known,
    (World.Reached.boxes_registered Figures.honest reached small).2.1 ⟨0⟩ ⟨5⟩ known⟩

set_option maxRecDepth 10000 in
/-- Boxes of points are registered, and looked up right after that. -/
theorem Figures.box_missed : ∃ (world : World) (handle : Ref) (after : World),
    Session Figures.program world (Request.kept Figures.program (Figures.opening.drop 2)) ∧
      (Figures.program.registerType Figures.bridge (.boxed (.struct ⟨0⟩)) ⟨4⟩ "Point" "").run world =
        (.ok handle, after) ∧
      (Program.typeOf Figures.bridge (.boxed (.struct ⟨0⟩))).run after = (.ok none, after) := by
  have ended : ((Figures.program.registerType Figures.bridge (.boxed (.struct ⟨0⟩)) ⟨4⟩ "Point" "").run
      (Request.played Figures.program (Figures.opening.drop 2))).1 = .ok ⟨5⟩ := by cbv
  exact ⟨_, ⟨5⟩, _, Figures.playable_opening.1.1.session, Prod.ext ended rfl, rfl⟩

end HostBridge
