import HostBridge.Proofs.Building.Failure
import HostBridge.Proofs.Wiring.Access

/-!
# Copies are made of new objects

A value that holds no runtime objects is encoded as an object that is made of new ones, as far as
they can be changed: whatever is reached from it by way of items, entries and the values in wrappers
has been made on the way, or is one of the objects that stand for nothing and for truth values, or a
registered type.  The same goes for a field that is read from a wrapper, unless it is declared with
a registered struct.
-/

namespace HostBridge

open Op

/-! ## Types without runtime objects -/

namespace HostType

section

variable (closed : StructId → Prop)

mutual

/-- A type whose values hold no runtime objects, given which structs hold none. -/
def Objectless : HostType → Prop
  | .object | .keywords => False
  | .seq element => element.Objectless
  | .map _ key value => key.Objectless ∧ value.Objectless
  | .struct id => closed id
  | .boxed element => element.Objectless
  | .optional element => element.Objectless
  | .tuple elements => ObjectlessAll elements
  | _ => True

/-- Types whose values hold no runtime objects. -/
def ObjectlessAll : List HostType → Prop
  | [] => True
  | type :: types => type.Objectless ∧ ObjectlessAll types

end

theorem objectlessAll_map {fields : List FieldDecl}
    (each : ∀ field ∈ fields, field.type.Objectless closed) :
    ObjectlessAll closed (fields.map (·.type)) := by
  induction fields with
  | nil => trivial
  | cons field fields ih =>
    exact ⟨each field (by simp), ih fun later member => each later (by simp [member])⟩

end

/-- A type in which there is no runtime object at any depth. -/
def Inert (type : HostType) (program : Program) : Prop :=
  ∃ closed : StructId → Prop,
    (∀ id, closed id → ∀ field ∈ (program.struct id).fields, field.type.Objectless closed) ∧
    type.Objectless closed

end HostType

namespace HostValue

variable {program : Program} {closed : StructId → Prop}

mutual

theorem references_of_objectless
    (fields : ∀ id, closed id → ∀ field ∈ (program.struct id).fields,
      field.type.Objectless closed) :
    ∀ (value : HostValue) {type : HostType}, value.fits program type = true →
      type.Objectless closed → value.references = []
  | .seq values, _, fit, without => by
    obtain ⟨element, rfl, fit⟩ := shapes_of_fits fit
    exact referencesAll_of_fitsEach fields values fit without
  | .map entries, _, fit, without => by
    obtain ⟨order, key, value, rfl, fit⟩ := shapes_of_fits fit
    exact referencesEntries_of_objectless fields entries fit without.1 without.2
  | .struct values, _, fit, without => by
    obtain ⟨id, rfl, fit⟩ := shapes_of_fits fit
    exact referencesAll_of_fitsAll fields values fit
      (HostType.objectlessAll_map closed (fields id without))
  | .tuple values, _, fit, without => by
    obtain ⟨types, rfl, fit⟩ := shapes_of_fits fit
    exact referencesAll_of_fitsAll fields values fit without
  | .boxed value, _, fit, without => by
    obtain ⟨element, rfl, fit⟩ := shapes_of_fits fit
    exact references_of_objectless fields value fit without
  | .present value, _, fit, without => by
    obtain ⟨element, rfl, fit⟩ := shapes_of_fits fit
    exact references_of_objectless fields value fit without
  | .object ref, _, fit, without => by
    obtain rfl := shapes_of_fits fit
    exact without.elim
  | .keywords dict, _, fit, without => by
    obtain rfl := shapes_of_fits fit
    exact without.elim
  | .unit, _, _, _ | .bool _, _, _, _ | .int _, _, _, _ | .single _, _, _, _
  | .double _, _, _, _ | .complexSingle _ _, _, _, _ | .complexDouble _ _, _, _, _
  | .text _, _, _, _ | .bytes _, _, _, _ | .absent, _, _, _ | .sealed _, _, _, _ => rfl

theorem referencesAll_of_fitsEach
    (fields : ∀ id, closed id → ∀ field ∈ (program.struct id).fields,
      field.type.Objectless closed) :
    ∀ (values : List HostValue) {element : HostType}, fitsEach program element values = true →
      element.Objectless closed → referencesAll values = []
  | [], _, _, _ => rfl
  | value :: values, _, fit, without => by
    simp only [fitsEach, Bool.and_eq_true] at fit
    rw [referencesAll, references_of_objectless fields value fit.1 without,
      referencesAll_of_fitsEach fields values fit.2 without]
    rfl

theorem referencesAll_of_fitsAll
    (fields : ∀ id, closed id → ∀ field ∈ (program.struct id).fields,
      field.type.Objectless closed) :
    ∀ (values : List HostValue) {types : List HostType}, fitsAll program types values = true →
      HostType.ObjectlessAll closed types → referencesAll values = []
  | [], _, _, _ => rfl
  | value :: values, [], fit, _ => by cases fit
  | value :: values, type :: types, fit, without => by
    simp only [fitsAll, Bool.and_eq_true] at fit
    rw [referencesAll, references_of_objectless fields value fit.1 without.1,
      referencesAll_of_fitsAll fields values fit.2 without.2]
    rfl

theorem referencesEntries_of_objectless
    (fields : ∀ id, closed id → ∀ field ∈ (program.struct id).fields,
      field.type.Objectless closed) :
    ∀ (entries : List (HostValue × HostValue)) {keyType valueType : HostType},
      fitsEntries program keyType valueType entries = true → keyType.Objectless closed →
        valueType.Objectless closed → referencesEntries entries = []
  | [], _, _, _, _, _ => rfl
  | (key, value) :: entries, _, _, fit, keyWithout, valueWithout => by
    simp only [fitsEntries, Bool.and_eq_true] at fit
    rw [referencesEntries, references_of_objectless fields key fit.1.1 keyWithout,
      references_of_objectless fields value fit.1.2 valueWithout,
      referencesEntries_of_objectless fields entries fit.2 keyWithout valueWithout]
    rfl

end

/-- A value of a type without runtime objects holds none. -/
theorem references_of_inert {type : HostType} {value : HostValue} (inert : type.Inert program)
    (fit : value.fits program type = true) : value.references = [] := by
  obtain ⟨closed, fields, without⟩ := inert
  exact references_of_objectless fields value fit without

end HostValue

/-! ## What is reached from an object -/

/-- The objects that one comes to from an object with some contents.  One does not come to the type
of an instance, and from a type to nothing. -/
def Body.parts : Body → List Ref
  | .type _ => []
  | .instance _ state => (state.map Payload.references).getD []
  | body => body.references

/-- Contents that can be changed. -/
def Body.Mutable : Body → Prop
  | .list _ | .dict _ | .instance _ _ | .module _ | .capsule _ _ => True
  | _ => False

theorem Body.parts_subset (body : Body) : body.parts ⊆ body.references := by
  intro inner member
  cases body with
  | type shape => cases member
  | «instance» shape state => exact List.mem_append_left _ member
  | _ => exact member

/-- One comes from an object to another one, by way of what each of them contains. -/
inductive Heap.Exposes (heap : Heap) (ref : Ref) : Ref → Prop
  | refl : Heap.Exposes heap ref ref
  | step {middle inner : Ref} (reached : Heap.Exposes heap ref middle)
      (member : inner ∈ (heap.body middle).parts) : Heap.Exposes heap ref inner

/-- What encoding comes to without being given it: the objects that are there from the start, and
registered types. -/
def World.Common (world : World) (registry : RegistryId) (ref : Ref) : Prop :=
  ref.place < Heap.initial.size ∨ ∃ id, (world.registry registry).handle? id = some ref

/-- An object has been made on the way from one world to another.  All that is reached from it is
there, and has been made as well as far as it can be changed; nothing else is other than it was. -/
structure World.Separate (before after : World) (ref : Ref) : Prop where
  there : ∀ other, after.heap.Exposes ref other → after.heap.holds other = true
  new : ∀ other, after.heap.Exposes ref other → (after.heap.body other).Mutable →
    before.heap.size ≤ other.place ∧ (after.heap.body other).Built
  old : ∀ other, other.place < before.heap.size →
    (after.heap.cell? other).map (·.body) = (before.heap.cell? other).map (·.body)
  places : before.heap.size ≤ after.heap.size

namespace World

variable {program : Program} {before after : World} {held : Multiset Ref} {registry : RegistryId}
  {ref other inner : Ref}

/-- One comes to nothing from what is common, and it cannot be changed. -/
theorem Common.fixed (common : before.Common registry ref) (sound : before.Sound program held) :
    ∃ cell, before.heap.cell? ref = some cell ∧ cell.body.parts = [] ∧ ¬cell.body.Mutable := by
  rcases common with first | ⟨host, found⟩
  · obtain ⟨start, present⟩ : ∃ start, Heap.initial.cell? ref = some start := by
      obtain ⟨place⟩ := ref
      match place with
      | 0 | 1 | 2 => exact ⟨_, rfl⟩
      | place + 3 => exact absurd first (by simp [Heap.initial, Heap.size])
    obtain ⟨cell, there, body⟩ := sound.grounded ref start present
    refine ⟨cell, there, ?_⟩
    rcases Heap.body_of_initial present with nothing | ⟨value, truth⟩
    · rw [body, nothing]
      exact ⟨rfl, id⟩
    · rw [body, truth]
      exact ⟨rfl, id⟩
  · obtain ⟨bridged, shape, _⟩ :=
      sound.wired.handle registry host ref (Registry.mem_types_of_handle? found)
    obtain ⟨cell, contents, there, body, _⟩ := Heap.bridgedType?_eq_some.mp shape
    refine ⟨cell, there, ?_⟩
    rw [body]
    exact ⟨rfl, id⟩

/-- Whatever is common is lent for encoding. -/
theorem Reached.serves_common (honest : program.Honest) (reached : before.Reached program held)
    (registry : RegistryId) :
    before.Serves program registry (before.Common registry) held where
  sound := reached.sound honest
  tidy := reached.tidy honest
  layered := reached.layered honest
  old ref common := by
    obtain ⟨cell, there, _⟩ := common.fixed (reached.sound honest)
    exact Heap.place_lt_size there
  first _ := .inl
  handles id _ found := .inr ⟨id, found⟩

/-- Building leaves what is common as it was. -/
theorem Common.remains {lent : Ref → Prop} {built : Multiset Ref}
    (common : before.Common registry ref) (sound : before.Sound program held)
    (underlies : before.Underlies lent after built) :
    ∃ cell, after.heap.cell? ref = some cell ∧ cell.body.parts = [] ∧ ¬cell.body.Mutable := by
  obtain ⟨cell, there, ends⟩ := common.fixed sound
  have same := underlies.old ref (Heap.place_lt_size there)
  rw [there, Option.map_some] at same
  obtain ⟨later, found, body⟩ := Option.map_eq_some_iff.mp same
  exact ⟨later, found, by rwa [body]⟩

/-- What one comes to from an object that has been built is owned, and it is common or has been built
as well. -/
theorem owed_of_exposes (sound : before.Sound program held)
    (underlies : before.Underlies (before.Common registry) after {ref})
    (exposes : after.heap.Exposes ref other) : other ∈ after.owed {ref} ∧
      (before.Common registry other ∨ before.heap.size ≤ other.place) := by
  induction exposes with
  | refl => exact ⟨by simp [World.owed], underlies.held ref (by simp)⟩
  | @step middle inner _ inside ih =>
    obtain ⟨_, common | fresh⟩ := ih
    · obtain ⟨cell, there, nothing, _⟩ := common.remains sound underlies
      rw [Heap.body_eq there, nothing] at inside
      cases inside
    · have something : after.heap.body middle ≠ .none := fun nothing => by
        rw [nothing] at inside
        cases inside
      obtain ⟨cell, there, body⟩ := Heap.exists_cell_of_body rfl something
      rw [← body] at inside
      have owns := cell.body.parts_subset inside
      refine ⟨?_, ((underlies.new middle cell fresh there).2 inner owns).2⟩
      simp [World.owed, Heap.mem_owned there owns]

/-- The object for a value that holds no objects is separate. -/
theorem Reached.separate_encoded (honest : program.Honest) (reached : before.Reached program held)
    {type : HostType} {value : HostValue} (fit : value.fits program type = true)
    (none : value.references = [])
    (ran : (Encode.value program registry type value).run before = (.ok ref, after)) :
    before.Separate after ref ∧ after.Reached program ({ref} + held) := by
  have serves := reached.serves_common honest registry
  have yields : Encode.YieldsValue program (before.Common registry) before registry type value before :=
    Encode.yields_value serves value fit (by simp [none])
  have begun : Builds program (before.Common registry) before 0 before (0 + 0) := .refl before 0
  obtain ⟨builds, _⟩ := yields.ok begun ran
  have underlies := builds.underlies serves.sound serves.tidy
  have alive := builds.alive serves.sound serves.old
  have framed := (builds.path Permission.anything).frame held
  rw [zero_add] at framed
  refine ⟨⟨fun other exposes => ?_, fun other exposes changes => ?_, underlies.old,
    underlies.places⟩, reached.trans framed⟩
  · obtain ⟨owned, common | fresh⟩ := owed_of_exposes serves.sound underlies exposes
    · obtain ⟨cell, there, _⟩ := common.remains serves.sound underlies
      exact Option.isSome_iff_exists.mpr ⟨cell, there⟩
    · exact alive other owned fresh
  · obtain ⟨owned, common | fresh⟩ := owed_of_exposes serves.sound underlies exposes
    · obtain ⟨cell, there, _, fixed⟩ := common.remains serves.sound underlies
      rw [Heap.body_eq there] at changes
      exact absurd changes fixed
    · obtain ⟨cell, there⟩ := Option.isSome_iff_exists.mp (alive other owned fresh)
      rw [Heap.body_eq there]
      exact ⟨fresh, (underlies.new other cell fresh there).1⟩

namespace Separate

/-- One comes only to older objects from an older one. -/
theorem older (separate : before.Separate after ref) (sound : before.Sound program held)
    (old : other.place < before.heap.size) (exposes : after.heap.Exposes other inner) :
    inner.place < before.heap.size := by
  induction exposes with
  | refl => exact old
  | step _ member ih =>
    rw [Heap.body_congr (separate.old _ ih)] at member
    exact sound.used_of_body _ (Body.parts_subset _ member)

/-- What can be changed is not reached from older objects as well. -/
theorem apart (separate : before.Separate after ref) (sound : before.Sound program held)
    (exposes : after.heap.Exposes ref inner) (changes : (after.heap.body inner).Mutable)
    (old : other.place < before.heap.size) : ¬after.heap.Exposes other inner := by
  intro exposed
  have fresh := (separate.new inner exposes changes).1
  have used := separate.older sound old exposed
  omega

end Separate

end World

/-! ## Copies -/

/-- An object is made for a value of a type: the value is encoded, or a field of it that is not
declared with a registered struct is read from a wrapper. -/
inductive World.Copies (program : Program) (before : World) :
    HostType → HostValue → Ref → World → Prop
  | encoded {bridge : Bridge} {type : HostType} {value : HostValue} {ref : Ref} {after : World}
      (fit : value.fits program type = true)
      (run : (program.toObject bridge type value).run before = (.ok ref, after)) :
      World.Copies program before type value ref after
  | read {self : Ref} {name : String} {part value : HostValue} {bridged : BridgedType} {index : Nat}
      {ref : Ref} {after : World} (wrapped : before.heap.wrapped? self = some (part, bridged))
      (named : program.fieldNamed? bridged.host name = some index)
      (field : part.field? index = some value)
      (indirect : ∀ nested, (program.field bridged.host index).type = .struct nested →
        (before.registry bridged.registry).handle? nested = none)
      (run : (program.getAttribute self name).run before = (.ok ref, after)) :
      World.Copies program before (program.field bridged.host index).type value ref after

namespace Program

variable {program : Program} {world after : World}

/-- Reading a field that is not declared with a registered struct encodes its value. -/
theorem readField_copy {self ref : Ref} {id index : Nat}
    {slot : Slot} {content : Held} {bridged : BridgedType} {value : HostValue}
    (wrapper : world.heap.wrapper? self = some (content, bridged))
    (found : bridged.slots[id]? = some slot) (role : slot.role = .get bridged.host index)
    (reading : (world.heap.wrapped? self).bind (·.1.field? index) = some value)
    (indirect : ∀ nested, (program.field bridged.host index).type = .struct nested →
      (world.registry bridged.registry).handle? nested = none)
    (ran : (program.readField self id).run world = (.ok ref, after)) :
    (Encode.value program bridged.registry (program.field bridged.host index).type value).run world =
      (.ok ref, after) := by
  by_cases alive : world.registryAlive bridged.registry = true
  · rw [readField, Operation.run_bind_of_ok (run_wrapperParts wrapper alive)] at ran
    dsimp only at ran
    rw [Operation.run_bind_of_ok (run_typeSlot found), role] at ran
    dsimp only at ran
    cases declared : (program.field bridged.host index).type with
    | struct nested =>
      rw [declared] at ran
      have handled : (Op.handle? bridged.registry nested).run world = (.ok none, world) := by
        rw [Op.handle?, Operation.run_bind_of_ok (run_world world), indirect nested declared]
        rfl
      rw [Operation.run_bind_of_ok handled] at ran
      dsimp only at ran
      rw [Operation.run_bind_of_ok (run_heap world), reading] at ran
      exact ran
    | _ =>
      rw [declared] at ran
      simp only [pure_bind] at ran
      rw [Operation.run_bind_of_ok (run_heap world), reading] at ran
      exact ran
  · rw [readField, Operation.run_bind_of_error (run_wrapperParts_of_dead wrapper alive)] at ran
    cases ran

end Program

namespace World.Copies

variable {program : Program} {before after : World} {held : Multiset Ref} {type : HostType}
  {value : HostValue} {ref : Ref}

/-- A copy is an object that the value is encoded as. -/
theorem exists_encoded (copies : before.Copies program type value ref after)
    (sound : before.Sound program held) (inert : type.Inert program) :
    value.fits program type = true ∧ value.references = [] ∧ ∃ registry,
      (Encode.value program registry type value).run before = (.ok ref, after) := by
  cases copies with
  | @encoded bridge _ _ _ _ fit run =>
    have none := HostValue.references_of_inert inert fit
    rw [Program.toObject, run_always, none] at run
    rcases ended : (Encode.value program bridge.registry type value).run before with ⟨result, last⟩
    rw [ended] at run
    cases run
    refine ⟨fit, none, bridge.registry, ?_⟩
    rw [ended, World.releaseAll]
  | @read self name part _ bridged index _ _ wrapped named field indirect run =>
    obtain ⟨content, wrapper⟩ := Heap.wrapper?_of_wrapped? wrapped
    obtain ⟨slot, found, role, same⟩ :=
      Program.run_getAttribute_field sound.wired wrapper named
    have concerns := Program.concerns_of_slot sound wrapper found
    rw [role] at concerns
    have reading : (before.heap.wrapped? self).bind (·.1.field? index) = some value := by
      rw [wrapped, Option.bind_some, field]
    have valid := Program.valid_field sound wrapper concerns.2 reading
    rw [same] at run
    exact ⟨valid.fit, HostValue.references_of_inert inert valid.fit, _,
      Program.readField_copy wrapper found role reading indirect run⟩

/-- A copy of a value of a type without runtime objects is separate. -/
theorem separate (copies : before.Copies program type value ref after) (honest : program.Honest)
    (reached : before.Reached program held) (inert : type.Inert program) :
    before.Separate after ref ∧ after.Reached program ({ref} + held) := by
  obtain ⟨fit, none, _, ran⟩ := copies.exists_encoded (reached.sound honest) inert
  exact reached.separate_encoded honest fit none ran

end World.Copies

end HostBridge
