import HostBridge.Proofs.Calling.Run
import HostBridge.Proofs.Sharing.Values

/-!
# Writes through wrappers

An exchange, a field that is assigned and a value that is updated in place: each
changes the value that some wrapper owns at one place, the place that the wrapper
written through shows, or a field of it.
-/

namespace HostBridge

open Op

variable {program : Program} {world : World} {held : Multiset Ref}

namespace Op

/-- What is held after an operation: what its result owns, and nothing if it has failed. -/
def handed {α : Type} (owns : α → Multiset Ref) : Except Fault α → Multiset Ref
  | .ok value => owns value
  | .error _ => 0

/-- What is put in the place of a value, as its owner comes to own it. -/
theorem run_adopt_copied (value : HostValue) :
    (adopt value).run world =
      (.ok (copied value world), (value.completed (world.retainAll value.references)).2) := rfl

/-- An exchange writes at the place behind a wrapper, or at one inside it. -/
theorem exchange_writes (sound : world.Sound program held) {ref : Ref} {content : Held}
    {bridged : BridgedType} {inner : List Nat} {type : HostType} {new : HostValue}
    (wrapper : world.heap.wrapper? ref = some (content, bridged))
    (typed : program.typeAt? (.struct bridged.host) inner = some type)
    (fit : new.fits program type = true) :
    ∃ after, (exchange ref inner new).run world = (.ok (), after) ∧
      world.Writes program new.references after 0 (Heap.location ref content).1
        ((Heap.location ref content).2 ++ inner) new := by
  obtain ⟨value, rootType, owner, _, above⟩ := sound.wired.location wrapper
  have owned := Heap.ownedValue?_of_wrapper? owner
  have place : program.typeAt? (.struct rootType.host)
      ((Heap.location ref content).2 ++ inner) = some type := by
    rw [Program.typeAt?_append, above, Option.bind_some, typed]
  obtain ⟨old, present, _⟩ := HostValue.at?_of_fits (sound.wired.fits_owned owner) place
  have ran : (exchange ref inner new).run world =
      (.ok (), (world.putValue (Heap.location ref content).1
        ((Heap.location ref content).2 ++ inner) new).releaseAll old.references) := by
    rw [exchange, Operation.run_bind_of_ok (run_heap world), wrapper]
    dsimp only
    rw [owned, Option.bind_some, present]
    rfl
  generalize (Heap.location ref content).1 = root at *
  generalize (Heap.location ref content).2 ++ inner = path at *
  have put : world.Writes program new.references (world.putValue root path new) old.references root
      path new := .putValue owned path new (.putValue sound.wired owner present place fit)
  exact ⟨_, ran, .between (.refl _ _) put (path_releaseAll _ _)⟩

/-- A value that is adopted and then put behind a wrapper, or at a place inside. -/
theorem adopt_exchange_writes (sound : world.Sound program held) {ref : Ref} {content : Held}
    {bridged : BridgedType} {inner : List Nat} {type : HostType} {new : HostValue}
    (wrapper : world.heap.wrapper? ref = some (content, bridged))
    (typed : program.typeAt? (.struct bridged.host) inner = some type)
    (valid : new.Valid program world.heap type) :
    ∃ after, (do exchange ref inner (← adopt new)).run world = (.ok (), after) ∧
      world.Writes program 0 after 0 (Heap.location ref content).1
        ((Heap.location ref content).2 ++ inner) (copied new world) := by
  have makes : World.Makes program Permission.nothing world [] _ (copied new world).references :=
    (World.Makes.retainAll valid.used).trans (HostValue.makes_completed new _)
  have adopted := makes.path_new 0
  rw [zero_add] at adopted
  have soundNext := (makes.path_new held).sound sound
  have fit : (copied new world).fits program type = true := by
    rw [copied, HostValue.fits_completed]
    exact valid.fit
  obtain ⟨after, ran, writes⟩ :=
    exchange_writes soundNext (makes.more.wrapper? wrapper) typed fit
  refine ⟨after, ?_, .between adopted writes (.refl after 0)⟩
  rw [Operation.run_bind_of_ok (run_adopt_copied new), ran]

end Op

namespace Program

open Op

/-- A field that is assigned is written, with what it was if the assignment fails. -/
theorem writeField_writes (honest : program.Honest) (sound : world.Sound program held)
    {self value : Ref} (used : value.place < world.heap.size) {id : Nat} {slot : Slot}
    {content : Held} {bridged : BridgedType} {owner : StructId} {index : Nat}
    (wrapper : world.heap.wrapper? self = some (content, bridged))
    (found : bridged.slots[id]? = some slot) (role : slot.role = .set owner index)
    {result : Except Fault Unit} {after : World}
    (ran : (program.writeField self value id).run world = (result, after)) :
    ∃ part old new, world.heap.wrapped? self = some (part, bridged) ∧
      part.field? index = some old ∧
      world.Writes program 0 after 0 (Heap.location self content).1
        ((Heap.location self content).2 ++ [index]) new ∧
      (result = .ok () → ∃ decoded, Decode.value program world.heap bridged.registry
        (program.field owner index).type value old = .ok decoded ∧ new = copied decoded world) := by
  have concerns := concerns_of_slot sound wrapper found
  rw [role] at concerns
  obtain ⟨rfl, inside⟩ := concerns
  obtain ⟨part, wrapped, fit⟩ := sound.wired.exists_wrapped? wrapper
  obtain ⟨old, field, _⟩ := HostValue.field?_of_fits fit (List.getElem?_eq_getElem inside)
  have valid := valid_field sound wrapper inside (by rw [wrapped]; exact field)
  have failing : ∀ fault, (Except.error fault, world) = (result, after) → ∃ new,
      world.Writes program 0 after 0 (Heap.location self content).1
        ((Heap.location self content).2 ++ [index]) new ∧
      (result = .ok () → ∃ decoded, Decode.value program world.heap bridged.registry
        (program.field bridged.host index).type value old = .ok decoded ∧
        new = copied decoded world) := by
    rintro fault ⟨rfl, rfl⟩
    obtain ⟨same, writes⟩ :=
      sound.wired.writes (.refl world 0) wrapper (typeAt?_field inside)
    exact ⟨same, writes, fun failed => by cases failed⟩
  refine ⟨part, old, (?_ : ∃ new, _).imp fun _ writing => ⟨wrapped, field, writing⟩⟩
  by_cases alive : world.registryAlive bridged.registry = true
  · rw [writeField, Operation.run_bind_of_ok (run_wrapperParts wrapper alive)] at ran
    dsimp only at ran
    rw [Operation.run_bind_of_ok (run_typeSlot found)] at ran
    rw [role] at ran
    dsimp only at ran
    rw [Operation.run_bind_of_ok (run_heap world), wrapped, Option.bind_some, field] at ran
    dsimp only at ran
    split at ran
    · rename_i new read
      have fresh := Decode.valid_value honest.founded sound used valid read
      obtain ⟨final, wrote, writes⟩ :=
        adopt_exchange_writes sound wrapper (typeAt?_field inside) fresh
      rw [wrote, Prod.mk.injEq] at ran
      obtain ⟨_, rfl⟩ := ran
      exact ⟨_, writes, fun _ => ⟨new, read, rfl⟩⟩
    · exact failing _ ran
    · exact failing _ ran
    · exact failing _ ran
  · rw [writeField, Operation.run_bind_of_error (run_wrapperParts_of_dead wrapper alive)] at ran
    exact failing _ ran

/-- The type of a wrapper, as attributes are looked up in it. -/
theorem shape_of_wrapper? (wired : world.Wired program) {self : Ref} {content : Held}
    {bridged : BridgedType} (wrapper : world.heap.wrapper? self = some (content, bridged)) :
    ∃ type registry shape, world.heap.body self = .instance type (some (.wrapper registry content)) ∧
      world.heap.type? type = some shape ∧ shape.context = some (.bridged bridged) ∧
      shape.Synthesized program := by
  obtain ⟨cell, type, registry, present, body, found⟩ := Heap.wrapper?_eq_some.mp wrapper
  obtain ⟨shape, reading, context, synthesized⟩ := wired.synthesized found
  refine ⟨type, registry, shape, (Heap.body_eq present).trans body, ?_, context, synthesized⟩
  rw [Heap.type?, reading]

section

variable {self : Ref} {content : Held} {bridged : BridgedType} {name : String} {index : Nat}

/-- A field that has a name for scripts has an accessor in the type of the wrapper. -/
theorem exists_accessor (wired : world.Wired program)
    (wrapper : world.heap.wrapper? self = some (content, bridged))
    (named : program.fieldNamed? bridged.host name = some index) :
    ∃ type registry shape accessor field,
      world.heap.body self = .instance type (some (.wrapper registry content)) ∧
      world.heap.type? type = some shape ∧ shape.accessor? name = some accessor ∧
      Accesses program bridged.host bridged.slots accessor index field := by
  obtain ⟨type, registry, shape, body, typed, context, synthesized⟩ :=
    shape_of_wrapper? wired wrapper
  rcases synthesized.accesses context name with ⟨accessor, _, field, found, named', accesses⟩ |
    ⟨_, unnamed⟩
  · rw [named, Option.some.injEq] at named'
    subst named'
    exact ⟨type, registry, shape, accessor, field, body, typed, found, accesses⟩
  · rw [named] at unnamed
    cases unnamed

/-- Reading the name of a field comes to the slot that reads the field. -/
theorem run_getAttribute_field (wired : world.Wired program)
    (wrapper : world.heap.wrapper? self = some (content, bridged))
    (named : program.fieldNamed? bridged.host name = some index) :
    ∃ slot : Slot, bridged.slots[slot.id]? = some slot ∧ slot.role = .get bridged.host index ∧
      (program.getAttribute self name).run world = (program.readField self slot.id).run world := by
  obtain ⟨type, registry, shape, accessor, field, body, typed, found, accesses⟩ :=
    exists_accessor wired wrapper named
  refine ⟨plainSlot accessor.getClosure field.name "" (.get bridged.host index), accesses.get, rfl,
    ?_⟩
  rw [getAttribute, Operation.run_bind_of_ok (run_heap world), body]
  dsimp only
  rw [typed]
  dsimp only
  rw [found]
  dsimp only
  rw [runGetter, accesses.getter]
  rfl

/-- Assigning to the name of a field comes to the slot that writes the field. -/
theorem run_setAttribute_field (wired : world.Wired program)
    (wrapper : world.heap.wrapper? self = some (content, bridged))
    (named : program.fieldNamed? bridged.host name = some index) :
    ∃ slot : Slot, bridged.slots[slot.id]? = some slot ∧ slot.role = .set bridged.host index ∧
      ∀ value, (program.setAttribute self name value).run world =
        (program.writeField self value slot.id).run world := by
  obtain ⟨type, registry, shape, accessor, field, body, typed, found, accesses⟩ :=
    exists_accessor wired wrapper named
  refine ⟨plainSlot accessor.setClosure field.name "" (.set bridged.host index), accesses.set, rfl,
    fun value => ?_⟩
  rw [setAttribute, Operation.run_bind_of_ok (run_heap world), body]
  dsimp only
  rw [typed, Option.bind_some, found]
  dsimp only
  rw [accesses.setter]
  rfl

end

/-- Assigning to an attribute writes the field of that name. -/
theorem setAttribute_writes (honest : program.Honest) (sound : world.Sound program held)
    {self value : Ref} (used : value.place < world.heap.size) {name : String} {content : Held}
    {bridged : BridgedType} {index : Nat}
    (wrapper : world.heap.wrapper? self = some (content, bridged))
    (named : program.fieldNamed? bridged.host name = some index) {result : Except Fault Unit}
    {after : World} (ran : (program.setAttribute self name value).run world = (result, after)) :
    ∃ part old new, world.heap.wrapped? self = some (part, bridged) ∧ part.field? index = some old ∧
      world.Writes program 0 after 0 (Heap.location self content).1
        ((Heap.location self content).2 ++ [index]) new ∧
      (result = .ok () → ∃ decoded, Decode.value program world.heap bridged.registry
        (program.field bridged.host index).type value old = .ok decoded ∧
        new = copied decoded world) := by
  obtain ⟨slot, found, role, same⟩ := run_setAttribute_field sound.wired wrapper named
  rw [same] at ran
  exact writeField_writes honest sound used wrapper found role ran

/-- A value that is updated in place is written, unless the wrapper is another
bridge's or of another type. -/
theorem updateBehind_writes (sound : world.Sound program held) {bridge : Bridge} {type : HostType}
    {ref : Ref} {update : HostValue → HostValue} {content : Held} {bridged : BridgedType}
    (right : ∀ value, value.Valid program world.heap type →
      (update value).Valid program world.heap type)
    (wrapper : world.heap.wrapper? ref = some (content, bridged)) {result : Except Fault Bool}
    {after : World} (ran : (updateBehind bridge type ref update).run world = (result, after)) :
    ∃ part new, world.heap.wrapped? ref = some (part, bridged) ∧
      world.Writes program 0 after 0 (Heap.location ref content).1 (Heap.location ref content).2 new ∧
      (bridged.registry = bridge.registry → type = .struct bridged.host →
        new = copied (update part) world) := by
  obtain ⟨part, wrapped, fit⟩ := sound.wired.exists_wrapped? wrapper
  refine ⟨part, (?_ : ∃ new, _).imp fun _ writing => ⟨wrapped, writing⟩⟩
  have valid := Decode.valid_wrapped? sound wrapped
  rw [updateBehind] at ran
  by_cases own : bridged.registry = bridge.registry ∧ type = .struct bridged.host
  · have behind : (valueBehind bridge type ref).run world = (.ok (some part), world) := by
      rw [valueBehind, Operation.run_bind_of_ok (run_heap world), wrapped]
      dsimp only
      rw [if_pos own]
      rfl
    rw [Operation.run_bind_of_ok behind] at ran
    rw [← own.2] at valid
    have typed : program.typeAt? (.struct bridged.host) [] = some type := by
      rw [own.2]
      exact typeAt?_nil _
    obtain ⟨final, wrote, writes⟩ :=
      adopt_exchange_writes sound wrapper typed (right part valid)
    have whole : (do exchange ref [] (← adopt (update part)); return true).run world =
        (.ok true, final) := by
      have split : (do exchange ref [] (← adopt (update part)); return true : Op Bool) =
          (do exchange ref [] (← adopt (update part))) >>= fun _ => pure true := by
        rw [bind_assoc]
      rw [split, Operation.run_bind_of_ok wrote]
      rfl
    rw [whole, Prod.mk.injEq] at ran
    obtain ⟨_, rfl⟩ := ran
    rw [List.append_nil] at writes
    exact ⟨_, writes, fun _ _ => rfl⟩
  · have behind : (valueBehind bridge type ref).run world = (.ok none, world) := by
      rw [valueBehind, Operation.run_bind_of_ok (run_heap world), wrapped]
      dsimp only
      rw [if_neg own]
      rfl
    rw [Operation.run_bind_of_ok behind] at ran
    obtain ⟨_, rfl⟩ := Prod.mk.inj ran
    obtain ⟨same, writes⟩ := sound.wired.writes_behind (.refl world 0) wrapper
    exact ⟨same, writes, fun registry struct => absurd ⟨registry, struct⟩ own⟩

end Program

end HostBridge
