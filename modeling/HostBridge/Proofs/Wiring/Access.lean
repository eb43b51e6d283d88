import HostBridge.Proofs.Ownership.Call
import HostBridge.Proofs.Ownership.Lifecycle
import HostBridge.Proofs.Sharing.Method
import HostBridge.Proofs.Wiring.Exceptions
import HostBridge.Proofs.Wiring.Table

/-!
# Access through wrappers

Reading a name from a wrapper, writing to it, calling a method and calling the type: each
comes to the slot of the item that was asked for.  What such an access raises is about the
names and the objects that it was given, or it says that a key has no hash.  It is never
about the slots.
-/

namespace HostBridge

variable {program : Program} {touch : Permission} {world : World} {held : Multiset Ref}

/-! ## Receivers -/

/-- A function that is there in the end has its definition and its owner. -/
theorem Path.same_function {first second : World} {given left : Multiset Ref}
    (path : Path program touch first given second left) {function : Ref} {definition : MethodDef}
    {owner : Owner} (body : first.heap.body function = .function definition owner) {later : Cell}
    (there : second.heap.cell? function = some later) :
    later.body = .function definition owner := by
  obtain ⟨cell, present, same⟩ := Heap.exists_cell_of_body body (by simp)
  have persists := path.persists present there
  rw [same] at persists
  exact persists.function

section

variable {first second : World} {given left frame : Multiset Ref} {function self : Ref}
  {definition : MethodDef} {later : Cell}

/-- A function that is bound to an object keeps it: as long as the function is there, the object
is there as well. -/
theorem Path.keeps_bound (path : Path program touch first given second left)
    (sound : first.Sound program (given + frame))
    (body : first.heap.body function = .function definition (.bound self)) {cell : Cell}
    (present : first.heap.cell? self = some cell)
    (there : second.heap.cell? function = some later) :
    ∃ kept, second.heap.cell? self = some kept ∧ cell.body.Persists kept.body := by
  suffices stays : ∃ kept, second.heap.cell? self = some kept by
    obtain ⟨kept, found⟩ := stays
    exact ⟨kept, found, path.persists present found⟩
  obtain ⟨_, old, _⟩ := Heap.exists_cell_of_body body (by simp)
  induction path generalizing later with
  | refl => exact ⟨cell, present⟩
  | @step middle _ _ _ _ path last ih =>
    have used := Nat.lt_of_lt_of_le (Heap.place_lt_size old) path.grows.places
    obtain ⟨between, found⟩ := (Path.single last).present used there
    obtain ⟨kept, stays⟩ := ih sound found
    have owned : self ∈ later.body.references := by
      rw [(path.step last).same_function body there]
      exact List.mem_singleton_self _
    obtain ⟨final, survives, _⟩ := last.survives frame ((path.frame frame).sound sound).balanced
      stays (.inl (by simp [Heap.mem_owned there owned]))
    exact ⟨final, survives⟩

/-- A function that is bound to a wrapper keeps it: as long as the function is there, it is
bound to the same wrapper. -/
theorem Path.keeps_receiver (path : Path program touch first given second left)
    (sound : first.Sound program (given + frame))
    (body : first.heap.body function = .function definition (.bound self)) {content : Held}
    {bridged : BridgedType} (wrapper : first.heap.wrapper? self = some (content, bridged))
    (there : second.heap.cell? function = some later) :
    second.heap.body function = .function definition (.bound self) ∧
      ∃ content', second.heap.wrapper? self = some (content', bridged) ∧
        Heap.location self content' = Heap.location self content := by
  refine ⟨(Heap.body_eq there).trans (path.same_function body there), ?_⟩
  obtain ⟨_, old, _⟩ := Heap.exists_cell_of_body body (by simp)
  induction path generalizing later with
  | refl => exact ⟨content, wrapper, rfl⟩
  | @step middle _ _ _ _ path last ih =>
    have used := Nat.lt_of_lt_of_le (Heap.place_lt_size old) path.grows.places
    obtain ⟨between, found⟩ := (Path.single last).present used there
    obtain ⟨content', wrapper', location⟩ := ih sound found
    have bound : self ∈ later.body.references := by
      rw [(path.step last).same_function body there]
      exact List.mem_singleton_self _
    have owned := Heap.mem_owned there bound
    obtain ⟨content'', wrapper'', location'⟩ :=
      last.keeps_wrapper frame ((path.frame frame).sound sound).balanced wrapper' (by simp [owned])
    exact ⟨content'', wrapper'', location'.trans location⟩

end

namespace Op

/-- Working the queue off leaves the owners of registries alone. -/
theorem registryAlive_drainIfDue {result : Except Fault Unit} {drained : World}
    (ended : drainIfDue.run world = (result, drained)) (registry : RegistryId) :
    drained.registryAlive registry = world.registryAlive registry := by
  have flushed : ∀ id, ((flush id).run world).2.registryAlive registry =
      world.registryAlive registry := by
    intro id
    have released : ((world.setQueue id (world.queue id).drained).releaseAll
        (world.queue id).pending).registryAlive registry = world.registryAlive registry := by
      rw [World.registryAlive, World.owners_releaseAll]
      rfl
    rw [flush, Operation.run_bind_of_ok (run_world world)]
    dsimp only
    split
    · rfl
    · rw [Operation.run_bind_of_ok (run_change world _), Operation.run_bind_of_ok (run_releaseAll _ _)]
      split
      · exact released
      · exact released
  rw [drainIfDue, Operation.run_bind_of_ok (run_current? world)] at ended
  split at ended
  · rename_i id found
    rw [Operation.run_bind_of_ok (run_world world)] at ended
    split at ended
    · rcases ran : (flush id).run world with ⟨count, after⟩
      have same := flushed id
      rw [ran] at same
      cases count with
      | ok value =>
        rw [drainIfDue.discard, Operation.run_bind_of_ok ran] at ended
        cases ended
        exact same
      | error fault =>
        rw [drainIfDue.discard, Operation.run_bind_of_error ran] at ended
        cases ended
        exact same
    · cases ended
      rfl
  · cases ended
    rfl

/-- Working the queue off raises nothing. -/
theorem raises_drainIfDue {allowed : Exception → Prop} : RaisesOnly drainIfDue allowed := by
  have current : RaisesOnly current? allowed := .look_bind fun _ => .pure _
  refine current.bind fun id => ?_
  split
  · rename_i id
    refine .look_bind fun world => ?_
    split
    · have flushes : RaisesOnly (flush id) allowed := by
        refine .look_bind fun world => ?_
        dsimp only
        split
        · exact .panic _
        · refine (RaisesOnly.change _).bind fun _ => (RaisesOnly.change _).bind fun _ => ?_
          split
          · exact (RaisesOnly.change _).bind fun _ => .pure _
          · exact .pure _
      exact flushes.bind fun _ => .pure _
    · exact .pure _
  · exact .pure _

end Op

namespace Program

open Op

section

variable {self : Ref} {content : Held} {bridged : BridgedType} {name : String} {index : Nat}

/-! ## Fields -/

/-- The value of a field is there. -/
theorem exists_field (sound : world.Sound program held)
    (wrapper : world.heap.wrapper? self = some (content, bridged)) {id : Nat} {slot : Slot}
    (found : bridged.slots[id]? = some slot)
    (role : slot.role = .get bridged.host index ∨ slot.role = .set bridged.host index) :
    ∃ value, (world.heap.wrapped? self).bind (·.1.field? index) = some value := by
  have concerns := concerns_of_slot sound wrapper found
  have inside : index < (program.struct bridged.host).fields.length := by
    rcases role with role | role <;> rw [role] at concerns <;> exact concerns.2
  obtain ⟨part, wrapped, fit⟩ := sound.wired.exists_wrapped? wrapper
  obtain ⟨value, field, _⟩ := HostValue.field?_of_fits fit (List.getElem?_eq_getElem inside)
  exact ⟨value, by rw [wrapped, Option.bind_some, field]⟩

/-- Reading a field fails only if a key in it has no hash. -/
theorem raises_readField (sound : world.Sound program held)
    (wrapper : world.heap.wrapper? self = some (content, bridged))
    (alive : world.registryAlive bridged.registry = true) {id : Nat} {slot : Slot}
    (found : bridged.slots[id]? = some slot) (role : slot.role = .get bridged.host index)
    {exception : Exception} {after : World}
    (ran : (program.readField self id).run world = (.error (.raised exception), after)) :
    exception.Unhashable := by
  obtain ⟨value, reading⟩ := exists_field sound wrapper found (.inl role)
  rw [readField, Operation.run_bind_of_ok (run_wrapperParts wrapper alive)] at ran
  dsimp only at ran
  rw [Operation.run_bind_of_ok (run_typeSlot found), role] at ran
  dsimp only at ran
  cases type : (program.field bridged.host index).type with
  | struct nested =>
    rw [type] at ran
    have handled : (Op.handle? bridged.registry nested).run world =
        (.ok ((world.registry bridged.registry).handle? nested), world) := rfl
    rw [Operation.run_bind_of_ok handled] at ran
    cases handle : (world.registry bridged.registry).handle? nested with
    | none =>
      rw [handle] at ran
      dsimp only at ran
      rw [Operation.run_bind_of_ok (run_heap world), reading] at ran
      exact Encode.raises_value program _ _ _ world exception after ran
    | some shape =>
      rw [handle] at ran
      exact raises_wrapField _ _ _ _ _ world exception after ran
  | _ =>
    rw [type] at ran
    simp only [pure_bind] at ran
    rw [Operation.run_bind_of_ok (run_heap world), reading] at ran
    exact Encode.raises_value program _ _ _ world exception after ran

/-- Writing a field fails only if the object does not fit. -/
theorem raises_writeField (sound : world.Sound program held)
    (wrapper : world.heap.wrapper? self = some (content, bridged))
    (alive : world.registryAlive bridged.registry = true) {id : Nat} {slot : Slot}
    (found : bridged.slots[id]? = some slot) (role : slot.role = .set bridged.host index)
    {value : Ref} {exception : Exception} {after : World}
    (ran : (program.writeField self value id).run world = (.error (.raised exception), after)) :
    ∃ cause : ConversionError, exception =
      .fieldRefused (program.typeName (program.field bridged.host index).type) bridged.name
        slot.exposed cause.message := by
  obtain ⟨old, reading⟩ := exists_field sound wrapper found (.inr role)
  rw [writeField, Operation.run_bind_of_ok (run_wrapperParts wrapper alive)] at ran
  dsimp only at ran
  rw [Operation.run_bind_of_ok (run_typeSlot found), role] at ran
  dsimp only at ran
  rw [Operation.run_bind_of_ok (run_heap world), reading] at ran
  dsimp only at ran
  split at ran
  · rename_i new _
    have raises : RaisesOnly (adopt new >>= exchange self [index]) fun _ => False :=
      (raises_adopt new).bind fun adopted => raises_exchange self [index] adopted
    exact (raises world exception after ran).elim
  · rename_i cause _
    cases ran
    exact ⟨cause, rfl⟩
  · cases ran
  · cases ran

/-- A name that no field has cannot be written to. -/
theorem run_setAttribute_of_unnamed (wired : world.Wired program)
    (wrapper : world.heap.wrapper? self = some (content, bridged))
    (unnamed : program.fieldNamed? bridged.host name = none) (value : Ref) :
    (program.setAttribute self name value).run world =
      (.error (.raised (.noAttribute (world.heap.typeName self) name)), world) := by
  obtain ⟨type, registry, shape, body, typed, context, synthesized⟩ :=
    shape_of_wrapper? wired wrapper
  rcases synthesized.accesses context name with ⟨_, _, _, _, named, _⟩ | ⟨none, _⟩
  · rw [unnamed] at named
    cases named
  · rw [setAttribute, Operation.run_bind_of_ok (run_heap world), body]
    dsimp only
    rw [typed, Option.bind_some, none]
    rfl

/-- A name that nothing has cannot be read, unless every object has it. -/
theorem run_getAttribute_of_unnamed (wired : world.Wired program)
    (wrapper : world.heap.wrapper? self = some (content, bridged))
    (unnamed : program.fieldNamed? bridged.host name = none)
    (unnamed' : program.methodNamed? bridged.host name = none) :
    (name = "__class__" → ∃ type after, (program.getAttribute self name).run world =
      (.ok type, after)) ∧
    (name ≠ "__class__" → (program.getAttribute self name).run world =
      (.error (.raised (.noAttribute (world.heap.typeName self) name)), world)) := by
  obtain ⟨type, registry, shape, body, typed, context, synthesized⟩ :=
    shape_of_wrapper? wired wrapper
  have noAccessor : shape.accessor? name = none := by
    rcases synthesized.accesses context name with ⟨_, _, _, _, named, _⟩ | ⟨none, _⟩
    · rw [unnamed] at named
      cases named
    · exact none
  have noMethod : shape.method? name = none := by
    rcases synthesized.methods context name with ⟨_, _, _, named, _⟩ | ⟨none, _⟩
    · rw [unnamed'] at named
      cases named
    · exact none
  rw [getAttribute, Operation.run_bind_of_ok (run_heap world), body]
  dsimp only
  rw [typed]
  dsimp only
  rw [noAccessor, noMethod]
  dsimp only
  constructor
  · intro common
    rw [if_pos common]
    exact ⟨_, _, rfl⟩
  · intro other
    rw [if_neg other]
    rfl

/-- What reading an attribute of a wrapper may raise. -/
theorem raises_getAttribute (sound : world.Sound program held)
    (wrapper : world.heap.wrapper? self = some (content, bridged))
    (alive : world.registryAlive bridged.registry = true) {exception : Exception} {after : World}
    (ran : (program.getAttribute self name).run world = (.error (.raised exception), after)) :
    exception = .noAttribute (world.heap.typeName self) name ∨ exception.Unhashable := by
  cases named : program.fieldNamed? bridged.host name with
  | some index =>
    obtain ⟨slot, found, role, same⟩ := run_getAttribute_field sound.wired wrapper named
    rw [same] at ran
    exact .inr (raises_readField sound wrapper alive found role ran)
  | none =>
    cases method : program.methodNamed? bridged.host name with
    | some index =>
      obtain ⟨slot, _, _, same⟩ := run_getAttribute_method sound.wired wrapper named method
      rw [same] at ran
      cases ran
    | none =>
      obtain ⟨common, other⟩ := run_getAttribute_of_unnamed sound.wired wrapper named method
      by_cases same : name = "__class__"
      · obtain ⟨type, later, reads⟩ := common same
        rw [reads] at ran
        cases ran
      · rw [other same] at ran
        cases ran
        exact .inl rfl

/-- What assigning to an attribute of a wrapper may raise. -/
theorem raises_setAttribute (sound : world.Sound program held)
    (wrapper : world.heap.wrapper? self = some (content, bridged))
    (alive : world.registryAlive bridged.registry = true) {value : Ref} {exception : Exception}
    {after : World}
    (ran : (program.setAttribute self name value).run world = (.error (.raised exception), after)) :
    exception = .noAttribute (world.heap.typeName self) name ∨
      ∃ typeName field reason, exception = .fieldRefused typeName bridged.name field reason := by
  cases named : program.fieldNamed? bridged.host name with
  | some index =>
    obtain ⟨slot, found, role, same⟩ := run_setAttribute_field sound.wired wrapper named
    rw [same] at ran
    obtain ⟨cause, refused⟩ := raises_writeField sound wrapper alive found role ran
    exact .inr ⟨_, _, _, refused⟩
  | none =>
    rw [run_setAttribute_of_unnamed sound.wired wrapper named] at ran
    cases ran
    exact .inl rfl

end

end Program

end HostBridge
