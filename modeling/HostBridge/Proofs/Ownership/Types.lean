import HostBridge.Bridge.Export
import HostBridge.Proofs.Value.Typing

/-!
# Types that the bridge makes

The bridge makes the type of a struct from a plan: slots for the constructor,
the exported fields and the methods, each at the place that its number says.  A
bridged type always is such a type.  So the accessor or the method that is found
under a name leads to the slot of a field or of a method of that name.
-/

namespace HostBridge

section

variable (program : Program)

/-- What a constructor makes is the struct itself or, by a factory, a box of it. -/
def MakerDecl.Proper (maker : MakerDecl) : Prop :=
  maker.style = .factory → maker.result = maker.subject ∨ maker.result = .boxed maker.subject

/-- A role that a slot of a type may have: it concerns the struct of the type. -/
def SlotRole.Concerns (host : StructId) : SlotRole → Prop
  | .construct code =>
    (program.maker code).subject.unboxed = .struct host ∧ (program.maker code).Proper
  | .get owner index => owner = host ∧ index < (program.struct host).fields.length
  | .set owner index => owner = host ∧ index < (program.struct host).fields.length
  | .method owner index => owner = host ∧ index < (program.struct host).methods.length
  | .function _ _ => False

/-- All slots of a bridged type concern its struct. -/
def BridgedType.Sound (bridged : BridgedType) : Prop :=
  ∀ slot ∈ bridged.slots, slot.role.Concerns program bridged.host

/-- A constructor that the type of a struct may have. -/
def Program.Constructs (id : StructId) (maker : Option Nat) : Prop :=
  ∀ code ∈ maker, (program.maker code).subject.unboxed = .struct id ∧ (program.maker code).Proper

/-- A type that is bridged has been made from the plan of its struct. -/
def TypeBody.Synthesized (shape : TypeBody) : Prop :=
  ∀ bridged, shape.context = some (.bridged bridged) →
    ∃ registry host name doc maker, program.Constructs host maker ∧ ∃ captured,
      shape = (program.typeBody registry host name doc maker (program.plan host maker)).holding
        captured

end

namespace Program

variable {program : Program} {id : StructId} {maker : Option Nat}

/-! ## Slots -/

theorem mem_exportedFields {decl : StructDecl} {field : FieldDecl} {index : Nat}
    (member : (field, index) ∈ exportedFields decl) :
    decl.fields[index]? = some field ∧ field.exported = true := by
  obtain ⟨among, exported⟩ := List.mem_filter.mp member
  exact ⟨List.mem_zipIdx_iff_getElem?.mp among, exported⟩

theorem role_fieldSlots {first : Nat} {fields : List (FieldDecl × Nat)} {slot : Slot}
    (member : slot ∈ (fieldSlots id first fields).1) :
    ∃ field index, (field, index) ∈ fields ∧
      (slot.role = .get id index ∨ slot.role = .set id index) := by
  obtain ⟨⟨field, index, place⟩, among, inside⟩ := List.mem_flatMap.mp member
  obtain ⟨⟨⟨field', index'⟩, number⟩, original, same⟩ := List.mem_map.mp among
  cases same
  refine ⟨field, index, List.fst_mem_of_mem_zipIdx original, ?_⟩
  rcases List.mem_cons.mp inside with rfl | last
  · exact .inl rfl
  · rw [List.mem_singleton.mp last]
    exact .inr rfl

/-- Every slot of a struct concerns it. -/
theorem concerns_of_mem_plan (right : program.Constructs id maker) {slot : Slot}
    (member : slot ∈ (program.plan id maker).slots) : slot.role.Concerns program id := by
  rcases List.mem_append.mp member with front | method
  · rcases List.mem_append.mp front with construct | field
    · obtain ⟨code, given, rfl⟩ := List.mem_map.mp construct
      exact right code (Option.mem_toList.mp given)
    · obtain ⟨decl, index, among, role⟩ := role_fieldSlots field
      have inside : index < (program.struct id).fields.length :=
        (List.getElem?_eq_some_iff.mp (mem_exportedFields among).1).1
      rcases role with role | role <;> rw [role] <;> exact ⟨rfl, inside⟩
  · obtain ⟨⟨decl, index⟩, among, rfl⟩ := List.mem_map.mp method
    have inside : index < (program.struct id).methods.length :=
      (List.getElem?_eq_some_iff.mp (List.mem_zipIdx_iff_getElem?.mp among)).1
    exact ⟨rfl, inside⟩

/-- No slot of a struct has captured anything: that is up to the type. -/
theorem references_plan (right : program.Constructs id maker) :
    (program.plan id maker).slots.flatMap Slot.references = [] := by
  rw [List.flatMap_eq_nil_iff]
  intro slot member
  have concerns := concerns_of_mem_plan right member
  unfold Slot.references
  split
  · rename_i role
    rw [role] at concerns
    cases concerns
  · rfl

/-- A type owns what its constructor has captured. -/
theorem references_typeBody (right : program.Constructs id maker) (registry : RegistryId)
    (name doc : String) (captured : HostValue) :
    (Body.type ((program.typeBody registry id name doc maker (program.plan id maker)).holding
      captured)).references = captured.references := by
  show (program.plan id maker).slots.flatMap Slot.references ++ captured.references = _
  rw [references_plan right, List.nil_append]

/-! ## Slots under their numbers -/

/-- Two slots for each field: the first one is at an even place. -/
theorem getElem?_flatMap_pair {α β : Type} (first second : α → β) (items : List α) (index : Nat) :
    (items.flatMap fun item => [first item, second item])[2 * index]? = items[index]?.map first ∧
      (items.flatMap fun item => [first item, second item])[2 * index + 1]? =
        items[index]?.map second := by
  induction items generalizing index with
  | nil => simp
  | cons item items ih =>
    cases index with
    | zero => simp
    | succ index =>
      have two : 2 * (index + 1) = 2 * index + 1 + 1 := by omega
      simpa [two] using ih index

theorem length_flatMap_pair {α β : Type} (first second : α → β) (items : List α) :
    (items.flatMap fun item => [first item, second item]).length = 2 * items.length := by
  induction items with
  | nil => rfl
  | cons item items ih => simp [ih, Nat.mul_add]

theorem length_fieldSlots (id : StructId) (first : Nat) (fields : List (FieldDecl × Nat)) :
    (fieldSlots id first fields).1.length = 2 * fields.length := by
  refine (length_flatMap_pair
    (fun (item : FieldDecl × Nat × Nat) => plainSlot item.2.2 item.1.name "" (.get id item.2.1))
    (fun (item : FieldDecl × Nat × Nat) =>
      plainSlot (item.2.2 + 1) item.1.name "" (.set id item.2.1)) _).trans ?_
  rw [List.length_map, List.length_zipIdx]

/-- What an accessor of a struct leads to. -/
structure Accesses (program : Program) (id : StructId) (slots : List Slot)
    (accessor : AccessorDef) (index : Nat) (field : FieldDecl) : Prop where
  declared : (program.struct id).fields[index]? = some field
  exported : field.exported = true
  name : accessor.name = Name.snake field.name
  getter : accessor.getter = .bridge
  setter : accessor.setter = some .bridge
  get : slots[accessor.getClosure]? =
    some (plainSlot accessor.getClosure field.name "" (.get id index))
  set : slots[accessor.setClosure]? =
    some (plainSlot accessor.setClosure field.name "" (.set id index))

/-- The accessor of an exported field, the first slot of a field having a given
number. -/
def fieldAccessor (first : Nat) : (FieldDecl × Nat) × Nat → AccessorDef
  | ((field, _), place) =>
    { name := Name.snake field.name, getter := .bridge, setter := some .bridge, doc := ""
      getClosure := first + 2 * place, setClosure := first + 2 * place + 1 }

/-- The accessors of a struct are those of its exported fields. -/
theorem accesses_fieldAccessor (program : Program) (id : StructId) (maker : Option Nat) :
    ∃ first, (program.plan id maker).accessors =
        (exportedFields (program.struct id)).zipIdx.map (fieldAccessor first) ∧
      ∀ field index place, ((field, index), place) ∈ (exportedFields (program.struct id)).zipIdx →
        Accesses program id (program.plan id maker).slots
          (fieldAccessor first ((field, index), place)) index field := by
  generalize construct : (maker.toList.map fun code =>
    plainSlot 0 "__init__" "" (.construct code)) = front
  have slots : ∃ back, (program.plan id maker).slots = front ++
      (fieldSlots id front.length (exportedFields (program.struct id))).1 ++ back :=
    ⟨_, by rw [← construct]; rfl⟩
  obtain ⟨back, slots⟩ := slots
  refine ⟨front.length, ?_, fun field index place original => ?_⟩
  · rw [← construct]
    show List.map _ (List.map _ _) = _
    rw [List.map_map]
    rfl
  · have there := List.mem_zipIdx_iff_getElem?.mp original
    obtain ⟨declared, exported⟩ := mem_exportedFields (List.mem_of_getElem? there)
    have inside : place < (exportedFields (program.struct id)).length :=
      (List.getElem?_eq_some_iff.mp there).1
    have numbered : ((exportedFields (program.struct id)).zipIdx.map fun ((field, index), place) =>
        (field, index, front.length + 2 * place))[place]? =
          some (field, index, front.length + 2 * place) := by
      simp only [List.getElem?_map, List.getElem?_zipIdx, Option.map_map]
      rw [there]
      simp
    have found : ∀ offset, offset < 2 →
        (program.plan id maker).slots[front.length + 2 * place + offset]? =
          (fieldSlots id front.length (exportedFields (program.struct id))).1[2 * place + offset]? := by
      intro offset small
      have within := length_fieldSlots id front.length (exportedFields (program.struct id))
      rw [slots, List.append_assoc, Nat.add_assoc, List.getElem?_append_right (by omega),
        Nat.add_sub_cancel_left, List.getElem?_append_left (by omega)]
    have pair := getElem?_flatMap_pair
      (fun (item : FieldDecl × Nat × Nat) => plainSlot item.2.2 item.1.name "" (.get id item.2.1))
      (fun (item : FieldDecl × Nat × Nat) =>
        plainSlot (item.2.2 + 1) item.1.name "" (.set id item.2.1))
      ((exportedFields (program.struct id)).zipIdx.map fun ((field, index), place) =>
        (field, index, front.length + 2 * place)) place
    rw [numbered] at pair
    exact ⟨declared, exported, rfl, rfl, rfl, (found 0 (by omega)).trans pair.1,
      (found 1 (by omega)).trans pair.2⟩

/-- The exported field that runtime code finds under a name: the first of that
name. -/
def fieldNamed? (program : Program) (id : StructId) (name : String) : Option Nat :=
  ((exportedFields (program.struct id)).find? fun (field, _) => Name.snake field.name = name).map
    (·.2)

/-- The accessor that is found under a name is the one of the field of that name. -/
theorem find?_accessors (program : Program) (id : StructId) (maker : Option Nat) (name : String) :
    (∃ accessor index field, (program.plan id maker).accessors.find? (·.name = name) =
        some accessor ∧ program.fieldNamed? id name = some index ∧
        Accesses program id (program.plan id maker).slots accessor index field) ∨
      (program.plan id maker).accessors.find? (·.name = name) = none ∧
        program.fieldNamed? id name = none := by
  obtain ⟨first, accessors, accesses⟩ := accesses_fieldAccessor program id maker
  have numbered : (exportedFields (program.struct id)).find?
      (fun (field, _) => Name.snake field.name = name) =
        ((exportedFields (program.struct id)).zipIdx.find?
          fun ((field, _), _) => Name.snake field.name = name).map (·.1) := by
    conv => lhs; rw [← List.zipIdx_map_fst 0 (exportedFields (program.struct id)), List.find?_map]
    rfl
  have mapped : (program.plan id maker).accessors.find? (·.name = name) =
      ((exportedFields (program.struct id)).zipIdx.find?
        fun ((field, _), _) => Name.snake field.name = name).map (fieldAccessor first) := by
    rw [accessors, List.find?_map]
    rfl
  rw [mapped, fieldNamed?, numbered]
  cases found : (exportedFields (program.struct id)).zipIdx.find?
      fun ((field, _), _) => Name.snake field.name = name with
  | none => exact .inr ⟨rfl, rfl⟩
  | some entry =>
    obtain ⟨⟨field, index⟩, place⟩ := entry
    have member := List.mem_of_find?_eq_some found
    exact .inl ⟨_, index, field, rfl, rfl, accesses field index place member⟩

/-- The method that runtime code finds under a name: the first of that name. -/
def methodNamed? (program : Program) (id : StructId) (name : String) : Option Nat :=
  ((program.struct id).methods.zipIdx.find? fun (method, _) => Name.snake method.name = name).map
    (·.2)

/-- The slot that is found under a name among the methods of a struct. -/
theorem find?_methods (program : Program) (id : StructId) (maker : Option Nat) (name : String) :
    (∃ slot index, (program.plan id maker).methods.find? (·.exposed = name) = some slot ∧
        program.methodNamed? id name = some index ∧ slot.role = .method id index ∧
        (program.plan id maker).slots[slot.id]? = some slot) ∨
      (program.plan id maker).methods.find? (·.exposed = name) = none ∧
        program.methodNamed? id name = none := by
  obtain ⟨front, methods, slots⟩ : ∃ front : List Slot,
      (program.plan id maker).methods = (program.struct id).methods.zipIdx.map
        (fun (method, index) => plainSlot (front.length + index) method.name method.doc
          (.method id index)) ∧
      (program.plan id maker).slots = front ++ (program.plan id maker).methods := by
    refine ⟨(maker.toList.map fun code => plainSlot 0 "__init__" "" (.construct code)) ++
      (fieldSlots id (maker.toList.map fun code =>
        plainSlot 0 "__init__" "" (.construct code)).length
          (exportedFields (program.struct id))).1, ?_, rfl⟩
    rw [List.length_append]
    rfl
  have mapped : (program.plan id maker).methods.find? (·.exposed = name) =
      ((program.struct id).methods.zipIdx.find? fun (method, _) => Name.snake method.name = name).map
        (fun (method, index) => plainSlot (front.length + index) method.name method.doc
          (.method id index)) := by
    rw [methods, List.find?_map]
    rfl
  rw [mapped, methodNamed?]
  cases found : (program.struct id).methods.zipIdx.find?
      fun (method, _) => Name.snake method.name = name with
  | none => exact .inr ⟨rfl, rfl⟩
  | some entry =>
    obtain ⟨method, index⟩ := entry
    have there : (program.struct id).methods[index]? = some method :=
      List.mem_zipIdx_iff_getElem?.mp (List.mem_of_find?_eq_some found)
    refine .inl ⟨_, index, rfl, rfl, rfl, ?_⟩
    rw [slots, methods]
    show (front ++ _)[front.length + index]? = _
    rw [List.getElem?_append_right (Nat.le_add_right _ _), Nat.add_sub_cancel_left]
    simp [there]

end Program

/-! ## Bridged types -/

namespace TypeBody.Synthesized

open Program

variable {program : Program} {shape : TypeBody} {bridged : BridgedType}

theorem sound (synthesized : shape.Synthesized program)
    (context : shape.context = some (.bridged bridged)) : bridged.Sound program := by
  obtain ⟨_, _, _, _, _, right, _, rfl⟩ := synthesized bridged context
  cases context
  exact fun slot member => concerns_of_mem_plan right member

/-- The accessor that is found under a name is the one of the field of that name. -/
theorem accesses (synthesized : shape.Synthesized program)
    (context : shape.context = some (.bridged bridged)) (name : String) :
    (∃ accessor index field, shape.accessor? name = some accessor ∧
        program.fieldNamed? bridged.host name = some index ∧
        Accesses program bridged.host bridged.slots accessor index field) ∨
      shape.accessor? name = none ∧ program.fieldNamed? bridged.host name = none := by
  obtain ⟨_, host, _, _, maker, _, _, rfl⟩ := synthesized bridged context
  cases context
  exact find?_accessors program host maker name

/-- The definition that is found under a name runs the slot of the method of that
name. -/
theorem methods (synthesized : shape.Synthesized program)
    (context : shape.context = some (.bridged bridged)) (name : String) :
    (∃ slot index, shape.method? name = some (program.definition (.slot slot.id) slot) ∧
        program.methodNamed? bridged.host name = some index ∧
        slot.role = .method bridged.host index ∧ bridged.slots[slot.id]? = some slot) ∨
      shape.method? name = none ∧ program.methodNamed? bridged.host name = none := by
  obtain ⟨_, host, _, _, maker, _, _, rfl⟩ := synthesized bridged context
  cases context
  have mapped : ((program.plan host maker).methods.map fun slot =>
      program.definition (.slot slot.id) slot).find? (·.name = name) =
        ((program.plan host maker).methods.find? (·.exposed = name)).map fun slot =>
          program.definition (.slot slot.id) slot := by
    rw [List.find?_map]
    rfl
  rcases find?_methods program host maker name with ⟨slot, index, found, named, role, place⟩ |
    ⟨none, unnamed⟩
  · refine .inl ⟨slot, index, ?_, named, role, place⟩
    refine mapped.trans ?_
    rw [found]
    rfl
  · refine .inr ⟨mapped.trans ?_, unnamed⟩
    rw [none]
    rfl

/-- A bridged type is made and let go by the bridge. -/
theorem handlers (synthesized : shape.Synthesized program)
    (context : shape.context = some (.bridged bridged)) :
    shape.allocator = some .bridge ∧ shape.maker = bridged.maker.map fun _ => .bridge := by
  obtain ⟨_, _, _, _, maker, _, _, rfl⟩ := synthesized bridged context
  cases context
  exact ⟨rfl, by cases maker <;> rfl⟩

theorem finalizer (synthesized : shape.Synthesized program)
    (context : shape.context = some (.bridged bridged)) : shape.finalizer = some .bridge := by
  obtain ⟨_, _, _, _, _, _, _, rfl⟩ := synthesized bridged context
  rfl

/-- The constructor of a bridged type, if it has one, is the first slot. -/
theorem construct (synthesized : shape.Synthesized program)
    (context : shape.context = some (.bridged bridged)) {id : Nat}
    (made : bridged.maker = some id) :
    ∃ code slot, bridged.slots[id]? = some slot ∧ slot.role = .construct code := by
  obtain ⟨_, _, _, _, maker, _, _, rfl⟩ := synthesized bridged context
  cases context
  cases maker with
  | none => cases made
  | some code =>
    cases made
    exact ⟨code, plainSlot 0 "__init__" "" (.construct code), rfl, rfl⟩

end TypeBody.Synthesized

end HostBridge
