import HostBridge.Proofs.Ownership.Wrapper
import HostBridge.Proofs.Sharing.Values
import HostBridge.Proofs.Value.Likeness

/-!
# Objects that stand for host values

`Denotes` says which objects of a heap stand for a host value of a type: a scalar
object for a number, a list for a sequence, a wrapper that owns the value or a dict
of its fields for a struct.  What an object is made of is older than the object, so
a walk from a struct into its fields ends.

Not every type has values that can be told from their objects.  An optional
whose payload may itself be the object that stands for nothing is one that has
not; neither has a map with keys that cannot be hashed, or that are equal as
objects where they are not as values; nor a struct that hides fields from runtime
code, unless it is registered.
-/

namespace HostBridge

/-! ## Types whose values come back -/

namespace HostType

/-- No value of the type is shown as the object that stands for nothing. -/
def Solid : HostType → Prop
  | .unit | .optional _ => False
  | .boxed element => element.Solid
  | _ => True

section

variable (registered plain : StructId → Prop)

mutual

/-- A type whose values are told apart when they are keys of a dict. -/
def Keyed : HostType → Prop
  | .unit | .bool | .int _ | .text | .bytes => True
  | .struct id => registered id
  | .boxed element => element.Keyed
  | .optional element => element.Keyed
  | .tuple elements => KeyedAll elements
  | _ => False

/-- Types whose values are told apart when they are keys of a dict. -/
def KeyedAll : List HostType → Prop
  | [] => True
  | type :: types => type.Keyed ∧ KeyedAll types

end

mutual

/-- A type whose values come back from their objects, given which structs are
registered and which others show all that they hold. -/
def Returns : HostType → Prop
  | .unit | .bool | .int _ | .float _ | .complex _ | .text | .bytes => True
  | .seq element => element.Returns
  | .map _ key value => key.Keyed registered ∧ key.Returns ∧ value.Returns
  | .struct id => registered id ∨ plain id
  | .boxed element => element.Returns
  | .optional element => element.Solid ∧ element.Returns
  | .tuple elements => ReturnsAll elements
  | .object | .keywords | .sealed _ => False

/-- Types whose values come back from their objects. -/
def ReturnsAll : List HostType → Prop
  | [] => True
  | type :: types => type.Returns ∧ ReturnsAll types

end

end

end HostType

/-- A struct that shows all that it holds: its fields are exported under names that
differ, and their values come back. -/
structure StructDecl.Open (decl : StructDecl) (registered plain : StructId → Prop) : Prop where
  exported : ∀ field ∈ decl.fields, field.exported = true
  names : (decl.fields.map fun field => Name.snake field.name).Nodup
  returns : ∀ field ∈ decl.fields, field.type.Returns registered plain

/-- A type whose values come back from their objects, given which structs are
registered: the others that it leads to show all that they hold. -/
def HostType.Convertible (type : HostType) (program : Program) (registered : StructId → Prop) :
    Prop :=
  ∃ plain : StructId → Prop, (∀ id, plain id → (program.struct id).Open registered plain) ∧
    type.Returns registered plain

/-! ## Objects that stand for values -/

section

variable (program : Program) (heap : Heap) (registry : RegistryId) (registered : StructId → Prop)

mutual

/-- An object stands for a value of a type. -/
inductive Denotes : HostType → HostValue → Ref → Prop
  | unit : Denotes .unit .unit .none
  | bool (value : Bool) : Denotes .bool (.bool value) (.ofBool value)
  | int {kind : IntKind} {value : Int} {ref : Ref} (inside : kind.holds value = true)
      (reading : heap.body ref = .int value) : Denotes (.int kind) (.int value) ref
  | single {value : Binary32} {ref : Ref} (reading : heap.body ref = .float value.toBinary64) :
    Denotes (.float .single) (.single value) ref
  | double {value : Binary64} {ref : Ref} (reading : heap.body ref = .float value) :
    Denotes (.float .double) (.double value) ref
  | complexSingle {real imaginary : Binary32} {ref : Ref}
      (reading : heap.body ref = .complex real.toBinary64 imaginary.toBinary64) :
    Denotes (.complex .single) (.complexSingle real imaginary) ref
  | complexDouble {real imaginary : Binary64} {ref : Ref}
      (reading : heap.body ref = .complex real imaginary) :
    Denotes (.complex .double) (.complexDouble real imaginary) ref
  | text {value : String} {ref : Ref} (reading : heap.body ref = .text value) :
    Denotes .text (.text value) ref
  | bytes {value : List UInt8} {ref : Ref} (reading : heap.body ref = .bytes value) :
    Denotes .bytes (.bytes value) ref
  | seq {element : HostType} {values : List HostValue} {items : List Ref} {ref : Ref}
      (reading : heap.body ref = .list items) (each : DenotesEach ref.place element values items) :
    Denotes (.seq element) (.seq values) ref
  | map {order : MapOrder} {key value : HostType} {entries : List (HostValue × HostValue)}
      {table : Dict} {ref : Ref} (keyed : key.Keyed registered)
      (ascending : HostValue.Ascending (entries.map (·.1)))
      (reading : heap.body ref = .dict table)
      (each : DenotesEntries ref.place key value entries table.entries) :
    Denotes (.map order key value) (.map entries) ref
  | wrapper {id : StructId} {value : HostValue} {ref : Ref} {bridged : BridgedType}
      (reading : heap.wrapper? ref = some (.owned value, bridged))
      (same : bridged.registry = registry) (host : bridged.host = id) :
    Denotes (.struct id) value ref
  | fields {id : StructId} {values : List HostValue} {table : Dict} {ref : Ref}
      (unregistered : ¬registered id) (reading : heap.body ref = .dict table)
      (each : DenotesFields ref.place table (program.struct id).fields values) :
    Denotes (.struct id) (.struct values) ref
  | boxed {element : HostType} {value : HostValue} {ref : Ref}
      (inner : Denotes element value ref) : Denotes (.boxed element) (.boxed value) ref
  | absent {element : HostType} : Denotes (.optional element) .absent .none
  | present {element : HostType} {value : HostValue} {ref : Ref} (solid : element.Solid)
      (inner : Denotes element value ref) : Denotes (.optional element) (.present value) ref
  | tuple {types : List HostType} {values : List HostValue} {items : List Ref} {ref : Ref}
      (reading : heap.body ref = .tuple items) (each : DenotesAll ref.place types values items) :
    Denotes (.tuple types) (.tuple values) ref

/-- Objects stand for values of one type, one by one, and lie below a place. -/
inductive DenotesEach : Nat → HostType → List HostValue → List Ref → Prop
  | nil {bound : Nat} {element : HostType} : DenotesEach bound element [] []
  | cons {bound : Nat} {element : HostType} {value : HostValue} {values : List HostValue}
      {ref : Ref} {refs : List Ref} (below : ref.place < bound) (first : Denotes element value ref)
      (rest : DenotesEach bound element values refs) :
    DenotesEach bound element (value :: values) (ref :: refs)

/-- Objects stand for values of several types, one by one, and lie below a place. -/
inductive DenotesAll : Nat → List HostType → List HostValue → List Ref → Prop
  | nil {bound : Nat} : DenotesAll bound [] [] []
  | cons {bound : Nat} {type : HostType} {types : List HostType} {value : HostValue}
      {values : List HostValue} {ref : Ref} {refs : List Ref} (below : ref.place < bound)
      (first : Denotes type value ref) (rest : DenotesAll bound types values refs) :
    DenotesAll bound (type :: types) (value :: values) (ref :: refs)

/-- Entries of a dict stand for the entries of a map, and lie below a place. -/
inductive DenotesEntries :
    Nat → HostType → HostType → List (HostValue × HostValue) → List DictEntry → Prop
  | nil {bound : Nat} {keyType valueType : HostType} : DenotesEntries bound keyType valueType [] []
  | cons {bound : Nat} {keyType valueType : HostType} {key value : HostValue}
      {values : List (HostValue × HostValue)} {entry : DictEntry} {entries : List DictEntry}
      (keyBelow : entry.key.place < bound) (valueBelow : entry.value.place < bound)
      (first : Denotes keyType key entry.key) (second : Denotes valueType value entry.value)
      (rest : DenotesEntries bound keyType valueType values entries) :
    DenotesEntries bound keyType valueType ((key, value) :: values) (entry :: entries)

/-- The values of fields are found in a dict under their names, and lie below a place. -/
inductive DenotesFields : Nat → Dict → List FieldDecl → List HostValue → Prop
  | nil {bound : Nat} {table : Dict} : DenotesFields bound table [] []
  | cons {bound : Nat} {table : Dict} {field : FieldDecl} {fields : List FieldDecl}
      {value : HostValue} {values : List HostValue} {ref : Ref} (exported : field.exported = true)
      (found : table.get? (.text (Name.snake field.name)) = some ref) (below : ref.place < bound)
      (first : Denotes field.type value ref) (rest : DenotesFields bound table fields values) :
    DenotesFields bound table (field :: fields) (value :: values)

end

end

/-! ## What an object stands for lasts -/

/-- Contents that are those of an object, and that nobody changes by accident. -/
def Body.Lasting : Body → Prop
  | .none | .module _ => False
  | _ => True

/-- Objects that another heap has with the same contents, and with what they own. -/
structure Heap.Retains (heap later : Heap) (among : Ref → Prop) : Prop where
  same : ∀ ref, among ref → later.body ref = heap.body ref
  inner : ∀ ref, among ref → ∀ inner ∈ (heap.body ref).references, (heap.body inner).Lasting →
    among inner

section

variable {program : Program} {heap later : Heap} {registry : RegistryId}
  {registered : StructId → Prop} {among : Ref → Prop}

namespace Heap.Retains

/-- An object with lasting contents is read as before. -/
theorem read (retains : heap.Retains later among) {ref : Ref} {body : Body}
    (reading : heap.body ref = body) (member : (heap.body ref).Lasting → among ref)
    (lasting : body.Lasting) : later.body ref = body := by
  rw [← reading] at lasting ⊢
  exact retains.same ref (member lasting)

/-- What an object with lasting contents owns. -/
theorem owned (retains : heap.Retains later among) {ref : Ref} {body : Body}
    (reading : heap.body ref = body) (member : (heap.body ref).Lasting → among ref)
    (lasting : body.Lasting) : ∀ inner ∈ body.references,
    (heap.body inner).Lasting → among inner := by
  rw [← reading] at lasting ⊢
  exact retains.inner ref (member lasting)

theorem wrapper? (retains : heap.Retains later among) {ref : Ref} {content : Held}
    {bridged : BridgedType} (member : among ref)
    (reading : heap.wrapper? ref = some (content, bridged)) :
    later.wrapper? ref = some (content, bridged) := by
  obtain ⟨cell, type, owner, present, body, shape⟩ := Heap.wrapper?_eq_some.mp reading
  obtain ⟨typeCell, contents, typePresent, typeBody, context⟩ := Heap.bridgedType?_eq_some.mp shape
  have typed : among type := by
    refine retains.inner ref member type ?_ ?_
    · rw [Heap.body_eq present, body]
      simp [Body.references]
    · rw [Heap.body_eq typePresent, typeBody]
      trivial
  have same := retains.same ref member
  have sameType := retains.same type typed
  rw [Heap.body_eq present, body] at same
  rw [Heap.body_eq typePresent, typeBody] at sameType
  obtain ⟨found, there, contents'⟩ := Heap.exists_cell_of_body same (by simp)
  obtain ⟨typeFound, typeThere, typeContents⟩ := Heap.exists_cell_of_body sameType (by simp)
  exact Heap.wrapper?_eq_some.mpr ⟨found, type, owner, there, contents',
    Heap.bridgedType?_eq_some.mpr ⟨typeFound, contents, typeThere, typeContents, context⟩⟩

end Heap.Retains

mutual

/-- An object goes on standing for its value in a heap that has it, and what it owns, as before. -/
theorem Denotes.transfer (retains : heap.Retains later among) {type : HostType} {value : HostValue}
    {ref : Ref} : Denotes program heap registry registered type value ref →
      ((heap.body ref).Lasting → among ref) →
        Denotes program later registry registered type value ref
  | .unit, _ => .unit
  | .bool value, _ => .bool value
  | .absent, _ => .absent
  | .int inside reading, member =>
    .int inside (retains.read reading member trivial)
  | .single reading, member => .single (retains.read reading member trivial)
  | .double reading, member => .double (retains.read reading member trivial)
  | .complexSingle reading, member => .complexSingle (retains.read reading member trivial)
  | .complexDouble reading, member => .complexDouble (retains.read reading member trivial)
  | .text reading, member => .text (retains.read reading member trivial)
  | .bytes reading, member => .bytes (retains.read reading member trivial)
  | .boxed inner, member => .boxed (inner.transfer retains member)
  | .present solid inner, member => .present solid (inner.transfer retains member)
  | .wrapper reading same host, member => by
    obtain ⟨cell, _, _, present, body, _⟩ := Heap.wrapper?_eq_some.mp reading
    have lasting : (heap.body ref).Lasting := by
      rw [Heap.body_eq present, body]
      trivial
    exact .wrapper (retains.wrapper? (member lasting) reading) same host
  | .seq reading each, member =>
    .seq (retains.read reading member trivial)
      (each.transfer retains (retains.owned reading member trivial))
  | .tuple reading each, member =>
    .tuple (retains.read reading member trivial)
      (each.transfer retains (retains.owned reading member trivial))
  | .map keyed ascending reading each, member => by
    have owned := retains.owned reading member trivial
    refine .map keyed ascending (retains.read reading member trivial) (each.transfer retains ?_)
    intro entry inside
    exact ⟨owned entry.key (Dict.mem_references.mpr ⟨entry, inside, .inl rfl⟩),
      owned entry.value (Dict.mem_references.mpr ⟨entry, inside, .inr rfl⟩)⟩
  | .fields unregistered reading each, member =>
    .fields unregistered (retains.read reading member trivial) (each.transfer retains
      fun _ _ found => retains.owned reading member trivial _ (Dict.mem_references_of_get? found))

theorem DenotesEach.transfer (retains : heap.Retains later among) {bound : Nat} {element : HostType}
    {values : List HostValue} {items : List Ref} :
    DenotesEach program heap registry registered bound element values items →
      (∀ item ∈ items, (heap.body item).Lasting → among item) →
        DenotesEach program later registry registered bound element values items
  | .nil, _ => .nil
  | .cons below first rest, members =>
    .cons below (first.transfer retains (members _ (by simp)))
      (rest.transfer retains fun item inside => members item (by simp [inside]))

theorem DenotesAll.transfer (retains : heap.Retains later among) {bound : Nat}
    {types : List HostType} {values : List HostValue} {items : List Ref} :
    DenotesAll program heap registry registered bound types values items →
      (∀ item ∈ items, (heap.body item).Lasting → among item) →
        DenotesAll program later registry registered bound types values items
  | .nil, _ => .nil
  | .cons below first rest, members =>
    .cons below (first.transfer retains (members _ (by simp)))
      (rest.transfer retains fun item inside => members item (by simp [inside]))

theorem DenotesEntries.transfer (retains : heap.Retains later among) {bound : Nat}
    {keyType valueType : HostType} {values : List (HostValue × HostValue)}
    {entries : List DictEntry} :
    DenotesEntries program heap registry registered bound keyType valueType values entries →
      (∀ entry ∈ entries, ((heap.body entry.key).Lasting → among entry.key) ∧
        ((heap.body entry.value).Lasting → among entry.value)) →
        DenotesEntries program later registry registered bound keyType valueType values entries
  | .nil, _ => .nil
  | .cons keyBelow valueBelow first second rest, members =>
    .cons keyBelow valueBelow (first.transfer retains (members _ (by simp)).1)
      (second.transfer retains (members _ (by simp)).2)
      (rest.transfer retains fun entry inside => members entry (by simp [inside]))

theorem DenotesFields.transfer (retains : heap.Retains later among) {bound : Nat} {table : Dict}
    {fields : List FieldDecl} {values : List HostValue} :
    DenotesFields program heap registry registered bound table fields values →
      (∀ name ref, table.get? name = some ref → (heap.body ref).Lasting → among ref) →
        DenotesFields program later registry registered bound table fields values
  | .nil, _ => .nil
  | .cons exported found below first rest, members =>
    .cons exported found below (first.transfer retains (members _ _ found))
      (rest.transfer retains members)

end

theorem Body.Lasting.something {body : Body} (lasting : body.Lasting) : body ≠ .none := by
  rintro rfl
  exact lasting

/-- A world that has all objects of another one retains them. -/
theorem World.Extends.retains {before after : World} (more : before.Extends after) :
    before.heap.Retains after.heap fun ref => before.heap.body ref ≠ .none :=
  ⟨fun _ something => more.body rfl something, fun _ _ _ _ lasting => lasting.something⟩

theorem Denotes.extends {before after : World} (more : before.Extends after) {type : HostType}
    {value : HostValue} {ref : Ref}
    (denotes : Denotes program before.heap registry registered type value ref) :
    Denotes program after.heap registry registered type value ref :=
  denotes.transfer more.retains fun lasting => lasting.something

/-- Objects that others hold, with what these objects own. -/
inductive World.Anchored (world : World) (frame : Multiset Ref) : Ref → Prop
  | held {ref : Ref} (framed : ref ∈ frame) (lasting : (world.heap.body ref).Lasting) :
    World.Anchored world frame ref
  | owned {outer inner : Ref} (anchored : World.Anchored world frame outer)
      (owned : inner ∈ (world.heap.body outer).references)
      (lasting : (world.heap.body inner).Lasting) : World.Anchored world frame inner

theorem World.Anchored.lasting {world : World} {frame : Multiset Ref} {ref : Ref}
    (anchored : world.Anchored frame ref) : (world.heap.body ref).Lasting := by
  cases anchored with
  | held _ lasting => exact lasting
  | owned _ _ lasting => exact lasting

theorem Heap.exists_cell_of_lasting {ref : Ref} (lasting : (heap.body ref).Lasting) :
    ∃ cell, heap.cell? ref = some cell ∧ cell.body = heap.body ref :=
  Heap.exists_cell_of_body rfl lasting.something

variable {touch : Permission} {before after : World} {held left frame : Multiset Ref}

/-- Steps that change no lasting contents leave what is anchored as it is. -/
theorem Path.retains (path : Path program touch before held after left)
    (sound : before.Sound program (held + frame)) (mild : ∀ body, touch body → ¬body.Lasting) :
    before.heap.Retains after.heap (before.Anchored frame) := by
  have stable : before.Stable touch frame (before.Anchored frame) := by
    intro ref anchored
    obtain ⟨cell, present, body⟩ := Heap.exists_cell_of_lasting anchored.lasting
    refine ⟨cell, present, fun touched => mild _ touched ?_, ?_⟩
    · rw [body]
      exact anchored.lasting
    · cases anchored with
      | held framed _ => exact .inl framed
      | @owned outer _ above owned _ =>
        obtain ⟨outerCell, outerPresent, outerBody⟩ := Heap.exists_cell_of_lasting above.lasting
        exact .inr (.inr ⟨outer, outerCell, above, outerPresent, by rwa [outerBody]⟩)
  refine ⟨fun ref anchored => ?_, fun _ anchored inner owned lasting => anchored.owned owned lasting⟩
  obtain ⟨cell, present, body⟩ := Heap.exists_cell_of_lasting anchored.lasting
  obtain ⟨later, found, same⟩ := path.keeps sound stable ref anchored cell present
  rw [Heap.body_eq found, same, body]

/-- An object that is held on to goes on standing for its value. -/
theorem Denotes.kept (path : Path program touch before held after left)
    (sound : before.Sound program (held + frame)) (mild : ∀ body, touch body → ¬body.Lasting)
    {type : HostType} {value : HostValue} {ref : Ref} (framed : ref ∈ frame)
    (denotes : Denotes program before.heap registry registered type value ref) :
    Denotes program after.heap registry registered type value ref :=
  denotes.transfer (path.retains sound mild) (.held framed)

/-- Objects that are held on to go on standing for their values. -/
theorem DenotesAll.kept (path : Path program touch before held after left)
    (sound : before.Sound program (held + frame)) (mild : ∀ body, touch body → ¬body.Lasting)
    {bound : Nat} {types : List HostType} {values : List HostValue} {refs : List Ref}
    (framed : ∀ ref ∈ refs, ref ∈ frame)
    (each : DenotesAll program before.heap registry registered bound types values refs) :
    DenotesAll program after.heap registry registered bound types values refs :=
  each.transfer (path.retains sound mild) fun ref member => .held (framed ref member)

/-! ## What can be told from an object -/

/-- The objects that exist from the start are there. -/
structure Heap.Rooted (heap : Heap) : Prop where
  none : heap.body .none = .none
  bool : ∀ value, heap.body (.ofBool value) = .bool value

theorem World.Grounded.rooted {world : World} (grounded : world.Grounded) : world.heap.Rooted where
  none := by
    obtain ⟨cell, present, body⟩ := grounded .none ⟨1, .none⟩ rfl
    rw [Heap.body_eq present, body]
  bool value := by
    obtain ⟨cell, present, body⟩ := grounded (.ofBool value) ⟨1, .bool value⟩ (by cases value <;> rfl)
    rw [Heap.body_eq present, body]

/-- A value of a solid type is not shown as nothing. -/
theorem Denotes.something (rooted : heap.Rooted) : ∀ {type : HostType} {value : HostValue}
    {ref : Ref}, Denotes program heap registry registered type value ref → type.Solid →
      heap.body ref ≠ .none
  | _, _, _, .bool value, _ => by simp [rooted.bool value]
  | _, _, _, .int _ reading, _ | _, _, _, .single reading, _ | _, _, _, .double reading, _
  | _, _, _, .complexSingle reading, _ | _, _, _, .complexDouble reading, _
  | _, _, _, .text reading, _ | _, _, _, .bytes reading, _ | _, _, _, .seq reading _, _
  | _, _, _, .tuple reading _, _ | _, _, _, .map _ _ reading _, _
  | _, _, _, .fields _ reading _, _ => by simp [reading]
  | _, _, _, .wrapper reading _ _, _ => by
    obtain ⟨cell, _, _, present, body, _⟩ := Heap.wrapper?_eq_some.mp reading
    simp [Heap.body_eq present, body]
  | _, _, _, .boxed inner, solid => something rooted inner solid

/-- An object that stands for a value is there. -/
theorem Denotes.exists_cell {world : World} (grounded : world.Grounded) : ∀ {type : HostType}
    {value : HostValue} {ref : Ref},
    Denotes program world.heap registry registered type value ref →
      ∃ cell, world.heap.cell? ref = some cell
  | _, _, _, .boxed inner => exists_cell grounded inner
  | _, _, _, .present _ inner => exists_cell grounded inner
  | _, _, _, .unit | _, _, _, .absent => by
    obtain ⟨cell, present, _⟩ := grounded .none ⟨1, .none⟩ rfl
    exact ⟨cell, present⟩
  | .bool, _, _, denotes | .int _, _, _, denotes | .float _, _, _, denotes
  | .complex _, _, _, denotes | .text, _, _, denotes | .bytes, _, _, denotes
  | .seq _, _, _, denotes | .tuple _, _, _, denotes | .map _ _ _, _, _, denotes
  | .struct _, _, _, denotes => by
    obtain ⟨cell, present, _⟩ :=
      Heap.exists_cell_of_body rfl (denotes.something grounded.rooted trivial)
    exact ⟨cell, present⟩

theorem Denotes.used {world : World} (grounded : world.Grounded) {type : HostType}
    {value : HostValue} {ref : Ref}
    (denotes : Denotes program world.heap registry registered type value ref) :
    ref.place < world.heap.size := by
  obtain ⟨cell, present⟩ := denotes.exists_cell grounded
  exact Heap.place_lt_size present

end

end HostBridge
