import HostBridge.Proofs.Ownership.Container

/-!
# Contracts of wrappers

Where the value behind a wrapper lies: following an alias from wrapper to
wrapper one comes to one that owns a value, and the path of the alias names a
place of that value with the alias's struct.  So what is written there keeps the
type of the whole value.

The operations on owned values follow: values are adopted, exchanged and
discarded, and wrappers are made.
-/

namespace HostBridge

/-! ## Values and their references -/

namespace HostValue

theorem referencesAll_set {values : List HostValue} {index : Nat} {old : HostValue}
    (new : HostValue) (present : values[index]? = some old) :
    (referencesAll (values.set index new) : Multiset Ref) + old.references =
      (referencesAll values : Multiset Ref) + new.references := by
  induction values generalizing index with
  | nil => simp at present
  | cons head rest ih =>
    cases index with
    | zero =>
      simp only [List.getElem?_cons_zero, Option.some.injEq] at present
      subst present
      simp only [List.set_cons_zero, referencesAll, ← Multiset.coe_add]
      abel
    | succ index =>
      have later := ih (by simpa using present)
      simp only [List.set_cons_succ, referencesAll, ← Multiset.coe_add]
      rw [add_assoc, later, add_assoc]

/-- Writing at a place trades the references of the two values. -/
theorem references_put {value old : HostValue} {path : List Nat} (new : HostValue)
    (present : value.at? path = some old) :
    ((value.put path new).references : Multiset Ref) + old.references =
      (value.references : Multiset Ref) + new.references := by
  induction path generalizing value with
  | nil =>
    rw [at?_nil, Option.some.injEq] at present
    subst present
    rw [put_nil]
    abel
  | cons index path ih =>
    simp only [at?] at present
    cases reading : value.field? index with
    | none => simp [reading] at present
    | some field =>
      simp only [reading] at present
      simp only [put, reading]
      have inner := ih present
      cases value with
      | struct fields =>
        have outer := referencesAll_set (field.put path new) reading
        simp only [setField]
        refine add_right_cancel (b := (field.references : Multiset Ref)) ?_
        calc (referencesAll (fields.set index (field.put path new)) : Multiset Ref) +
              old.references + field.references
            = (referencesAll (fields.set index (field.put path new)) : Multiset Ref) +
                field.references + old.references := by abel
          _ = (referencesAll fields : Multiset Ref) +
                ((field.put path new).references + old.references) := by
              rw [outer]
              abel
          _ = (referencesAll fields : Multiset Ref) + new.references + field.references := by
              rw [inner]
              abel
      | _ => simp [field?] at reading

/-- The references of a part are references of the whole. -/
theorem references_at? {value part : HostValue} {path : List Nat}
    (present : value.at? path = some part) {ref : Ref} (member : ref ∈ part.references) :
    ref ∈ value.references := by
  have traded := references_put .unit present
  have among : ref ∈ ((value.put path .unit).references : Multiset Ref) + part.references := by
    simp [member]
  rw [traded] at among
  simpa [references] using among

end HostValue

/-! ## Where values lie -/

namespace Heap

variable {heap : Heap} {ref : Ref}

theorem ownedValue?_of_wrapper? {value : HostValue} {bridged : BridgedType}
    (wrapper : heap.wrapper? ref = some (.owned value, bridged)) :
    heap.ownedValue? ref = some value := by
  obtain ⟨cell, type, registry, present, body, _⟩ := wrapper?_eq_some.mp wrapper
  simp [ownedValue?, instanceState?, body_eq present, body]

theorem ownedValue?_eq_some {value : HostValue} :
    heap.ownedValue? ref = some value ↔ ∃ cell type registry, heap.cell? ref = some cell ∧
      cell.body = .instance type (some (.wrapper registry (.owned value))) := by
  constructor
  · intro owned
    unfold ownedValue? instanceState? at owned
    cases contents : heap.body ref with
    | «instance» type state =>
      obtain ⟨cell, present, body⟩ := exists_cell_of_body contents (by simp)
      rw [contents] at owned
      dsimp only at owned
      split at owned
      · rename_i registry value'
        rw [Option.some.injEq] at owned
        subst owned
        exact ⟨cell, type, registry, present, body⟩
      · cases owned
    | _ => simp [contents] at owned
  · rintro ⟨cell, type, registry, present, body⟩
    simp [ownedValue?, instanceState?, body_eq present, body]

theorem wrapped?_eq_some {part : HostValue} {bridged : BridgedType} :
    heap.wrapped? ref = some (part, bridged) ↔ ∃ content value,
      heap.wrapper? ref = some (content, bridged) ∧
      heap.ownedValue? (location ref content).1 = some value ∧
      value.at? (location ref content).2 = some part := by
  constructor
  · intro wrapped
    unfold wrapped? at wrapped
    split at wrapped
    · cases wrapped
    · rename_i content bridged' wrapper
      dsimp only at wrapped
      split at wrapped
      · rename_i part' found
        cases wrapped
        obtain ⟨value, owned, present⟩ := Option.bind_eq_some_iff.mp found
        exact ⟨content, value, wrapper, owned, present⟩
      · cases wrapped
  · rintro ⟨content, value, wrapper, owned, present⟩
    rw [wrapped?, wrapper]
    dsimp only
    rw [owned, Option.bind_some, present]

theorem wrapper?_of_wrapped? {part : HostValue} {bridged : BridgedType}
    (wrapped : heap.wrapped? ref = some (part, bridged)) :
    ∃ content, heap.wrapper? ref = some (content, bridged) := by
  obtain ⟨content, _, wrapper, _⟩ := wrapped?_eq_some.mp wrapped
  exact ⟨content, wrapper⟩

end Heap

theorem World.registry_retainAll (world : World) (refs : List Ref) (id : RegistryId) :
    (world.retainAll refs).registry id = world.registry id :=
  observe_retainAll (fun world => world.registry id) (fun _ _ => rfl) world refs

namespace World.Wired

variable {program : Program} {world : World}

/-- A bridged type has been made by the bridge. -/
theorem synthesized (wired : world.Wired program) {ref : Ref} {bridged : BridgedType}
    (found : world.heap.bridgedType? ref = some bridged) :
    ∃ shape, world.heap.body ref = .type shape ∧ shape.context = some (.bridged bridged) ∧
      shape.Synthesized program := by
  obtain ⟨cell, shape, present, body, context⟩ := Heap.bridgedType?_eq_some.mp found
  have reading := (Heap.body_eq present).trans body
  exact ⟨shape, reading, context, wired.type ref shape reading⟩

theorem sound_of_bridgedType? (wired : world.Wired program) {ref : Ref} {bridged : BridgedType}
    (found : world.heap.bridgedType? ref = some bridged) : bridged.Sound program := by
  obtain ⟨shape, _, context, synthesized⟩ := wired.synthesized found
  exact synthesized.sound context

/-- The type of a wrapper is one of the wrapper's registry, and its contents are
such as the type may show. -/
theorem sound_of_wrapper? (wired : world.Wired program) {ref : Ref} {content : Held}
    {bridged : BridgedType} (wrapper : world.heap.wrapper? ref = some (content, bridged)) :
    content.Sound program world.heap bridged ∧ content.Below ref := by
  obtain ⟨cell, type, registry, present, body, shape⟩ := Heap.wrapper?_eq_some.mp wrapper
  obtain ⟨⟨bridged', shape', _, sound⟩, below⟩ :=
    wired.wrapper ref type registry content ((Heap.body_eq present).trans body)
  rw [shape, Option.some.injEq] at shape'
  subst shape'
  exact ⟨sound, below⟩

/-- A wrapper shows a place of its struct, inside the value that another wrapper
of the same registry owns. -/
theorem location (wired : world.Wired program) {ref : Ref} {content : Held} {bridged : BridgedType}
    (wrapper : world.heap.wrapper? ref = some (content, bridged)) :
    ∃ value rootType, world.heap.wrapper? (Heap.location ref content).1 =
        some (.owned value, rootType) ∧
      rootType.registry = bridged.registry ∧
      program.typeAt? (.struct rootType.host) (Heap.location ref content).2 =
        some (.struct bridged.host) := by
  -- A wrapper is younger than the one that it was read from.
  induction place : ref.place using Nat.strong_induction_on generalizing ref content bridged with
  | h age ih =>
    obtain ⟨sound, below⟩ := wired.sound_of_wrapper? wrapper
    cases sound with
    | @owned value fit => exact ⟨value, bridged, wrapper, rfl, rfl⟩
    | @nested anchor root path index outer outerType anchored registry above declared =>
      have older : anchor.place < age := place ▸ below
      obtain ⟨value, rootType, owner, same, typed⟩ := ih anchor.place older anchored rfl
      rw [above] at owner typed
      refine ⟨value, rootType, owner, same.trans registry, ?_⟩
      show program.typeAt? (.struct rootType.host) (path ++ [index]) = _
      rw [Program.typeAt?_append, typed, Option.bind_some, Program.typeAt?]
      obtain ⟨field, present, type⟩ := Option.map_eq_some_iff.mp declared
      rw [present]
      dsimp only
      rw [type, Program.typeAt?_nil]

/-- A value that a wrapper owns is one of its struct. -/
theorem fits_owned (wired : world.Wired program) {ref : Ref} {value : HostValue}
    {bridged : BridgedType} (wrapper : world.heap.wrapper? ref = some (.owned value, bridged)) :
    value.fits program (.struct bridged.host) = true := by
  obtain ⟨sound, _⟩ := wired.sound_of_wrapper? wrapper
  cases sound with
  | owned fit => exact fit

/-- The value behind a wrapper is one of its struct. -/
theorem exists_wrapped? (wired : world.Wired program) {ref : Ref} {content : Held}
    {bridged : BridgedType} (wrapper : world.heap.wrapper? ref = some (content, bridged)) :
    ∃ part, world.heap.wrapped? ref = some (part, bridged) ∧
      part.fits program (.struct bridged.host) = true := by
  obtain ⟨value, rootType, owner, _, typed⟩ := wired.location wrapper
  obtain ⟨part, present, fit⟩ := HostValue.at?_of_fits (wired.fits_owned owner) typed
  exact ⟨part, Heap.wrapped?_eq_some.mpr
    ⟨content, value, wrapper, Heap.ownedValue?_of_wrapper? owner, present⟩, fit⟩

theorem fits_wrapped? (wired : world.Wired program) {ref : Ref} {part : HostValue}
    {bridged : BridgedType} (wrapped : world.heap.wrapped? ref = some (part, bridged)) :
    part.fits program (.struct bridged.host) = true := by
  obtain ⟨content, wrapper⟩ := Heap.wrapper?_of_wrapped? wrapped
  obtain ⟨part', wrapped', fit⟩ := wired.exists_wrapped? wrapper
  rw [wrapped, Option.some.injEq, Prod.mk.injEq] at wrapped'
  rwa [wrapped'.1]

end World.Wired

/-! ## Worlds with more objects -/

/-- A world has all objects of another one with their contents, and the same
registered types. -/
structure World.Extends (before after : World) : Prop where
  objects : before.Keeps after fun _ => True
  types : ∀ id, (after.registry id).types = (before.registry id).types
  owners : ∀ id, (after.registry id).owners = (before.registry id).owners

namespace World.Extends

variable {first second third : World}

theorem refl (world : World) : world.Extends world :=
  ⟨fun _ _ cell present => ⟨cell, present, rfl⟩, fun _ => rfl, fun _ => rfl⟩

theorem trans (front : first.Extends second) (back : second.Extends third) :
    first.Extends third := by
  refine ⟨fun ref _ cell present => ?_, fun id => (back.types id).trans (front.types id),
    fun id => (back.owners id).trans (front.owners id)⟩
  obtain ⟨middle, found, same⟩ := front.objects ref trivial cell present
  obtain ⟨later, found', same'⟩ := back.objects ref trivial middle found
  exact ⟨later, found', same'.trans same⟩

/-- Contents that are there are there later. -/
theorem body (more : first.Extends second) {ref : Ref} {contents : Body}
    (reading : first.heap.body ref = contents) (something : contents ≠ .none) :
    second.heap.body ref = contents := by
  obtain ⟨cell, present, rfl⟩ := Heap.exists_cell_of_body reading something
  obtain ⟨later, found, same⟩ := more.objects ref trivial cell present
  rw [Heap.body_eq found, same]

theorem bridgedType? (more : first.Extends second) {type : Ref} {bridged : BridgedType}
    (shape : first.heap.bridgedType? type = some bridged) :
    second.heap.bridgedType? type = some bridged := by
  obtain ⟨cell, contents, present, body, context⟩ := Heap.bridgedType?_eq_some.mp shape
  obtain ⟨later, found, same⟩ := more.objects type trivial cell present
  exact Heap.bridgedType?_eq_some.mpr ⟨later, contents, found, same.trans body, context⟩

theorem wrapper? (more : first.Extends second) {ref : Ref} {content : Held}
    {bridged : BridgedType} (wrapper : first.heap.wrapper? ref = some (content, bridged)) :
    second.heap.wrapper? ref = some (content, bridged) := by
  obtain ⟨cell, type, registry, present, body, shape⟩ := Heap.wrapper?_eq_some.mp wrapper
  obtain ⟨later, found, same⟩ := more.objects ref trivial cell present
  exact Heap.wrapper?_eq_some.mpr
    ⟨later, type, registry, found, same.trans body, more.bridgedType? shape⟩

theorem ownedValue? (more : first.Extends second) {ref : Ref} {value : HostValue}
    (owned : first.heap.ownedValue? ref = some value) :
    second.heap.ownedValue? ref = some value := by
  obtain ⟨cell, type, registry, present, body⟩ := Heap.ownedValue?_eq_some.mp owned
  obtain ⟨later, found, same⟩ := more.objects ref trivial cell present
  exact Heap.ownedValue?_eq_some.mpr ⟨later, type, registry, found, same.trans body⟩

theorem wrapped? (more : first.Extends second) {ref : Ref} {part : HostValue}
    {bridged : BridgedType} (wrapped : first.heap.wrapped? ref = some (part, bridged)) :
    second.heap.wrapped? ref = some (part, bridged) := by
  obtain ⟨content, value, wrapper, owned, present⟩ := Heap.wrapped?_eq_some.mp wrapped
  exact Heap.wrapped?_eq_some.mpr
    ⟨content, value, more.wrapper? wrapper, more.ownedValue? owned, present⟩

theorem shows (more : first.Extends second) {program : Program} {registry : RegistryId}
    {type : Ref} {content : Held} (shows : first.heap.Shows program registry type content) :
    second.heap.Shows program registry type content := by
  obtain ⟨bridged, shape, same, sound⟩ := shows
  refine ⟨bridged, more.bridgedType? shape, same, ?_⟩
  cases sound with
  | owned fit => exact .owned fit
  | nested wrapper registry above declared =>
    exact .nested (more.wrapper? wrapper) registry above declared

theorem retain (world : World) (ref : Ref) : world.Extends (world.retain ref) := by
  refine ⟨fun other _ cell present => ?_, fun _ => rfl, fun _ => rfl⟩
  have contents := world.heap.body_cell?_retain ref other
  rw [present] at contents
  exact Option.map_eq_some_iff.mp contents

theorem retainAll (world : World) (refs : List Ref) : world.Extends (world.retainAll refs) := by
  refine ⟨fun other _ cell present => ?_, fun id => ?_, fun id => ?_⟩
  · have contents := world.body_cell?_retainAll refs other
    rw [present] at contents
    exact Option.map_eq_some_iff.mp contents
  · rw [World.registry_retainAll]
  · rw [World.registry_retainAll]

theorem place (world : World) (body : Body) : world.Extends (world.place body).2 := by
  refine ⟨fun other _ cell present => ⟨cell, ?_, rfl⟩, fun _ => rfl, fun _ => rfl⟩
  show (world.heap.push body).cell? other = some cell
  rw [Heap.cell?_push, if_neg, present]
  rintro rfl
  rw [Heap.cell?_next] at present
  cases present

theorem updateRegistry (world : World) (id : RegistryId) {change : Registry → Registry}
    (types : ∀ entry, (change entry).types = entry.types)
    (owners : ∀ entry, (change entry).owners = entry.owners) :
    world.Extends (world.updateRegistry id change) := by
  refine ⟨fun _ _ cell present => ⟨cell, present, rfl⟩, fun other => ?_, fun other => ?_⟩
  · exact world.types_updateRegistry id other types
  · rcases world.registry_updateRegistry id other change with same | ⟨_, same⟩
    · rw [same]
    · rw [same, owners]

theorem enter (world : World) (registry : RegistryId) (type : Ref) (content : Held) :
    world.Extends (world.enter registry type content) :=
  (place world _).trans (updateRegistry _ registry (Registry.types_updateRoster _)
    (Registry.owners_updateRoster _))

theorem note (world : World) (level : Level) (text : String) :
    world.Extends (world.note level text) :=
  ⟨fun _ _ cell present => ⟨cell, present, rfl⟩, fun _ => rfl, fun _ => rfl⟩

/-- Places that have been used stay so. -/
theorem used (more : first.Extends second) {ref : Ref} {bridged : BridgedType}
    (shape : first.heap.bridgedType? ref = some bridged) : ref.place < second.heap.size := by
  obtain ⟨cell, _, present, _⟩ := Heap.bridgedType?_eq_some.mp (more.bridgedType? shape)
  exact Heap.place_lt_size present

end World.Extends

end HostBridge
