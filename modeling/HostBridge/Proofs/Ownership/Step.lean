import HostBridge.Proofs.Ownership.Sound

/-!
# Steps

All that operations do to the world is done in small steps, and `Step` lists
them.  A step says what it does with references: those that running code gives
away and those that it comes to hold.  A run of an operation is a `Path`, a
sequence of steps, whatever the operation is.

So an invariant of the world is proved once for each kind of step.  What the
changes have in common is said by `Evolves`.
-/

namespace HostBridge

/-- The registry without wrappers, and perhaps without some of its owners. -/
def Registry.scattered (owners : Nat → Nat) (registry : Registry) : Registry :=
  { registry with owners := owners registry.owners, roster := registry.roster.detachAll }

namespace World

/-- The place of a new wrapper, which is entered on the roster of its registry. -/
def enter (world : World) (registry : RegistryId) (type : Ref) (held : Held) : World :=
  (world.place (.instance type (some (.wrapper registry held)))).2.updateRegistry registry
    (.updateRoster (·.pushFront world.heap.next))

/-- Two worlds have the same objects, registered types and rosters; registries stay alive. -/
structure Settles (before after : World) : Prop where
  heap : after.heap = before.heap
  bridged : ∀ id, (after.registry id).bridged = (before.registry id).bridged
  types : ∀ id, (after.registry id).types = (before.registry id).types
  roster : ∀ id, (after.registry id).roster = (before.registry id).roster
  lives : ∀ id, 0 < (before.registry id).owners → 0 < (after.registry id).owners
  registries : before.registries.size ≤ after.registries.size
  interpreters : before.interpreters.size ≤ after.interpreters.size

/-- What concerns neither objects nor registries settles. -/
theorem Settles.of_registries {before after : World} (heap : after.heap = before.heap)
    (registries : after.registries = before.registries)
    (interpreters : before.interpreters.size ≤ after.interpreters.size) :
    before.Settles after := by
  have same : ∀ id, after.registry id = before.registry id := fun id => by
    rw [registry, registry, registries]
  exact ⟨heap, fun id => by rw [same], fun id => by rw [same], fun id => by rw [same],
    fun id => by rw [same]; exact fun alive => alive, by rw [registries], interpreters⟩

end World

/-- What an object that is not a wrapper may be made of. -/
def Body.Plain (program : Program) : Body → Prop
  | .instance _ (some (.wrapper _ _)) => False
  | .type shape => shape.Synthesized program
  | _ => True

/-- A slot goes on leading to what it leads to; what a function has captured changes. -/
def Slot.Continues (old new : Slot) : Prop :=
  new = old ∨ ∃ code captured later, old.role = .function code captured ∧
    new = { old with role := .function code later }

/-- The state of a module stays; a slot table may grow. -/
def Payload.Continues : Payload → Payload → Prop
  | .slotTable registry slots, new => ∃ more, new = .slotTable registry more ∧
      ∀ (id : Nat) slot, slots[id]? = some slot → ∃ later, more[id]? = some later ∧
        slot.Continues later
  | old, new => new = old

/-- A module keeps its name, and its state once that is set. -/
def ModuleBody.Continues (old new : ModuleBody) : Prop :=
  new.name = old.name ∧ ∀ state, old.state = some state →
    ∃ later, new.state = some later ∧ state.Continues later

/-- What the contents of an object may be changed into.  Scalars, tuples, types
and functions stay what they are, and so do aliases. -/
inductive Body.Becomes (program : Program) (heap : Heap) : Body → Body → Prop
  | list (old new : List Ref) : Becomes program heap (.list old) (.list new)
  | dict (old new : Dict) : Becomes program heap (.dict old) (.dict new)
  | module {old new : ModuleBody} (continues : old.Continues new) :
    Becomes program heap (.module old) (.module new)
  | capsule (name : String) (registry : RegistryId) {old new : Slot}
      (continues : old.Continues new) :
    Becomes program heap (.capsule name (.adHoc registry old)) (.capsule name (.adHoc registry new))
  | state (type : Ref) {payload : Payload} (foreign : ∀ registry held,
      payload ≠ .wrapper registry held) :
    Becomes program heap (.instance type Option.none) (.instance type (some payload))
  | value {type : Ref} {registry : RegistryId} {old new : HostValue} {bridged : BridgedType}
      (shape : heap.bridgedType? type = some bridged)
      (fit : new.fits program (.struct bridged.host) = true) :
    Becomes program heap (.instance type (some (.wrapper registry (.owned old))))
      (.instance type (some (.wrapper registry (.owned new))))

namespace Slot.Continues

theorem refl (slot : Slot) : slot.Continues slot := .inl rfl

theorem trans {first second third : Slot} (front : first.Continues second)
    (back : second.Continues third) : first.Continues third := by
  rcases front with rfl | ⟨code, captured, later, role, rfl⟩
  · exact back
  · rcases back with rfl | ⟨code', captured', last, role', rfl⟩
    · exact .inr ⟨code, captured, later, role, rfl⟩
    · cases role'
      exact .inr ⟨code, captured, last, role, rfl⟩

end Slot.Continues

namespace Payload.Continues

theorem refl (state : Payload) : state.Continues state := by
  unfold Payload.Continues
  split
  · exact ⟨_, rfl, fun _ slot found => ⟨slot, found, .refl slot⟩⟩
  · rfl

theorem trans {first second third : Payload} (front : first.Continues second)
    (back : second.Continues third) : first.Continues third := by
  unfold Payload.Continues at front
  split at front
  · obtain ⟨middle, rfl, kept⟩ := front
    obtain ⟨last, rfl, kept'⟩ := back
    refine ⟨last, rfl, fun id slot found => ?_⟩
    obtain ⟨between, there, same⟩ := kept id slot found
    obtain ⟨later, there', same'⟩ := kept' id between there
    exact ⟨later, there', same.trans same'⟩
  · rw [front] at back
    exact back

end Payload.Continues

namespace ModuleBody.Continues

theorem refl (contents : ModuleBody) : contents.Continues contents :=
  ⟨rfl, fun state given => ⟨state, given, .refl state⟩⟩

theorem trans {first second third : ModuleBody} (front : first.Continues second)
    (back : second.Continues third) : first.Continues third := by
  refine ⟨back.1.trans front.1, fun state given => ?_⟩
  obtain ⟨middle, given', same⟩ := front.2 state given
  obtain ⟨later, given'', same'⟩ := back.2 middle given'
  exact ⟨later, given'', same.trans same'⟩

/-- Only the globals of a module change. -/
theorem of_state {old new : ModuleBody} (name : new.name = old.name)
    (state : new.state = old.state) : old.Continues new :=
  ⟨name, fun payload given => ⟨payload, state.trans given, .refl payload⟩⟩

end ModuleBody.Continues

/-- What steps may change. -/
structure Permission where
  /-- Contents of objects that may be replaced. -/
  contents : Body → Prop
  /-- Registries whose wrappers may be forgotten. -/
  rosters : RegistryId → Prop

namespace Permission

instance : CoeFun Permission fun _ => Body → Prop := ⟨contents⟩

/-- Everything may be changed. -/
def anything : Permission := ⟨fun _ => True, fun _ => True⟩

/-- Nothing may be changed that is there. -/
def nothing : Permission := ⟨fun _ => False, fun _ => False⟩

/-- What one permission covers another one covers, too. -/
structure Within (touch wider : Permission) : Prop where
  contents : ∀ body, touch body → wider body
  rosters : ∀ registry, touch.rosters registry → wider.rosters registry

theorem within_anything (touch : Permission) : touch.Within anything :=
  ⟨fun _ _ => trivial, fun _ _ => trivial⟩

end Permission

section

variable (program : Program) (touch : Permission)

/--
One step, from a world and the references that running code holds to another
world and other references.  Objects are changed, and wrappers forgotten, as far
as `touch` permits it.
-/
inductive Step : World → Multiset Ref → World → Multiset Ref → Prop
  /-- A step that concerns no object, but perhaps an interpreter. -/
  | settle {before after : World} {held left : Multiset Ref} (settles : before.Settles after)
      (even : after.claims + left = before.claims + held) : Step before held after left
  /-- Take a reference. -/
  | retain {world : World} {held left : Multiset Ref} (ref : Ref)
      (used : ref.place < world.heap.size) (taken : left = held + {ref}) :
    Step world held (world.retain ref) left
  /-- Give up one of several references. -/
  | lower {world : World} {held left : Multiset Ref} (ref : Ref) {cell : Cell}
      (there : world.heap.cell? ref = some cell) (shared : 1 < cell.count)
      (given : held = left + {ref}) :
    Step world held
      { world with heap := world.heap.put ref (some { cell with count := cell.count - 1 }) } left
  /-- Give up a reference to what has gone away. -/
  | forget {world : World} {held left : Multiset Ref} (ref : Ref)
      (gone : world.heap.cell? ref = none) (given : held = left + {ref}) :
    Step world held world left
  /-- Give up the last reference; those that the object owned are held then. -/
  | retire {world : World} {held left : Multiset Ref} (ref : Ref) {cell : Cell}
      (rest : Multiset Ref) (there : world.heap.cell? ref = some cell) (last : cell.count ≤ 1)
      (given : held = rest + {ref}) (taken : left = rest + cell.body.references) :
    Step world held (world.retire ref cell.body) left
  /-- Make an object that is no wrapper. -/
  | place {world : World} {held left : Multiset Ref} (body : Body) (rest : Multiset Ref)
      (plain : body.Plain program) (given : held = rest + body.references)
      (taken : left = rest + {world.heap.next}) :
    Step world held (world.place body).2 left
  /-- Make a wrapper. -/
  | wrap {world : World} {held left : Multiset Ref} (registry : RegistryId) (type : Ref)
      (content : Held) (rest : Multiset Ref)
      (shows : world.heap.Shows program registry type content)
      (given : held = rest + (content.references ++ [type] : List Ref))
      (taken : left = rest + {world.heap.next}) :
    Step world held (world.enter registry type content) left
  /-- Change the contents of an object. -/
  | rewrite {world : World} {held left : Multiset Ref} (ref : Ref) {cell : Cell} (body : Body)
      (there : world.heap.cell? ref = some cell) (touched : touch cell.body)
      (becomes : cell.body.Becomes program world.heap body)
      (even : left + body.references = held + cell.body.references) :
    Step world held { world with heap := world.heap.setBody ref body } left
  /-- Register a type. -/
  | enroll {world : World} {held left : Multiset Ref} {bridged : BridgedType} (handle : Ref)
      (created : bridged.registry.number < world.registries.size)
      (shape : world.heap.bridgedType? handle = some bridged)
      (unknown : (world.registry bridged.registry).handle? bridged.host = none)
      (fresh : ∀ entry ∈ (world.registry bridged.registry).types, entry.2 ≠ handle)
      (given : held = left + {handle}) :
    Step world held (world.updateRegistry bridged.registry (.enroll handle bridged)) left
  /-- Take all types out of a registry. -/
  | withdraw {world : World} {held left : Multiset Ref} (registry : RegistryId)
      (taken : left = held + (world.registry registry).handles) :
    Step world held (world.updateRegistry registry fun entry => { entry with bridged := [], types := [] }) left
  /-- Forget the wrappers of a registry, which may lose owners then. -/
  | scatter {world : World} {held : Multiset Ref} (registry : RegistryId) (owners : Nat → Nat)
      (permitted : touch.rosters registry) :
    Step world held
      (world.updateRegistry registry (.scattered owners)) held

/-- A sequence of steps. -/
inductive Path : World → Multiset Ref → World → Multiset Ref → Prop
  | refl (world : World) (held : Multiset Ref) : Path world held world held
  | step {first second third : World} {given held left : Multiset Ref}
      (path : Path first given second held) (last : Step program touch second held third left) :
    Path first given third left

end

variable {program : Program} {touch : Permission}

/-- What other code holds takes no part in a step. -/
theorem Step.frame {before after : World} {held left : Multiset Ref}
    (step : Step program touch before held after left) (frame : Multiset Ref) :
    Step program touch before (held + frame) after (left + frame) := by
  cases step with
  | settle settles even =>
    exact .settle settles (by rw [← add_assoc, even, add_assoc])
  | retain ref used taken => exact .retain ref used (by rw [taken]; abel)
  | lower ref there shared given => exact .lower ref there shared (by rw [given]; abel)
  | forget ref gone given => exact .forget ref gone (by rw [given]; abel)
  | retire ref rest there last given taken =>
    exact .retire ref (rest + frame) there last (by rw [given]; abel) (by rw [taken]; abel)
  | place body rest plain given taken =>
    exact .place body (rest + frame) plain (by rw [given]; abel) (by rw [taken]; abel)
  | wrap registry type content rest shows given taken =>
    exact .wrap registry type content (rest + frame) shows (by rw [given]; abel)
      (by rw [taken]; abel)
  | rewrite ref body there touched becomes even =>
    exact .rewrite ref body there touched becomes
      (by rw [add_right_comm, even, add_right_comm])
  | enroll handle created shape unknown fresh given =>
    exact .enroll handle created shape unknown fresh (by rw [given]; abel)
  | withdraw registry taken => exact .withdraw registry (by rw [taken]; abel)
  | scatter registry owners permitted => exact .scatter registry owners permitted

namespace Path

variable {first second third : World} {given held left : Multiset Ref}

theorem single (step : Step program touch first given second held) :
    Path program touch first given second held :=
  .step (.refl first given) step

theorem trans (front : Path program touch first given second held)
    (back : Path program touch second held third left) :
    Path program touch first given third left := by
  induction back with
  | refl => exact front
  | step _ last ih => exact .step (ih front) last

theorem frame (path : Path program touch first given second held) (frame : Multiset Ref) :
    Path program touch first (given + frame) second (held + frame) := by
  induction path with
  | refl => exact .refl _ _
  | step _ last ih => exact .step ih (last.frame frame)

end Path

/-! ## Cells after a change -/

namespace Heap

variable {heap : Heap} {ref : Ref} {old : Cell}

theorem cell?_put (new : Option Cell) (present : heap.cell? ref = some old) (other : Ref) :
    (heap.put ref new).cell? other = if other = ref then new else heap.cell? other := by
  by_cases same : other = ref
  · rw [if_pos same, same, cell?_put_same new present]
  · rw [if_neg same, cell?_put_other heap new (Ne.symm same)]

theorem cell?_push (heap : Heap) (body : Body) (other : Ref) :
    (heap.push body).cell? other = if other = heap.next then some ⟨1, body⟩ else
      heap.cell? other := by
  by_cases same : other = heap.next
  · rw [if_pos same, same, cell?_push_next]
  · rw [if_neg same, cell?_push_other body same]

theorem cell?_next (heap : Heap) : heap.cell? heap.next = none := by
  simp [cell?, next]

theorem size_push (heap : Heap) (body : Body) : (heap.push body).size = heap.size + 1 := by
  simp [size, push]

@[simp]
theorem size_put (heap : Heap) (ref : Ref) (new : Option Cell) :
    (heap.put ref new).size = heap.size := by
  simp [size, put]

theorem retain_of_cell (present : heap.cell? ref = some old) :
    heap.retain ref = heap.put ref (some { old with count := old.count + 1 }) := by
  simp [retain, present]

theorem retain_of_gone (gone : heap.cell? ref = none) : heap.retain ref = heap := by
  simp [retain, gone]

theorem setBody_of_cell (body : Body) (present : heap.cell? ref = some old) :
    heap.setBody ref body = heap.put ref (some { old with body }) := by
  simp [setBody, present]

@[simp]
theorem size_retain (heap : Heap) (ref : Ref) : (heap.retain ref).size = heap.size := by
  unfold retain
  split <;> simp

@[simp]
theorem size_setBody (heap : Heap) (ref : Ref) (body : Body) :
    (heap.setBody ref body).size = heap.size := by
  unfold setBody
  split <;> simp

/-- Taking a reference changes no contents. -/
theorem body_cell?_retain (heap : Heap) (ref other : Ref) :
    ((heap.retain ref).cell? other).map (·.body) = (heap.cell? other).map (·.body) := by
  cases present : heap.cell? ref with
  | none => rw [retain_of_gone present]
  | some cell =>
    rw [retain_of_cell present, cell?_put _ present]
    by_cases same : other = ref
    · simp [same, present]
    · simp [same]

end Heap

/-! ## What a step may change -/

section

variable (program : Program) (touch : Permission)

/-- What an object may be made of. -/
def Body.Fresh (heap : Heap) (body : Body) : Prop :=
  body.Plain program ∨ ∃ registry type held,
    body = .instance type (some (.wrapper registry held)) ∧ heap.Shows program registry type held

/-- The changes that steps have in common. -/
structure Evolves (before : World) (held : Multiset Ref) (after : World) : Prop where
  /-- An object stays, with its old contents or with new ones, unless a last
  reference to it is given up. -/
  kept : ∀ ref cell, before.heap.cell? ref = some cell →
    (∃ later, after.heap.cell? ref = some later ∧
      (later.body = cell.body ∨
        touch cell.body ∧ cell.body.Becomes program before.heap later.body)) ∨
      (after.heap.cell? ref = none ∧ cell.count ≤ 1 ∧ ref ∈ held ∧
        after.heap.owned ≤ before.heap.owned ∧ after.claims = before.claims)
  /-- An object that was not there is new, and made of what running code held. -/
  fresh : ∀ ref later, after.heap.cell? ref = some later → before.heap.cell? ref = none →
    ref = before.heap.next ∧ later.body.Fresh program before.heap ∧
      ∀ inner ∈ later.body.references, inner ∈ held
  /-- A type that was not registered is one of the registry. -/
  types : ∀ id host handle, (host, handle) ∈ (after.registry id).types →
    (host, handle) ∈ (before.registry id).types ∨
      ∃ bridged, before.heap.bridgedType? handle = some bridged ∧ bridged.registry = id ∧
        bridged.host = host
  places : before.heap.size ≤ after.heap.size
  registries : before.registries.size ≤ after.registries.size
  interpreters : before.interpreters.size ≤ after.interpreters.size

end

namespace World

@[simp]
theorem heap_updateRegistry (world : World) (id : RegistryId) (change : Registry → Registry) :
    (world.updateRegistry id change).heap = world.heap := rfl

@[simp]
theorem size_registries_updateRegistry (world : World) (id : RegistryId)
    (change : Registry → Registry) :
    (world.updateRegistry id change).registries.size = world.registries.size := by
  simp [updateRegistry]

theorem registry_updateRegistry_same {world : World} {id : RegistryId}
    (change : Registry → Registry) (created : id.number < world.registries.size) :
    (world.updateRegistry id change).registry id = change (world.registry id) := by
  rw [registry, registry, updateRegistry, Array.getElem?_modify]
  simp [created]

theorem registry_updateRegistry_other (world : World) {id other : RegistryId}
    (change : Registry → Registry) (distinct : id ≠ other) :
    (world.updateRegistry id change).registry other = world.registry other := by
  have apart : id.number ≠ other.number := by
    intro equal
    exact distinct (by cases id; cases other; simp_all)
  simp [registry, updateRegistry, Array.getElem?_modify, apart]

/-- A change of one registry changes this one or another one. -/
theorem registry_updateRegistry (world : World) (id other : RegistryId)
    (change : Registry → Registry) :
    (world.updateRegistry id change).registry other = world.registry other ∨
      id = other ∧ (world.updateRegistry id change).registry other =
        change (world.registry other) := by
  by_cases same : id = other
  · subst same
    by_cases created : id.number < world.registries.size
    · exact .inr ⟨rfl, registry_updateRegistry_same change created⟩
    · rw [updateRegistry_of_size_le change (Nat.le_of_not_lt created)]
      exact .inl rfl
  · exact .inl (registry_updateRegistry_other world change same)

/-- Changes of one registry are made one after the other. -/
theorem updateRegistry_updateRegistry (world : World) (id : RegistryId)
    (first second : Registry → Registry) :
    (world.updateRegistry id first).updateRegistry id second =
      world.updateRegistry id fun entry => second (first entry) := by
  have same : (world.registries.modify id.number first).modify id.number second =
      world.registries.modify id.number fun entry => second (first entry) := by
    apply Array.ext'
    rw [Array.toList_modify, Array.toList_modify, Array.toList_modify]
    exact List.modify_modify_eq _ _ _ _
  rw [updateRegistry, updateRegistry, updateRegistry, same]

/-- A change that keeps something about a registry keeps it about all. -/
theorem read_updateRegistry {α : Type} (read : Registry → α) (world : World)
    (id other : RegistryId) {change : Registry → Registry}
    (same : ∀ entry, read (change entry) = read entry) :
    read ((world.updateRegistry id change).registry other) = read (world.registry other) := by
  rcases world.registry_updateRegistry id other change with kept | ⟨_, changed⟩
  · rw [kept]
  · rw [changed, same]

/-- A registry that has an owner has been created. -/
theorem created_of_owned {world : World} {id : RegistryId}
    (owned : 0 < (world.registry id).owners) : id.number < world.registries.size := by
  by_contra absent
  rw [registry, Array.getElem?_eq_none (Nat.le_of_not_lt absent)] at owned
  exact absurd owned (Nat.lt_irrefl 0)

/-- A roster is changed if it is that of the registry and this one has an owner. -/
theorem roster_updateRoster (world : World) (id other : RegistryId) (change : Roster → Roster) :
    ((world.updateRegistry id (.updateRoster change)).registry other).roster =
      if id = other ∧ 0 < (world.registry other).owners then change (world.registry other).roster
      else (world.registry other).roster := by
  by_cases same : id = other
  · subst same
    by_cases owned : 0 < (world.registry id).owners
    · rw [registry_updateRegistry_same _ (created_of_owned owned),
        Registry.updateRoster_of_owned _ owned, if_pos ⟨rfl, owned⟩]
    · rw [if_neg (fun both => owned both.2)]
      rcases world.registry_updateRegistry id id (.updateRoster change) with kept | ⟨_, changed⟩
      · rw [kept]
      · rw [changed, Registry.updateRoster_of_gone _ owned]
  · rw [registry_updateRegistry_other world _ same, if_neg (fun both => same both.1)]

theorem types_updateRegistry (world : World) (id other : RegistryId)
    {change : Registry → Registry} (same : ∀ entry, (change entry).types = entry.types) :
    ((world.updateRegistry id change).registry other).types = (world.registry other).types :=
  read_updateRegistry Registry.types world id other same

theorem owners_withoutTypes (world : World) (id other : RegistryId) :
    ((world.updateRegistry id fun entry =>
      { entry with bridged := [], types := [] }).registry other).owners = (world.registry other).owners :=
  read_updateRegistry Registry.owners world id other fun _ => rfl

end World

namespace World

/-- What a finalizer changes of a registry is its roster. -/
theorem read_finalizeInstance {α : Type} (read : Registry → α)
    (rosters : ∀ entry roster, read { entry with roster } = read entry) (world : World)
    (ref type : Ref) (state : Option Payload) (id : RegistryId) :
    read ((world.finalizeInstance ref type state).registry id) = read (world.registry id) := by
  unfold finalizeInstance
  split
  · split
    · rfl
    · rfl
    · rfl
    · exact read_updateRegistry read world _ id (Registry.read_updateRoster read rosters _)
    · rfl
  · rfl

/-- Finalizers change no registered types and no interpreters. -/
theorem finalizeInstance_spec (world : World) (ref type : Ref) (state : Option Payload) :
    (∀ id, ((world.finalizeInstance ref type state).registry id).types =
        (world.registry id).types) ∧
      (world.finalizeInstance ref type state).claims = world.claims ∧
      (world.finalizeInstance ref type state).registries.size = world.registries.size ∧
      (world.finalizeInstance ref type state).interpreters = world.interpreters := by
  refine ⟨read_finalizeInstance Registry.types (fun _ _ => rfl) world ref type state, ?_⟩
  unfold finalizeInstance
  split
  · split
    · exact ⟨rfl, rfl, rfl⟩
    · exact ⟨rfl, rfl, rfl⟩
    · exact ⟨rfl, rfl, rfl⟩
    · exact ⟨claims_updateRegistry_same _ (Registry.types_updateRoster _),
        size_registries_updateRegistry world _ _, rfl⟩
    · exact ⟨rfl, rfl, rfl⟩
  · exact ⟨rfl, rfl, rfl⟩

/-- What an object that goes away changes of a registry is its roster. -/
theorem read_retire {α : Type} (read : Registry → α)
    (rosters : ∀ entry roster, read { entry with roster } = read entry) (world : World)
    (ref : Ref) (body : Body) (id : RegistryId) :
    read ((world.retire ref body).registry id) = read (world.registry id) := by
  unfold retire
  split
  · exact read_finalizeInstance read rosters world ref _ _ id
  · rfl

/-- An object that goes away leaves rosters alone or leaves one of a registry with an owner. -/
theorem roster_retire_cases (world : World) (ref : Ref) (body : Body) (id : RegistryId) :
    ((world.retire ref body).registry id).roster = (world.registry id).roster ∨
      0 < (world.registry id).owners ∧
        ((world.retire ref body).registry id).roster = (world.registry id).roster.unlink ref := by
  unfold retire
  split
  · unfold finalizeInstance
    split
    · split
      · exact .inl rfl
      · exact .inl rfl
      · exact .inl rfl
      · rename_i registry _ _
        have changed := world.roster_updateRoster registry id (·.unlink ref)
        split at changed
        · rename_i reached
          exact .inr ⟨reached.2, changed⟩
        · exact .inl changed
      · exact .inl rfl
    · exact .inl rfl
  · exact .inl rfl

/-- An object that goes away changes no registered types and no interpreters. -/
theorem retire_spec (world : World) (ref : Ref) (body : Body) :
    (∀ id, ((world.retire ref body).registry id).types = (world.registry id).types) ∧
      (world.retire ref body).claims = world.claims ∧
      (world.retire ref body).registries.size = world.registries.size ∧
      (world.retire ref body).interpreters = world.interpreters := by
  unfold retire
  split
  · exact finalizeInstance_spec world ref _ _
  · exact ⟨fun _ => rfl, rfl, rfl, rfl⟩

end World

namespace Evolves

variable {before after : World} {held : Multiset Ref}

/-- A change that leaves all contents alone. -/
theorem of_bodies
    (same : ∀ ref, (after.heap.cell? ref).map (·.body) = (before.heap.cell? ref).map (·.body))
    (types : ∀ id host handle, (host, handle) ∈ (after.registry id).types →
      (host, handle) ∈ (before.registry id).types ∨
        ∃ bridged, before.heap.bridgedType? handle = some bridged ∧ bridged.registry = id ∧
          bridged.host = host)
    (places : before.heap.size ≤ after.heap.size)
    (registries : before.registries.size ≤ after.registries.size)
    (interpreters : before.interpreters.size ≤ after.interpreters.size) :
    Evolves program touch before held after where
  kept := by
    intro ref cell present
    have reading := same ref
    rw [present] at reading
    obtain ⟨later, found, equal⟩ := Option.map_eq_some_iff.mp reading
    exact .inl ⟨later, found, .inl equal⟩
  fresh := by
    intro ref later found absent
    have reading := same ref
    rw [found, absent] at reading
    simp at reading
  types := types
  places := places
  registries := registries
  interpreters := interpreters

/-- A new object leaves the others alone. -/
theorem of_push {body : Body} (heap : after.heap = before.heap.push body)
    (fresh : body.Fresh program before.heap) (given : ∀ inner ∈ body.references, inner ∈ held)
    (types : ∀ id, (after.registry id).types = (before.registry id).types)
    (registries : before.registries.size ≤ after.registries.size)
    (interpreters : before.interpreters.size ≤ after.interpreters.size) :
    Evolves program touch before held after where
  kept := by
    intro ref cell present
    refine .inl ⟨cell, ?_, .inl rfl⟩
    rw [heap, Heap.cell?_push, if_neg, present]
    rintro rfl
    rw [Heap.cell?_next] at present
    cases present
  fresh := by
    intro ref later found absent
    rw [heap, Heap.cell?_push] at found
    by_cases new : ref = before.heap.next
    · rw [if_pos new, Option.some.injEq] at found
      subst found
      exact ⟨new, fresh, given⟩
    · rw [if_neg new, absent] at found
      cases found
  types := fun id host handle member => .inl (by rwa [types id] at member)
  places := by
    rw [heap, Heap.size_push]
    exact Nat.le_succ _
  registries := registries
  interpreters := interpreters

/-- An object that goes away leaves the others alone. -/
theorem of_retire {ref : Ref} {cell : Cell} (there : before.heap.cell? ref = some cell)
    (last : cell.count ≤ 1) (given : ref ∈ held) :
    Evolves program touch before held (before.retire ref cell.body) := by
  obtain ⟨types, claims, registries, interpreters⟩ := before.retire_spec ref cell.body
  have shrinks : (before.retire ref cell.body).heap.owned ≤ before.heap.owned := by
    have removed := Heap.owned_put none there
    rw [Heap.cellOwned_none, add_zero] at removed
    rw [World.heap_retire, ← removed]
    exact Multiset.le_add_right _ _
  refine ⟨?_, ?_, fun id host handle member => .inl (by rwa [types id] at member), ?_, ?_, ?_⟩
  · intro other found present
    by_cases same : other = ref
    · subst same
      rw [there, Option.some.injEq] at present
      subst present
      refine .inr ⟨?_, last, given, shrinks, claims⟩
      rw [World.heap_retire, Heap.cell?_put _ there, if_pos rfl]
    · refine .inl ⟨found, ?_, .inl rfl⟩
      rw [World.heap_retire, Heap.cell?_put _ there, if_neg same, present]
  · intro other later found absent
    rw [World.heap_retire, Heap.cell?_put _ there] at found
    by_cases same : other = ref
    · rw [if_pos same] at found
      cases found
    · rw [if_neg same, absent] at found
      cases found
  · rw [World.heap_retire, Heap.size_put]
  · rw [registries]
  · rw [interpreters]

/-- An object with new contents leaves the others alone. -/
theorem of_rewrite {ref : Ref} {cell : Cell} {body : Body}
    (there : before.heap.cell? ref = some cell) (touched : touch cell.body)
    (becomes : cell.body.Becomes program before.heap body) :
    Evolves program touch before held { before with heap := before.heap.setBody ref body } := by
  refine ⟨?_, ?_, fun _ _ _ member => .inl member, ?_, le_refl _, le_refl _⟩
  · intro other found present
    refine .inl ?_
    dsimp only
    rw [Heap.setBody_of_cell body there, Heap.cell?_put _ there]
    by_cases same : other = ref
    · subst same
      rw [there, Option.some.injEq] at present
      subst present
      exact ⟨_, if_pos rfl, .inr ⟨touched, becomes⟩⟩
    · exact ⟨found, by rw [if_neg same, present], .inl rfl⟩
  · intro other later found absent
    dsimp only at found
    rw [Heap.setBody_of_cell body there, Heap.cell?_put _ there] at found
    by_cases same : other = ref
    · rw [same, there] at absent
      cases absent
    · rw [if_neg same, absent] at found
      cases found
  · simp

end Evolves

/-- Every step is a change of this kind. -/
theorem Step.evolves {before after : World} {held left : Multiset Ref}
    (step : Step program touch before held after left) :
    Evolves program touch before held after := by
  cases step with
  | settle settles even =>
    refine .of_bodies (fun ref => by rw [settles.heap]) ?_ (by rw [settles.heap])
      settles.registries settles.interpreters
    intro id host handle member
    rw [settles.types] at member
    exact .inl member
  | retain ref used taken =>
    exact .of_bodies (before.heap.body_cell?_retain ref) (fun _ _ _ member => .inl member)
      (by simp [World.retain]) (le_refl _) (le_refl _)
  | @lower _ _ ref cell there shared given =>
    refine .of_bodies ?_ (fun _ _ _ member => .inl member) (by simp) (le_refl _) (le_refl _)
    intro other
    rw [Heap.cell?_put _ there]
    by_cases same : other = ref
    · simp [same, there]
    · simp [same]
  | forget ref gone given =>
    exact .of_bodies (fun _ => rfl) (fun _ _ _ member => .inl member) (le_refl _) (le_refl _)
      (le_refl _)
  | @retire _ _ ref cell rest there last given taken =>
    exact .of_retire there last (by simp [given])
  | place body rest plain given taken =>
    exact .of_push rfl (.inl plain) (fun inner member => by simp [given, member]) (fun _ => rfl)
      (le_refl _) (le_refl _)
  | wrap registry type content rest shows given taken =>
    refine .of_push rfl (.inr ⟨registry, type, content, rfl, shows⟩) ?_ ?_ ?_ (le_refl _)
    · intro inner member
      rw [given]
      exact Multiset.mem_add.mpr (.inr member)
    · exact fun id =>
        (before.place _).2.types_updateRegistry registry id (Registry.types_updateRoster _)
    · exact Nat.le_of_eq (World.size_registries_updateRegistry _ registry _).symm
  | @rewrite _ _ ref cell body there touched becomes even =>
    exact .of_rewrite there touched becomes
  | @enroll _ _ bridged handle created shape unknown fresh given =>
    refine .of_bodies (fun _ => rfl) ?_ (le_refl _) ?_ (le_refl _)
    · intro id host other member
      rcases before.registry_updateRegistry bridged.registry id _ with same | ⟨rfl, same⟩
      · rw [same] at member
        exact .inl member
      · rw [same, Registry.enroll, List.mem_append, List.mem_singleton, Prod.mk.injEq] at member
        rcases member with member | ⟨rfl, rfl⟩
        · exact .inl member
        · exact .inr ⟨bridged, shape, rfl, rfl⟩
    · exact Nat.le_of_eq (World.size_registries_updateRegistry _ _ _).symm
  | withdraw registry taken =>
    refine .of_bodies (fun _ => rfl) ?_ (le_refl _) ?_ (le_refl _)
    · intro id host other member
      rcases before.registry_updateRegistry registry id _ with same | ⟨rfl, same⟩
      · rw [same] at member
        exact .inl member
      · rw [same] at member
        cases member
    · exact Nat.le_of_eq (World.size_registries_updateRegistry _ _ _).symm
  | scatter registry owners permitted =>
    refine .of_bodies (fun _ => rfl) ?_ (le_refl _) ?_ (le_refl _)
    · intro id host other member
      have same : ((before.updateRegistry registry (.scattered owners)).registry id).types =
          (before.registry id).types := before.types_updateRegistry registry id fun _ => rfl
      exact .inl (by rwa [same] at member)
    · exact Nat.le_of_eq (World.size_registries_updateRegistry _ _ _).symm

end HostBridge
