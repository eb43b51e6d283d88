import HostBridge.World
import Mathlib.Algebra.Order.Group.Multiset
import Mathlib.Data.Multiset.Count
import Mathlib.Tactic.Abel

/-!
# Who owns which references

Every reference is owned by somebody: by an object in the heap, by the registry
of a bridge, by an interpreter, or by running code, which holds it.  The heap
has an invariant that says so, `World.Balanced`: an object that has not gone
away is counted once for each owner.  Nothing is said about a place without an
object, so code may go on holding references to what has gone away.

The multiset of all owned references is computed here, and how it changes with
each change of the heap.
-/

namespace HostBridge

/-! ## Sums over lists -/

namespace Tally

variable {α β : Type}

/-- Replacing an entry replaces its part of a sum. -/
theorem sum_map_set (value : α → Multiset β) {entries : List α} {index : Nat} {old : α}
    (new : α) (present : entries[index]? = some old) :
    ((entries.set index new).map value).sum + value old = (entries.map value).sum + value new := by
  induction entries generalizing index with
  | nil => simp at present
  | cons head rest ih =>
    cases index with
    | zero =>
      simp only [List.getElem?_cons_zero, Option.some.injEq] at present
      subst present
      simp only [List.set_cons_zero, List.map_cons, List.sum_cons]
      abel
    | succ index =>
      have later := ih (by simpa using present)
      simp only [List.set_cons_succ, List.map_cons, List.sum_cons]
      rw [add_assoc, later, add_assoc]

/-- Changing an entry changes its part of a sum. -/
theorem sum_map_modify (value : α → Multiset β) {entries : List α} {index : Nat} {old : α}
    (change : α → α) (present : entries[index]? = some old) :
    ((entries.modify index change).map value).sum + value old =
      (entries.map value).sum + value (change old) := by
  induction entries generalizing index with
  | nil => simp at present
  | cons head rest ih =>
    cases index with
    | zero =>
      simp only [List.getElem?_cons_zero, Option.some.injEq] at present
      subst present
      simp only [List.modify_zero_cons, List.map_cons, List.sum_cons]
      abel
    | succ index =>
      have later := ih (by simpa using present)
      simp only [List.modify_succ_cons, List.map_cons, List.sum_cons]
      rw [add_assoc, later, add_assoc]

theorem mem_sum_map {value : α → Multiset β} {entries : List α} {part : β} :
    part ∈ (entries.map value).sum ↔ ∃ entry ∈ entries, part ∈ value entry := by
  induction entries with
  | nil => simp
  | cons head rest ih => simp [ih]

/-- An entry is part of a sum. -/
theorem le_sum_map (value : α → Multiset β) {entries : List α} {entry : α}
    (member : entry ∈ entries) : value entry ≤ (entries.map value).sum := by
  obtain ⟨front, back, rfl⟩ := List.append_of_mem member
  rw [List.map_append, List.map_cons, List.sum_append, List.sum_cons]
  exact (Multiset.le_add_right _ _).trans (Multiset.le_add_left _ _)

/-- A sum is not larger than another one if each part of it is nothing or below the part at its
position there. -/
theorem sum_map_le (value : α → Multiset β) {entries others : List α}
    (below : ∀ (index : Nat) entry, entries[index]? = some entry → value entry = 0 ∨
      ∃ other, others[index]? = some other ∧ value entry ≤ value other) :
    (entries.map value).sum ≤ (others.map value).sum := by
  induction entries generalizing others with
  | nil => exact Multiset.zero_le _
  | cons head rest ih =>
    cases others with
    | nil =>
      have nothing : (rest.map value).sum ≤ (([] : List α).map value).sum :=
        ih fun index entry present => (below (index + 1) entry present).imp_right
          fun ⟨other, found, _⟩ => by simp at found
      rcases below 0 head rfl with none | ⟨other, found, _⟩
      · rw [List.map_cons, List.sum_cons, none, zero_add]
        exact nothing
      · simp at found
    | cons other others =>
      rw [List.map_cons, List.map_cons, List.sum_cons, List.sum_cons]
      refine add_le_add ?_ (ih fun index entry present => below (index + 1) entry present)
      rcases below 0 head rfl with none | ⟨_, found, le⟩
      · rw [none]
        exact Multiset.zero_le _
      · cases found
        exact le

end Tally

/-! ## What objects own -/

namespace Heap

/-- The references that the object at a place owns. -/
def cellOwned : Option Cell → Multiset Ref
  | some cell => cell.body.references
  | none => 0

@[simp]
theorem cellOwned_some (cell : Cell) : cellOwned (some cell) = cell.body.references := rfl

@[simp]
theorem cellOwned_none : cellOwned none = 0 := rfl

/-- The references that all objects own. -/
def owned (heap : Heap) : Multiset Ref := (heap.cells.toList.map cellOwned).sum

variable {heap : Heap} {ref : Ref} {cell old : Cell}

theorem owned_push (heap : Heap) (body : Body) :
    (heap.push body).owned = heap.owned + body.references := by
  simp [owned, push]

theorem owned_put (new : Option Cell) (present : heap.cell? ref = some old) :
    (heap.put ref new).owned + old.body.references = heap.owned + cellOwned new := by
  have reading : heap.cells.toList[ref.place]? = some (some old) := by
    rw [Array.getElem?_toList]
    exact cell?_eq.mp present
  rw [owned, put, Array.toList_setIfInBounds]
  exact Tally.sum_map_set cellOwned new reading

/-- Counting references changes nobody's. -/
theorem owned_put_count (count : Nat) (present : heap.cell? ref = some old) :
    (heap.put ref (some { old with count })).owned = heap.owned := by
  have changed := owned_put (some { old with count }) present
  exact add_right_cancel changed

theorem references_le_owned (present : heap.cell? ref = some cell) :
    (cell.body.references : Multiset Ref) ≤ heap.owned := by
  have reading : heap.cells.toList[ref.place]? = some (some cell) := by
    rw [Array.getElem?_toList]
    exact cell?_eq.mp present
  exact Tally.le_sum_map cellOwned (List.mem_of_getElem? reading)

/-- What an object owns is owned. -/
theorem mem_owned {inner : Ref} (present : heap.cell? ref = some cell)
    (member : inner ∈ cell.body.references) : inner ∈ heap.owned :=
  Multiset.mem_of_le (references_le_owned present) (by simpa using member)

theorem exists_of_mem_owned {inner : Ref} (member : inner ∈ heap.owned) :
    ∃ ref cell, heap.cell? ref = some cell ∧ inner ∈ cell.body.references := by
  obtain ⟨entry, among, inside⟩ := Tally.mem_sum_map.mp member
  cases entry with
  | none => simp at inside
  | some cell =>
    obtain ⟨place, _, reading⟩ := List.mem_iff_getElem.mp among
    refine ⟨⟨place⟩, cell, ?_, by simpa using inside⟩
    rw [cell?_eq, ← Array.getElem?_toList, List.getElem?_eq_some_iff]
    exact ⟨_, reading⟩

/-- Objects that are there with the same contents own as much. -/
theorem owned_le {other : Heap}
    (kept : ∀ ref cell, heap.cell? ref = some cell →
      ∃ later, other.cell? ref = some later ∧ later.body = cell.body) : heap.owned ≤ other.owned := by
  refine Tally.sum_map_le cellOwned fun index entry present => ?_
  cases entry with
  | none => exact .inl rfl
  | some cell =>
    rw [Array.getElem?_toList] at present
    obtain ⟨later, found, same⟩ := kept ⟨index⟩ cell (cell?_eq.mpr present)
    refine .inr ⟨some later, ?_, by rw [cellOwned_some, cellOwned_some, same]⟩
    rw [Array.getElem?_toList]
    exact cell?_eq.mp found

/-- What is owned depends on contents only. -/
theorem owned_congr {other : Heap}
    (same : ∀ ref, (other.cell? ref).map (·.body) = (heap.cell? ref).map (·.body)) :
    other.owned = heap.owned := by
  refine le_antisymm (owned_le fun ref cell there => ?_) (owned_le fun ref cell there => ?_)
  · have reading := same ref
    rw [there, Option.map_some] at reading
    exact Option.map_eq_some_iff.mp reading.symm
  · have reading := same ref
    rw [there, Option.map_some] at reading
    exact Option.map_eq_some_iff.mp reading

end Heap

/-! ## What registries and interpreters own -/

/-- The types that a registry keeps. -/
def Registry.handles (registry : Registry) : List Ref := registry.types.map (·.2)

/-- A type that is found in a registry is one of its types. -/
theorem Registry.mem_types_of_handle? {registry : Registry} {id : StructId} {handle : Ref}
    (found : registry.handle? id = some handle) : (id, handle) ∈ registry.types := by
  obtain ⟨front, back, split, _⟩ := List.lookup_eq_some_iff.mp found
  rw [split]
  simp

namespace Interpreter

/-- The modules that an interpreter keeps for as long as it has an owner. -/
def kept (entry : Interpreter) : List Ref := entry.main :: entry.modules.map (·.2)

/-- The references that an interpreter owns: its modules, and the references
whose release other threads have asked for. -/
def claims (entry : Interpreter) : List Ref :=
  (if 0 < entry.owners then entry.kept else []) ++ entry.queue.pending

end Interpreter

namespace World

/-- The references that registries and interpreters own. -/
def claims (world : World) : Multiset Ref :=
  (world.registries.toList.map fun entry => (entry.handles : Multiset Ref)).sum +
    (world.interpreters.toList.map fun entry => (entry.claims : Multiset Ref)).sum

variable {world : World}

/-- Changing a registry that exists changes what it owns. -/
theorem claims_updateRegistry (world : World) {id : RegistryId} (change : Registry → Registry)
    (created : id.number < world.registries.size) :
    (world.updateRegistry id change).claims + (world.registry id).handles =
      world.claims + (change (world.registry id)).handles := by
  have present : world.registries.toList[id.number]? = some (world.registry id) := by
    rw [Array.getElem?_toList, registry, Array.getElem?_eq_getElem created]
    rfl
  have changed := Tally.sum_map_modify (fun entry : Registry => (entry.handles : Multiset Ref))
    change present
  rw [claims, claims, updateRegistry, Array.toList_modify]
  rw [add_right_comm, changed, add_right_comm]

/-- Changing an interpreter that exists changes what it owns. -/
theorem claims_updateInterpreter (world : World) {id : InterpreterId}
    (change : Interpreter → Interpreter)
    (created : id.number < world.interpreters.size) :
    (world.updateInterpreter id change).claims + (world.interpreter id).claims =
      world.claims + (change (world.interpreter id)).claims := by
  have present : world.interpreters.toList[id.number]? = some (world.interpreter id) := by
    rw [Array.getElem?_toList, interpreter, Array.getElem?_eq_getElem created]
    rfl
  have changed := Tally.sum_map_modify
    (fun entry : Interpreter => (entry.claims : Multiset Ref)) change present
  rw [claims, claims, updateInterpreter, Array.toList_modify]
  rw [add_assoc, changed, ← add_assoc]

/-- A registry or an interpreter that was never created is changed by nothing. -/
theorem updateRegistry_of_size_le {id : RegistryId} (change : Registry → Registry)
    (absent : world.registries.size ≤ id.number) : world.updateRegistry id change = world := by
  have same : world.registries.modify id.number change = world.registries := by
    apply Array.ext'
    rw [Array.toList_modify, List.modify_eq_self (by simpa using absent)]
  rw [updateRegistry, same]

theorem updateInterpreter_of_size_le {id : InterpreterId} (change : Interpreter → Interpreter)
    (absent : world.interpreters.size ≤ id.number) : world.updateInterpreter id change = world := by
  have same : world.interpreters.modify id.number change = world.interpreters := by
    apply Array.ext'
    rw [Array.toList_modify, List.modify_eq_self (by simpa using absent)]
  rw [updateInterpreter, same]

/-- A change of a registry that keeps its types keeps what is owned. -/
theorem claims_updateRegistry_same (id : RegistryId) {change : Registry → Registry}
    (same : ∀ entry, (change entry).types = entry.types) :
    (world.updateRegistry id change).claims = world.claims := by
  by_cases created : id.number < world.registries.size
  · have changed := claims_updateRegistry world change created
    rw [Registry.handles, Registry.handles, same] at changed
    exact add_right_cancel changed
  · rw [updateRegistry_of_size_le change (Nat.le_of_not_lt created)]

/-- A registry with types has been created. -/
theorem created_of_mem_types {id : RegistryId} {entry : StructId × Ref}
    (registered : entry ∈ (world.registry id).types) : id.number < world.registries.size := by
  refine Nat.lt_of_not_le fun absent => ?_
  rw [registry, Array.getElem?_eq_none absent] at registered
  exact absurd registered (by simp [Registry.empty])

/-- A handle of a registered type is owned. -/
theorem mem_claims {id : RegistryId} {host : StructId} {handle : Ref}
    (registered : (host, handle) ∈ (world.registry id).types) : handle ∈ world.claims := by
  have created := created_of_mem_types registered
  have member : world.registry id ∈ world.registries.toList := by
    rw [registry, Array.getElem?_eq_getElem created, Option.getD_some]
    simp
  refine Multiset.mem_add.mpr (.inl (Tally.mem_sum_map.mpr ⟨_, member, ?_⟩))
  exact List.mem_map.mpr ⟨(host, handle), registered, rfl⟩

/-- All references that anybody owns, those among them that running code holds. -/
def owed (world : World) (held : Multiset Ref) : Multiset Ref :=
  world.heap.owned + world.claims + held

end World

/-- The places at the start of the heap are counted once for the heap itself. -/
def Ref.pinned (ref : Ref) : Nat := if ref.place < Heap.initial.size then 1 else 0

namespace World

/-- Every object is counted once for each of its owners. -/
def Balanced (world : World) (held : Multiset Ref) : Prop :=
  ∀ ref cell, world.heap.cell? ref = some cell →
    cell.count = ref.pinned + (world.owed held).count ref

/-- Every reference that is owned names a place that has been used. -/
def Within (world : World) (held : Multiset Ref) : Prop :=
  ∀ ref ∈ world.owed held, ref.place < world.heap.size

end World

end HostBridge
