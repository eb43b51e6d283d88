import HostBridge.Object.Basic

/-!
# The heap

The heap holds every runtime object at the place that its references name,
together with the number of references to it.  A new object gets a new place;
the place of an object that has gone away stays empty, so a reference that is
not counted, such as the one from a function to its module, can be tested for
life at any time.
-/

namespace HostBridge

/-- An object and the number of references to it. -/
structure Cell where
  count : Nat
  body : Body
  deriving Inhabited

/-- Runtime objects by place. -/
structure Heap where
  cells : Array (Option Cell)
  deriving Inhabited

namespace Heap

/-- The heap with the three objects that exist from the start, each held once
for as long as the heap exists. -/
def initial : Heap :=
  ⟨#[some ⟨1, .none⟩, some ⟨1, .bool false⟩, some ⟨1, .bool true⟩]⟩

/-- The object at a place, if it has not gone away. -/
def cell? (heap : Heap) (ref : Ref) : Option Cell := (heap.cells[ref.place]?).join

/-- Whether an object has not gone away. -/
def holds (heap : Heap) (ref : Ref) : Bool := (heap.cell? ref).isSome

/-- The contents of an object; a place without one reads as nothing. -/
def body (heap : Heap) (ref : Ref) : Body :=
  match heap.cell? ref with
  | some cell => cell.body
  | none => .none

/-- The number of references to an object. -/
def count (heap : Heap) (ref : Ref) : Nat :=
  match heap.cell? ref with
  | some cell => cell.count
  | none => 0

/-- The number of places ever used; no chain of distinct objects is longer. -/
def size (heap : Heap) : Nat := heap.cells.size

/-- The number of objects that have not gone away. -/
def population (heap : Heap) : Nat := heap.cells.countP Option.isSome

/-- The place that the next object gets. -/
def next (heap : Heap) : Ref := ⟨heap.cells.size⟩

/-- Place a new object, held once. -/
def push (heap : Heap) (body : Body) : Heap := ⟨heap.cells.push (some ⟨1, body⟩)⟩

/-- Replace the cell at a place. -/
def put (heap : Heap) (ref : Ref) (cell : Option Cell) : Heap :=
  ⟨heap.cells.setIfInBounds ref.place cell⟩

/-- Change the contents of an object. -/
def setBody (heap : Heap) (ref : Ref) (body : Body) : Heap :=
  match heap.cell? ref with
  | some cell => heap.put ref (some { cell with body })
  | none => heap

/-- Count one more reference. -/
def retain (heap : Heap) (ref : Ref) : Heap :=
  match heap.cell? ref with
  | some cell => heap.put ref (some { cell with count := cell.count + 1 })
  | none => heap

/-! ## Reading back -/

theorem cell?_eq {heap : Heap} {ref : Ref} {cell : Cell} :
    heap.cell? ref = some cell ↔ heap.cells[ref.place]? = some (some cell) := by
  simp [cell?, Option.join_eq_some_iff]

@[simp]
theorem cell?_push_next (heap : Heap) (body : Body) :
    (heap.push body).cell? heap.next = some ⟨1, body⟩ := by
  simp [cell?, push, next]

theorem cell?_push_other {heap : Heap} {ref : Ref} (body : Body) (old : ref ≠ heap.next) :
    (heap.push body).cell? ref = heap.cell? ref := by
  have apart : ref.place ≠ heap.cells.size := fun equal => old (by cases ref; simp_all [next])
  simp only [cell?, push, Array.getElem?_push]
  split
  · contradiction
  · rfl

theorem cell?_put_same {heap : Heap} {ref : Ref} {old : Cell} (cell : Option Cell)
    (present : heap.cell? ref = some old) : (heap.put ref cell).cell? ref = cell := by
  have inside : ref.place < heap.cells.size :=
    (Array.getElem?_eq_some_iff.mp (cell?_eq.mp present)).1
  simp [cell?, put, inside]

theorem cell?_put_other (heap : Heap) {ref other : Ref} (cell : Option Cell)
    (distinct : ref ≠ other) : (heap.put ref cell).cell? other = heap.cell? other := by
  have apart : ref.place ≠ other.place := by
    intro equal
    exact distinct (by cases ref; cases other; simp_all)
  simp [cell?, put, apart]

/-- Emptying a place makes the population smaller. -/
theorem population_put_none {heap : Heap} {ref : Ref} {cell : Cell}
    (present : heap.cell? ref = some cell) :
    (heap.put ref none).population + 1 = heap.population := by
  obtain ⟨inside, reading⟩ := Array.getElem?_eq_some_iff.mp (cell?_eq.mp present)
  have positive : 0 < heap.cells.countP Option.isSome :=
    Array.countP_pos_iff.mpr ⟨_, Array.getElem_mem inside, by simp [reading]⟩
  simp only [population, put, Array.setIfInBounds, inside, dite_true]
  rw [Array.countP_set]
  simp only [reading, Option.isSome_some, Option.isSome_none, if_true]
  simp
  omega

/-- Replacing an object by another keeps the population. -/
theorem population_put_some {heap : Heap} {ref : Ref} {cell : Cell} (new : Cell)
    (present : heap.cell? ref = some cell) :
    (heap.put ref (some new)).population = heap.population := by
  obtain ⟨inside, reading⟩ := Array.getElem?_eq_some_iff.mp (cell?_eq.mp present)
  have positive : 0 < heap.cells.countP Option.isSome :=
    Array.countP_pos_iff.mpr ⟨_, Array.getElem_mem inside, by simp [reading]⟩
  simp only [population, put, Array.setIfInBounds, inside, dite_true]
  rw [Array.countP_set]
  simp only [reading, Option.isSome_some, if_true]
  omega

end Heap

end HostBridge
