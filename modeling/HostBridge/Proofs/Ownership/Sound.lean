import HostBridge.Proofs.Ownership.Tally
import HostBridge.Proofs.Ownership.Types

/-!
# Sound worlds

What holds of the world between any two steps of any operation.  Objects are
counted once for each owner, and the three objects that exist from the start
are there.  Wrappers are wired to their types: the type of a wrapper is bridged,
in the registry of the wrapper, and a value that a wrapper owns is one of its
struct.  An alias names a field that is declared with the alias's struct, inside
the place of the wrapper that it was read from, and that wrapper is older.  A
registry keeps handles of its own types only.
-/

namespace HostBridge

section

variable (program : Program)

/-- The type of a field, if the struct has one at that position. -/
def Program.fieldType? (host : StructId) (index : Nat) : Option HostType :=
  ((program.struct host).fields[index]?).map (·.type)

/-- What a wrapper of a bridged type may hold: a value of the struct, or a place
one field below that of another wrapper of the registry. -/
inductive Held.Sound (heap : Heap) (bridged : BridgedType) : Held → Prop
  | owned {value : HostValue} (fit : value.fits program (.struct bridged.host) = true) :
    Held.Sound heap bridged (.owned value)
  | nested {anchor root : Ref} {path : List Nat} {index : Nat} {outer : Held}
      {outerType : BridgedType} (wrapper : heap.wrapper? anchor = some (outer, outerType))
      (registry : outerType.registry = bridged.registry)
      (above : Heap.location anchor outer = (root, path))
      (declared : program.fieldType? outerType.host index = some (.struct bridged.host)) :
    Held.Sound heap bridged (.alias anchor root (path ++ [index]))

/-- What a wrapper of a registry and of a type may hold. -/
def Heap.Shows (heap : Heap) (registry : RegistryId) (type : Ref) (held : Held) : Prop :=
  ∃ bridged, heap.bridgedType? type = some bridged ∧ bridged.registry = registry ∧
    held.Sound program heap bridged

/-- A wrapper is younger than the one that it was read from. -/
def Held.Below (ref : Ref) : Held → Prop
  | .owned _ => True
  | .alias anchor _ _ => anchor.place < ref.place

namespace World

/-- Wrappers, types and registries fit each other. -/
structure Wired (world : World) : Prop where
  wrapper : ∀ ref type registry held,
    world.heap.body ref = .instance type (some (.wrapper registry held)) →
      world.heap.Shows program registry type held ∧ held.Below ref
  type : ∀ ref shape, world.heap.body ref = .type shape → shape.Synthesized program
  handle : ∀ id host handle, (host, handle) ∈ (world.registry id).types →
    ∃ bridged, world.heap.bridgedType? handle = some bridged ∧ bridged.registry = id ∧
      bridged.host = host

/-- The objects that exist from the start are still there. -/
def Grounded (world : World) : Prop :=
  ∀ ref first, Heap.initial.cell? ref = some first →
    ∃ cell, world.heap.cell? ref = some cell ∧ cell.body = first.body

/-- What holds between any two steps, `held` being the references that running
code holds. -/
structure Sound (world : World) (held : Multiset Ref) : Prop where
  balanced : world.Balanced held
  within : world.Within held
  wired : world.Wired program
  grounded : world.Grounded

end World

end

namespace Heap

variable {heap : Heap} {ref : Ref}

/-- An object that is read as something has not gone away. -/
theorem body_eq {cell : Cell} (present : heap.cell? ref = some cell) :
    heap.body ref = cell.body := by
  simp [body, present]

theorem exists_cell_of_body {body : Body} (reading : heap.body ref = body)
    (something : body ≠ .none) : ∃ cell, heap.cell? ref = some cell ∧ cell.body = body := by
  cases present : heap.cell? ref with
  | none => exact absurd (by simp [← reading, Heap.body, present]) something
  | some cell => exact ⟨cell, rfl, by rw [← reading, body_eq present]⟩

theorem bridgedType?_eq_some {bridged : BridgedType} :
    heap.bridgedType? ref = some bridged ↔
      ∃ cell shape, heap.cell? ref = some cell ∧ cell.body = .type shape ∧
        shape.context = some (.bridged bridged) := by
  constructor
  · intro reading
    unfold bridgedType? typeContext? type? at reading
    cases contents : heap.body ref with
    | type shape =>
      rw [contents] at reading
      obtain ⟨cell, present, same⟩ := exists_cell_of_body contents (by simp)
      refine ⟨cell, shape, present, same, ?_⟩
      simp only [Option.bind_some] at reading
      split at reading
      · simp_all
      · simp at reading
    | _ => simp [contents] at reading
  · rintro ⟨cell, shape, present, same, context⟩
    simp [bridgedType?, typeContext?, type?, body_eq present, same, context]

theorem wrapper?_eq_some {held : Held} {bridged : BridgedType} :
    heap.wrapper? ref = some (held, bridged) ↔
      ∃ cell type registry, heap.cell? ref = some cell ∧
        cell.body = .instance type (some (.wrapper registry held)) ∧
          heap.bridgedType? type = some bridged := by
  constructor
  · intro reading
    unfold wrapper? at reading
    split at reading
    · rename_i type registry content contents
      obtain ⟨cell, present, same⟩ := exists_cell_of_body contents (by simp)
      obtain ⟨shape, found, pair⟩ := Option.map_eq_some_iff.mp reading
      obtain ⟨rfl, rfl⟩ := Prod.mk.inj pair
      exact ⟨cell, type, registry, present, same, found⟩
    · simp at reading
  · rintro ⟨cell, type, registry, present, same, found⟩
    simp [wrapper?, body_eq present, same, found]

theorem place_lt_size {cell : Cell} (present : heap.cell? ref = some cell) :
    ref.place < heap.size :=
  (Array.getElem?_eq_some_iff.mp (cell?_eq.mp present)).1

end Heap

end HostBridge
