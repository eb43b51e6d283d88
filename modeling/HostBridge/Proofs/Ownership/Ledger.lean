import HostBridge.Interpreter.Queue
import HostBridge.Proofs.Ownership.Tally

/-!
# The ledger of owning references

Every owning reference has a kind, by what it is that owns: a handle of a client, an item of a
list, a global of a module and so on.  The ledger of a world lists all of them, object by object,
registry by registry, interpreter by interpreter, with what clients hold.  It is written down here
without regard to how operations count; that they count what is in the ledger is `Balanced`.

A function that belongs to a module is in the ledger of nobody: it does not own its module.
-/

namespace HostBridge

/-- Kinds of owning references. -/
inductive Stake where
  | handle
  /-- A reference that has been handed to other threads. -/
  | detached
  /-- A reference that was let go too late to be released. -/
  | abandoned
  | item
  | key
  | value
  | global
  /-- The object that a function is bound to. -/
  | receiver
  /-- The type of an instance. -/
  | type
  /-- The wrapper that an alias was read from. -/
  | anchor
  /-- An object inside a host value. -/
  | embedded
  /-- A type that a registry keeps. -/
  | registered
  | main
  | module
  /-- A reference whose release other threads have asked for. -/
  | queued
  deriving DecidableEq, Repr

/-- References that clients hold. -/
structure Books where
  handles : Multiset Ref
  detached : Multiset Detached
  abandoned : Multiset Ref

namespace Books

/-- What clients hold in all. -/
def held (books : Books) : Multiset Ref :=
  books.handles + books.detached.map (·.object) + books.abandoned

def stakes (books : Books) : Multiset (Stake × Ref) :=
  books.handles.map (.handle, ·) + books.detached.map (fun detached => (.detached, detached.object)) +
    books.abandoned.map (.abandoned, ·)

end Books

/-! ## What is in the ledger -/

namespace Held

/-- A wrapper owns the objects inside its value, an alias the wrapper that it was read from. -/
def stakes : Held → List (Stake × Ref)
  | .owned value => value.references.map (.embedded, ·)
  | .alias anchor _ _ => [(.anchor, anchor)]

end Held

namespace Payload

/-- Slots own the objects inside the state that host functions have captured, and types those
inside that of their constructors. -/
def stakes : Payload → List (Stake × Ref)
  | .counter _ | .text _ => []
  | .slotTable _ slots => slots.flatMap fun slot => slot.references.map (.embedded, ·)
  | .bridged type => (type.slots.flatMap fun slot => slot.references.map (.embedded, ·)) ++
      type.captured.references.map (.embedded, ·)
  | .adHoc _ slot => slot.references.map (.embedded, ·)
  | .wrapper _ held => held.stakes

end Payload

namespace Body

def stakes : Body → List (Stake × Ref)
  | .list items => items.map (.item, ·)
  | .tuple items => items.map (.item, ·)
  | .dict table => table.entries.flatMap fun entry => [(.key, entry.key), (.value, entry.value)]
  | .module contents =>
    contents.globals.map (fun entry => (.global, entry.2)) ++
      (contents.state.map Payload.stakes).getD []
  | .function _ (.bound self) => [(.receiver, self)]
  | .function _ (.module _) => []
  | .type shape => (shape.context.map Payload.stakes).getD []
  | .capsule _ payload => payload.stakes
  | .instance shape state => (state.map Payload.stakes).getD [] ++ [(.type, shape)]
  | _ => []

end Body

namespace Registry

def stakes (registry : Registry) : List (Stake × Ref) :=
  registry.types.map fun entry => (.registered, entry.2)

end Registry

namespace Interpreter

/-- An interpreter owns its modules for as long as it has an owner. -/
def stakes (entry : Interpreter) : List (Stake × Ref) :=
  (if 0 < entry.owners then
    (.main, entry.main) :: entry.modules.map fun module => (.module, module.2)
  else []) ++ entry.queue.pending.map (.queued, ·)

end Interpreter

/-- All owning references, those of objects that have not gone away, of registries and of
interpreters, and those that clients hold. -/
def World.ledger (world : World) (books : Books) : Multiset (Stake × Ref) :=
  (world.heap.cells.toList.map fun entry =>
      (((entry.map fun cell => cell.body.stakes).getD [] : List (Stake × Ref)) :
        Multiset (Stake × Ref))).sum +
    (world.registries.toList.map fun entry => (entry.stakes : Multiset (Stake × Ref))).sum +
    (world.interpreters.toList.map fun entry => (entry.stakes : Multiset (Stake × Ref))).sum +
    books.stakes

/-! ## The ledger lists what is owned -/

theorem Tally.map_sum_map {α β γ : Type} (entries : List α) (value : α → Multiset β)
    (read : β → γ) :
    (entries.map value).sum.map read = (entries.map fun entry => (value entry).map read).sum := by
  induction entries with
  | nil => rfl
  | cons entry rest ih =>
    rw [List.map_cons, List.map_cons, List.sum_cons, List.sum_cons, Multiset.map_add, ih]

@[simp]
theorem Held.map_stakes (held : Held) : held.stakes.map (·.2) = held.references := by
  cases held <;> simp [stakes, references]

@[simp]
theorem Payload.map_stakes (payload : Payload) : payload.stakes.map (·.2) = payload.references := by
  cases payload <;> simp [stakes, references, List.map_flatMap]

@[simp]
theorem Payload.map_getD_stakes (state : Option Payload) :
    ((state.map stakes).getD []).map (·.2) = (state.map references).getD [] := by
  cases state <;> simp

@[simp]
theorem Body.map_stakes (body : Body) : body.stakes.map (·.2) = body.references := by
  unfold stakes references
  cases body with
  | dict table => simp [Dict.references, List.map_flatMap]
  | function definition owner => cases owner <;> rfl
  | _ => simp

@[simp]
theorem Registry.map_stakes (registry : Registry) :
    registry.stakes.map (·.2) = registry.handles := by
  simp [stakes, handles]

@[simp]
theorem Interpreter.map_stakes (entry : Interpreter) : entry.stakes.map (·.2) = entry.claims := by
  by_cases owned : 0 < entry.owners <;> simp [stakes, claims, kept, owned]

@[simp]
theorem Books.map_stakes (books : Books) : books.stakes.map (·.2) = books.held := by
  simp [stakes, held]

/-- The ledger names the references that are owned, each as often as it is owned. -/
theorem World.map_ledger (world : World) (books : Books) :
    (world.ledger books).map (·.2) = world.owed books.held := by
  have objects : ∀ entry : Option Cell,
      (((entry.map fun cell => cell.body.stakes).getD [] : List (Stake × Ref)) :
        Multiset (Stake × Ref)).map (·.2) = Heap.cellOwned entry := by
    rintro (_ | cell) <;> simp
  rw [ledger, Multiset.map_add, Multiset.map_add, Multiset.map_add, Books.map_stakes,
    Tally.map_sum_map, Tally.map_sum_map, Tally.map_sum_map, owed, claims, Heap.owned, ← add_assoc]
  simp [objects]

/-- An object is counted once for each entry of the ledger that names it. -/
theorem World.Balanced.count_eq {world : World} {books : Books}
    (balanced : world.Balanced books.held)
    {ref : Ref} {cell : Cell} (present : world.heap.cell? ref = some cell) :
    cell.count = ref.pinned + (world.ledger books).countP (·.2 = ref) := by
  rw [balanced ref cell present, ← world.map_ledger, Multiset.count, Multiset.countP_map,
    Multiset.countP_eq_card_filter]
  simp only [eq_comm]

end HostBridge
