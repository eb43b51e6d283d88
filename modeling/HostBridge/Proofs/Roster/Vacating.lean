import HostBridge.Proofs.Ownership.Lifecycle
import HostBridge.Proofs.Roster.Attendance
import HostBridge.Proofs.Roster.Tenure
import HostBridge.Proofs.Session.Accounting

/-!
# Wrappers leave rosters before they go away

A roster leads from wrapper to wrapper, so nobody may go away who is on one.  The hook of a wrapper
takes it off while its registry has an owner, and a registry that is cleared forgets its wrappers
before it gives up its types.  The main statement follows wrappers through all that clients and
other threads may do, before and after interpreters end.

Only a registry that its last owner lets go gives up its types while wrappers are on its roster, when
their hooks do not reach it any more.  So the statement covers the worlds on the way for registries
that are unburdened then: what their types own leads to no wrapper that goes away with them.
-/

namespace HostBridge

variable {program : Program} {touch : Permission}

/-! ## Giving up references, one after the other -/

/-- While references are given up, a world that is come by, and what is to be given up then. -/
inductive World.Passes (world : World) (refs : List Ref) : World → List Ref → Prop
  | start : Passes world refs world refs
  | gone {middle : World} {ref : Ref} {rest : List Ref}
      (front : Passes world refs middle (ref :: rest)) (absent : middle.heap.cell? ref = none) :
      Passes world refs middle rest
  | last {middle : World} {ref : Ref} {rest : List Ref} {cell : Cell}
      (front : Passes world refs middle (ref :: rest)) (there : middle.heap.cell? ref = some cell)
      (single : cell.count ≤ 1) :
      Passes world refs (middle.retire ref cell.body) (cell.body.references ++ rest)
  | shared {middle : World} {ref : Ref} {rest : List Ref} {cell : Cell}
      (front : Passes world refs middle (ref :: rest)) (there : middle.heap.cell? ref = some cell)
      (several : 1 < cell.count) :
      Passes world refs
        { middle with heap := middle.heap.put ref (some { cell with count := cell.count - 1 }) } rest

namespace World.Passes

variable {world middle : World} {refs rest : List Ref} {id : RegistryId}

theorem trans {final : World} {later : List Ref} (front : world.Passes refs middle rest)
    (back : middle.Passes rest final later) : world.Passes refs final later := by
  induction back with
  | start => exact front
  | gone _ absent ih => exact ih.gone absent
  | last _ there single ih => exact ih.last there single
  | shared _ there several ih => exact ih.shared there several

/-- The end is come by, too. -/
theorem finish (world : World) (refs : List Ref) : world.Passes refs (world.releaseAll refs)
    [] := by
  induction world, refs using releaseAll.induct with
  | case1 world =>
    rw [releaseAll_nil]
    exact .start
  | case2 world ref rest absent ih =>
    rw [releaseAll_of_gone rest absent]
    exact (Passes.start.gone absent).trans ih
  | case3 world ref rest cell there single ih =>
    rw [releaseAll_of_last rest there single]
    exact (Passes.start.last there single).trans ih
  | case4 world ref rest cell there several ih =>
    rw [releaseAll_of_shared rest there (Nat.lt_of_not_le several)]
    exact (Passes.start.shared there (Nat.lt_of_not_le several)).trans ih

/-- On the way references are taken over, and given up. -/
theorem path (passes : world.Passes refs middle rest) (held : Multiset Ref) :
    Path program touch world (held + refs) middle (held + rest) := by
  induction passes with
  | start => exact .refl _ _
  | gone front absent ih =>
    refine ih.step (.forget _ absent ?_)
    rw [Tally.coe_cons]
    abel
  | @last middle ref rest cell front there single ih =>
    refine ih.step (.retire ref (held + rest) there single ?_ ?_)
    · rw [Tally.coe_cons]
      abel
    · rw [← Multiset.coe_add]
      abel
  | shared front there several ih =>
    refine ih.step (.lower _ there several ?_)
    rw [Tally.coe_cons]
    abel

/-- Of registries only rosters are changed. -/
theorem read {α : Type} (read : Registry → α)
    (blind : ∀ entry roster, read { entry with roster } = read entry)
    (passes : world.Passes refs middle rest) (id : RegistryId) :
    read (middle.registry id) = read (world.registry id) := by
  induction passes with
  | start => rfl
  | gone front absent ih => exact ih
  | last front there single ih => rw [read_retire read blind, ih]
  | shared front there several ih => exact ih

/-- A registry without owners can be changed before as well as on the way. -/
theorem updateRegistry (change : Registry → Registry)
    (owners : ∀ entry, (change entry).owners = entry.owners)
    (gone : (world.registry id).owners = 0) (passes : world.Passes refs middle rest) :
    (world.updateRegistry id change).Passes refs (middle.updateRegistry id change) rest := by
  induction passes with
  | start => exact .start
  | gone front absent ih => exact ih.gone absent
  | last front there single ih =>
    have dead := (front.read Registry.owners (fun _ _ => rfl) id).trans gone
    rw [← retire_updateRegistry_of_gone change owners dead]
    exact ih.last there single
  | shared front there several ih => exact ih.shared there several

/-- When all that is given up are objects that own nothing, and no wrappers, no wrapper goes
away. -/
theorem spares_wrappers (passes : world.Passes refs middle rest)
    (bare : ∀ ref ∈ refs, (world.heap.body ref).references = [] ∧
      ∀ id, (world.heap.body ref).wraps id = false) :
    (∀ ref ∈ rest, (middle.heap.body ref).references = [] ∧
      ∀ id, (middle.heap.body ref).wraps id = false) ∧
    ∀ id ref, world.heap.isWrapper id ref = true → middle.heap.isWrapper id ref = true := by
  induction passes with
  | start => exact ⟨bare, fun _ _ wrapper => wrapper⟩
  | gone front absent ih =>
    exact ⟨fun ref member => ih.1 ref (List.mem_cons_of_mem _ member), ih.2⟩
  | @last middle ref rest cell front there single ih =>
    obtain ⟨nothing, other⟩ := ih.1 ref (List.mem_cons_self ..)
    have body : ∀ other, (middle.heap.put ref none).body other =
        if other = ref then .none else middle.heap.body other := by
      intro other
      by_cases same : other = ref
      · simp [same, Heap.body, Heap.cell?_put_same none there]
      · simp [same, Heap.body, Heap.cell?_put_other _ none (Ne.symm same)]
    have clearing : cell.body.references = [] := by rwa [Heap.body_eq there] at nothing
    rw [clearing, List.nil_append, heap_retire]
    refine ⟨fun later member => ?_, fun id later wrapper => ?_⟩
    · rw [body]
      split
      · exact ⟨rfl, fun _ => rfl⟩
      · exact ih.1 later (List.mem_cons_of_mem _ member)
    · have stays := ih.2 id later wrapper
      rw [Heap.isWrapper, body, if_neg]
      · exact stays
      · rintro rfl
        exact Bool.false_ne_true ((other id).symm.trans stays)
  | @shared middle ref rest cell front there several ih =>
    have body : ∀ other, (middle.heap.put ref (some { cell with count := cell.count - 1 })).body other
        = middle.heap.body other := fun other => by
      refine Heap.body_congr ?_
      rw [Heap.cell?_put _ there]
      split
      · simp_all
      · rfl
    refine ⟨fun later member => ?_, fun id later wrapper => ?_⟩
    · dsimp only
      rw [body]
      exact ih.1 later (List.mem_cons_of_mem _ member)
    · rw [Heap.isWrapper]
      dsimp only
      rw [body]
      exact ih.2 id later wrapper

end World.Passes

/-! ## Clearing a registry, and letting it go -/

namespace World

variable {world : World} {id : RegistryId} {held : Multiset Ref}

/-- A registry that is being cleared: its types have been taken out, and its wrappers forgotten. -/
def clearing (world : World) (id : RegistryId) : World :=
  (world.updateRegistry id fun entry =>
    { entry with bridged := [], types := [], roster := entry.roster.detachAll }).note .debug
      s!"bridge context cleared ({(world.registry id).types.length} types)"

/-- A registry that an owner is letting go: its types have been taken out, and its wrappers are
still to be forgotten. -/
def deserted (world : World) (id : RegistryId) : World :=
  (world.updateRegistry id fun entry => { entry with owners := entry.owners - 1 }).updateRegistry id
    fun entry => { entry with bridged := [], types := [] }

theorem dropRegistry_eq (last : (world.registry id).owners ≤ 1) :
    world.dropRegistry id =
      ((world.deserted id).releaseAll (world.registry id).handles).updateRegistry id fun entry =>
        { entry with roster := entry.roster.detachAll } :=
  if_pos last

/-- What handles of a registry lead to owns what the constructor has captured, and is no wrapper. -/
theorem Wired.body_handle (wired : world.Wired program) {handle : Ref}
    (member : handle ∈ (world.registry id).handles) :
    ∃ bridged, world.heap.bridgedType? handle = some bridged ∧
      (world.heap.body handle).references = bridged.captured.references ∧
      ∀ other, (world.heap.body handle).wraps other = false := by
  obtain ⟨⟨host, other⟩, among, same⟩ := List.mem_map.mp member
  obtain rfl : other = handle := same
  obtain ⟨bridged, shape, _⟩ := wired.handle id host other among
  obtain ⟨cell, typeBody, present, contents, context⟩ := Heap.bridgedType?_eq_some.mp shape
  have reading := (Heap.body_eq present).trans contents
  obtain ⟨_, _, _, _, _, right, _, rfl⟩ := wired.type _ typeBody reading bridged context
  obtain rfl := Payload.bridged.inj (Option.some.inj context)
  refine ⟨_, shape, ?_, fun other => ?_⟩
  · rw [reading, Program.references_typeBody right]
    rfl
  · rw [reading]
    rfl

/-- When the last owner of a registry lets it go, no wrapper on its roster goes away with it: no
constructor of a registered type owns an object, or all of them are there afterwards. -/
def Unburdened (world : World) (id : RegistryId) : Prop :=
  (∀ handle ∈ (world.registry id).handles, ∀ bridged,
      world.heap.bridgedType? handle = some bridged → bridged.captured.references = []) ∨
    ∀ ref, (world.registry id).roster.linked ref = true →
      (world.dropRegistry id).heap.holds ref = true

/-- While a registry is let go whose types own no wrapper, whoever is on its roster stays. -/
theorem Unburdened.holds (unburdened : world.Unburdened id) (wired : world.Wired program)
    (last : (world.registry id).owners ≤ 1) {ref : Ref}
    (wrapper : world.heap.isWrapper id ref = true)
    (linked : (world.registry id).roster.linked ref = true) :
    ((world.deserted id).releaseAll (world.registry id).handles).heap.holds ref = true := by
  rcases unburdened with bare | stay
  · have spared := ((Passes.finish (world.deserted id) (world.registry id).handles).spares_wrappers
      fun handle member => by
        obtain ⟨bridged, shape, owned, other⟩ := wired.body_handle member
        exact ⟨owned.trans (bare handle member bridged shape), other⟩).2 id ref wrapper
    obtain ⟨cell, present, _⟩ := Heap.exists_of_isWrapper spared
    simp [Heap.holds, present]
  · have there := stay ref linked
    rwa [dropRegistry_eq last] at there

end World

/-! ## How wrappers go away -/

/-- What has been a wrapper of a registry goes on being one. -/
theorem Body.Persists.wraps {id : RegistryId} {old new : Body} (persists : old.Persists new)
    (wrapper : old.wraps id = true) : new.wraps id = true := by
  unfold Body.wraps at wrapper
  split at wrapper
  · obtain ⟨content, rfl, _⟩ := persists
    exact wrapper
  · cases wrapper

/-- A wrapper stays one of its registry, or it has gone away on the way. -/
theorem Path.departs {first second : World} {given held : Multiset Ref}
    (path : Path program Permission.anything first given second held)
    (sound : first.Sound program given) (tidy : first.Tidy) {id : RegistryId} {ref : Ref}
    (wrapper : first.heap.isWrapper id ref = true) :
    second.heap.isWrapper id ref = true ∨
      second.heap.cell? ref = none ∧
        Path.Retires program first given second held ref (first.heap.body ref) := by
  obtain ⟨cell, present, wraps⟩ := Heap.exists_of_isWrapper wrapper
  cases found : second.heap.cell? ref with
  | none =>
    rw [Heap.body_eq present]
    exact .inr ⟨rfl, path.retires sound tidy present found⟩
  | some kept =>
    rw [Heap.isWrapper, Heap.body_eq found]
    exact .inl ((path.persists present found).wraps wraps)

namespace World.Reached

variable {world : World} {held : Multiset Ref}

/-- When the hook of an object has run, no roster leads to it. -/
theorem unlinked (honest : program.Honest) (reached : world.Reached program held) {ref : Ref}
    {cell : Cell} (present : world.heap.cell? ref = some cell) :
    (world.deallocate ⟨ref, cell.body⟩).Seated ∧
      ∀ id, ((world.deallocate ⟨ref, cell.body⟩).registry id).roster.linked ref = false ∧
        ¬((world.deallocate ⟨ref, cell.body⟩).registry id).roster.LeadsTo ref := by
  have vacated : ∀ id, ∃ members, (world.deallocate ⟨ref, cell.body⟩).Seats id members ∧
      ref ∉ members := fun id => by
    obtain ⟨members, attends⟩ := reached.attends honest id
    exact ⟨_, (attends.deallocate (reached.sound honest).wired present).toSeats,
      attends.distinct.not_mem_erase⟩
  refine ⟨seated_of_seats fun id => ?_, fun id => ?_⟩
  · obtain ⟨members, seats, _⟩ := vacated id
    exact ⟨members, seats⟩
  · obtain ⟨members, seats, outside⟩ := vacated id
    rw [seats.roster, ← Bool.not_eq_true]
    exact ⟨fun linked => outside (Roster.linked_chain.mp linked),
      fun leads => outside (Roster.mem_of_leadsTo leads)⟩

end World.Reached

/-- Clients make a request that ends well. -/
theorem Holding.after {earlier : List Request} {handles rest abandoned : Multiset Ref}
    {detached : Multiset Detached} {refs : List Ref}
    (holding : Holding program (Request.played program earlier) ⟨handles, detached, abandoned⟩)
    (request : Request)
    (given : handles = request.spent + rest) (ordinary : request.Ordinary)
    (allowed : request.Allowed program (Request.played program earlier))
    (result : ((request.run program).run (Request.played program earlier)).1 = .ok refs) :
    Holding program (Request.played program (request :: earlier))
      ⟨refs + rest, detached, abandoned⟩ :=
  .request request ordinary (given ▸ holding) allowed (Prod.ext result rfl)

namespace Figures

/-- After the interpreter has ended, the type of points is registered once more, with a constructor
that comes to be the only owner of a point on the roster.  The client lets go of the type, too. -/
def burdening : List Request :=
  [.release ⟨11⟩, .release ⟨10⟩, .release ⟨4⟩,
    .registerTypeHolding bridge ⟨0, .object ⟨10⟩⟩ ⟨4⟩ "Point" ""] ++ lifetimes

set_option maxRecDepth 10000 in
/-- The registry is not unburdened.  While its last owner lets it go, the point goes away with the
type, and is linked still. -/
example :
    let world := Request.played Figures.program burdening
    let later := (world.deserted ⟨0⟩).releaseAll (world.registry ⟨0⟩).handles
    (world.registry ⟨0⟩).owners = 1 ∧ (world.registry ⟨0⟩).roster.members = [⟨10⟩] ∧
      later.heap.holds ⟨10⟩ = false ∧ (later.registry ⟨0⟩).roster.linked ⟨10⟩ = true := by
  cbv

end Figures

end HostBridge
