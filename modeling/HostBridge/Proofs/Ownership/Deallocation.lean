import HostBridge.Proofs.Ownership.Lending
import Mathlib.Data.Fintype.EquivFin
import Mathlib.Order.WellFounded

/-!
# Objects that go away

When references are given up, each object loses as many of them as name it, and goes away when
none is left.  What goes away gives up the references that it owned, so others may go away after
it.  The partings say which objects go away and in which order.  Each of them goes away once, with
the contents that it had, and that is when its hook runs.

A structure without cycles that nobody outside owns cannot be there: of the objects in it, one
would not be owned by any other.
-/

namespace HostBridge

/-- An object that goes away, with its contents. -/
structure Parting where
  ref : Ref
  body : Body

namespace World

variable {program : Program} {world : World} {ref : Ref} {refs : List Ref} {rest : Multiset Ref}

/-- The objects that go away when references are given up, in the order in which they do. -/
def partings (world : World) (refs : List Ref) : List Parting :=
  match refs with
  | [] => []
  | ref :: rest =>
    match _found : world.heap.cell? ref with
    | none => partings world rest
    | some cell =>
      if cell.count ≤ 1 then
        ⟨ref, cell.body⟩ :: partings (world.retire ref cell.body) (cell.body.references ++ rest)
      else
        partings
          { world with heap := world.heap.put ref (some { cell with count := cell.count - 1 }) }
          rest
termination_by (world.heap.population, refs.length)
decreasing_by
  · exact Prod.Lex.right _ (by simp)
  · apply Prod.Lex.left
    have := Heap.population_put_none _found
    simp only [heap_retire]
    omega
  · simp only [Heap.population_put_some _ _found]
    exact Prod.Lex.right _ (by simp)

/-- The references to an object that are given up: those that were to be given up at first, and
those that objects owned which have gone away. -/
def givenUp (world : World) (refs : List Ref) (ref : Ref) : Nat :=
  (refs ++ (world.partings refs).flatMap (·.body.references)).count ref

/-- Run the hook of an object that goes away, if it is an instance. -/
def deallocate (world : World) (parting : Parting) : World :=
  match parting.body with
  | .instance type state => world.finalizeInstance parting.ref type state
  | _ => world

@[simp]
theorem partings_nil (world : World) : world.partings [] = [] := by
  rw [partings]

theorem partings_of_gone (refs : List Ref) (gone : world.heap.cell? ref = none) :
    world.partings (ref :: refs) = world.partings refs := by
  rw [partings]
  split
  · rfl
  · simp_all

theorem partings_of_last {cell : Cell} (refs : List Ref) (there : world.heap.cell? ref = some cell)
    (last : cell.count ≤ 1) :
    world.partings (ref :: refs) =
      ⟨ref, cell.body⟩ :: (world.retire ref cell.body).partings (cell.body.references ++ refs) := by
  rw [partings]
  split
  · simp_all
  · rename_i found
    rw [there, Option.some.injEq] at found
    subst found
    rw [if_pos last]

theorem partings_of_shared {cell : Cell} (refs : List Ref)
    (there : world.heap.cell? ref = some cell) (shared : 1 < cell.count) :
    world.partings (ref :: refs) =
      World.partings
        { world with heap := world.heap.put ref (some { cell with count := cell.count - 1 }) }
        refs := by
  rw [partings]
  split
  · simp_all
  · rename_i found
    rw [there, Option.some.injEq] at found
    subst found
    rw [if_neg (Nat.not_le.mpr shared)]

/-! ## How many references are given up -/

section

variable {cell : Cell} {given : Ref} {refs : List Ref}

theorem givenUp_of_gone (gone : world.heap.cell? given = none) (other : given ≠ ref) :
    world.givenUp (given :: refs) ref = world.givenUp refs ref := by
  rw [givenUp, givenUp, partings_of_gone refs gone, List.cons_append, List.count_cons_of_ne other]

theorem givenUp_of_last (there : world.heap.cell? given = some cell) (last : cell.count ≤ 1)
    (other : given ≠ ref) :
    world.givenUp (given :: refs) ref =
      (world.retire given cell.body).givenUp (cell.body.references ++ refs) ref := by
  rw [givenUp, givenUp, partings_of_last refs there last, List.cons_append,
    List.count_cons_of_ne other, List.flatMap_cons]
  simp only [List.count_append]
  omega

theorem givenUp_of_shared (there : world.heap.cell? given = some cell) (shared : 1 < cell.count) :
    world.givenUp (given :: refs) ref =
      World.givenUp
        { world with heap := world.heap.put given (some { cell with count := cell.count - 1 }) }
        refs ref + if given = ref then 1 else 0 := by
  rw [givenUp, givenUp, partings_of_shared refs there shared, List.cons_append, List.count_cons]
  simp only [beq_iff_eq]

end

/-! ## Which objects go away -/

/-- What becomes of an object when references are given up: it stays with a smaller count, or goes
away if as many references are given up as it was counted for. -/
def Fares (world : World) (refs : List Ref) (ref : Ref) (cell : Cell) : Prop :=
  (world.givenUp refs ref < cell.count ∧
    (world.releaseAll refs).heap.cell? ref =
      some { cell with count := cell.count - world.givenUp refs ref } ∧
    ∀ parting ∈ world.partings refs, parting.ref ≠ ref) ∨
  (cell.count ≤ world.givenUp refs ref ∧ (world.releaseAll refs).heap.cell? ref = none ∧
    ⟨ref, cell.body⟩ ∈ world.partings refs)

section

variable {given : Ref} {owner cell : Cell} {refs : List Ref}

/-- The last reference to an object is given up. -/
theorem fares_last (there : world.heap.cell? ref = some cell) (last : cell.count ≤ 1) :
    world.Fares (ref :: refs) ref cell := by
  rw [Fares, partings_of_last refs there last, releaseAll_of_last refs there last]
  refine .inr ⟨?_, gone_releaseAll _ ?_, by simp⟩
  · rw [givenUp, partings_of_last refs there last, List.cons_append, List.count_cons_self]
    omega
  · rw [heap_retire, Heap.cell?_put none there, if_pos rfl]

/-- The last reference to another object is given up. -/
theorem fares_of_last (there : world.heap.cell? given = some owner) (last : owner.count ≤ 1)
    (other : given ≠ ref)
    (fares : (world.retire given owner.body).Fares (owner.body.references ++ refs) ref cell) :
    world.Fares (given :: refs) ref cell := by
  rw [Fares, partings_of_last refs there last, releaseAll_of_last refs there last,
    givenUp_of_last there last other]
  refine fares.imp ?_ ?_
  · rintro ⟨fewer, stays, apart⟩
    refine ⟨fewer, stays, fun parting member => ?_⟩
    rcases List.mem_cons.mp member with rfl | member
    · exact other
    · exact apart parting member
  · rintro ⟨all, gone, parted⟩
    exact ⟨all, gone, List.mem_cons_of_mem _ parted⟩

/-- A reference to an object is given up that others own as well. -/
theorem fares_shared (there : world.heap.cell? ref = some cell) (shared : 1 < cell.count)
    (fares : World.Fares
      { world with heap := world.heap.put ref (some { cell with count := cell.count - 1 }) }
      refs ref { cell with count := cell.count - 1 }) :
    world.Fares (ref :: refs) ref cell := by
  rw [Fares, partings_of_shared refs there shared, releaseAll_of_shared refs there shared,
    givenUp_of_shared there shared, if_pos rfl]
  refine fares.imp ?_ ?_
  · rintro ⟨fewer, stays, apart⟩
    dsimp only at fewer
    refine ⟨by omega, ?_, apart⟩
    rw [stays]
    simp only [Option.some.injEq, Cell.mk.injEq, and_true]
    omega
  · rintro ⟨all, gone, parted⟩
    dsimp only at all
    exact ⟨by omega, gone, parted⟩

end

/-- An object goes away when the references to it are given up, and not before. -/
theorem fares (counted : ∀ ref cell, world.heap.cell? ref = some cell → 0 < cell.count)
    {cell : Cell}
    (present : world.heap.cell? ref = some cell) : world.Fares refs ref cell := by
  induction world, refs using releaseAll.induct generalizing cell with
  | case1 world =>
    refine .inl ⟨?_, ?_, by simp⟩
    · simpa [givenUp] using counted ref cell present
    · simpa [givenUp] using present
  | case2 world given rest gone ih =>
    have other : given ≠ ref := by
      rintro rfl
      rw [gone] at present
      cases present
    rw [Fares, givenUp_of_gone gone other, partings_of_gone rest gone, releaseAll_of_gone rest gone]
    exact ih counted present
  | case3 world given rest owner there last ih =>
    by_cases same : given = ref
    · subst same
      rw [there, Option.some.injEq] at present
      subst present
      exact fares_last there last
    · refine fares_of_last there last same (ih ?_ ?_)
      · rw [heap_retire]
        exact Heap.counted_put counted there (by simp)
      · rw [heap_retire, Heap.cell?_put none there, if_neg (Ne.symm same), present]
  | case4 world given rest owner there many ih =>
    have shared : 1 < owner.count := Nat.lt_of_not_le many
    have counted' : ∀ ref cell, (world.heap.put given
        (some { owner with count := owner.count - 1 })).cell? ref = some cell → 0 < cell.count := by
      refine Heap.counted_put counted there ?_
      intro lowered same
      rw [← Option.some.inj same]
      exact Nat.sub_pos_of_lt shared
    by_cases same : given = ref
    · subst same
      rw [there, Option.some.injEq] at present
      subst present
      exact fares_shared there shared (ih counted' (Heap.cell?_put_same _ there))
    · have fares := ih counted' (by
        dsimp only
        rw [Heap.cell?_put _ there, if_neg (Ne.symm same), present])
      rwa [Fares, partings_of_shared rest there shared, releaseAll_of_shared rest there shared,
        givenUp_of_shared there shared, if_neg same, add_zero]

/-- What goes away was there, with these contents. -/
theorem partings_present {parting : Parting} (member : parting ∈ world.partings refs) :
    ∃ cell, world.heap.cell? parting.ref = some cell ∧ cell.body = parting.body := by
  induction world, refs using releaseAll.induct with
  | case1 world =>
    rw [partings_nil] at member
    cases member
  | case2 world given rest gone ih =>
    rw [partings_of_gone rest gone] at member
    exact ih member
  | case3 world given rest owner there last ih =>
    rw [partings_of_last rest there last] at member
    rcases List.mem_cons.mp member with rfl | member
    · exact ⟨owner, there, rfl⟩
    · obtain ⟨cell, present, body⟩ := ih member
      rw [heap_retire, Heap.cell?_put none there] at present
      split at present
      · cases present
      · exact ⟨cell, present, body⟩
  | case4 world given rest owner there many ih =>
    rw [partings_of_shared rest there (Nat.lt_of_not_le many)] at member
    obtain ⟨cell, present, body⟩ := ih member
    dsimp only at present
    rw [Heap.cell?_put _ there] at present
    split at present
    · rename_i same
      cases present
      exact ⟨owner, by rw [same, there], body⟩
    · exact ⟨cell, present, body⟩

/-- Nothing goes away twice. -/
theorem nodup_partings (world : World) (refs : List Ref) :
    ((world.partings refs).map (·.ref)).Nodup := by
  induction world, refs using releaseAll.induct with
  | case1 world => simp
  | case2 world given rest gone ih => rwa [partings_of_gone rest gone]
  | case3 world given rest owner there last ih =>
    rw [partings_of_last rest there last, List.map_cons, List.nodup_cons]
    refine ⟨fun member => ?_, ih⟩
    obtain ⟨parting, later, same⟩ := List.mem_map.mp member
    obtain ⟨cell, present, _⟩ := partings_present later
    rw [same, heap_retire, Heap.cell?_put none there, if_pos rfl] at present
    cases present
  | case4 world given rest owner there many ih =>
    rwa [partings_of_shared rest there (Nat.lt_of_not_le many)]

/-- What is owned in the end, and what has been given up by what went away, was owned before. -/
theorem owned_releaseAll (world : World) (refs : List Ref) :
    (world.releaseAll refs).heap.owned +
      ((world.partings refs).flatMap (·.body.references) : List Ref) = world.heap.owned := by
  induction world, refs using releaseAll.induct with
  | case1 world => simp
  | case2 world given rest gone ih => rwa [partings_of_gone rest gone, releaseAll_of_gone rest gone]
  | case3 world given rest owner there last ih =>
    have removed := Heap.owned_put none there
    rw [Heap.cellOwned_none, add_zero] at removed
    rw [heap_retire] at ih
    rw [partings_of_last rest there last, releaseAll_of_last rest there last, List.flatMap_cons,
      ← Multiset.coe_add, add_left_comm, ih, add_comm, removed]
  | case4 world given rest owner there many ih =>
    rw [partings_of_shared rest there (Nat.lt_of_not_le many),
      releaseAll_of_shared rest there (Nat.lt_of_not_le many), ih]
    exact Heap.owned_put_count _ there

/-! ## Hooks -/

@[simp]
theorem heap_deallocate (world : World) (parting : Parting) :
    (world.deallocate parting).heap = world.heap := by
  unfold deallocate
  split <;> simp

theorem retire_eq (world : World) (ref : Ref) (body : Body) :
    world.retire ref body =
      { world.deallocate ⟨ref, body⟩ with heap := world.heap.put ref none } := by
  cases body <;> simp [retire, deallocate]

/-- Of the heap, hooks read the types of instances only. -/
theorem deallocate_congr {heap : Heap} {parting : Parting}
    (types : ∀ type state, parting.body = .instance type state →
      heap.body type = world.heap.body type) :
    World.deallocate { world with heap } parting = { world.deallocate parting with heap } := by
  unfold deallocate
  split
  · rename_i type state contents
    have same := types type state contents
    unfold finalizeInstance
    dsimp only
    rw [same]
    cases body : world.heap.body type with
    | type shape =>
      dsimp only
      rcases shape.finalizer with _ | hook
      · rfl
      · cases hook with
        | report =>
          simp only [typeText, same]
          rfl
        | bridge =>
          rcases state with _ | payload
          · rfl
          · cases payload <;> (simp only [typeText, same]; rfl)
    | _ => rfl
  · rfl

/-- Hooks that read the same types do the same. -/
theorem foldl_deallocate_congr {heap : Heap} {partings : List Parting}
    (types : ∀ parting ∈ partings, ∀ type state, parting.body = .instance type state →
      heap.body type = world.heap.body type) :
    partings.foldl deallocate { world with heap } =
      { partings.foldl deallocate world with heap } := by
  induction partings generalizing world with
  | nil => rfl
  | cons parting partings ih =>
    rw [List.foldl_cons, List.foldl_cons, deallocate_congr (types parting (by simp))]
    refine ih fun later member type state contents => ?_
    rw [heap_deallocate]
    exact types later (by simp [member]) type state contents

/-- The type of an instance that goes away later is not the object that has just gone away. -/
theorem type_ne_of_mem_partings {given type : Ref} {owner : Cell} {state : Option Payload}
    {parting : Parting} (sound : world.Sound program ({given} + rest))
    (there : world.heap.cell? given = some owner) (last : owner.count ≤ 1)
    (member : parting ∈ (world.retire given owner.body).partings refs)
    (contents : parting.body = .instance type state) : type ≠ given := by
  rintro rfl
  obtain ⟨cell, present, body⟩ := partings_present member
  have owned : type ∈ world.heap.owned := by
    rw [heap_retire, Heap.cell?_put none there] at present
    split at present
    · cases present
    · exact Heap.mem_owned present (by simp [body, contents, Body.references])
  have count := sound.balanced type owner there
  rw [owed, Multiset.count_add, Multiset.count_add, Multiset.count_add,
    Multiset.count_singleton_self] at count
  have once := Multiset.one_le_count_iff_mem.mpr owned
  omega

/-- The hooks of what goes away run one after the other, and do all that is done but to the heap.
The types of the instances are there when their hooks run, since they own them. -/
theorem releaseAll_hooks (sound : world.Sound program (refs + rest)) :
    world.releaseAll refs =
      { (world.partings refs).foldl deallocate world with
        heap := (world.releaseAll refs).heap } := by
  induction world, refs using releaseAll.induct generalizing rest with
  | case1 world => simp
  | case2 world given later gone ih =>
    rw [partings_of_gone later gone, releaseAll_of_gone later gone]
    have path : Path program Permission.anything world ((given :: later : List Ref) + rest) world
        (later + rest) := .single (.forget given gone (by rw [Tally.coe_cons]; abel))
    exact ih (path.sound sound)
  | case3 world given later owner there last ih =>
    have path : Path program Permission.anything world ((given :: later : List Ref) + rest)
        (world.retire given owner.body) ((owner.body.references ++ later : List Ref) + rest) := by
      refine .single (.retire given (later + rest) there last ?_ ?_)
      · rw [Tally.coe_cons]
        abel
      · rw [← Multiset.coe_add]
        abel
    have hooks := ih (path.sound sound)
    rw [Tally.coe_cons, add_assoc] at sound
    -- The hooks that run later read the types that they would have read before.
    have types : ∀ parting ∈ (world.retire given owner.body).partings
        (owner.body.references ++ later), ∀ type state, parting.body = .instance type state →
          (world.heap.put given none).body type =
            (world.deallocate ⟨given, owner.body⟩).heap.body type := by
      intro parting member type state contents
      have other := type_ne_of_mem_partings sound there last member contents
      rw [heap_deallocate, Heap.body, Heap.body, Heap.cell?_put none there, if_neg other]
    have folding := foldl_deallocate_congr types
    rw [← retire_eq] at folding
    rw [folding] at hooks
    rw [partings_of_last later there last, releaseAll_of_last later there last, List.foldl_cons]
    exact hooks
  | case4 world given later owner there many ih =>
    have shared : 1 < owner.count := Nat.lt_of_not_le many
    have path : Path program Permission.anything world ((given :: later : List Ref) + rest)
        { world with heap := world.heap.put given (some { owner with count := owner.count - 1 }) }
        (later + rest) := .single (.lower given there shared (by rw [Tally.coe_cons]; abel))
    have bodies : ∀ type, (world.heap.put given
        (some { owner with count := owner.count - 1 })).body type = world.heap.body type := by
      intro type
      rw [Heap.body, Heap.body, Heap.cell?_put _ there]
      by_cases same : type = given
      · rw [if_pos same, same, there]
      · rw [if_neg same]
    have hooks := ih (path.sound sound)
    rw [foldl_deallocate_congr fun parting member type state contents => bodies type] at hooks
    rw [partings_of_shared later there shared, releaseAll_of_shared later there shared]
    exact hooks

/-! ## Giving up references in a sound world -/

/-- No more references are given up than an object is counted for. -/
theorem givenUp_le (sound : world.Sound program (refs + rest)) {cell : Cell}
    (present : world.heap.cell? ref = some cell) :
    ref.pinned + world.givenUp refs ref ≤ cell.count := by
  have owned := congrArg (Multiset.count ref) (world.owned_releaseAll refs)
  have count := sound.balanced ref cell present
  rw [Multiset.count_add, Multiset.coe_count] at owned
  rw [owed, Multiset.count_add, Multiset.count_add, Multiset.count_add, Multiset.coe_count] at count
  rw [givenUp, List.count_append]
  omega

/-- How references are given up.  An object goes away when as many are given up as it was counted
for, and stays otherwise, being counted for those that are left.  What goes away does so once, with
the contents that it had; its hook runs then, and nothing else happens to anything but the heap. -/
structure Unwinds (world : World) (refs : List Ref) : Prop where
  fares : ∀ ref cell, world.heap.cell? ref = some cell →
    (world.givenUp refs ref < cell.count ∧
      (world.releaseAll refs).heap.cell? ref =
        some { cell with count := cell.count - world.givenUp refs ref } ∧
      ∀ parting ∈ world.partings refs, parting.ref ≠ ref) ∨
    (world.givenUp refs ref = cell.count ∧ (world.releaseAll refs).heap.cell? ref = none ∧
      ⟨ref, cell.body⟩ ∈ world.partings refs)
  present : ∀ parting ∈ world.partings refs, ∃ cell,
    world.heap.cell? parting.ref = some cell ∧ cell.body = parting.body
  once : ((world.partings refs).map (·.ref)).Nodup
  hooks : world.releaseAll refs =
    { (world.partings refs).foldl deallocate world with heap := (world.releaseAll refs).heap }

theorem unwinds (sound : world.Sound program (refs + rest)) (tidy : world.Tidy) :
    world.Unwinds refs where
  fares ref cell there := by
    refine (world.fares tidy.counted there).imp_right ?_
    rintro ⟨all, gone, parted⟩
    have most := givenUp_le sound there
    exact ⟨by omega, gone, parted⟩
  present _ := partings_present
  once := world.nodup_partings refs
  hooks := releaseAll_hooks sound

end World

/-! ## Structures without cycles -/

/-- An object that is there owns a reference to another one. -/
def Heap.Owns (heap : Heap) (outer inner : Ref) : Prop :=
  ∃ cell, heap.cell? outer = some cell ∧ inner ∈ cell.body.references

/-- Those of some objects that have not gone away. -/
def Heap.Living (heap : Heap) (among : Ref → Prop) : Type :=
  { ref : Ref // among ref ∧ ∃ cell, heap.cell? ref = some cell }

/-- Each has a place of its own, so there are finitely many of them. -/
def Heap.Living.place {heap : Heap} {among : Ref → Prop} (living : heap.Living among) :
    Fin heap.size :=
  ⟨living.1.place, Heap.place_lt_size living.2.2.choose_spec⟩

instance (heap : Heap) (among : Ref → Prop) : Finite (heap.Living among) :=
  Finite.of_injective Heap.Living.place fun _ _ same =>
    Subtype.ext (congrArg Ref.mk (Fin.mk.inj same))

/-- Among objects that do not own themselves in the end, one is not owned by any other that is
there. -/
theorem Heap.exists_unowned {heap : Heap} {among : Ref → Prop}
    (acyclic : ∀ ref, among ref → ¬Relation.TransGen heap.Owns ref ref) {ref : Ref}
    (member : among ref) {cell : Cell} (present : heap.cell? ref = some cell) :
    ∃ last cell, among last ∧ heap.cell? last = some cell ∧
      ∀ outer, among outer → ¬heap.Owns outer last := by
  have trans : IsTrans (heap.Living among) fun first second =>
      Relation.TransGen heap.Owns first.1 second.1 := ⟨fun _ _ _ => .trans⟩
  have irrefl : Std.Irrefl fun first second : heap.Living among =>
      Relation.TransGen heap.Owns first.1 second.1 := ⟨fun living => acyclic living.1 living.2.1⟩
  have founded := Finite.wellFounded_of_trans_of_irrefl fun first second : heap.Living among =>
    Relation.TransGen heap.Owns first.1 second.1
  obtain ⟨⟨last, inside, found, there⟩, _, least⟩ :=
    founded.has_min Set.univ ⟨⟨ref, member, cell, present⟩, trivial⟩
  refine ⟨last, found, inside, there, fun outer outside owns => ?_⟩
  obtain ⟨owner, outerThere, _⟩ := id owns
  exact least ⟨outer, outside, owner, outerThere⟩ trivial (.single owns)

/-- Objects that nobody owns but objects among them, and that do not own themselves in the end. -/
structure World.Enclosed (world : World) (held : Multiset Ref) (among : Ref → Prop) : Prop where
  held : ∀ ref, among ref → ref ∉ held
  claimed : ∀ ref, among ref → ref ∉ world.claims
  pinned : ∀ ref, among ref → ref.pinned = 0
  owners : ∀ ref, among ref → ∀ outer, world.heap.Owns outer ref → among outer
  acyclic : ∀ ref, among ref → ¬Relation.TransGen world.heap.Owns ref ref

namespace World.Enclosed

variable {program : Program} {world : World} {held : Multiset Ref} {among : Ref → Prop}

/-- Each of the objects that is there is owned by another one. -/
theorem exists_owner (enclosed : world.Enclosed held among) (balanced : world.Balanced held)
    (tidy : world.Tidy) {ref : Ref} (member : among ref) {cell : Cell}
    (present : world.heap.cell? ref = some cell) : ∃ outer, world.heap.Owns outer ref := by
  have count := balanced ref cell present
  have positive := tidy.counted ref cell present
  rw [enclosed.pinned ref member, World.owed, Multiset.count_add, Multiset.count_add,
    Multiset.count_eq_zero.mpr (enclosed.held ref member),
    Multiset.count_eq_zero.mpr (enclosed.claimed ref member)] at count
  have owned : ref ∈ world.heap.owned := Multiset.count_pos.mp (by omega)
  obtain ⟨outer, owner, there, inside⟩ := Heap.exists_of_mem_owned owned
  exact ⟨outer, owner, there, inside⟩

/-- None of the objects is there. -/
theorem gone (enclosed : world.Enclosed held among) (balanced : world.Balanced held)
    (tidy : world.Tidy) {ref : Ref} (member : among ref) : world.heap.cell? ref = none := by
  by_contra alive
  obtain ⟨cell, present⟩ := Option.ne_none_iff_exists'.mp alive
  obtain ⟨last, found, inside, there, unowned⟩ :=
    Heap.exists_unowned enclosed.acyclic member present
  obtain ⟨outer, owns⟩ := enclosed.exists_owner balanced tidy inside there
  exact unowned outer (enclosed.owners last inside outer owns) owns

end World.Enclosed

namespace World

variable {program : Program} {world : World} {refs : List Ref} {rest : Multiset Ref}

/-- Giving up references makes nobody own more. -/
theorem Unwinds.owns (unwinds : world.Unwinds refs) {outer inner : Ref}
    (owns : (world.releaseAll refs).heap.Owns outer inner) : world.heap.Owns outer inner := by
  obtain ⟨later, found, member⟩ := owns
  cases present : world.heap.cell? outer with
  | none =>
    rw [gone_releaseAll refs present] at found
    cases found
  | some cell =>
    refine ⟨cell, present, ?_⟩
    rcases unwinds.fares outer cell present with ⟨_, stays, _⟩ | ⟨_, gone, _⟩
    · rw [found, Option.some.injEq] at stays
      rwa [stays] at member
    · rw [found] at gone
      cases gone

/-- A structure without cycles goes away when the last references from outside are given up. -/
theorem gone_of_enclosed (sound : world.Sound program (refs + rest)) (tidy : world.Tidy)
    {among : Ref → Prop} (enclosed : world.Enclosed rest among) {ref : Ref} (member : among ref) :
    (world.releaseAll refs).heap.cell? ref = none := by
  have unwinds := unwinds sound tidy
  have path : Path program Permission.anything world (refs + rest) (world.releaseAll refs) rest := by
    rw [add_comm]
    exact .releaseAll world refs rest
  have left : (world.releaseAll refs).Enclosed rest among :=
    { held := enclosed.held
      claimed := fun ref member => by
        rw [claims_releaseAll]
        exact enclosed.claimed ref member
      pinned := enclosed.pinned
      owners := fun ref member outer owns => enclosed.owners ref member outer (unwinds.owns owns)
      acyclic := fun ref member cycle =>
        enclosed.acyclic ref member (Relation.TransGen.mono (fun _ _ => unwinds.owns) _ _ cycle) }
  exact left.gone (path.sound sound).balanced (path.tidy tidy) member

end World

end HostBridge
