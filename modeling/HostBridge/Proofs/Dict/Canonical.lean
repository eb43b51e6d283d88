import HostBridge.Object.Container
import HostBridge.Proofs.Codec.Reading
import HostBridge.Proofs.Dict.Reference

/-!
# Canonical heaps

Two things about a heap are not visible in any one object, and equality relies on both.  There is
one object that stands for nothing; and the index of each dict has the projection of each of its
keys, which was computed when the key was put in and is not computed again.

A heap like this stays like this as long as objects stay of their kinds, no second nothing is
made, and what is put into a dict is put there under its projection.
-/

namespace HostBridge

namespace Heap

/-- An object that is there with all that it is projected from. -/
inductive Whole (heap : Heap) : Ref → Prop
  | intro {ref : Ref} {cell : Cell} (there : heap.cell? ref = some cell)
    (older : ∀ items, cell.body = .tuple items → ∀ item ∈ items, item.place < ref.place)
    (parts : ∀ items, cell.body = .tuple items → ∀ item ∈ items, Whole heap item) :
    Whole heap ref

/-- The objects of one heap go on in another one, each in its kind, or have gone away for good. -/
structure Follows (before after : Heap) : Prop where
  places : before.size ≤ after.size
  back : ∀ ref cell, ref.place < before.size → after.cell? ref = some cell →
    ∃ old, before.cell? ref = some old ∧ old.body.Kindred cell.body

namespace Follows

variable {first second third : Heap}

/-- What is whole later has been whole before, if it was there. -/
theorem whole (follows : first.Follows second) {ref : Ref} (whole : second.Whole ref)
    (used : ref.place < first.size) : first.Whole ref := by
  induction whole with
  | @intro ref cell there older _ ih =>
    obtain ⟨old, there', same⟩ := follows.back ref cell used there
    refine .intro there' ?_ ?_
    · intro items body item member
      rw [body] at same
      exact older items same item member
    · intro items body item member
      rw [body] at same
      exact ih items same item member (Nat.lt_trans (older items same item member) used)

/-- What is whole has the projection that it has always had. -/
theorem key (follows : first.Follows second) {ref : Ref} (whole : second.Whole ref)
    (used : ref.place < first.size) : second.key ref = first.key ref := by
  have places := follows.places
  refine keyWithin_of_kindred (fun ref => ref.place < first.size ∧ second.Whole ref)
    ?_ ?_ ⟨used, whole⟩ (by omega) (by omega)
  · rintro ref ⟨used, ⟨there, _, _⟩⟩
    obtain ⟨old, there', same⟩ := follows.back ref _ used there
    rwa [body_eq there, body_eq there']
  · rintro ref items ⟨used, ⟨there, older, parts⟩⟩ reading item member
    obtain ⟨old, there', same⟩ := follows.back ref _ used there
    rw [body_eq there'] at reading
    rw [reading] at same
    have before := older items same item member
    exact ⟨before, Nat.lt_trans before used, parts items same item member⟩

end Follows

/-- The index of a dict has the projection of each key that is whole, at its position. -/
def Indexes (heap : Heap) (table : Dict) : Prop :=
  ∀ position entry, table.entries[position]? = some entry → entry.key.place < heap.size ∧
    (heap.Whole entry.key → ∃ projection, heap.key entry.key = .ok projection ∧
      table.index.position? projection = some position)

/-- There is one nothing, and every dict has the projections of its keys. -/
structure Canonical (heap : Heap) : Prop where
  nothing : ∀ ref cell, heap.cell? ref = some cell → cell.body = .none → ref = .none
  indexes : ∀ ref cell table, heap.cell? ref = some cell → cell.body = .dict table →
    heap.Indexes table

/-- What may be placed in a canonical heap. -/
structure Admits (heap : Heap) (body : Body) : Prop where
  something : body ≠ .none
  indexes : ∀ table, body = .dict table → heap.Indexes table

end Heap

variable {heap before after : Heap}

/-! ## Indices -/

namespace Heap.Indexes

variable {table : Dict} {projection : Key} {key : Ref}

theorem empty (heap : Heap) : heap.Indexes .empty := by
  intro position entry there
  cases there

theorem follows (indexes : before.Indexes table) (follows : before.Follows after) :
    after.Indexes table := by
  intro position entry there
  obtain ⟨used, found⟩ := indexes position entry there
  refine ⟨Nat.lt_of_lt_of_le used follows.places, fun whole => ?_⟩
  rw [follows.key whole used]
  exact found (follows.whole whole used)

/-- A key that has a projection is put under it. -/
theorem set (indexes : heap.Indexes table) (used : key.place < heap.size)
    (hashed : heap.key key = .ok projection) (value : Ref) :
    heap.Indexes (table.set projection key value) := by
  rcases table.position?_cases projection with absent | ⟨position, entry, found, there⟩
  · obtain ⟨_, entries, index⟩ := Dict.insert_of_absent absent key value
    rw [Dict.set]
    intro place entry there
    rw [entries, List.getElem?_append] at there
    rw [index]
    split at there
    · obtain ⟨used', found⟩ := indexes place entry there
      refine ⟨used', fun whole => ?_⟩
      obtain ⟨other, hashed', found⟩ := found whole
      have distinct : other ≠ projection := by
        rintro rfl
        rw [absent] at found
        cases found
      exact ⟨other, hashed', by rw [Index.position?_insert_other _ _ distinct, found]⟩
    · rename_i beyond
      rw [List.getElem?_singleton] at there
      split at there
      · cases there
        refine ⟨used, fun _ => ⟨projection, hashed, ?_⟩⟩
        rw [Index.position?_insert_same, Option.some.injEq]
        omega
      · cases there
  · obtain ⟨_, entries, index⟩ := Dict.insert_of_found found there key value
    rw [Dict.set]
    intro place other there'
    rw [entries, List.getElem?_set] at there'
    rw [index]
    split at there'
    · rename_i same
      subst same
      split at there'
      · cases there'
        exact indexes position entry there
      · cases there'
    · exact indexes place other there'

/-- The entries behind one that is removed are moved up, in the index as well. -/
theorem erase (indexes : heap.Indexes table) (projection : Key) :
    heap.Indexes (table.erase projection) := by
  rcases table.position?_cases projection with absent | ⟨gap, entry, found, there⟩
  · rw [Dict.erase, Dict.remove_of_absent absent]
    exact indexes
  · obtain ⟨_, entries, index⟩ := Dict.remove_of_found found there
    rw [Dict.erase]
    intro place other there'
    rw [entries, List.getElem?_eraseIdx] at there'
    obtain ⟨old, there'', apart, moved⟩ : ∃ old, table.entries[old]? = some other ∧ old ≠ gap ∧
        Index.shift gap old = place := by
      split at there'
      · exact ⟨place, there', by omega, by simp [Index.shift]; omega⟩
      · exact ⟨place + 1, there', by omega, by simp [Index.shift]; omega⟩
    obtain ⟨used, found'⟩ := indexes old other there''
    refine ⟨used, fun whole => ?_⟩
    obtain ⟨kept, hashed, found'⟩ := found' whole
    have distinct : kept ≠ projection := by
      rintro rfl
      rw [found, Option.some.injEq] at found'
      exact apart found'.symm
    refine ⟨kept, hashed, ?_⟩
    rw [index, Index.position?_closeGap, Index.position?_remove_other _ distinct, found',
      Option.map_some, moved]

/-- The index is exact if all keys are whole. -/
theorem exact (indexes : heap.Indexes table) (whole : ∀ key ∈ table.keys, heap.Whole key) :
    table.Exact heap := by
  have found : ∀ {position entry}, table.entries[position]? = some entry →
      ∃ projection, heap.key entry.key = .ok projection ∧
        table.index.position? projection = some position :=
    fun {position entry} there => (indexes position entry there).2
      (whole _ (List.mem_map_of_mem (List.mem_of_getElem? there)))
  intro projection position
  constructor
  · intro reading
    have within := table.numbered.inside reading
    obtain ⟨other, hashed, reading'⟩ := found (List.getElem?_eq_getElem within)
    rw [table.numbered.apart reading' reading]
    exact ⟨_, List.getElem?_eq_getElem within, hashed⟩
  · rintro ⟨entry, there, hashed⟩
    obtain ⟨other, hashed', reading⟩ := found there
    rw [hashed, Except.ok.injEq] at hashed'
    rwa [hashed']

end Heap.Indexes

/-- A dict that is made of keys and values has the projections of the keys. -/
theorem Op.indexes_dictOf {pairs : List (Ref × Ref)} {table : Dict}
    (used : ∀ pair ∈ pairs, pair.1.place < heap.size) (made : dictOf heap pairs = .ok table) :
    heap.Indexes table := by
  refine Refusal.invariant_foldlM heap.Indexes made (.empty heap) ?_
  rintro ⟨key, value⟩ member before after indexes step
  obtain ⟨projection, hashed, made⟩ := Refusal.exists_of_bind_eq_ok step
  cases made
  exact indexes.set (used _ member) hashed value

/-! ## Canonical heaps -/

namespace Heap

theorem canonical_initial : Heap.initial.Canonical := by
  constructor
  · intro ref cell there nothing
    obtain ⟨inside, reading⟩ := Array.getElem?_eq_some_iff.mp (cell?_eq.mp there)
    obtain ⟨place⟩ := ref
    match place, inside, reading with
    | 0, _, _ => rfl
    | 1, _, reading =>
      cases reading
      cases nothing
    | 2, _, reading =>
      cases reading
      cases nothing
  · intro ref cell table there dict
    rcases body_of_initial there with nothing | ⟨value, nothing⟩ <;> simp [nothing] at dict

/-- Cells that are changed in their counts only, or emptied. -/
theorem follows_of_bodies (places : after.size = before.size)
    (bodies : ∀ ref cell, after.cell? ref = some cell →
      ∃ old, before.cell? ref = some old ∧ old.body = cell.body) : before.Follows after := by
  refine ⟨Nat.le_of_eq places.symm, fun ref cell _ there => ?_⟩
  obtain ⟨old, there', same⟩ := bodies ref cell there
  exact ⟨old, there', same ▸ .refl _⟩

namespace Canonical

/-- A canonical heap stays so if what is new in it may be placed there. -/
theorem follows (canonical : before.Canonical) (follows : before.Follows after)
    (made : ∀ ref cell, after.cell? ref = some cell →
      (∃ old, before.cell? ref = some old ∧ old.body = cell.body) ∨ after.Admits cell.body) :
    after.Canonical := by
  constructor
  · intro ref cell there nothing
    rcases made ref cell there with ⟨old, there', same⟩ | admits
    · exact canonical.nothing ref old there' (same.trans nothing)
    · exact absurd nothing admits.something
  · intro ref cell table there dict
    rcases made ref cell there with ⟨old, there', same⟩ | admits
    · exact (canonical.indexes ref old table there' (same.trans dict)).follows follows
    · exact admits.indexes table dict

theorem of_bodies (canonical : before.Canonical) (places : after.size = before.size)
    (bodies : ∀ ref cell, after.cell? ref = some cell →
      ∃ old, before.cell? ref = some old ∧ old.body = cell.body) : after.Canonical :=
  canonical.follows (follows_of_bodies places bodies) fun ref cell there =>
    .inl (bodies ref cell there)

/-- Cells are emptied, or changed in their counts. -/
theorem put (canonical : heap.Canonical) {ref : Ref} {old : Cell} (new : Option Cell)
    (there : heap.cell? ref = some old) (same : ∀ cell ∈ new, cell.body = old.body) :
    (heap.put ref new).Canonical := by
  refine canonical.of_bodies (size_put _ _ _) fun other cell there' => ?_
  rw [cell?_put new there] at there'
  split at there'
  · rename_i here
    exact ⟨old, here ▸ there, (same cell there').symm⟩
  · exact ⟨cell, there', rfl⟩

theorem retain (canonical : heap.Canonical) (ref : Ref) : (heap.retain ref).Canonical := by
  cases there : heap.cell? ref with
  | none => rwa [retain_of_gone there]
  | some cell =>
    rw [retain_of_cell there]
    exact canonical.put _ there fun _ same => by cases same; rfl

theorem push (canonical : heap.Canonical) {body : Body} (admits : heap.Admits body) :
    (heap.push body).Canonical := by
  have follows : heap.Follows (heap.push body) := by
    refine ⟨by rw [size_push]; omega, fun ref cell used there => ⟨cell, ?_, .refl _⟩⟩
    rwa [cell?_push_other] at there
    rintro rfl
    exact Nat.lt_irrefl _ used
  refine canonical.follows follows fun ref cell there => ?_
  rw [cell?_push] at there
  split at there
  · cases there
    exact .inr ⟨admits.something, fun table dict => (admits.indexes table dict).follows follows⟩
  · exact .inl ⟨cell, there, rfl⟩

/-- The contents of an object are changed in their kind. -/
theorem setBody (canonical : heap.Canonical) {ref : Ref} {body : Body}
    (kindred : (heap.body ref).Kindred body) (admits : heap.Admits body) :
    (heap.setBody ref body).Canonical := by
  cases there : heap.cell? ref with
  | none =>
    rw [Heap.setBody, there]
    exact canonical
  | some old =>
    rw [setBody_of_cell body there]
    rw [body_eq there] at kindred
    have follows : heap.Follows (heap.put ref (some { old with body })) := by
      refine ⟨Nat.le_of_eq (size_put _ _ _).symm, fun other cell _ there' => ?_⟩
      rw [cell?_put _ there] at there'
      split at there'
      · rename_i here
        cases there'
        exact ⟨old, here ▸ there, kindred⟩
      · exact ⟨cell, there', .refl _⟩
    refine canonical.follows follows fun other cell there' => ?_
    rw [cell?_put _ there] at there'
    split at there'
    · cases there'
      exact .inr ⟨admits.something, fun table dict => (admits.indexes table dict).follows follows⟩
    · exact .inl ⟨cell, there', rfl⟩

end Canonical

end Heap

/-! ## Canonical worlds -/

namespace World

/-- The heap of a world is canonical. -/
def Canonical (world : World) : Prop := world.heap.Canonical

variable {world : World}

namespace Canonical

theorem retainAll (canonical : world.Canonical) (refs : List Ref) :
    (world.retainAll refs).Canonical := by
  induction refs generalizing world with
  | nil => exact canonical
  | cons ref rest ih => exact ih (Heap.Canonical.retain canonical ref)

theorem releaseAll (canonical : world.Canonical) (refs : List Ref) :
    (world.releaseAll refs).Canonical := by
  induction world, refs using World.releaseAll.induct with
  | case1 world => rwa [releaseAll_nil]
  | case2 world ref rest gone ih =>
    rw [releaseAll_of_gone rest gone]
    exact ih canonical
  | case3 world ref rest cell there last ih =>
    rw [releaseAll_of_last rest there last]
    refine ih ?_
    rw [Canonical, heap_retire]
    exact Heap.Canonical.put canonical none there (by simp)
  | case4 world ref rest cell there shared ih =>
    rw [releaseAll_of_shared rest there (Nat.lt_of_not_le shared)]
    exact ih (Heap.Canonical.put canonical _ there fun _ same => by cases same; rfl)

theorem place (canonical : world.Canonical) {body : Body} (admits : world.heap.Admits body) :
    (world.place body).2.Canonical :=
  Heap.Canonical.push canonical admits

end Canonical

end World

end HostBridge
