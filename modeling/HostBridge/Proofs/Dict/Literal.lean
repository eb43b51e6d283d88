import HostBridge.Proofs.Dict.Reference
import HostBridge.Proofs.Ownership.Encode
import HostBridge.Proofs.Ownership.Lending

/-!
# Dicts made from pairs

A dict that is made from keys and values has one entry for each of them, in their order, if the
keys have projections that differ.  The references that the pairs were held by are given up
afterwards; nothing goes away with them, for the dict has taken references of its own.
-/

namespace HostBridge

variable {program : Program} {touch : Permission} {world : World} {heap : Heap}

/-- The entry for a key and a value. -/
def DictEntry.ofPair (pair : Ref × Ref) : DictEntry := ⟨pair.1, pair.2⟩

/-- Keys that have projections, no two of them the same. -/
structure Heap.TellsApart (heap : Heap) (keys : List Ref) : Prop where
  hashable : ∀ key ∈ keys, ∃ projection, heap.key key = .ok projection
  distinct : keys.Pairwise fun key other => heap.key key ≠ heap.key other

namespace Heap.TellsApart

variable {key : Ref} {keys : List Ref}

theorem nil : heap.TellsApart [] := by
  constructor
  · intro key member
    cases member
  · exact List.Pairwise.nil

theorem cons (apart : heap.TellsApart keys) {projection : Key}
    (hashed : heap.key key = .ok projection)
    (fresh : ∀ other ∈ keys, heap.key key ≠ heap.key other) : heap.TellsApart (key :: keys) := by
  constructor
  · intro other member
    rcases List.mem_cons.mp member with rfl | later
    · exact ⟨projection, hashed⟩
    · exact apart.hashable other later
  · exact List.pairwise_cons.mpr ⟨fresh, apart.distinct⟩

end Heap.TellsApart

namespace Dict.Exact

variable {dict : Dict} {projection : Key} {key : Ref}

/-- A key with a projection that no other key has gets an entry behind the others. -/
theorem set_new (exact : dict.Exact heap) (hashed : heap.key key = .ok projection) (value : Ref)
    (fresh : ∀ entry ∈ dict.entries, heap.key entry.key ≠ heap.key key) :
    (dict.set projection key value).entries = dict.entries ++ [⟨key, value⟩] ∧
      (dict.set projection key value).Exact heap := by
  have absent : dict.index.position? projection = none := by
    cases reading : dict.index.position? projection with
    | none => rfl
    | some position =>
      obtain ⟨entry, there, keyed⟩ := (exact projection position).mp reading
      exact absurd (keyed.trans hashed.symm) (fresh entry (List.mem_of_getElem? there))
  constructor
  · exact (insert_of_absent absent key value).2.1
  · exact (exact.insert hashed value).2.2

/-- The value of an entry is found under the projection of its key. -/
theorem get?_of_mem (exact : dict.Exact heap) {entry : DictEntry} (member : entry ∈ dict.entries)
    (hashed : heap.key entry.key = .ok projection) : dict.get? projection = some entry.value := by
  obtain ⟨position, there⟩ := List.mem_iff_getElem?.mp member
  have found := (exact projection position).mpr ⟨entry, there, hashed⟩
  rw [Dict.get?, Dict.lookup?_eq, found, Option.bind_some, there]
  rfl

end Dict.Exact

namespace Op

/-- Pairs that are told apart are put behind the entries that are there. -/
theorem foldlM_set {pairs : List (Ref × Ref)} (apart : heap.TellsApart (pairs.map (·.1)))
    {start : Dict} (exact : start.Exact heap)
    (fresh : ∀ entry ∈ start.entries, ∀ pair ∈ pairs, heap.key entry.key ≠ heap.key pair.1) :
    ∃ table, (pairs.foldlM (fun table (name, value) => do
        return table.set (← heap.key name) name value) start : Except Exception Dict) = .ok table ∧
      table.entries = start.entries ++ pairs.map .ofPair ∧ table.Exact heap := by
  induction pairs generalizing start with
  | nil => exact ⟨start, rfl, by simp, exact⟩
  | cons pair pairs ih =>
    obtain ⟨name, value⟩ := pair
    obtain ⟨projection, hashed⟩ := apart.hashable name (by simp)
    obtain ⟨different, distinct⟩ := List.pairwise_cons.mp apart.distinct
    obtain ⟨entries, exact'⟩ := exact.set_new hashed value fun entry member =>
      fresh entry member (name, value) (by simp)
    have rest : heap.TellsApart (pairs.map (·.1)) :=
      ⟨fun key member => apart.hashable key (List.mem_cons_of_mem _ member), distinct⟩
    have fresh' : ∀ entry ∈ (start.set projection name value).entries, ∀ pair ∈ pairs,
        heap.key entry.key ≠ heap.key pair.1 := by
      intro entry member pair among
      rw [entries, List.mem_append, List.mem_singleton] at member
      rcases member with old | rfl
      · exact fresh entry old pair (by simp [among])
      · exact different pair.1 (List.mem_map_of_mem among)
    obtain ⟨table, made, all, exact''⟩ := ih rest exact' fresh'
    refine ⟨table, ?_, ?_, exact''⟩
    · rw [List.foldlM_cons]
      simp only [hashed]
      exact made
    · rw [all, entries, List.append_assoc]
      rfl

/-- The dict of pairs that are told apart has them as its entries. -/
theorem dictOf_apart {pairs : List (Ref × Ref)} (apart : heap.TellsApart (pairs.map (·.1))) :
    ∃ table, dictOf heap pairs = .ok table ∧ table.entries = pairs.map .ofPair ∧
      table.Exact heap := by
  have started := foldlM_set apart (Dict.exact_empty heap) fun entry member => by cases member
  simpa [dictOf, Dict.empty] using started

theorem references_of_pairs {table : Dict} {pairs : List (Ref × Ref)}
    (entries : table.entries = pairs.map .ofPair) : table.references = pairReferences pairs := by
  rw [Dict.references, entries, List.flatMap_map]
  rfl

end Op

/-- What is owned by an object is counted for that, beside what is held. -/
theorem World.Balanced.count_lt {held : Multiset Ref} {refs : List Ref}
    (balanced : world.Balanced (held + refs)) {outer ref : Ref} {outerCell cell : Cell}
    (above : world.heap.cell? outer = some outerCell) (owned : ref ∈ outerCell.body.references)
    (there : world.heap.cell? ref = some cell) : refs.count ref < cell.count := by
  have positive := Multiset.count_pos.mpr (Heap.mem_owned above owned)
  rw [balanced ref cell there, World.owed, Multiset.count_add, Multiset.count_add,
    Multiset.count_add, Multiset.coe_count]
  omega

/-- References of which others are left are given up without anything going away. -/
theorem World.Extends.releaseAll {refs : List Ref}
    (surplus : ∀ ref ∈ refs, ∀ cell, world.heap.cell? ref = some cell →
      refs.count ref < cell.count) : world.Extends (world.releaseAll refs) := by
  obtain ⟨cells, _, surroundings⟩ := world.releaseAll_of_surplus refs surplus
  have registries : (world.releaseAll refs).registries = world.registries :=
    congrArg Prod.fst surroundings
  constructor
  · intro ref _ cell present
    refine ⟨{ cell with count := cell.count - refs.count ref }, ?_, rfl⟩
    rw [cells, present, Option.map_some]
  · intro id
    rw [World.registry, World.registry, registries]
  · intro id
    rw [World.registry, World.registry, registries]

namespace Op

/-- A dict is made from pairs that are told apart, and then the pairs are let go. -/
theorem makes_placeDict {pairs : List (Ref × Ref)} {held : Multiset Ref}
    (sound : world.Sound program (held + pairReferences pairs))
    (apart : world.heap.TellsApart (pairs.map (·.1))) :
    Makes program touch (placeDict pairs) world (pairReferences pairs) (fun dict => [dict])
      fun dict after => dict = world.heap.next ∧ ∃ table, after.heap.body dict = .dict table ∧
        table.entries = pairs.map .ofPair ∧ table.Exact world.heap := by
  obtain ⟨table, made, entries, exact⟩ := dictOf_apart apart
  have owned : (Body.dict table).references = pairReferences pairs := references_of_pairs entries
  have used : ∀ ref ∈ (Body.dict table).references, ref.place < world.heap.size := by
    intro ref member
    rw [owned] at member
    exact sound.used_of_held (by simp [member])
  have named : (world.create (.dict table)).1 = world.heap.next := Path.heap_retainAll _ _
  have created : ∀ held : Multiset Ref, Path program touch world held
      (world.create (.dict table)).2 (held + {(world.create (.dict table)).1}) :=
    fun held => .create trivial used
  have there : (world.create (.dict table)).2.heap.cell? (world.create (.dict table)).1 =
      some ⟨1, .dict table⟩ := Heap.cell?_push_next _ _
  -- The dict owns what the pairs are held by, so each of these objects is counted once more.
  have more : (world.create (.dict table)).2.Extends
      ((world.create (.dict table)).2.releaseAll (pairReferences pairs)) := by
    have balanced := ((created _).sound sound).balanced
    rw [add_right_comm] at balanced
    apply World.Extends.releaseAll
    intro ref member cell present
    exact balanced.count_lt there (by rwa [owned]) present
  have ran : (createDict pairs).run world =
      (.ok (world.create (.dict table)).1, (world.create (.dict table)).2) := by
    rw [createDict, Operation.run_bind_of_ok (run_heap world), made]
    rfl
  refine ⟨_, _, by rw [placeDict, run_always, ran], ⟨fun held => ?_, ?_⟩, named, table, ?_,
    entries, exact⟩
  · have last : Path program touch (world.create (.dict table)).2
        (pairReferences pairs + (held + {(world.create (.dict table)).1})) _
        (0 + (held + {(world.create (.dict table)).1})) :=
      (path_releaseAll _ (pairReferences pairs)).frame _
    rw [zero_add, add_comm, add_right_comm] at last
    exact (created _).trans last
  · exact ((World.Extends.retainAll world _).trans (.place _ _)).trans more
  · exact more.body (Heap.body_eq there) (by simp)

end Op

end HostBridge
