import HostBridge.Proofs.Codec.Denotation
import HostBridge.Proofs.Dict.Literal
import Mathlib.Data.List.Dedup

/-!
# Dicts made from pairs with equal keys

Pairs are written into a dict one after the other.  Where several keys have the same
projection, there is one entry for all of them, and it has the value that was written last;
the other values are lost.  So there are as many entries as there are projections, which is as
many as there are pairs only if the projections differ.
-/

namespace HostBridge

variable {program : Program} {touch : Permission} {world : World} {heap : Heap}

/-! ## Writing one after the other -/

namespace Dict

/-- Write values under keys that have given projections. -/
def setAll (dict : Dict) (items : List (Key × Ref × Ref)) : Dict :=
  items.foldl (fun dict (projection, key, value) => dict.set projection key value) dict

theorem setAll_cons (dict : Dict) (projection : Key) (key value : Ref)
    (items : List (Key × Ref × Ref)) :
    dict.setAll ((projection, key, value) :: items) =
      (dict.set projection key value).setAll items := rfl

/-- The projections of what is written, with the values. -/
def written (items : List (Key × Ref × Ref)) : List (Key × Ref) :=
  items.map fun (projection, _, value) => (projection, value)

theorem written_cons (projection : Key) (key value : Ref) (items : List (Key × Ref × Ref)) :
    written ((projection, key, value) :: items) = (projection, value) :: written items := rfl

theorem size_set_of_some {dict : Dict} {projection : Key} (present : dict.get? projection ≠ none)
    (key value : Ref) : (dict.set projection key value).size = dict.size := by
  rcases dict.position?_cases projection with absent | ⟨position, entry, found, there⟩
  · rw [get?, lookup?_eq, absent] at present
    exact absurd rfl present
  · rw [size, set, (insert_of_found found there key value).2.1, List.length_set, size]

theorem size_set_of_none {dict : Dict} {projection : Key} (absent : dict.get? projection = none)
    (key value : Ref) : (dict.set projection key value).size = dict.size + 1 := by
  rcases dict.position?_cases projection with none | ⟨position, entry, found, there⟩
  · rw [size, set, (insert_of_absent none key value).2.1, List.length_append, size]
    rfl
  · rw [get?, lookup?_eq, found, Option.bind_some, there] at absent
    cases absent

/-- The value that is found is the last one that was written. -/
theorem get?_setAll (dict : Dict) (items : List (Key × Ref × Ref)) (projection : Key) :
    (dict.setAll items).get? projection =
      ((written items).reverse.lookup projection).or (dict.get? projection) := by
  induction items generalizing dict with
  | nil => rfl
  | cons item items ih =>
    obtain ⟨first, key, value⟩ := item
    rw [setAll_cons, ih, written_cons, List.reverse_cons, List.lookup_append, Option.or_assoc]
    congr 1
    by_cases same : projection = first
    · rw [same, get?_set_same, List.lookup_cons_self]
      rfl
    · rw [get?_set_other _ _ _ same, List.lookup_cons, beq_false_of_ne same]
      rfl

/-- Each projection that was there or has been written has one entry. -/
theorem size_setAll {dict : Dict} {known : List Key} (items : List (Key × Ref × Ref))
    (knows : ∀ projection, dict.get? projection ≠ none ↔ projection ∈ known)
    (counted : dict.size = known.dedup.length) :
    (dict.setAll items).size = ((items.map (·.1)).reverse ++ known).dedup.length := by
  induction items generalizing dict known with
  | nil => exact counted
  | cons item items ih =>
    obtain ⟨first, key, value⟩ := item
    have knows' : ∀ projection, (dict.set first key value).get? projection ≠ none ↔
        projection ∈ first :: known := by
      intro projection
      by_cases same : projection = first
      · simp [same]
      · rw [get?_set_other _ _ _ same, knows projection, List.mem_cons]
        exact ⟨.inr, fun among => among.resolve_left same⟩
    have counted' : (dict.set first key value).size = (first :: known).dedup.length := by
      by_cases present : dict.get? first = none
      · have new : first ∉ known := fun member => (knows first).mpr member present
        rw [size_set_of_none present, counted, List.dedup_cons_of_notMem new, List.length_cons]
      · rw [size_set_of_some present, counted, List.dedup_cons_of_mem ((knows first).mp present)]
    rw [setAll_cons, ih knows' counted', List.map_cons, List.reverse_cons, List.append_assoc]
    rfl

/-- A dict that is made from pairs has an entry for each projection. -/
theorem size_setAll_empty (items : List (Key × Ref × Ref)) :
    (empty.setAll items).size = (items.map (·.1)).dedup.length := by
  have knows : ∀ projection, empty.get? projection ≠ none ↔ projection ∈ ([] : List Key) := by simp
  rw [size_setAll items knows rfl, List.append_nil]
  exact ((List.reverse_perm _).dedup).length_eq

end Dict

namespace Op

/-- The dict of pairs whose keys have projections is written pair by pair. -/
theorem dictOf_of_keys {pairs : List (Ref × Ref)} {keys : List Key}
    (hashed : pairs.map (fun pair => heap.key pair.1) = keys.map .ok) :
    dictOf heap pairs = .ok (Dict.empty.setAll (keys.zip pairs)) := by
  rw [dictOf]
  generalize Dict.empty = start
  induction pairs generalizing keys start with
  | nil =>
    rw [List.zip_nil_right]
    rfl
  | cons pair pairs ih =>
    obtain ⟨name, value⟩ := pair
    cases keys with
    | nil => cases hashed
    | cons projection keys =>
      simp only [List.map_cons, List.cons.injEq] at hashed
      rw [List.foldlM_cons]
      simp only [hashed.1]
      exact ih hashed.2 (start.set projection name value)

/-- A new dict goes on being what it was made as when the pairs are let go. -/
theorem runs_placeDict_table (pairs : List (Ref × Ref)) :
    Runs program touch (placeDict pairs) world (pairReferences pairs) (fun dict => {dict})
      fun dict after =>
        ∃ table, dictOf world.heap pairs = .ok table ∧ after.heap.body dict = .dict table := by
  intro frame sound
  have placing : Runs program touch (placeDict pairs) world _ _ _ := runs_placeDict pairs
  have given := placing frame sound
  have framed : world.Sound program (0 + (pairReferences pairs + frame)) := by rwa [zero_add]
  have making : Runs program touch (createDict pairs) world 0 (fun dict => {dict})
      fun dict after =>
        ∃ table, dictOf world.heap pairs = .ok table ∧ after.heap.body dict = .dict table := by
    refine .heap_bind (.ofExcept_bind fun table made => ?_)
    cases result : dictOf world.heap pairs with
    | error exception =>
      rw [result] at made
      cases made
    | ok table' =>
      rw [result] at made
      cases made
      have plain : (Body.dict table).Plain program := trivial
      refine (runs_create_body plain fun inner member => ?_).weaken
        fun _ _ _ body => ⟨table, rfl, body⟩
      have given : inner ∈ pairReferences pairs := mem_references_dictOf result member
      exact sound.used_of_held (by simp [given])
  cases ended : (createDict pairs).run world with
  | mk result middle =>
    rw [placeDict, run_always, ended] at given ⊢
    cases result with
    | error fault => exact given
    | ok dict =>
      refine ⟨given.1, ?_⟩
      obtain ⟨path, table, made, body⟩ := making.ok framed ended
      have held := (path.frame _).sound framed
      rw [add_left_comm] at held
      -- The new dict is held by whoever gets it, so nothing that is let go takes it along.
      have released : Path program Permission.nothing middle (pairReferences pairs)
          (middle.releaseAll (pairReferences pairs)) 0 := path_releaseAll middle _
      have retains := released.retains held fun body touched => touched.elim
      have lasting : (middle.heap.body dict).Lasting := by rw [body]; trivial
      exact ⟨table, made, (retains.same dict (.held (by simp) lasting)).trans body⟩

end Op

end HostBridge
