import HostBridge.Proofs.Dict.Literal
import HostBridge.Proofs.Equality.Hashing

/-!
# Equality is lawful

Equality of objects without cycles is reflexive and symmetric, and where nothing is rounded it is
transitive.  A dict is walked on one side only, and its keys are looked up on the other.  As many
keys that are all found there are all of the keys that are there, so nothing depends on the side.
-/

namespace HostBridge

/-! ## Dicts -/

namespace Dict

variable {heap : Heap} {table other : Dict}

/-- A dict has a key with a projection. -/
def Has (heap : Heap) (table : Dict) (projection : Key) : Prop :=
  ∃ entry ∈ table.entries, heap.key entry.key = .ok projection

/-- Two dicts have the same projections, and the same values under them. -/
structure Agrees (heap : Heap) (same : Ref → Ref → Prop) (table other : Dict) : Prop where
  keys : ∀ projection, table.Has heap projection ↔ other.Has heap projection
  values : ∀ entry ∈ table.entries, ∀ counterpart ∈ other.entries,
    heap.key entry.key = heap.key counterpart.key → same entry.value counterpart.value

namespace Exact

theorem hashable_of_mem (exact : table.Exact heap) {entry : DictEntry}
    (member : entry ∈ table.entries) : ∃ projection, heap.key entry.key = .ok projection := by
  obtain ⟨position, there⟩ := List.mem_iff_getElem?.mp member
  exact exact.hashable there

/-- What is found under a projection is the value of an entry with it. -/
theorem get?_eq_some_iff (exact : table.Exact heap) {projection : Key} {value : Ref} :
    table.get? projection = some value ↔
      ∃ entry ∈ table.entries, heap.key entry.key = .ok projection ∧ entry.value = value := by
  constructor
  · intro found
    rw [Dict.get?, lookup?_eq] at found
    obtain ⟨entry, found, same⟩ := Option.map_eq_some_iff.mp found
    obtain ⟨position, reading, there⟩ := Option.bind_eq_some_iff.mp found
    obtain ⟨entry', there', hashed⟩ := (exact projection position).mp reading
    rw [there, Option.some.injEq] at there'
    exact ⟨entry, List.mem_of_getElem? there, there' ▸ hashed, same⟩
  · rintro ⟨entry, member, hashed, rfl⟩
    exact exact.get?_of_mem member hashed

theorem has_iff (exact : table.Exact heap) {projection : Key} :
    table.Has heap projection ↔ ∃ value, table.get? projection = some value := by
  constructor
  · rintro ⟨entry, member, hashed⟩
    exact ⟨entry.value, exact.get?_of_mem member hashed⟩
  · rintro ⟨value, found⟩
    obtain ⟨entry, member, hashed, _⟩ := exact.get?_eq_some_iff.mp found
    exact ⟨entry, member, hashed⟩

/-- The projections of the keys of a dict, all of them different. -/
theorem nodup (exact : table.Exact heap) :
    (table.entries.map fun entry => heap.key entry.key).Nodup :=
  List.pairwise_map.mpr exact.distinct

theorem ok_mem_iff {projection : Key} :
    .ok projection ∈ table.entries.map (fun entry => heap.key entry.key) ↔
      table.Has heap projection :=
  List.mem_map

/-- As many keys as there are on the other side, each of which is found there, are all of them. -/
theorem agrees_iff (exact : table.Exact heap) (exact' : other.Exact heap)
    {same : Ref → Ref → Prop} :
    (table.size = other.size ∧ ∀ entry ∈ table.entries, ∃ projection value,
        heap.key entry.key = .ok projection ∧ other.get? projection = some value ∧
          same entry.value value) ↔
      table.Agrees heap same other := by
  constructor
  · rintro ⟨sizes, each⟩
    have inside : (table.entries.map fun entry => heap.key entry.key) ⊆
        other.entries.map fun entry => heap.key entry.key := by
      intro result among
      obtain ⟨entry, member, rfl⟩ := List.mem_map.mp among
      obtain ⟨projection, value, hashed, found, _⟩ := each entry member
      rw [hashed, ok_mem_iff]
      exact exact'.has_iff.mpr ⟨value, found⟩
    have all := (exact.nodup.subperm inside).perm_of_length_le
      (by rw [List.length_map, List.length_map]; exact sizes.ge)
    refine ⟨fun projection => ?_, fun entry member counterpart member' keys => ?_⟩
    · rw [← ok_mem_iff, ← ok_mem_iff, all.mem_iff]
    · obtain ⟨projection, value, hashed, found, equal⟩ := each entry member
      rw [exact'.get?_of_mem member' (keys.symm.trans hashed), Option.some.injEq] at found
      exact found ▸ equal
  · intro agrees
    have all : (table.entries.map fun entry => heap.key entry.key).Perm
        (other.entries.map fun entry => heap.key entry.key) := by
      refine (List.perm_ext_iff_of_nodup exact.nodup exact'.nodup).mpr fun result => ?_
      cases result with
      | ok projection => rw [ok_mem_iff, ok_mem_iff, agrees.keys]
      | error exception =>
        constructor <;> intro member <;> obtain ⟨entry, member, failed⟩ := List.mem_map.mp member
        · obtain ⟨projection, hashed⟩ := exact.hashable_of_mem member
          rw [hashed] at failed
          cases failed
        · obtain ⟨projection, hashed⟩ := exact'.hashable_of_mem member
          rw [hashed] at failed
          cases failed
    refine ⟨by simpa [Dict.size] using all.length_eq, fun entry member => ?_⟩
    obtain ⟨projection, hashed⟩ := exact.hashable_of_mem member
    obtain ⟨counterpart, member', hashed'⟩ := (agrees.keys projection).mp ⟨entry, member, hashed⟩
    exact ⟨projection, counterpart.value, hashed, exact'.get?_of_mem member' hashed',
      agrees.values entry member counterpart member' (hashed.trans hashed'.symm)⟩

/-- Which projections a dict has and which values is what is found in it. -/
theorem agrees_iff_get? (exact : table.Exact heap) (exact' : other.Exact heap)
    {same : Ref → Ref → Prop} :
    table.Agrees heap same other ↔
      (∀ projection, (table.get? projection).isSome = (other.get? projection).isSome) ∧
      ∀ projection value counterpart, table.get? projection = some value →
        other.get? projection = some counterpart → same value counterpart := by
  have keys : (∀ projection, table.Has heap projection ↔ other.Has heap projection) ↔
      ∀ projection, (table.get? projection).isSome = (other.get? projection).isSome := by
    refine forall_congr' fun projection => ?_
    rw [exact.has_iff, exact'.has_iff, ← Option.isSome_iff_exists, ← Option.isSome_iff_exists]
    exact Bool.eq_iff_iff.symm
  constructor
  · intro agrees
    refine ⟨keys.mp agrees.keys, fun projection value counterpart found found' => ?_⟩
    obtain ⟨entry, member, hashed, rfl⟩ := exact.get?_eq_some_iff.mp found
    obtain ⟨entry', member', hashed', rfl⟩ := exact'.get?_eq_some_iff.mp found'
    exact agrees.values entry member entry' member' (hashed.trans hashed'.symm)
  · rintro ⟨present, values⟩
    refine ⟨keys.mpr present, fun entry member counterpart member' same => ?_⟩
    obtain ⟨projection, hashed⟩ := exact.hashable_of_mem member
    exact values projection _ _ (exact.get?_of_mem member hashed)
      (exact'.get?_of_mem member' (same.symm.trans hashed))

/-- A dict in which the same is found has the same projections and values. -/
theorem agrees_of_get? (exact : table.Exact heap) (exact' : other.Exact heap)
    (found : ∀ projection, table.get? projection = other.get? projection) :
    table.Agrees heap Eq other := by
  refine ⟨fun projection => ?_, fun entry member counterpart member' keys => ?_⟩
  · rw [exact.has_iff, exact'.has_iff, found]
  · obtain ⟨projection, hashed⟩ := exact.hashable_of_mem member
    have reading := found projection
    rw [exact.get?_of_mem member hashed, exact'.get?_of_mem member' (keys.symm.trans hashed)]
      at reading
    exact Option.some.inj reading

end Exact

namespace Agrees

variable {same : Ref → Ref → Prop} {last : Dict}

theorem symm (agrees : table.Agrees heap same other)
    (values : ∀ entry ∈ table.entries, ∀ counterpart ∈ other.entries,
      same entry.value counterpart.value → same counterpart.value entry.value) :
    other.Agrees heap same table :=
  ⟨fun projection => (agrees.keys projection).symm, fun entry member counterpart member' keys =>
    values counterpart member' entry member (agrees.values counterpart member' entry member keys.symm)⟩

theorem trans {same' same'' : Ref → Ref → Prop} (exact : table.Exact heap)
    (agrees : table.Agrees heap same other) (agrees' : other.Agrees heap same' last)
    (values : ∀ entry ∈ table.entries, ∀ middle ∈ other.entries, ∀ counterpart ∈ last.entries,
      same entry.value middle.value → same' middle.value counterpart.value →
        same'' entry.value counterpart.value) :
    table.Agrees heap same'' last := by
  refine ⟨fun projection => (agrees.keys projection).trans (agrees'.keys projection),
    fun entry member counterpart member' keys => ?_⟩
  obtain ⟨projection, hashed⟩ := exact.hashable_of_mem member
  obtain ⟨middle, between, hashed'⟩ := (agrees.keys projection).mp ⟨entry, member, hashed⟩
  exact values entry member middle between counterpart member'
    (agrees.values entry member middle between (hashed.trans hashed'.symm))
    (agrees'.values middle between counterpart member' (hashed'.trans (hashed.symm.trans keys)))

end Agrees

end Dict

/-! ## One level -/

namespace Heap

variable {heap : Heap} {same : Ref → Ref → Prop} {left middle right : Ref}

/-- The dicts of a heap have the projections of their keys. -/
def Keyed (heap : Heap) (ref : Ref) : Prop :=
  ∀ table, heap.body ref = .dict table → table.Exact heap

namespace Matches

theorem symm (matching : heap.Matches same left right) (keyed : heap.Keyed left)
    (keyed' : heap.Keyed right)
    (parts : ∀ part other, heap.Contains left part → heap.Contains right other →
      same part other → same other part) : heap.Matches same right left := by
  have flip : ∀ {items others : List Ref}, (∀ part ∈ items, heap.Contains left part) →
      (∀ part ∈ others, heap.Contains right part) → List.Forall₂ same items others →
      List.Forall₂ same others items := by
    intro items others inside inside' each
    have within := (List.forall₂_and_left _ _).mpr
      ⟨inside', ((List.forall₂_and_left _ _).mpr ⟨inside, each⟩).flip⟩
    exact within.imp fun _ _ ⟨second, first, here⟩ => parts _ _ first second here
  cases matching with
  | one => exact .one left
  | numbers reading reading' equal =>
    exact .numbers reading' reading ((Quantity.equal_comm _ _).trans equal)
  | text reading reading' => exact .text reading' reading
  | bytes reading reading' => exact .bytes reading' reading
  | lists reading reading' each =>
    exact .lists reading' reading (flip (contains_of_list reading)
      (contains_of_list reading') each)
  | tuples reading reading' each =>
    exact .tuples reading' reading (flip (contains_of_tuple reading)
      (contains_of_tuple reading') each)
  | dicts reading reading' sizes each =>
    have agrees := ((keyed _ reading).agrees_iff (keyed' _ reading')).mp ⟨sizes, each⟩
    obtain ⟨sizes, each⟩ := ((keyed' _ reading').agrees_iff (keyed _ reading)).mpr
      (agrees.symm fun entry member counterpart member' => parts _ _
        (contains_of_dict reading entry member).2 (contains_of_dict reading' counterpart member').2)
    exact .dicts reading' reading sizes each

/-- Two levels that are next to each other, where nothing is rounded. -/
theorem trans (front : heap.Matches same left middle) (back : heap.Matches same middle right)
    (keyed : heap.Keyed left) (keyed' : heap.Keyed middle) (keyed'' : heap.Keyed right)
    (exact : ¬(heap.body left).Inexact) (exact' : ¬(heap.body middle).Inexact)
    (parts : ∀ part between other, heap.Contains left part → heap.Contains middle between →
      heap.Contains right other → same part between → same between other → same part other) :
    heap.Matches same left right := by
  -- the parts of the two levels are next to each other as well, one by one
  have chain : ∀ {items between others : List Ref}, (∀ part ∈ items, heap.Contains left part) →
      (∀ part ∈ between, heap.Contains middle part) → (∀ part ∈ others, heap.Contains right part) →
      List.Forall₂ same items between → List.Forall₂ same between others →
      List.Forall₂ same items others := by
    intro items between others inside inside' inside'' each each'
    induction each generalizing others with
    | nil =>
      cases each'
      exact .nil
    | cons here _ ih =>
      cases each' with
      | cons here' later =>
        obtain ⟨first, rest⟩ := List.forall_mem_cons.mp inside
        obtain ⟨first', rest'⟩ := List.forall_mem_cons.mp inside'
        obtain ⟨first'', rest''⟩ := List.forall_mem_cons.mp inside''
        exact .cons (parts _ _ _ first first' first'' here here') (ih rest rest' rest'' later)
  cases front with
  | one => exact back
  | numbers reading reading' equal =>
    cases back with
    | one => exact .numbers reading reading' equal
    | numbers between reading'' equal' =>
      obtain ⟨first, rfl⟩ := exact_number exact reading
      obtain ⟨second, rfl⟩ := exact_number exact' reading'
      cases reading'.symm.trans between
      -- integers both, as nothing is rounded, so the two that are equal are one
      obtain rfl : first = second := beq_iff_eq.mp equal
      exact .numbers reading reading'' equal'
    | text between | bytes between | lists between | tuples between | dicts between =>
      rw [between] at reading'
      cases reading'
  | text reading reading' =>
    cases back with
    | one => exact .text reading reading'
    | text between reading'' =>
      rw [reading'] at between
      cases between
      exact .text reading reading''
    | numbers between | bytes between | lists between | tuples between | dicts between =>
      rw [reading'] at between
      cases between
  | bytes reading reading' =>
    cases back with
    | one => exact .bytes reading reading'
    | bytes between reading'' =>
      rw [reading'] at between
      cases between
      exact .bytes reading reading''
    | numbers between | text between | lists between | tuples between | dicts between =>
      rw [reading'] at between
      cases between
  | lists reading reading' each =>
    cases back with
    | one => exact .lists reading reading' each
    | lists between reading'' each' =>
      rw [reading'] at between
      cases between
      exact .lists reading reading'' (chain (contains_of_list reading)
        (contains_of_list reading') (contains_of_list reading'') each each')
    | numbers between | text between | bytes between | tuples between | dicts between =>
      rw [reading'] at between
      cases between
  | tuples reading reading' each =>
    cases back with
    | one => exact .tuples reading reading' each
    | tuples between reading'' each' =>
      rw [reading'] at between
      cases between
      exact .tuples reading reading'' (chain (contains_of_tuple reading)
        (contains_of_tuple reading') (contains_of_tuple reading'') each each')
    | numbers between | text between | bytes between | lists between | dicts between =>
      rw [reading'] at between
      cases between
  | dicts reading reading' sizes each =>
    cases back with
    | one => exact .dicts reading reading' sizes each
    | dicts between reading'' sizes' each' =>
      rw [reading'] at between
      cases between
      have agrees := ((keyed _ reading).agrees_iff (keyed' _ reading')).mp ⟨sizes, each⟩
      have agrees' := ((keyed' _ reading').agrees_iff (keyed'' _ reading'')).mp ⟨sizes', each'⟩
      obtain ⟨sizes, each⟩ := ((keyed _ reading).agrees_iff (keyed'' _ reading'')).mpr
        (agrees.trans (keyed _ reading) agrees'
        fun entry member middle member' counterpart member'' => parts _ _ _
          (contains_of_dict reading entry member).2 (contains_of_dict reading' middle member').2
          (contains_of_dict reading'' counterpart member'').2)
      exact .dicts reading reading'' sizes each
    | numbers between | text between | bytes between | lists between | tuples between =>
      rw [reading'] at between
      cases between

end Matches

/-! ## All levels -/

theorem Acyclic.contains {part : Ref} (acyclic : heap.Acyclic left)
    (inside : heap.Contains left part) : heap.Acyclic part :=
  acyclic.of_reaches (.single inside)

/-- The items of tuples are older, so what has no cycle is whole. -/
theorem Acyclic.whole (layered : heap.Layered) {ref : Ref} (acyclic : heap.Acyclic ref) :
    heap.Whole ref := by
  induction place : ref.place using Nat.strongRecOn generalizing ref with
  | ind place below =>
    obtain ⟨cell, there⟩ := Option.isSome_iff_exists.mp (acyclic.there ref .refl)
    refine .intro there (fun items body => ?_) fun items body item member => ?_
    · exact layered ref items ((body_eq there).trans body)
    · have reading := (body_eq there).trans body
      exact below item.place (place ▸ layered ref items reading item member)
        (acyclic.contains (contains_of_tuple reading item member)) rfl

theorem Acyclic.keyed (canonical : heap.Canonical) (layered : heap.Layered) {ref : Ref}
    (acyclic : heap.Acyclic ref) : heap.Keyed ref := by
  intro table reading
  obtain ⟨cell, there, body⟩ := exists_cell_of_body reading nofun
  refine (canonical.indexes ref cell table there body).exact fun key member => ?_
  obtain ⟨entry, among, rfl⟩ := List.mem_map.mp member
  exact (acyclic.contains (contains_of_dict reading entry among).1).whole layered

/-- No number that can be found in an object is rounded. -/
def Precise (heap : Heap) (ref : Ref) : Prop :=
  ∀ part, heap.Reaches ref part → ¬(heap.body part).Inexact

theorem Precise.contains {part : Ref} (precise : heap.Precise left)
    (inside : heap.Contains left part) : heap.Precise part :=
  fun inner reaches => precise inner (.head inside reaches)

theorem equal_self (heap : Heap) (ref : Ref) : heap.equal ref ref = true := by
  rw [equal, equalWithin, beq_self_eq_true, Bool.true_or]

section

variable (canonical : heap.Canonical) (layered : heap.Layered)

include canonical layered

theorem equal_symm (acyclic : heap.Acyclic left) (acyclic' : heap.Acyclic right)
    (equal : heap.equal left right = true) : heap.equal right left = true := by
  have built := acyclic.built
  generalize heap.size = depth at built
  induction built generalizing right with
  | intro _ _ ih =>
    rw [acyclic.equal_iff] at equal
    rw [acyclic'.equal_iff]
    exact equal.symm (acyclic.keyed canonical layered) (acyclic'.keyed canonical layered)
      fun part other inside inside' same =>
        ih part inside (acyclic.contains inside) (acyclic'.contains inside') same

theorem equal_trans (acyclic : heap.Acyclic left) (acyclic' : heap.Acyclic middle)
    (acyclic'' : heap.Acyclic right) (precise : heap.Precise left) (precise' : heap.Precise middle)
    (front : heap.equal left middle = true) (back : heap.equal middle right = true) :
    heap.equal left right = true := by
  have built := acyclic.built
  generalize heap.size = depth at built
  induction built generalizing middle right with
  | intro _ _ ih =>
    rw [acyclic.equal_iff] at front ⊢
    rw [acyclic'.equal_iff] at back
    refine front.trans back (acyclic.keyed canonical layered) (acyclic'.keyed canonical layered)
      (acyclic''.keyed canonical layered) (precise _ .refl) (precise' _ .refl) ?_
    intro part between other inside inside' inside'' same same'
    exact ih part inside (acyclic.contains inside) (acyclic'.contains inside')
      (acyclic''.contains inside'') (precise.contains inside) (precise'.contains inside') same same'

/-- Two dicts are equal exactly if they have the same projections and equal values under them. -/
theorem equal_dict_iff {table other : Dict} (acyclic : heap.Acyclic left)
    (acyclic' : heap.Acyclic right) (reading : heap.body left = .dict table)
    (reading' : heap.body right = .dict other) :
    heap.equal left right = true ↔ table.Agrees heap (heap.equal · · = true) other := by
  have exact := acyclic.keyed canonical layered table reading
  have exact' := acyclic'.keyed canonical layered other reading'
  rw [← exact.agrees_iff exact', acyclic.equal_iff]
  constructor
  · intro matching
    cases matching with
    | one =>
      obtain rfl := Body.dict.inj (reading.symm.trans reading')
      refine ⟨rfl, fun entry member => ?_⟩
      obtain ⟨projection, hashed⟩ := exact.hashable_of_mem member
      exact ⟨projection, entry.value, hashed, exact.get?_of_mem member hashed, equal_self heap _⟩
    | dicts here there sizes each =>
      rw [reading] at here
      rw [reading'] at there
      cases here
      cases there
      exact ⟨sizes, each⟩
    | numbers here | text here | bytes here | lists here | tuples here =>
      rw [reading] at here
      cases here
  · rintro ⟨sizes, each⟩
    exact .dicts reading reading' sizes each

/-- What else is known of a dict, such as the order in which its keys came, does not matter. -/
theorem equal_dict_congr {left' : Ref} {table table' other : Dict} (acyclic : heap.Acyclic left)
    (acyclic' : heap.Acyclic left') (acyclic'' : heap.Acyclic right)
    (reading : heap.body left = .dict table) (reading' : heap.body left' = .dict table')
    (reading'' : heap.body right = .dict other)
    (found : ∀ projection, table.get? projection = table'.get? projection) :
    heap.equal left right = heap.equal left' right := by
  have exact := acyclic.keyed canonical layered table reading
  have exact' := acyclic'.keyed canonical layered table' reading'
  rw [Bool.eq_iff_iff, equal_dict_iff canonical layered acyclic acyclic'' reading reading'',
    equal_dict_iff canonical layered acyclic' acyclic'' reading' reading'']
  constructor
  · intro agrees
    refine (exact'.agrees_of_get? exact fun projection => (found projection).symm).trans exact'
      agrees ?_
    rintro entry _ between _ counterpart _ one same
    exact one ▸ same
  · intro agrees
    refine (exact.agrees_of_get? exact' found).trans exact agrees ?_
    rintro entry _ between _ counterpart _ one same
    exact one ▸ same

end

end Heap

end HostBridge
