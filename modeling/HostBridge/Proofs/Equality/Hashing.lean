import HostBridge.Proofs.Equality.Structure

/-!
# Equality and projections

Numbers that are rounded apart, an object that has a projection is equal to those that have the
same projection and to no others.  A list or a dict has none, and neither has a tuple with one in
it; the walk over a tuple is stopped by the first one that it comes to.
-/

namespace HostBridge

/-- What has no projection of its own. -/
def Body.Unkeyed : Body → Prop
  | .list _ => True
  | .dict _ => True
  | _ => False

/-- A number that is rounded. -/
def Body.Inexact : Body → Prop
  | .float _ => True
  | .complex _ _ => True
  | _ => False

namespace Refusal

variable {ι α ε : Type} {f : ι → Except ε α} {items : List ι}

/-- A walk over items ends with what is found at each of them. -/
theorem mapM_eq_ok_iff {values : List α} :
    items.mapM f = .ok values ↔ items.map f = values.map .ok := by
  induction items generalizing values with
  | nil => cases values <;> simp [pure, Except.pure]
  | cons item rest ih =>
    rw [List.mapM_cons]
    constructor
    · intro walked
      obtain ⟨value, here, later⟩ := exists_of_bind_eq_ok walked
      obtain ⟨others, found, last⟩ := exists_of_bind_eq_ok later
      cases last
      rw [List.map_cons, List.map_cons, here, ih.mp found]
    · intro same
      cases values with
      | nil => cases same
      | cons value values =>
        obtain ⟨here, others⟩ := List.cons.inj same
        rw [here]
        show (do return value :: (← rest.mapM f)) = _
        rw [ih.mpr others]
        rfl

/-- A walk over items fails at the first one at which there is nothing. -/
theorem mapM_eq_error_iff {failure : ε} :
    items.mapM f = .error failure ↔ ∃ front item back, items = front ++ item :: back ∧
      (∀ other ∈ front, ∃ value, f other = .ok value) ∧ f item = .error failure := by
  constructor
  · intro failed
    induction items with
    | nil => cases failed
    | cons item rest ih =>
      rw [List.mapM_cons] at failed
      cases here : f item with
      | error failure' =>
        rw [here] at failed
        cases failed
        exact ⟨[], item, rest, rfl, nofun, here⟩
      | ok value =>
        rw [here] at failed
        cases walked : rest.mapM f with
        | error failure' =>
          have same : failure' = failure := by
            rw [walked] at failed
            cases failed
            rfl
          obtain ⟨front, stop, back, rfl, passed, stopped⟩ := ih (same ▸ walked)
          refine ⟨item :: front, stop, back, rfl, ?_, stopped⟩
          exact List.forall_mem_cons.mpr ⟨⟨value, here⟩, passed⟩
        | ok values =>
          rw [walked] at failed
          cases failed
  · rintro ⟨front, item, back, rfl, passed, failed⟩
    induction front with
    | nil =>
      rw [List.nil_append, List.mapM_cons, failed]
      rfl
    | cons other front ih =>
      obtain ⟨⟨value, here⟩, passed⟩ := List.forall_mem_cons.mp passed
      rw [List.cons_append, List.mapM_cons, here]
      show (do return value :: (← (front ++ item :: back).mapM f)) = _
      rw [ih passed]
      rfl

end Refusal

namespace Heap

variable {heap : Heap} {left right ref : Ref}

/-! ## Parts -/

/-- An object is an item of a tuple. -/
def Item (heap : Heap) (outer inner : Ref) : Prop :=
  ∃ items, heap.body outer = .tuple items ∧ inner ∈ items

/-- An object occurs in another one at some depth of tuples. -/
def Part (heap : Heap) : Ref → Ref → Prop := Relation.ReflTransGen heap.Item

/-- The first list or dict in an object that is read from the left. -/
inductive Leftmost (heap : Heap) : Ref → Ref → Prop
  | here {ref : Ref} (unkeyed : (heap.body ref).Unkeyed) : Leftmost heap ref ref
  | item {ref item part : Ref} {front back : List Ref}
    (reading : heap.body ref = .tuple (front ++ item :: back))
    (passed : ∀ other ∈ front, ∀ part, heap.Part other part → ¬(heap.body part).Unkeyed)
    (first : Leftmost heap item part) : Leftmost heap ref part

/-- An object that has a projection. -/
def Hashable (heap : Heap) (ref : Ref) : Prop := ∃ projection, heap.key ref = .ok projection

/-- Two objects that have one projection. -/
def SameKey (heap : Heap) (left right : Ref) : Prop :=
  ∃ projection, heap.key left = .ok projection ∧ heap.key right = .ok projection

theorem Part.of_item {inner part : Ref} (item : heap.Item ref inner)
    (within : heap.Part inner part) :
    heap.Part ref part :=
  .head item within

/-! ## Projections of tuples -/

/-- The walk is not cut off, so a tuple is projected to the projections of its items. -/
theorem key_tuple (layered : heap.Layered) {items : List Ref}
    (reading : heap.body ref = .tuple items) :
    heap.key ref = (do return .tuple (← items.mapM heap.key)) := by
  obtain ⟨cell, there, _⟩ := exists_cell_of_body reading nofun
  have used := place_lt_size there
  rw [key, keyWithin, reading]
  simp only
  congr 1
  refine mapM_congr_items fun item member => ?_
  have older := layered ref items reading item member
  exact keyWithin_of_kindred (fun _ => True) (fun ref _ => .refl _)
    (fun ref items _ reading item member => ⟨layered ref items reading item member, trivial⟩)
    trivial (by omega) (by omega)

theorem key_tuple_eq_ok_iff (layered : heap.Layered) {items : List Ref} {projection : Key}
    (reading : heap.body ref = .tuple items) :
    heap.key ref = .ok projection ↔ ∃ keys, projection = .tuple keys ∧
      items.map heap.key = keys.map .ok := by
  rw [key_tuple layered reading]
  constructor
  · intro hashed
    obtain ⟨keys, walked, last⟩ := Refusal.exists_of_bind_eq_ok hashed
    cases last
    exact ⟨keys, rfl, Refusal.mapM_eq_ok_iff.mp walked⟩
  · rintro ⟨keys, rfl, each⟩
    rw [Refusal.mapM_eq_ok_iff.mpr each]
    rfl

theorem hashable_tuple_iff (layered : heap.Layered) {items : List Ref}
    (reading : heap.body ref = .tuple items) :
    heap.Hashable ref ↔ ∀ item ∈ items, heap.Hashable item := by
  constructor
  · rintro ⟨projection, hashed⟩ item member
    obtain ⟨keys, _, each⟩ := (key_tuple_eq_ok_iff layered reading).mp hashed
    have found : heap.key item ∈ keys.map .ok := each ▸ List.mem_map_of_mem member
    obtain ⟨key, _, same⟩ := List.mem_map.mp found
    exact ⟨key, same.symm⟩
  · intro each
    suffices all : ∃ keys : List Key, items.map heap.key = keys.map .ok by
      obtain ⟨keys, all⟩ := all
      exact ⟨_, (key_tuple_eq_ok_iff layered reading).mpr ⟨keys, rfl, all⟩⟩
    clear reading
    induction items with
    | nil => exact ⟨[], rfl⟩
    | cons item rest ih =>
      obtain ⟨⟨key, here⟩, others⟩ := List.forall_mem_cons.mp each
      obtain ⟨keys, all⟩ := ih others
      exact ⟨key :: keys, by rw [List.map_cons, List.map_cons, here, all]⟩

theorem sameKey_tuple_iff (layered : heap.Layered) {items others : List Ref}
    (reading : heap.body left = .tuple items) (reading' : heap.body right = .tuple others) :
    heap.SameKey left right ↔ List.Forall₂ heap.SameKey items others := by
  constructor
  · rintro ⟨projection, hashed, hashed'⟩
    obtain ⟨keys, rfl, each⟩ := (key_tuple_eq_ok_iff layered reading).mp hashed
    obtain ⟨_, same, each'⟩ := (key_tuple_eq_ok_iff layered reading').mp hashed'
    cases same
    clear reading reading' hashed hashed'
    induction keys generalizing items others with
    | nil =>
      rw [List.map_nil, List.map_eq_nil_iff] at each each'
      rw [each, each']
      exact .nil
    | cons key keys ih =>
      obtain ⟨item, rest, rfl, here, later⟩ := List.map_eq_cons_iff.mp each
      obtain ⟨other, rest', rfl, here', later'⟩ := List.map_eq_cons_iff.mp each'
      exact .cons ⟨key, here, here'⟩ (ih later later')
  · intro each
    suffices all : ∃ keys : List Key, items.map heap.key = keys.map .ok ∧
        others.map heap.key = keys.map .ok by
      obtain ⟨keys, all, all'⟩ := all
      exact ⟨.tuple keys, (key_tuple_eq_ok_iff layered reading).mpr ⟨keys, rfl, all⟩,
        (key_tuple_eq_ok_iff layered reading').mpr ⟨keys, rfl, all'⟩⟩
    clear reading reading'
    induction each with
    | nil => exact ⟨[], rfl, rfl⟩
    | cons same _ ih =>
      obtain ⟨key, here, here'⟩ := same
      obtain ⟨keys, all, all'⟩ := ih
      exact ⟨key :: keys, by rw [List.map_cons, List.map_cons, here, all],
        by rw [List.map_cons, List.map_cons, here', all']⟩

/-! ## Objects without a projection -/

theorem key_of_unkeyed (unkeyed : (heap.body ref).Unkeyed) :
    heap.key ref = .error (.unhashable (heap.typeName ref)) := by
  rw [key, keyWithin]
  cases reading : heap.body ref with
  | list | dict => rfl
  | _ =>
    rw [reading] at unkeyed
    exact unkeyed.elim

theorem not_hashable_of_unkeyed (unkeyed : (heap.body ref).Unkeyed) : ¬heap.Hashable ref := by
  rintro ⟨projection, hashed⟩
  rw [key_of_unkeyed unkeyed] at hashed
  cases hashed

/-- What is neither a list nor a dict nor a tuple has a projection. -/
theorem hashable_of_single (keyed : ¬(heap.body ref).Unkeyed)
    (single : ∀ items, heap.body ref ≠ .tuple items) : heap.Hashable ref := by
  rw [Hashable, key, keyWithin]
  cases reading : heap.body ref with
  | list | dict =>
    rw [reading] at keyed
    exact absurd trivial keyed
  | tuple items => exact absurd reading (single items)
  | _ => exact ⟨_, rfl⟩

/-- An object has a projection exactly if no list and no dict occurs in it. -/
theorem hashable_iff (layered : heap.Layered) (ref : Ref) :
    heap.Hashable ref ↔ ∀ part, heap.Part ref part → ¬(heap.body part).Unkeyed := by
  constructor
  · intro hashable part within
    induction within using Relation.ReflTransGen.head_induction_on with
    | refl => exact fun unkeyed => not_hashable_of_unkeyed unkeyed hashable
    | head item _ ih =>
      obtain ⟨items, reading, member⟩ := item
      exact ih ((hashable_tuple_iff layered reading).mp hashable _ member)
  · intro keyed
    induction place : ref.place using Nat.strongRecOn generalizing ref with
    | ind place below =>
      by_cases tuple : ∃ items, heap.body ref = .tuple items
      · obtain ⟨items, reading⟩ := tuple
        refine (hashable_tuple_iff layered reading).mpr fun item member => ?_
        exact below item.place (place ▸ layered ref items reading item member) item
          (fun part within => keyed part (.of_item ⟨items, reading, member⟩ within)) rfl
      · exact hashable_of_single (keyed ref .refl) (not_exists.mp tuple)

/-- What has no projection is refused for the first list or dict in it. -/
theorem key_eq_error_iff (layered : heap.Layered) {exception : Exception} :
    heap.key ref = .error exception ↔
      ∃ part, heap.Leftmost ref part ∧ exception = .unhashable (heap.typeName part) := by
  constructor
  · intro refused
    induction place : ref.place using Nat.strongRecOn generalizing ref with
    | ind place below =>
      by_cases unkeyed : (heap.body ref).Unkeyed
      · rw [key_of_unkeyed unkeyed] at refused
        cases refused
        exact ⟨ref, .here unkeyed, rfl⟩
      · by_cases tuple : ∃ items, heap.body ref = .tuple items
        · obtain ⟨items, reading⟩ := tuple
          rw [key_tuple layered reading] at refused
          have failed : items.mapM heap.key = .error exception := by
            cases walked : items.mapM heap.key with
            | error exception' =>
              rw [walked] at refused
              cases refused
              rfl
            | ok keys =>
              rw [walked] at refused
              cases refused
          obtain ⟨front, item, back, rfl, passed, stopped⟩ := Refusal.mapM_eq_error_iff.mp failed
          have older := layered ref _ reading item (by simp)
          obtain ⟨part, first, same⟩ := below item.place (place ▸ older) stopped rfl
          exact ⟨part, .item reading (fun other member => (hashable_iff layered other).mp
            (passed other member)) first, same⟩
        · obtain ⟨projection, hashed⟩ := hashable_of_single unkeyed (not_exists.mp tuple)
          rw [hashed] at refused
          cases refused
  · rintro ⟨part, first, rfl⟩
    induction first with
    | here unkeyed => exact key_of_unkeyed unkeyed
    | @item ref item part front back reading passed _ ih =>
      have failed : (front ++ item :: back).mapM heap.key =
          .error (.unhashable (heap.typeName part)) :=
        Refusal.mapM_eq_error_iff.mpr ⟨front, item, back, rfl,
          fun other member => (hashable_iff layered other).mpr (passed other member), ih⟩
      rw [key_tuple layered reading, failed]
      rfl

/-! ## Projections and equality -/

/-- What the projection of an object tells of it, if the object is not rounded. -/
def Tells (heap : Heap) (ref : Ref) : Key → Prop
  | .nothing => heap.body ref = .none
  | .int value => (heap.body ref).quantity? = some (.numeric (.int value))
  | .text value => heap.body ref = .text value
  | .bytes value => heap.body ref = .bytes value
  | .tuple _ => ∃ items, heap.body ref = .tuple items
  | .identity other => other = ref
  | .float _ => False
  | .complex _ _ => False

theorem tells_of_key {projection : Key} (exact : ¬(heap.body ref).Inexact)
    (hashed : heap.key ref = .ok projection) : heap.Tells ref projection := by
  rw [key, keyWithin] at hashed
  cases reading : heap.body ref with
  | float | complex =>
    rw [reading] at exact
    exact absurd trivial exact
  | list | dict =>
    rw [reading] at hashed
    cases hashed
  | tuple items =>
    rw [reading] at hashed
    obtain ⟨keys, _, last⟩ := Refusal.exists_of_bind_eq_ok hashed
    cases last
    exact ⟨items, reading⟩
  | _ =>
    rw [reading] at hashed
    cases hashed
    first | exact reading | (show (heap.body ref).quantity? = _; rw [reading]; rfl) | rfl

theorem exact_number {number : Quantity} (exact : ¬(heap.body ref).Inexact)
    (reading : (heap.body ref).quantity? = some number) :
    ∃ value, number = .numeric (.int value) := by
  cases body : heap.body ref with
  | float | complex =>
    rw [body] at exact
    exact absurd trivial exact
  | bool | int =>
    rw [body] at reading
    exact ⟨_, (Option.some.inj reading).symm⟩
  | _ =>
    rw [body] at reading
    cases reading

/-- There is one object that stands for nothing. -/
theorem Canonical.none_of_body (canonical : heap.Canonical) (there : heap.holds ref = true)
    (nothing : heap.body ref = .none) : ref = .none := by
  obtain ⟨cell, there⟩ := Option.isSome_iff_exists.mp there
  exact canonical.nothing ref cell there ((body_eq there).symm.trans nothing)

/-- Objects that are there and are not rounded, in all their parts. -/
structure Plain (heap : Heap) (ref : Ref) : Prop where
  there : ∀ part, heap.Part ref part → heap.holds part = true
  exact : ∀ part, heap.Part ref part → ¬(heap.body part).Inexact

theorem Plain.of_items (there : heap.holds ref = true) (exact : ¬(heap.body ref).Inexact)
    (items : ∀ item, heap.Item ref item → heap.Plain item) : heap.Plain ref := by
  constructor <;> intro part within <;>
    rcases Relation.ReflTransGen.cases_head within with rfl | ⟨item, inside, rest⟩
  · exact there
  · exact (items item inside).there part rest
  · exact exact
  · exact (items item inside).exact part rest

theorem Plain.item (plain : heap.Plain ref) {items : List Ref}
    (reading : heap.body ref = .tuple items) {item : Ref} (member : item ∈ items) :
    heap.Plain item :=
  ⟨fun part within => plain.there part (.of_item ⟨items, reading, member⟩ within),
    fun part within => plain.exact part (.of_item ⟨items, reading, member⟩ within)⟩

/-- An object that has a projection is equal to those that have the same one. -/
theorem equalWithin_iff_sameKey (canonical : heap.Canonical) (layered : heap.Layered)
    {depth : Nat} (deep : left.place < depth) (plain : heap.Plain left) (plain' : heap.Plain right)
    (hashable : heap.Hashable left ∨ heap.Hashable right) :
    heap.equalWithin depth left right = true ↔ heap.SameKey left right := by
  induction depth generalizing left right with
  | zero => omega
  | succ depth ih =>
    -- Items are older than the tuple that they are in, so the depth is enough for them.
    have each : ∀ {items others : List Ref}, heap.body left = .tuple items →
        heap.body right = .tuple others → ∀ pair ∈ items.zip others,
        (heap.equalWithin depth pair.1 pair.2 = true ↔ heap.SameKey pair.1 pair.2) := by
      intro items others reading reading' pair member
      obtain ⟨here, there⟩ := List.of_mem_zip member
      have older := layered left items reading _ here
      exact ih (by omega) (plain.item reading here) (plain'.item reading' there)
        (hashable.imp (fun hashable => (hashable_tuple_iff layered reading).mp hashable _ here)
          fun hashable => (hashable_tuple_iff layered reading').mp hashable _ there)
    rw [equalWithin_succ]
    constructor
    · intro matching
      cases matching with
      | one =>
        obtain ⟨projection, hashed⟩ := or_self_iff.mp hashable
        exact ⟨projection, hashed, hashed⟩
      | numbers reading reading' equal =>
        obtain ⟨value, rfl⟩ := exact_number (plain.exact left .refl) reading
        obtain ⟨value', rfl⟩ := exact_number (plain'.exact right .refl) reading'
        have same : value = value' := beq_iff_eq.mp equal
        exact ⟨.int value, key_of_quantity reading, same ▸ key_of_quantity reading'⟩
      | text reading reading' =>
        exact ⟨.text _, by rw [key, keyWithin, reading], by rw [key, keyWithin, reading']⟩
      | bytes reading reading' =>
        exact ⟨.bytes _, by rw [key, keyWithin, reading], by rw [key, keyWithin, reading']⟩
      | tuples reading reading' same =>
        refine (sameKey_tuple_iff layered reading reading').mpr ?_
        rw [List.forall₂_iff_zip] at same ⊢
        exact ⟨same.1, fun {item other} member =>
          (each reading reading' (item, other) member).mp (same.2 member)⟩
      | lists reading reading' | dicts reading reading' =>
        rcases hashable with hashable | hashable
        · exact absurd hashable (not_hashable_of_unkeyed (by rw [reading]; trivial))
        · exact absurd hashable (not_hashable_of_unkeyed (by rw [reading']; trivial))
    · rintro ⟨projection, hashed, hashed'⟩
      have told := tells_of_key (plain.exact left .refl) hashed
      have told' := tells_of_key (plain'.exact right .refl) hashed'
      cases projection with
      | nothing =>
        rw [canonical.none_of_body (plain.there left .refl) told,
          canonical.none_of_body (plain'.there right .refl) told']
        exact .one .none
      | int value => exact .numbers told told' (Quantity.equal_self trivial)
      | text value => exact .text told told'
      | bytes value => exact .bytes told told'
      | tuple keys =>
        obtain ⟨items, reading⟩ := told
        obtain ⟨others, reading'⟩ := told'
        refine .tuples reading reading' ?_
        have same := (sameKey_tuple_iff layered reading reading').mp ⟨_, hashed, hashed'⟩
        rw [List.forall₂_iff_zip] at same ⊢
        exact ⟨same.1, fun {item other} member =>
          (each reading reading' (item, other) member).mpr (same.2 member)⟩
      | identity other =>
        obtain rfl : other = left := told
        obtain rfl : other = right := told'
        exact .one other
      | float | complex => exact told.elim

end Heap

end HostBridge
